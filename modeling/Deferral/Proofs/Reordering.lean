import Deferral.Proofs.RegistryContents

/-! Runs over a table whose entries have no order of their own. Between two steps the entries may change
places, so whatever goes through the table meets them in any order; what holds of the registry and of the
listeners of each response holds of these runs too. -/

namespace Deferral.Simulation

/-- A resolved response takes no more than a number for each further listener. -/
theorem Grants.frozen_but_numbers {r : Nat} {x : Response String Listener} {asked : Request} {g : Grant}
    (grants : Grants r x asked g) (sound : Sound x) (terminal : x.state.isTerminal = true) :
    g.response = { x with nextListener := g.response.nextListener } := by
  cases grants with
  | declare pending | suspend pending => simp [pending] at terminal
  | start _ unresolved | finish _ _ unresolved | store unresolved =>
    rw [terminal] at unresolved
    cases unresolved
  | subscribe =>
    have agrees := sound.agrees
    rw [if_pos terminal] at agrees
    obtain ⟨outcome, published, -⟩ := Option.map_eq_some_iff.mp agrees
    rw [Response.subscribe_resolved published]
  | stale => rfl

namespace Pool

/-- Runs in which the entries of the table may change places between any two steps. -/
inductive Reordered (rule : World → Thread → Prop) (p : Pool) : List Moment → Pool → Prop where
  | refl : Reordered rule p [] p
  | move {m q moments last} (past : Reordered rule p m q) (next : Move rule q moments last) :
      Reordered rule p (m ++ moments) last
  | reorder {m w threads ids} (past : Reordered rule p m ⟨w, threads⟩) (places : ids.Perm w.registry.ids) :
      Reordered rule p m ⟨{ w with registry := ⟨ids⟩ }, threads⟩

/-- Runs of one thread while no other goes on. Meanwhile time may pass, tasks may wake and the entries of
the table may change places. -/
inductive Solo (rule : World → Thread → Prop) (place : Nat) (w : World) (t : Thread) :
    List Moment → World → Thread → Prop where
  | refl : Solo rule place w t [] w t
  | run {n v u work rest} (past : Solo rule place w t n v u) (stack : u.stack = work :: rest) (allowed : rule v u) :
      Solo rule place w t (n ++ [⟨place, v, u⟩]) (step v u).1 (step v u).2
  | pause {n v u ids} (past : Solo rule place w t n v u) (now : Nat) (sleeping : List (Nat × Task)) (ready : List Task)
      (places : ids.Perm v.registry.ids) : Solo rule place w t n { v with now, sleeping, ready, registry := ⟨ids⟩ } u

variable {rule : World → Thread → Prop} {drive : Drive} {m n moments : List Moment} {p q : Pool} {w v : World} {t u : Thread}

theorem Reordered.trans {last : Pool} (first : Reordered rule p m q) (second : Reordered rule q n last) :
    Reordered rule p (m ++ n) last := by
  induction second with
  | refl => rw [List.append_nil]; exact first
  | move past next ih => rw [← List.append_assoc]; exact ih.move next
  | reorder past places ih => exact ih.reorder places

theorem Chronicle.reordered (chronicle : Chronicle rule p m q) : Reordered rule p m q := by
  induction chronicle with
  | refl => exact .refl
  | move past next ih => exact ih.move next

theorem Solo.reordered {before after : List Thread} (solo : Solo rule before.length w t n v u) :
    Reordered rule ⟨w, before ++ t :: after⟩ n ⟨v, before ++ u :: after⟩ := by
  induction solo with
  | refl => exact .refl
  | run past stack allowed ih => exact ih.move (.run stack allowed)
  | pause past now sleeping ready places ih =>
    have waited := ih.move (.wait now sleeping ready)
    rw [List.append_nil] at waited
    exact waited.reorder places

theorem Solo.thread {place : Nat} {fuel : Nat} (solo : Solo rule place w t n v u) (obeys : Obeys rule fuel v u) :
    ∃ n, Solo rule place w t n (runThread fuel v u).1 (runThread fuel v u).2 := by
  induction fuel generalizing v u n with
  | zero => exact ⟨n, solo⟩
  | succ fuel ih =>
    unfold runThread
    split
    · exact ⟨n, solo⟩
    next busy =>
      rcases obeys with idle | ⟨allowed, obeys⟩
      · exact absurd idle busy
      · cases stack : u.stack with
        | nil => simp [stack] at busy
        | cons work rest => exact ih (solo.run stack allowed) obeys

theorem Reordered.call {idles : List Thread} (past : Reordered rule p m ⟨w, idles⟩) (action : Action) {ids : List Nat}
    (places : ids.Perm w.registry.ids) (fuel : Nat)
    (obeys : Obeys rule fuel { w with registry := ⟨ids⟩ } { stack := [.call action] }) :
    ∃ n, Solo rule idles.length w { stack := [.call action] } n
        (runThread fuel { w with registry := ⟨ids⟩ } { stack := [.call action] }).1
        (runThread fuel { w with registry := ⟨ids⟩ } { stack := [.call action] }).2 ∧
      Reordered rule p (m ++ n) ⟨(runThread fuel { w with registry := ⟨ids⟩ } { stack := [.call action] }).1,
        idles ++ [(runThread fuel { w with registry := ⟨ids⟩ } { stack := [.call action] }).2]⟩ := by
  obtain ⟨n, solo⟩ := Solo.thread (.pause .refl w.now w.sleeping w.ready places) obeys
  have begun := past.move (.spawn (t := { stack := [.call action] }) (.inl ⟨action, rfl⟩))
  rw [List.append_nil] at begun
  exact ⟨n, solo, begun.trans solo.reordered⟩

/-- What holds at the end of a run whatever places the entries of the table take. -/
structure Upheld (m : List Moment) (p : Pool) : Prop where
  valid : ∃ h, Valid h p
  attended : ∀ r, Attended m p r
  tracked : ∀ r, Tracked m p r

namespace Upheld

theorem initial (drive : Drive) : Upheld [] (start drive) :=
  ⟨⟨[], .initial drive⟩, .initial drive, .initial drive⟩

theorem sound (upheld : Upheld m p) (r : Nat) : Sound (p.world.response r) := by
  obtain ⟨h, valid⟩ := upheld.valid
  exact valid.sound r

theorem outcome_iff (upheld : Upheld m p) (r : Nat) :
    (p.world.response r).outcome.isSome = true ↔ (p.world.response r).state.isTerminal = true := by
  obtain ⟨h, valid⟩ := upheld.valid
  exact (valid.outcome_iff r).1

theorem state_of_outcome (upheld : Upheld m p) {r : Nat} {outcome : Outcome String}
    (published : (p.world.response r).outcome = some outcome) : (p.world.response r).state = outcome.state := by
  obtain ⟨h, valid⟩ := upheld.valid
  exact ((valid.outcome_iff r).2 outcome published).symm

theorem aside {threads : List Thread} {ids : List Nat} (upheld : Upheld m ⟨w, threads⟩) (now : Nat)
    (sleeping : List (Nat × Task)) (ready : List Task) (places : ids.Perm w.registry.ids) :
    Upheld m ⟨{ w with now, sleeping, ready, registry := ⟨ids⟩ }, threads⟩ := by
  obtain ⟨⟨h, valid⟩, attended, tracked⟩ := upheld
  refine ⟨⟨h, ?_⟩, fun r => ?_, fun r => ?_⟩
  · obtain ⟨sound, ended, numbered, current, scheduled, attempts, stores, returns⟩ := valid
    exact ⟨sound, ended, numbered, current, scheduled, attempts, stores, returns⟩
  · obtain ⟨numbered, accounted, kept, released, published, guarded, faithful, told⟩ := attended r
    exact ⟨numbered, accounted, kept, released, published, guarded, faithful, told⟩
  · obtain ⟨distinct, inserted, present, watched, ended, made⟩ := tracked r
    refine ⟨places.nodup_iff.mpr distinct, fun member => inserted (places.mem_iff.mp member),
      fun tracks none => places.mem_iff.mpr (present tracks none), fun member => ?_, ended, made⟩
    cases watched (places.mem_iff.mp member) with
    | kept index listener => exact .kept index listener
    | subscribing pending => exact .subscribing pending
    | listening index outcome pending => exact .listening index outcome pending
    | untracking pending => exact .untracking pending

theorem move (upheld : Upheld m p) (next : Move Tracking p moments q) : Upheld (m ++ moments) q := by
  have ⟨⟨h, valid⟩, attended, tracked⟩ := upheld
  obtain ⟨notes, step⟩ := next.step
  have frozen (r : Nat) (resolved : (p.world.response r).outcome.isSome = true) :
      (q.world.response r).outcome = (p.world.response r).outcome :=
    valid.outcome_frozen step resolved
  cases next with
  | run stack allowed =>
    exact ⟨⟨_, valid.step_preserves step⟩, fun r => (attended r).run stack allowed.1 valid.sound (frozen r),
      fun r => (tracked r).run (attended r) stack allowed valid.sound (frozen r)⟩
  | spawn fresh =>
    rw [List.append_nil]
    exact ⟨⟨_, valid.step_preserves step⟩, fun r => (attended r).spawn fresh, fun r => (tracked r).spawn fresh⟩
  | wait now sleeping ready =>
    rw [List.append_nil]
    exact upheld.aside now sleeping ready (.refl _)

theorem reordered (upheld : Upheld m p) (run : Reordered Tracking p n q) : Upheld (m ++ n) q := by
  induction run with
  | refl =>
    rw [List.append_nil]
    exact upheld
  | move past next ih =>
    rw [← List.append_assoc]
    exact ih.move next
  | @reorder _ w _ _ past places ih => exact ih.aside w.now w.sleeping w.ready places

theorem of_reordered (run : Reordered Tracking (start drive) m p) : Upheld m p := (initial drive).reordered run

/-- A response in the table has the listener that takes it out, unless that listener is about to join or
to run. -/
theorem untracker (upheld : Upheld m p) (quiet : ∀ f ∈ p.works, f.attends = false) {r : Nat}
    (member : r ∈ p.world.registry.ids) : ∃ index, (index, .untrack) ∈ (p.world.response r).listeners := by
  have absurd {f : Work} (pending : f ∈ p.works) (attends : f.attends = true) : False := by
    rw [quiet f pending] at attends
    cases attends
  cases (upheld.tracked r).watched member with
  | kept index listener => exact ⟨index, listener⟩
  | subscribing pending | listening _ _ pending | untracking pending => exact (absurd pending rfl).elim

theorem unresolved_of_tracked (upheld : Upheld m p) (quiet : ∀ f ∈ p.works, f.attends = false) {r : Nat}
    (member : r ∈ p.world.registry.ids) :
    (p.world.response r).state.isTerminal = false ∧ ∃ x, p.world.responses[r]? = some x := by
  obtain ⟨index, listener⟩ := upheld.untracker quiet member
  constructor
  · refine Bool.eq_false_iff.mpr fun terminal => ?_
    rw [(upheld.attended r).released ((upheld.outcome_iff r).mpr terminal)] at listener
    cases listener
  · cases found : p.world.responses[r]? with
    | some x => exact ⟨x, rfl⟩
    | none => simp [World.response, found] at listener

theorem frozen_step (upheld : Upheld m p) (next : Move rule p moments q) {r : Nat}
    (terminal : (p.world.response r).state.isTerminal = true) :
    q.world.response r = { p.world.response r with nextListener := (q.world.response r).nextListener } := by
  obtain ⟨h, valid⟩ := upheld.valid
  obtain ⟨notes, step⟩ := next.step
  have sound := valid.sound r
  cases step.touches r with
  | @granted asked x grant asks found granted after =>
    have before := World.response_found found
    rw [before] at terminal sound ⊢
    rw [World.response_found after]
    exact (valid.grants found granted).frozen_but_numbers sound terminal
  | kept same stays =>
    cases found : p.world.responses[r]? with
    | some x => rw [World.response_found found, World.response_found (stays x found)]
    | none => simp [World.response, found] at terminal

theorem frozen (upheld : Upheld m p) (run : Reordered Tracking p n q) {r : Nat}
    (terminal : (p.world.response r).state.isTerminal = true) :
    q.world.response r = { p.world.response r with nextListener := (q.world.response r).nextListener } := by
  induction run with
  | refl => rfl
  | move past next ih =>
    have still := (upheld.reordered past).frozen_step next (r := r) (by rw [ih]; exact terminal)
    rw [ih] at still
    exact still
  | reorder past places ih => exact ih

end Upheld

theorem Reordered.mem_table (run : Reordered rule p n q) {r : Nat} (member : r ∈ q.world.registry.ids) :
    r ∈ p.world.registry.ids ∨ ∃ moment ∈ n, moment.tracks r := by
  induction run with
  | refl => exact .inl member
  | reorder past places ih => exact ih (places.mem_iff.mp member)
  | @move early middle moments last past next ih =>
    have older (here : r ∈ middle.world.registry.ids) :
        r ∈ p.world.registry.ids ∨ ∃ moment ∈ early ++ moments, moment.tracks r := by
      rcases ih here with there | ⟨moment, among, tracks⟩
      · exact .inl there
      · exact .inr ⟨moment, List.mem_append_left _ among, tracks⟩
    cases next with
    | spawn | wait => exact older member
    | run stack allowed =>
      rw [(step_delivery stack).registry, Work.mem_tabled] at member
      rcases member with rfl | ⟨-, here⟩
      · exact .inr ⟨_, List.mem_append_right _ (List.mem_singleton.mpr rfl), by simp [Moment.tracks, stack]⟩
      · exact older here

theorem Reordered.found (run : Reordered rule p n q) {r : Nat} {x : Response String Listener}
    (found : p.world.responses[r]? = some x) : ∃ y, q.world.responses[r]? = some y := by
  induction run with
  | refl => exact ⟨x, found⟩
  | reorder past places ih => exact ih
  | move past next ih =>
    obtain ⟨y, earlier⟩ := ih
    obtain ⟨notes, step⟩ := next.step
    cases step.touches r with
    | granted asks found granted after => exact ⟨_, after⟩
    | kept same stays => exact ⟨y, stays y earlier⟩

end Pool
end Deferral.Simulation
