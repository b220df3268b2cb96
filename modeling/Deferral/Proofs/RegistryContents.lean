import Deferral.Proofs.Tracking

/-! The registry holds the unresolved responses that were registered. A response that resolves is taken out
by its listeners in their order, so those that were attached after it was registered do not find it any more. -/

namespace Deferral.Simulation

/-- The stack of a call that is registering a response: it has put it into the table and has not returned. -/
inductive Registering (r : Nat) : List Work → Prop where
  | inserted {rest} : Registering r (.measure :: .request r (.subscribe .untrack) :: .answer .done :: rest)
  | measured {length rest} : Registering r (.gauge length :: .request r (.subscribe .untrack) :: .answer .done :: rest)
  | subscribing {rest} : Registering r (.request r (.subscribe .untrack) :: .answer .done :: rest)
  | listening {index outcome rest} : Registering r (.listen r index .untrack outcome :: .answer .done :: rest)
  | untracking {index rest} : Registering r (.untrack r :: .guardListener r index :: .answer .done :: rest)

theorem Registering.goes {r : Nat} {w : World} {t : Thread} {outcome : Outcome String} (registering : Registering r t.stack)
    (ended : (w.response r).outcome = some outcome) :
    Registering r (step w t).2.stack ∨ r ∉ (step w t).1.registry.ids := by
  unfold step
  generalize t.stack = stack at registering ⊢
  cases registering with
  | inserted => exact .inl .measured
  | measured => exact .inl .subscribing
  | subscribing =>
    cases found : w.responses[r]? with
    | none => simp [World.response, found] at ended
    | some x =>
      rw [World.response_found found] at ended
      dsimp only [World.perform]
      rw [World.serve_granted found (Request.grant_subscribe ended _)]
      exact .inl .listening
  | listening => exact .inl .untracking
  | untracking => exact .inr fun member => (Registry.mem_remove.mp member).1 rfl

namespace Delivery

variable {w w' : World} {work : Work} {rest stack : List Work}

theorem ends {r : Nat} {outcome : Outcome String} (delivery : Delivery w work rest w' stack) (sound : ∀ r, Sound (w.response r))
    (unresolved : (w.response r).outcome = none) (ended : (w'.response r).outcome = some outcome) :
    ∃ asked x grant operation, work.request? = some (r, asked) ∧ asked.ending? = some (operation, outcome) ∧
      w.responses[r]? = some x ∧ asked.grant r x = .ok grant := by
  have unchanged (same : w'.response r = { w.response r with sink := (w'.response r).sink }) : False := by
    rw [same] at ended
    cases unresolved.symm.trans ended
  cases delivery with
  | @granted _ _ _ s asked x g asks found granted responses =>
    by_cases here : s = r
    · subst here
      have before := World.response_found found
      have sound := before ▸ sound s
      have outcomes := (Request.grant_cases sound granted).outcome sound
      rw [before] at unresolved
      rw [granted_here found responses] at ended
      rw [ended, unresolved] at outcomes
      cases ends : asked.ending? with
      | none => simp [ends] at outcomes
      | some ending =>
        have same : outcome = ending.2 := by simpa [ends] using outcomes
        exact ⟨asked, x, g, ending.1, asks, by rw [same, ends], found, granted⟩
    · rw [granted_elsewhere responses here, unresolved] at ended
      cases ended
  | listened kept | returned kept | untracked kept | registered kept | panicked kept | misreported kept
  | passed _ _ _ _ kept => exact (unchanged (kept.response r)).elim

end Delivery

namespace Pool

variable {rule : World → Thread → Prop} {m : List Moment} {p q : Pool} {h : History} {r : Nat}

/-- A resolved response is out of the registry, but for a call that is registering it again. -/
structure Cleared (p : Pool) (r : Nat) : Prop where
  ended : (p.world.response r).outcome.isSome = true
  gone : r ∈ p.world.registry.ids → ∃ t ∈ p.threads, Registering r t.stack

namespace Cleared

theorem run {w : World} {before after : List Thread} {t : Thread} {work : Work} {rest : List Work}
    (cleared : Cleared ⟨w, before ++ t :: after⟩ r) (stack : t.stack = work :: rest)
    (frozen : ((step w t).1.response r).outcome = (w.response r).outcome) :
    Cleared ⟨(step w t).1, before ++ (step w t).2 :: after⟩ r := by
  have delivery := step_delivery (w := w) stack
  obtain ⟨ended, gone⟩ := cleared
  refine ⟨?_, fun member => ?_⟩
  · rw [frozen]
    exact ended
  · have table := member
    rw [delivery.registry, Work.mem_tabled] at table
    rcases table with rfl | ⟨-, here⟩
    · refine ⟨_, List.mem_append_right _ (List.mem_cons_self ..), ?_⟩
      rw [delivery.subscribes]
      exact .inserted
    · obtain ⟨u, among, registering⟩ := gone here
      rw [List.mem_append, List.mem_cons] at among
      rcases among with left | rfl | right
      · exact ⟨u, List.mem_append_left _ left, registering⟩
      · obtain ⟨outcome, found⟩ := Option.isSome_iff_exists.mp ended
        rcases registering.goes found with still | absent
        · exact ⟨_, List.mem_append_right _ (List.mem_cons_self ..), still⟩
        · exact absurd member absent
      · exact ⟨u, List.mem_append_right _ (List.mem_cons_of_mem _ right), registering⟩

theorem stays (cleared : Cleared q r) (valid : Valid h q) (chronicle : Chronicle rule q m p) : Cleared p r := by
  induction chronicle with
  | refl => exact cleared
  | move past next ih =>
    obtain ⟨notes, run⟩ := past.history
    obtain ⟨notes, step⟩ := next.step
    have valid := valid.run_preserves run
    cases next with
    | run stack allowed =>
      exact ih.run stack (valid.outcome_frozen step ih.ended)
    | spawn fresh =>
      refine ⟨ih.ended, fun member => ?_⟩
      obtain ⟨t, among, registering⟩ := ih.gone member
      exact ⟨t, List.mem_append_left _ among, registering⟩
    | wait now sleeping ready => exact ⟨ih.ended, ih.gone⟩

end Cleared

theorem performed {place : Nat} {t : Thread} {base : List Work} {f : Work} (chronicle : Chronicle Contained q m p)
    (found : q.threads[place]? = some t) (above : List Work) (stack : t.stack = above ++ f :: base) (unscripted : f.isScripted = false)
    (unguarded : f.isGuard = false) :
    (∃ t above, p.threads[place]? = some t ∧ t.stack = above ++ f :: base) ∨
      ∃ moment ∈ m, moment.place = place ∧ moment.thread.stack = f :: base := by
  induction chronicle with
  | refl => exact .inl ⟨t, above, found, stack⟩
  | move past next ih =>
    rcases ih with ⟨u, above, found, stack⟩ | ⟨moment, among, done⟩
    · cases next with
      | @run w before v after work rest top allowed =>
        by_cases same : place = before.length
        · subst same
          have mine : u = v := by simpa using found.symm
          subst mine
          cases above with
          | nil => exact .inr ⟨_, List.mem_append_right _ (List.mem_singleton.mpr rfl), rfl, stack⟩
          | cons first above =>
            have waiting : rest = above ++ f :: base := (List.cons.inj (top.symm.trans stack)).2
            obtain ⟨above, kept⟩ := (step_delivery (w := w) top).keeps (allowed.caught top) waiting unscripted unguarded
            exact .inl ⟨_, above, by simp, kept⟩
        · exact .inl ⟨u, above, (elsewhere same).1.trans found, stack⟩
      | spawn fresh =>
        exact .inl ⟨u, above, (List.getElem?_append_left (List.getElem?_eq_some_iff.mp found).1).trans found, stack⟩
      | wait now sleeping ready => exact .inl ⟨u, above, found, stack⟩
    · exact .inr ⟨moment, List.mem_append_left _ among, done⟩

theorem Ends.of_step {w : World} {t : Thread} {work : Work} {rest : List Work} {outcome : Outcome String} {place : Nat}
    (stack : t.stack = work :: rest) (sound : ∀ r, Sound (w.response r)) (unresolved : (w.response r).outcome = none)
    (ended : ((step w t).1.response r).outcome = some outcome) :
    ∃ operation outcome, Ends r operation outcome rest ⟨place, w, t⟩ := by
  obtain ⟨asked, x, grant, operation, asks, ends, found, granted⟩ := (step_delivery (w := w) stack).ends sound unresolved ended
  exact ⟨operation, outcome, .granted stack asks ends found granted⟩

theorem exists_ends {outcome : Outcome String} (valid : Valid h q) (chronicle : Chronicle rule q m p)
    (unresolved : (q.world.response r).outcome = none) (ended : (p.world.response r).outcome = some outcome) :
    ∃ early moment late operation outcome rest, m = early ++ moment :: late ∧ Ends r operation outcome rest moment := by
  induction chronicle generalizing outcome with
  | refl =>
    rw [unresolved] at ended
    cases ended
  | @move early middle moments last past next ih =>
    cases before : (middle.world.response r).outcome with
    | some published =>
      obtain ⟨early, moment, late, operation, outcome, rest, rfl, ends⟩ := ih before
      exact ⟨early, moment, late ++ moments, operation, outcome, rest, by simp, ends⟩
    | none =>
      obtain ⟨notes, run⟩ := past.history
      have sound := (valid.run_preserves run).sound
      cases next with
      | spawn | wait => cases before.symm.trans ended
      | run stack allowed =>
        obtain ⟨operation, outcome, ends⟩ := Ends.of_step stack sound before ended
        exact ⟨_, _, [], operation, outcome, _, rfl, ends⟩

theorem Attended.not_pending {w : World} {before after : List Thread} {t u : Thread} {work f : Work} {rest above base : List Work}
    {place : Nat} {listener : Nat × Listener} {outcome : Outcome String} (attended : Attended m ⟨w, before ++ t :: after⟩ r)
    (stack : t.stack = work :: rest) (runs : work.hears? r = some listener)
    (found : (before ++ t :: after)[place]? = some u) (pending : u.stack = above ++ f :: base)
    (below : .listen r listener.1 listener.2 outcome ∈ base) (other : f ≠ work) : False := by
  have one := attended.once listener.1
  have here : work.listens r (·.1 == listener.1) = true := by simp [Work.listens, runs]
  have there : (Work.listen r listener.1 listener.2 outcome).listens r (·.1 == listener.1) = true := by
    simp [Work.listens, Work.hears?]
  rw [countP_works_run, stack, List.countP_cons, if_pos here] at one
  by_cases same : place = before.length
  · subst same
    have mine : u = t := by simpa using found.symm
    subst mine
    have counted : 0 < rest.countP (·.listens r (·.1 == listener.1)) := by
      refine List.countP_pos_iff.mpr ⟨_, ?_, there⟩
      rw [stack] at pending
      cases above with
      | nil => exact absurd (List.cons.inj pending).1.symm other
      | cons first above =>
        rw [(List.cons.inj pending).2]
        simp [below]
    omega
  · have among := (elsewhere (u := t) same).2 u found
    have others : 0 < (Pool.mk w (before ++ after)).works.countP (·.listens r (·.1 == listener.1)) := by
      refine List.countP_pos_iff.mpr ⟨_, List.mem_flatMap.mpr ⟨u, among, ?_⟩, there⟩
      rw [pending]
      simp [below]
    omega

theorem mem_registered {moment : Moment} {work : Work} {rest : List Work} {listener : Nat × Listener} (member : moment ∈ m)
    (stack : moment.thread.stack = work :: rest) (joins : work.joins? moment.world r = some listener) :
    listener ∈ registered r m :=
  List.mem_filterMap.mpr ⟨moment, member, by simpa [Moment.registers?, stack] using joins⟩

theorem Attended.resolved {w : World} {before after : List Thread} {t : Thread} {work : Work} {rest : List Work}
    {listener : Nat × Listener} (attended : Attended m ⟨w, before ++ t :: after⟩ r) (stack : t.stack = work :: rest)
    (runs : work.hears? r = some listener) : ∃ outcome, (w.response r).outcome = some outcome := by
  cases work with
  | listen s index other outcome =>
    by_cases same : s = r
    · subst same
      exact ⟨outcome, attended.published index other outcome (mem_works_here stack (List.mem_cons_self ..))⟩
    · simp [Work.hears?, same] at runs
  | _ => cases runs

theorem Attended.ordered {first second : List (Nat × Listener)} {listener other : Nat × Listener} (attended : Attended m p r)
    (split : registered r m = first ++ listener :: second) (member : other ∈ registered r m) (later : listener.1 < other.1) :
    other ∈ second := by
  have sorted : ((registered r m).map Prod.fst).Pairwise (· < ·) := by
    rw [attended.numbered]
    exact List.pairwise_lt_range
  rw [split, List.map_append, List.map_cons, List.pairwise_append] at sorted
  rw [split, List.mem_append, List.mem_cons] at member
  rcases member with before | rfl | after
  · have smaller := sorted.2.2 other.1 (List.mem_map_of_mem before) listener.1 (List.mem_cons_self ..)
    omega
  · omega
  · exact after

section Removal

variable {drive : Drive} {past early begun later : List Moment} {call win moment : Moment} {rest : List Work}

theorem untracker_joins {t : Thread} (chronicle : Chronicle Tracking (start drive) (early ++ call :: begun) p)
    (calls : call.thread.stack = .call (.register r) :: rest) (found : p.threads[call.place]? = some t)
    (returns : t.stack = .answer .done :: rest) :
    ∃ index, (index, .untrack) ∈ registered r (early ++ call :: begun) := by
  cases chronicle.cut with
  | @found w before u after work _ _ _ first top allowed second =>
    cases top.symm.trans calls
    have begins := (step_delivery (w := w) top).subscribes
    have mine : (before ++ (step w u).2 :: after)[before.length]? = some (step w u).2 := by simp
    rcases performed (second.mono fun _ _ => And.left) mine [.measure] begins rfl rfl with
      ⟨v, above, found', pending⟩ | ⟨moment, among, -, subscribes⟩
    · cases found.symm.trans found'
      have lengths := congrArg List.length (returns.symm.trans pending)
      simp only [List.length_cons, List.length_append] at lengths
      omega
    · obtain ⟨between, behind, rfl⟩ := List.append_of_mem among
      have whole := chronicle
      rw [← List.cons_append, ← List.append_assoc] at whole
      cases whole.cut with
      | @found w _ t _ _ _ _ _ first top allowed second =>
        obtain ⟨x, made⟩ := (Tracked.of_chronicle first r).made (mem_works_here subscribes (List.mem_cons_self ..))
        have asks : (Work.request r (.subscribe .untrack)).request? = some (r, .subscribe .untrack) := rfl
        have joins := Work.joins?_request (r := r) asks made
        rw [if_pos rfl] at joins
        exact ⟨x.nextListener, mem_registered (by simp) subscribes joins⟩

theorem untracker_registered {back : Moment}
    (chronicle : Chronicle Tracking (start drive) (early ++ call :: begun ++ back :: later) p)
    (calls : call.thread.stack = .call (.register r) :: rest) (place : back.place = call.place)
    (returns : back.thread.stack = .answer .done :: rest) :
    ∃ index, (index, .untrack) ∈ registered r (early ++ call :: begun) := by
  cases chronicle.cut with
  | found first top allowed second => exact untracker_joins first calls (by rw [← place]; simp) returns

theorem ends_after {join : Moment} {listener : Nat × Listener} {outcome : Outcome String}
    (chronicle : Chronicle Tracking (start drive) (past ++ join :: later) p) (joins : join.registers? r = some listener)
    (unresolved : (join.world.response r).state.isTerminal = false) (ended : (p.world.response r).outcome = some outcome) :
    (∀ other ∈ registered r past, other.1 < listener.1) ∧
      ∃ between win second operation outcome rest, later = between ++ win :: second ∧ Ends r operation outcome rest win := by
  cases chronicle.cut with
  | @found w before t after work _ _ _ first top allowed second =>
    obtain ⟨h, valid⟩ := first.valid
    have none := (valid.unresolved_iff r).mp unresolved
    refine ⟨fun other member => ?_, ?_⟩
    · have numbered := (Attended.of_chronicle ((first.move (.run top allowed)).mono fun _ _ => And.left) r).numbered
      have sorted : ((registered r (past ++ [⟨before.length, w, t⟩])).map Prod.fst).Pairwise (· < ·) := by
        rw [numbered]
        exact List.pairwise_lt_range
      have snoc : registered r (past ++ [⟨before.length, w, t⟩]) = registered r past ++ [listener] := by
        simp [registered, joins]
      rw [snoc, List.map_append, List.pairwise_append] at sorted
      exact sorted.2.2 other.1 (List.mem_map_of_mem member) listener.1 (by simp)
    · obtain ⟨early, win, late, operation, outcome, rest, split, ends⟩ :=
        exists_ends valid ((Chronicle.refl.move (.run top allowed)).trans second) none ended
      cases early with
      | nil =>
        -- a call that lets a listener in ends nothing
        cases split
        cases ends with
        | granted stack asks ends found granted =>
          have none := Work.joins?_request (r := r) asks found
          rw [if_pos rfl, Request.joins?_of_ending ends] at none
          simp [Moment.registers?, stack, none] at joins
      | cons first between =>
        obtain ⟨rfl, rfl⟩ := List.cons.inj split
        exact ⟨between, win, late, operation, outcome, rest, rfl, ends⟩

/-- Of two listeners that a response had when it ended, the one that removes it from the registry has done
so when a later one begins to run. -/
theorem untracked_before {w : World} {before after : List Thread} {t : Thread} {work : Work} {below : List Work}
    {operation : Operation} {outcome : Outcome String} {index other : Nat} {label : String} {body : List Action}
    (chronicle : Chronicle Tracking (start drive) (past ++ win :: later) ⟨w, before ++ t :: after⟩)
    (ends : Ends r operation outcome rest win) (untracks : (index, .untrack) ∈ registered r past)
    (joined : (other, .script label body) ∈ registered r past) (ordered : index < other)
    (stack : t.stack = work :: below) (runs : work.hears? r = some (other, .script label body)) :
    ∃ moment ∈ later, moment.thread.stack.head? = some (.untrack r) := by
  have plain := chronicle.mono fun _ _ => And.left
  have attended := Attended.of_chronicle plain r
  obtain ⟨above, left⟩ := ends.stack plain
  obtain ⟨first, second, split⟩ := List.append_of_mem untracks
  cases chronicle.cut with
  | @found v prior u behind asks _ _ _ begun top allowed goes =>
    have waits : (other, .script label body) ∈ second :=
      (Attended.of_chronicle (begun.mono fun _ _ => And.left) r).ordered split joined ordered
    have below : .listen r other (.script label body) outcome ∈ notices r outcome second ++ .settled r operation :: rest :=
      List.mem_append_left _ (List.mem_map.mpr ⟨_, waits, rfl⟩)
    have stands : (step v u).2.stack = above ++ notices r outcome first ++
        .listen r index .untrack outcome :: (notices r outcome second ++ .settled r operation :: rest) := by
      rw [left, split]
      simp [notices]
    have mine : (prior ++ (step v u).2 :: behind)[prior.length]? = some (step v u).2 := by simp
    rcases performed (goes.mono fun _ _ => And.left) mine _ stands rfl rfl with
      ⟨x, still, found, waiting⟩ | ⟨moment, among, place, listens⟩
    · refine (attended.not_pending stack runs found waiting below ?_).elim
      rintro rfl
      simp [Work.hears?] at runs
    · obtain ⟨between, onward, rfl⟩ := List.append_of_mem among
      rw [← List.cons_append, ← List.append_assoc] at chronicle
      cases chronicle.cut with
      | @found v' prior' u' behind' _ _ _ _ begun' top' allowed' goes' =>
        cases top'.symm.trans listens
        have untracking := (step_delivery (w := v') top').untracks
        have mine : (prior' ++ (step v' u').2 :: behind')[prior'.length]? = some (step v' u').2 := by simp
        rcases performed (goes'.mono fun _ _ => And.left) mine [] untracking rfl rfl with
          ⟨x, still, found, waiting⟩ | ⟨moment, among, -, untracks⟩
        · refine (attended.not_pending stack runs found waiting (List.mem_cons_of_mem _ below) ?_).elim
          rintro rfl
          cases runs
        · exact ⟨moment, by simp [among], by rw [untracks]; rfl⟩

theorem cleared_of_untracked (chronicle : Chronicle Tracking (start drive) m p) (member : moment ∈ m)
    (untracks : moment.thread.stack.head? = some (.untrack r)) : Cleared p r := by
  obtain ⟨past, later, rfl⟩ := List.append_of_mem member
  cases chronicle.cut with
  | @found w before t after work _ _ _ first top allowed second =>
    have same : work = .untrack r := by simpa [top] using untracks
    subst same
    obtain ⟨h, valid⟩ := (first.move (.run top allowed)).valid
    obtain ⟨earlier, prior⟩ := first.valid
    obtain ⟨notes, step⟩ := (Move.run top allowed).step
    have ended := (Tracked.of_chronicle first r).ended (mem_works_here top (List.mem_cons_self ..))
    have frozen := prior.outcome_frozen step ended
    refine Cleared.stays ⟨?_, fun here => ?_⟩ valid second
    · rw [frozen]
      exact ended
    · rw [(step_delivery (w := w) top).registry] at here
      exact absurd rfl (Registry.mem_remove.mp here).1

end Removal

/-- A listener that was attached to a response after a call that registered the response had returned, and
before the response was resolved, has begun to run. -/
inductive HeardRegistered (r : Nat) : List Moment → Prop where
  | heard {early call begun back middle join later hear after rest index label body}
      (calls : call.thread.stack = .call (.register r) :: rest) (place : back.place = call.place)
      (returns : back.thread.stack = .answer .done :: rest)
      (joins : join.registers? r = some (index, .script label body))
      (unresolved : (join.world.response r).state.isTerminal = false)
      (hears : hear.hears? r = some (index, .script label body)) :
      HeardRegistered r (early ++ call :: (begun ++ back :: (middle ++ join :: (later ++ hear :: after))))

theorem HeardRegistered.cleared {drive : Drive} (heard : HeardRegistered r m)
    (chronicle : Chronicle Tracking (start drive) m p) : Cleared p r := by
  cases heard with
  | @heard early call begun back middle join later hear after rest index label body calls place returns joins unresolved hears =>
    have whole : early ++ call :: (begun ++ back :: (middle ++ join :: (later ++ hear :: after))) =
        (early ++ call :: begun ++ back :: middle) ++ join :: later ++ hear :: after := by simp
    rw [whole] at chronicle
    cases chronicle.cut with
    | @found w before t behind work below _ _ reached top allowed onward =>
      have runs : work.hears? r = some (index, .script label body) := by simpa [Moment.hears?, top] using hears
      obtain ⟨outcome, published⟩ := (Attended.of_chronicle (reached.mono fun _ _ => And.left) r).resolved top runs
      have prior := reached
      rw [List.append_assoc] at prior
      obtain ⟨number, untracks⟩ := untracker_registered prior calls place returns
      obtain ⟨smaller, between, win, second, operation, ending, left, rfl, ends⟩ :=
        ends_after reached joins unresolved published
      have grown (more : List Moment) : (number, .untrack) ∈ registered r (early ++ call :: begun ++ more) := by
        rw [registered, List.filterMap_append]
        exact List.mem_append_left _ untracks
      have joined : (index, .script label body) ∈ registered r (early ++ call :: begun ++ back :: middle ++ join :: between) :=
        List.mem_filterMap.mpr ⟨join, by simp, joins⟩
      rw [← List.cons_append, ← List.append_assoc] at reached
      have untracked : (number, .untrack) ∈ registered r (early ++ call :: begun ++ back :: middle ++ join :: between) := by
        rw [List.append_assoc]
        exact grown _
      obtain ⟨moment, among, removes⟩ := untracked_before reached ends untracked joined (smaller _ (grown _)) top runs
      exact cleared_of_untracked chronicle (by simp [among]) removes

/-- What the registry holds at the end of a chronicle. -/
structure RegistryExact (m : List Moment) (p : Pool) : Prop where
  distinct : p.world.registry.ids.Nodup
  /-- A response that was registered is there until it is resolved. -/
  present : ∀ r, (∃ moment ∈ m, moment.tracks r) → (p.world.response r).state.isTerminal = false → r ∈ p.world.registry.ids
  exact : p.works = [] → ∀ r, r ∈ p.world.registry.ids ↔
    (∃ moment ∈ m, moment.tracks r) ∧ (p.world.response r).state.isTerminal = false
  found : ∀ r ∈ p.world.registry.ids, ∀ t, p.world.call t (.tracked r) = (p.world, t.answer (.number r)) ∧
    p.world.call t (.cancelTracked (some r)) = (p.world, t.push [.call (.cancel r)])
  absent : ∀ r, r ∉ p.world.registry.ids → ∀ t, p.world.call t (.tracked r) = (p.world, t.answer .absent) ∧
    p.world.call t (.cancelTracked (some r)) = (p.world, t.answer .absent)
  /-- A listener attached to a registered response does not find it, unless another call registers it just now. -/
  gone : ∀ r, HeardRegistered r m → r ∈ p.world.registry.ids → ∃ t ∈ p.threads, Registering r t.stack
  alone : ∀ r before t after action rest, HeardRegistered r m → p.threads = before ++ t :: after →
    (∀ u ∈ before ++ after, u.stack = []) → t.stack = .call action :: rest → r ∉ p.world.registry.ids

/-- The registry holds each registered response until it is resolved, and no other once no call is in
progress; and a listener attached to a registered response does not find it there, unless another call is
registering it at that moment. -/
theorem registry_exact {drive : Drive} (chronicle : Chronicle Tracking (start drive) m p) : RegistryExact m p := by
  obtain ⟨h, valid⟩ := chronicle.valid
  have tracked := Tracked.of_chronicle chronicle
  have plain := chronicle.mono fun _ _ => And.left
  refine ⟨(tracked 0).distinct, ?_, ?_, ?_, ?_, ?_, ?_⟩
  · intro r tracks live
    exact (tracked r).present tracks ((valid.unresolved_iff r).mp live)
  · intro idle r
    constructor
    · intro member
      refine ⟨(tracked r).inserted member, (valid.unresolved_iff r).mpr ?_⟩
      cases (tracked r).watched member with
      | kept index listener =>
        refine Option.not_isSome_iff_eq_none.mp fun some => ?_
        rw [(Attended.of_chronicle plain r).released some] at listener
        cases listener
      | subscribing pending | listening _ _ pending | untracking pending =>
        rw [idle] at pending
        cases pending
    · rintro ⟨tracks, live⟩
      exact (tracked r).present tracks ((valid.unresolved_iff r).mp live)
  · intro r member t
    have contains := Registry.mem_iff.mp member
    simp [World.call, contains]
  · intro r absent t
    have missing : p.world.registry.contains r = false := by
      rw [Registry.mem_iff] at absent
      simpa using absent
    simp [World.call, missing]
  · intro r heard
    exact (heard.cleared chronicle).gone
  · intro r before t after action rest heard threads idle stack member
    obtain ⟨u, among, registering⟩ := (heard.cleared chronicle).gone member
    rw [threads, List.mem_append, List.mem_cons] at among
    rcases among with left | rfl | right
    · rw [idle u (List.mem_append_left _ left)] at registering
      cases registering
    · rw [stack] at registering
      cases registering
    · rw [idle u (List.mem_append_right _ right)] at registering
      cases registering

/-- A listener registers its response again after it has resolved, while another response is still open. -/
theorem registry_exact_again : ∃ m p, Chronicle Tracking (start .runtime) m p ∧ p.works = [] ∧
    p.world.registry.ids = [1] ∧ (∃ moment ∈ m, moment.tracks 1) ∧ (p.world.response 1).state.isTerminal = false := by
  have begun : Run Tracking (start .runtime) [] (start .runtime) := .refl
  obtain ⟨_, made⟩ := begun.call (.create 2 .events) 9 (by decide)
  obtain ⟨_, first⟩ := made.call (.register 0) 9 (by decide)
  obtain ⟨_, second⟩ := first.call (.register 1) 9 (by decide)
  obtain ⟨_, attached⟩ := second.call (.onResolved 0 "again" [.tracked 0, .register 0]) 9 (by decide)
  obtain ⟨_, ended⟩ := attached.call (.resume 0 "value") 40 (by decide)
  obtain ⟨m, chronicle⟩ := Chronicle.of_run ended
  obtain ⟨tracks, live⟩ := ((registry_exact chronicle).exact rfl 1).mp (by decide)
  exact ⟨m, _, chronicle, rfl, rfl, tracks, live⟩

end Pool
end Deferral.Simulation
