import Deferral.Proofs.RegistryContents
import Deferral.Proofs.WaitingTasks

/-! No wake-up is lost. A waiting task that has not returned is ready, runs, or is parked; once a response is
resolved and its tasks were notified, none of them is parked or about to be without having been notified. -/

namespace Deferral.Simulation
namespace Pool

/-- Tasks of a response were notified after its outcome was published. -/
def Signalled (r : Nat) (m : List Moment) : Prop :=
  ∃ moment ∈ m, (∃ rest, moment.thread.stack = .notify r :: rest) ∧ (moment.world.response r).outcome.isSome = true

/-- Runs in which a waiting task is one thread at a time: it starts when it is ready, and it is ready once
it was begun or woken. Threads go on, and ready tasks start, in any order. -/
inductive Tasking (rule : World → Thread → Prop) (p : Pool) : List Moment → Pool → Prop where
  | refl : Tasking rule p [] p
  | run {m w before t after work rest} (past : Tasking rule p m ⟨w, before ++ t :: after⟩) (stack : t.stack = work :: rest)
      (allowed : rule w t) :
      Tasking rule p (m ++ [⟨before.length, w, t⟩]) ⟨(step w t).1, before ++ (step w t).2 :: after⟩
  | spawn {m w threads t} (past : Tasking rule p m ⟨w, threads⟩) (fresh : t.Fresh) (other : ∀ id, .enable id ∉ t.stack) :
      Tasking rule p m ⟨w, threads ++ [t]⟩
  | start {m w threads id earlier later} (past : Tasking rule p m ⟨w, threads⟩)
      (ready : w.ready = earlier ++ .waiter id :: later) :
      Tasking rule p m ⟨{ w with ready := earlier ++ later }, threads ++ [(Task.waiter id).thread]⟩
  | pass {m w threads} (past : Tasking rule p m ⟨w, threads⟩) (now : Nat) (sleeping : List (Nat × Task)) (ready : List Task)
      (kept : ∀ id, ready.count (.waiter id) = w.ready.count (.waiter id)) :
      Tasking rule p m ⟨{ w with now, sleeping, ready }, threads⟩

theorem Tasking.chronicle {rule : World → Thread → Prop} {m : List Moment} {p q : Pool} (tasking : Tasking rule p m q) :
    Chronicle rule p m q := by
  induction tasking with
  | refl => exact .refl
  | run past stack allowed ih => exact ih.move (.run stack allowed)
  | @spawn m w threads t past fresh other ih =>
    have moved := ih.move (.spawn fresh)
    rwa [List.append_nil] at moved
  | @start m w threads id earlier later past ready ih =>
    have moved := (ih.move (.wait w.now w.sleeping (earlier ++ later))).move (.spawn (.inr (.inl ⟨.waiter id, rfl⟩)))
    rwa [List.append_nil, List.append_nil] at moved
  | pass past now sleeping ready kept ih =>
    have moved := ih.move (.wait now sleeping ready)
    rwa [List.append_nil] at moved

/-- Where the tasks that wait are. A waiter has a task, ready or running, unless it is parked or has returned;
and once it was signalled that its response is resolved, it parks no more. -/
structure Waited (m : List Moment) (p : Pool) : Prop where
  begun : p.world.waiters.map Waiter.call? = (m.filterMap Moment.begins?).map some
  alone : ∀ t ∈ p.threads, Alone t.stack
  tasks : ∀ id, p.world.ready.count (.waiter id) + p.works.countP (·.awaits id) = p.world.tasks id
  asked : ∀ t ∈ p.threads, ∀ id, t.stack = [.readOutcome id] ∨ t.stack = [.park id] →
    ∃ waiter, p.world.waiters[id]? = some waiter ∧ waiter.Listens
  told : ∀ r label, ((p.world.deliveries r).map Prod.fst).count label = p.world.waiters.countP (·.finishes r label)
  agreed : ∀ r, ∀ delivery ∈ p.world.deliveries r, (p.world.response r).outcome = some delivery.2
  published : ∀ r, Signalled r m → (p.world.response r).outcome.isSome = true
  roused : ∀ r, Signalled r m → ∀ id waiter, p.world.waiters[id]? = some waiter → waiter.r = r →
    waiter.stage ≠ .parked ∧ (.park id ∈ p.works → waiter.stage = .notified)

namespace Waited

variable {m : List Moment} {w : World} {before after : List Thread} {t : Thread} {work f : Work} {rest : List Work} {id : Nat}

theorem seat {p : Pool} (waited : Waited m p) (member : f ∈ p.works) (awaits : f.awaits id = true) :
    ∃ waiter, p.world.waiters[id]? = some waiter := by
  have counts : 0 < p.works.countP (·.awaits id) := List.countP_pos_iff.mpr ⟨f, member, awaits⟩
  have tasks := waited.tasks id
  obtain ⟨waiter, found, -⟩ := World.exists_of_tasks (show 0 < p.world.tasks id by omega)
  exact ⟨waiter, found⟩

theorem single (waited : Waited m ⟨w, before ++ t :: after⟩) (stack : t.stack = work :: rest)
    (here : 0 < (work :: rest).countP (·.awaits id)) (there : f ∈ (Pool.mk w (before ++ after)).works) : f.awaits id = false := by
  have tasks := waited.tasks id
  have bounded := w.tasks_le id
  rw [countP_works_run, stack] at tasks
  cases awaits : f.awaits id with
  | false => rfl
  | true =>
    have counts : 0 < (Pool.mk w (before ++ after)).works.countP (·.awaits id) := List.countP_pos_iff.mpr ⟨f, there, awaits⟩
    dsimp only at tasks
    omega

theorem listens {p : Pool} (waited : Waited m p) (member : .park id ∈ p.works) :
    ∃ waiter, p.world.waiters[id]? = some waiter ∧ waiter.Listens := by
  obtain ⟨t, among, inside⟩ := List.mem_flatMap.mp member
  rcases waited.alone t among with none | ⟨other, same | same | same⟩
  · cases none _ inside
  · simp [same] at inside
  · simp [same] at inside
  · have mine : id = other := by simpa [same] using inside
    subst mine
    exact waited.asked t among id (.inr same)

theorem observers {p : Pool} (waited : Waited m p) : ∀ waiter ∈ p.world.waiters, ∃ label, waiter.role = .observer label := by
  intro waiter member
  have called : waiter.call? ∈ (m.filterMap Moment.begins?).map some := by
    rw [← waited.begun]
    exact List.mem_map_of_mem member
  obtain ⟨call, -, same⟩ := List.mem_map.mp called
  unfold Waiter.call? at same
  split at same
  · exact ⟨_, by assumption⟩
  · cases same

theorem calls {p : Pool} (waited : Waited m p) {waiter : Waiter} (member : waiter ∈ p.world.waiters) :
    ∃ label, waiter.call? = some (waiter.r, label) := by
  obtain ⟨label, role⟩ := waited.observers waiter member
  exact ⟨label, by rw [Waiter.call?, role]⟩

theorem going {p : Pool} (waited : Waited m p) {waiter : Waiter} (found : p.world.waiters[id]? = some waiter) :
    p.world.ready.count (.waiter id) + p.works.countP (·.awaits id) = waiter.stage.tasks := by
  rw [waited.tasks, World.tasks, found]
  rfl

theorem none_returned {p : Pool} (waited : Waited m p) {r : Nat} (none : (p.world.response r).outcome = none) :
    p.world.deliveries r = [] ∧ ∀ waiter ∈ p.world.waiters, waiter.r = r → waiter.stage ≠ .finished := by
  have nothing : p.world.deliveries r = [] := by
    refine List.eq_nil_iff_forall_not_mem.mpr fun delivery member => ?_
    have published := waited.agreed r delivery member
    rw [none] at published
    cases published
  refine ⟨nothing, fun waiter member mine finished => ?_⟩
  obtain ⟨label, calls⟩ := waited.calls member
  rw [mine] at calls
  have counts := waited.told r label
  rw [nothing] at counts
  have finishes := List.countP_eq_zero.mp counts.symm waiter member
  simp [Waiter.finishes, finished, calls] at finishes

theorem all_returned {p : Pool} (waited : Waited m p) {r : Nat} (signalled : Signalled r m) (idle : p.works = [])
    (none : ∀ id, .waiter id ∉ p.world.ready) : ∀ waiter ∈ p.world.waiters, waiter.r = r → waiter.stage = .finished := by
  intro waiter member mine
  obtain ⟨id, found⟩ := List.mem_iff_getElem?.mp member
  have tasks := waited.going found
  have awake := (waited.roused r signalled id waiter found mine).1
  rw [idle, List.count_eq_zero.mpr (none id)] at tasks
  cases stage : waiter.stage <;> simp_all [WaitStage.tasks]

theorem count_returned {p : Pool} (waited : Waited m p) {r : Nat}
    (returned : ∀ waiter ∈ p.world.waiters, waiter.r = r → waiter.stage = .finished) (label : String) :
    ((p.world.deliveries r).map Prod.fst).count label = (m.filterMap Moment.begins?).count (r, label) := by
  have calls : (m.filterMap Moment.begins?).count (r, label) = (p.world.waiters.map Waiter.call?).count (some (r, label)) := by
    rw [waited.begun, List.count_eq_countP, List.count_eq_countP, List.countP_map]
    congr 1
  rw [calls, waited.told r label, List.count_eq_countP, List.countP_map]
  refine List.countP_congr fun waiter member => ?_
  simp only [Waiter.finishes, decide_eq_true_eq, Function.comp_apply, beq_iff_eq]
  refine ⟨And.right, fun same => ⟨returned waiter member ?_, same⟩⟩
  obtain ⟨own, calls⟩ := waited.calls member
  rw [calls] at same
  exact congrArg Prod.fst (Option.some.inj same)

private theorem run_asked (waited : Waited m ⟨w, before ++ t :: after⟩) (stack : t.stack = work :: rest) {w' : World}
    {thread : Thread} (hearing : Hearing w work rest w' thread.stack)
    (tasks : ∀ id, w'.ready.count (.waiter id) + (Pool.mk w' (before ++ thread :: after)).works.countP (·.awaits id) = w'.tasks id) :
    ∀ u ∈ before ++ thread :: after, ∀ id, u.stack = [.readOutcome id] ∨ u.stack = [.park id] →
      ∃ waiter, w'.waiters[id]? = some waiter ∧ waiter.Listens := by
  have own : Alone (work :: rest) := stack ▸ waited.alone t (List.mem_append_right _ (List.mem_cons_self ..))
  intro u member id stands
  obtain ⟨f, inside, awaits⟩ : ∃ f ∈ u.stack, f.awaits id = true := by
    rcases stands with same | same <;> rw [same] <;> exact ⟨_, List.mem_cons_self .., by simp [Work.awaits]⟩
  have counts : 0 < (Pool.mk w' (before ++ thread :: after)).works.countP (·.awaits id) :=
    List.countP_pos_iff.mpr ⟨f, List.mem_flatMap.mpr ⟨u, member, inside⟩, awaits⟩
  have positive := tasks id
  obtain ⟨waiter', found', -⟩ := World.exists_of_tasks (show 0 < w'.tasks id by omega)
  by_cases mine : u = thread
  · subst mine
    rcases stands with reads | parks
    · have does := hearing.reads own reads
      subst does
      refine ⟨waiter', found', ?_⟩
      cases hearing.waiter found' with
      | still _ _ unasked => exact absurd rfl unasked
      | begun none =>
        -- the task that asks belongs to a waiter
        obtain ⟨waiter, found⟩ := waited.seat (f := .readOutcome id)
          (mem_works_here stack (by rw [own.below_enable]; simp)) (show (id == id) = true by simp)
        cases none.symm.trans found
      | enabled => exact .inl rfl
      | returned _ does | parked _ does | notified _ does => cases does
    · obtain ⟨rfl, rfl, -⟩ := hearing.parks own (by rw [parks]; exact List.mem_cons_self ..)
      rw [own.below_readOutcome] at stack
      exact waited.asked t (List.mem_append_right _ (List.mem_cons_self ..)) id (.inl stack)
  · have other : u ∈ before ++ after := by
      rcases List.mem_append.mp member with left | right
      · exact List.mem_append_left _ left
      · rcases List.mem_cons.mp right with here | right
        · exact absurd here mine
        · exact List.mem_append_right _ right
    have elsewhere : f ∈ (Pool.mk w (before ++ after)).works := List.mem_flatMap.mpr ⟨u, other, inside⟩
    have old : u ∈ before ++ t :: after := by
      rcases List.mem_append.mp other with left | right
      · exact List.mem_append_left _ left
      · exact List.mem_append_right _ (List.mem_cons_of_mem _ right)
    have apart (here : 0 < (work :: rest).countP (·.awaits id)) : False := by
      have := waited.single stack here elsewhere
      rw [awaits] at this
      cases this
    obtain ⟨waiter, found, listens⟩ := waited.asked u old id stands
    refine ⟨waiter', found', ?_⟩
    cases hearing.waiter found' with
    | still same =>
      cases found.symm.trans same
      exact listens
    | begun none => cases none.symm.trans found
    | enabled => exact .inl rfl
    | returned _ does =>
      subst does
      exact (apart (by simp [Work.awaits])).elim
    | parked _ does =>
      subst does
      exact (apart (by simp [Work.awaits])).elim
    | notified => exact .inr rfl

/-- Once its response is resolved and its tasks were notified, no task finds itself parked without having
been notified: it finds the outcome before it parks, or it was notified before. -/
private theorem run_roused (waited : Waited m ⟨w, before ++ t :: after⟩) (stack : t.stack = work :: rest) {w' : World}
    {thread : Thread} (hearing : Hearing w work rest w' thread.stack) {r : Nat} {waiter : Waiter}
    (signalled : Signalled r (m ++ [⟨before.length, w, t⟩])) (found : w'.waiters[id]? = some waiter) (mine : waiter.r = r) :
    waiter.stage ≠ .parked ∧ (.park id ∈ (Pool.mk w' (before ++ thread :: after)).works → waiter.stage = .notified) := by
  have own : Alone (work :: rest) := stack ▸ waited.alone t (List.mem_append_right _ (List.mem_cons_self ..))
  have published : (w.response r).outcome.isSome = true := by
    obtain ⟨moment, among, signal, some⟩ := signalled
    rcases List.mem_append.mp among with old | new
    · exact waited.published r ⟨moment, old, signal, some⟩
    · rw [List.mem_singleton.mp new] at some
      exact some
  have parks (inside : .park id ∈ (Pool.mk w' (before ++ thread :: after)).works) :
      .park id ∈ (Pool.mk w (before ++ after)).works ∨ work = .readOutcome id ∧
        ∃ waiter, w.waiters[id]? = some waiter ∧ waiter.r ≠ r := by
    rcases mem_works_run.mp inside with other | here
    · exact .inl other
    · obtain ⟨does, -, waiter, found, unpublished⟩ := hearing.parks own here
      refine .inr ⟨does, waiter, found, ?_⟩
      rintro rfl
      rw [unpublished] at published
      cases published
  have earlier (inside : .park id ∈ (Pool.mk w (before ++ after)).works) : .park id ∈ (Pool.mk w (before ++ t :: after)).works :=
    mem_works_run.mpr (.inl inside)
  have apart (here : 0 < (work :: rest).countP (·.awaits id)) : .park id ∉ (Pool.mk w (before ++ after)).works := by
    intro inside
    have := waited.single stack here inside
    simp [Work.awaits] at this
  -- what held before this step, if the signal came before it
  have roused (unsignalled : work ≠ .notify r) {waiter : Waiter} (found : w.waiters[id]? = some waiter) (mine : waiter.r = r) :
      waiter.stage ≠ .parked ∧ (.park id ∈ (Pool.mk w (before ++ t :: after)).works → waiter.stage = .notified) := by
    obtain ⟨moment, among, ⟨below, signal⟩, some⟩ := signalled
    rcases List.mem_append.mp among with old | new
    · exact waited.roused r ⟨moment, old, ⟨below, signal⟩, some⟩ id waiter found mine
    · rw [List.mem_singleton.mp new] at signal
      exact absurd (List.cons.inj (stack.symm.trans signal)).1 unsignalled
  cases hearing.waiter found with
  | still seat unmoved =>
    refine ⟨?_, fun inside => ?_⟩
    · by_cases signal : work = .notify r
      · exact (unmoved (mine ▸ signal)).1
      · exact (roused signal seat mine).1
    · rcases parks inside with old | ⟨does, other, found, foreign⟩
      · by_cases signal : work = .notify r
        · obtain ⟨other, found, listens⟩ := waited.listens (earlier old)
          cases seat.symm.trans found
          exact listens.resolve_left (unmoved (mine ▸ signal)).2
        · exact (roused signal seat mine).2 (earlier old)
      · cases seat.symm.trans found
        exact absurd mine foreign
  | begun none fresh =>
    refine ⟨by simp [fresh], fun inside => ?_⟩
    rcases parks inside with old | ⟨does, other, found, foreign⟩
    · obtain ⟨other, found⟩ := waited.seat (earlier old) (show (id == id) = true by simp)
      cases none.symm.trans found
    · cases none.symm.trans found
  | enabled seat does =>
    subst does
    refine ⟨by simp, fun inside => ?_⟩
    rcases parks inside with old | ⟨does, -⟩
    · exact absurd old (apart (by rw [own.below_enable]; simp [Work.awaits]))
    · cases does
  | returned seat does =>
    subst does
    refine ⟨by simp, fun inside => ?_⟩
    rcases parks inside with old | ⟨-, other, found, foreign⟩
    · exact absurd old (apart (by simp [Work.awaits]))
    · cases seat.symm.trans found
      exact absurd mine foreign
  | parked seat does unnotified =>
    subst does
    exact absurd ((roused (by simp) seat mine).2 (mem_works_here stack (List.mem_cons_self ..))) unnotified
  | notified => exact ⟨by simp, fun _ => rfl⟩

theorem run (waited : Waited m ⟨w, before ++ t :: after⟩) (stack : t.stack = work :: rest)
    (frozen : ∀ r, (w.response r).outcome.isSome = true → ((step w t).1.response r).outcome = (w.response r).outcome) :
    Waited (m ++ [⟨before.length, w, t⟩]) ⟨(step w t).1, before ++ (step w t).2 :: after⟩ := by
  have hearing : Hearing w work rest (step w t).1 (step w t).2.stack := step_hearing stack waited.observers
  have own : Alone (work :: rest) := stack ▸ waited.alone t (List.mem_append_right _ (List.mem_cons_self ..))
  have here : t ∈ before ++ t :: after := List.mem_append_right _ (List.mem_cons_self ..)
  generalize (step w t).2 = thread at hearing ⊢
  generalize (step w t).1 = w' at hearing frozen ⊢
  have tasks (id : Nat) : w'.ready.count (.waiter id) + (Pool.mk w' (before ++ thread :: after)).works.countP (·.awaits id) =
      w'.tasks id := by
    have balanced := waited.tasks id
    rw [countP_works_run, stack] at balanced
    rw [countP_works_run]
    exact hearing.keeps_tasks own balanced
  refine ⟨?_, ?_, tasks, waited.run_asked stack hearing tasks, fun r label => ?_, fun r delivery member => ?_,
    fun r signalled => ?_, fun r signalled id waiter found mine => waited.run_roused stack hearing signalled found mine⟩
  · have begins : (Moment.mk before.length w t).begins? = work.begins? := by simp [Moment.begins?, stack]
    rw [hearing.calls, waited.begun, List.filterMap_append, List.map_append, List.filterMap_cons, begins]
    cases work.begins? <;> rfl
  · intro u member
    rcases List.mem_append.mp member with left | right
    · exact waited.alone u (List.mem_append_left _ left)
    · rcases List.mem_cons.mp right with rfl | right
      · exact hearing.keeps_alone own
      · exact waited.alone u (List.mem_append_right _ (List.mem_cons_of_mem _ right))
  · refine hearing.tells (fun id positive => ?_) own r label (waited.told r label)
    have balanced := waited.tasks id
    rw [countP_works_run, stack] at balanced
    dsimp only at balanced
    omega
  · have known : (w.response r).outcome = some delivery.2 := by
      rcases hearing.delivers member with old | published
      · exact waited.agreed r delivery old
      · exact published
    exact (frozen r (by rw [known]; rfl)).trans known
  · have published : (w.response r).outcome.isSome = true := by
      obtain ⟨moment, among, signal, some⟩ := signalled
      rcases List.mem_append.mp among with old | new
      · exact waited.published r ⟨moment, old, signal, some⟩
      · rw [List.mem_singleton.mp new] at some
        exact some
    rw [frozen r published]
    exact published

theorem initial (drive : Drive) : Waited [] (start drive) := by
  have empty (r : Nat) : ¬Signalled r [] := by
    rintro ⟨moment, among, -⟩
    cases among
  refine ⟨rfl, ?_, fun _ => rfl, ?_, fun _ _ => rfl, ?_, fun r signalled => (empty r signalled).elim,
    fun r signalled => (empty r signalled).elim⟩
  · intro t member
    cases member
  · intro t member
    cases member
  · intro r delivery member
    cases member

theorem join {threads : List Thread} (waited : Waited m ⟨w, threads⟩) (ready : List Task) (alone : Alone t.stack)
    (asked : ∀ id, t.stack ≠ [.readOutcome id] ∧ .park id ∉ t.stack)
    (moves : ∀ id, ready.count (.waiter id) + t.stack.countP (·.awaits id) = w.ready.count (.waiter id)) :
    Waited m ⟨{ w with ready }, threads ++ [t]⟩ := by
  refine ⟨waited.begun, ?_, fun id => ?_, ?_, waited.told, waited.agreed, waited.published,
    fun r signalled id waiter found mine => ?_⟩
  · intro u member
    rcases List.mem_append.mp member with old | new
    · exact waited.alone u old
    · rw [List.mem_singleton.mp new]
      exact alone
  · have tasks := waited.tasks id
    have moved := moves id
    simp only [works, List.flatMap_append, List.flatMap_singleton, List.countP_append, World.tasks] at tasks ⊢
    omega
  · intro u member id stands
    rcases List.mem_append.mp member with old | new
    · exact waited.asked u old id stands
    · rw [List.mem_singleton.mp new] at stands
      rcases stands with reads | parks
      · exact absurd reads (asked id).1
      · exact absurd (by rw [parks]; exact List.mem_cons_self ..) (asked id).2
  · obtain ⟨awake, parking⟩ := waited.roused r signalled id waiter found mine
    refine ⟨awake, fun inside => parking ?_⟩
    simp only [works, List.flatMap_append, List.flatMap_singleton, List.mem_append] at inside
    exact inside.resolve_right (asked id).2

theorem of_tasking {drive : Drive} {p : Pool} {rule : World → Thread → Prop} (tasking : Tasking rule (Pool.start drive) m p) :
    Waited m p := by
  induction tasking with
  | refl => exact initial drive
  | run past stack allowed ih =>
    obtain ⟨h, valid⟩ := past.chronicle.valid
    obtain ⟨notes, step⟩ := (Move.run stack allowed : Move rule _ _ _).step
    exact ih.run stack fun r some => valid.outcome_frozen step some
  | @spawn m w threads t past fresh other ih =>
    have none : ∀ f ∈ t.stack, f.waits = false := by
      rcases fresh with ⟨action, stack⟩ | ⟨task, stack⟩ | ⟨timer, stack⟩
      · simp [stack, Work.waits]
      · cases task with
        | waiter id => exact absurd (by rw [stack]; exact List.mem_cons_self ..) (other id)
        | timer | worker => simp [stack, Task.thread, Work.waits]
      · simp [stack, Work.waits]
    refine ih.join w.ready (.inl none) (fun id => ⟨fun same => ?_, fun member => ?_⟩) fun id => by rw [countP_awaits none]; rfl
    · cases none (.readOutcome id) (by simp [same])
    · cases none _ member
  | @start m w threads id earlier later past ready ih =>
    refine ih.join (earlier ++ later) (.inr ⟨id, .inl rfl⟩) (by simp [Task.thread]) fun other => ?_
    rw [ready]
    simp only [Task.thread, List.count_append, List.count_cons, List.countP_cons, List.countP_nil, Work.awaits]
    by_cases same : id = other <;> simp [same]
    omega
  | pass past now sleeping ready kept ih =>
    exact ⟨ih.begun, ih.alone, fun id => by rw [kept id]; exact ih.tasks id, ih.asked, ih.told, ih.agreed, ih.published, ih.roused⟩

end Waited

theorem Grants.notifies {r : Nat} {x : Response String Listener} {asked : Request} {g : Grant} {ending : Operation × Outcome String}
    (grants : Grants r x asked g) (ends : asked.ending? = some ending) :
    g.response.outcome.isSome = true ∧ ∃ above below, g.work r = above ++ .notify r :: below := by
  cases grants with
  | @finish _ operation outcome =>
    refine ⟨rfl, x.timer.toList.map .disarm,
      .announce r outcome x.listeners.length :: notices r outcome x.listeners ++ [.settled r operation], ?_⟩
    simp [Grant.work, notices]
  | start starts => cases asked <;> first | (cases starts; done) | cases ends
  | declare | suspend | subscribe | store | stale => cases ends

theorem signalled_of_ended {drive : Drive} {m : List Moment} {p : Pool} {r : Nat}
    (chronicle : Chronicle Contained (start drive) m p) (ended : (p.world.response r).outcome.isSome = true) :
    .notify r ∈ p.works ∨ Signalled r m := by
  obtain ⟨outcome, ended⟩ := Option.isSome_iff_exists.mp ended
  obtain ⟨early, moment, late, operation, outcome, rest, rfl, ends⟩ :=
    exists_ends (Valid.initial drive) chronicle (by rfl) ended
  cases chronicle.cut with
  | @found w before t after work below _ _ first top allowed second =>
    obtain ⟨h, valid⟩ := first.valid
    cases ends with
    | granted stack asks ends found granted =>
      obtain ⟨published, above, base, same⟩ := Grants.notifies (valid.grants found granted) ends
      have goes := step_asks (w := w) stack asks
      rw [World.serve_granted found granted] at goes
      have pending : (step w t).2.stack = above ++ .notify r :: (base ++ rest) := by
        rw [goes]
        simp [Thread.push, same]
      have resolved : ((step w t).1.response r).outcome.isSome = true := by
        have inside := (List.getElem?_eq_some_iff.mp found).1
        rw [goes]
        simpa [World.response, World.setResponse, inside] using published
      rcases performed second (show (before ++ (step w t).2 :: after)[before.length]? = some (step w t).2 by simp) above pending rfl rfl with
        ⟨u, higher, there, stands⟩ | ⟨back, among, -, stands⟩
      · exact .inl (List.mem_flatMap.mpr ⟨u, List.mem_of_getElem? there, by rw [stands]; simp⟩)
      · refine .inr ⟨back, by simp [among], ⟨_, stands⟩, ?_⟩
        obtain ⟨between, later, rfl⟩ := List.append_of_mem among
        cases second.cut with
        | found reached _ _ _ =>
          obtain ⟨h, valid⟩ := (first.move (.run top allowed)).valid
          obtain ⟨notes, run⟩ := reached.history
          rw [valid.outcome_stays run resolved]
          exact resolved

/-- What a chronicle tells of the tasks that wait for a response. -/
structure Woken (r : Nat) (m : List Moment) (p : Pool) : Prop where
  /-- Each call of a client started one waiting task. -/
  begun : p.world.waiters.map Waiter.call? = (m.filterMap Moment.begins?).map some
  /-- A waiter that is neither parked nor has returned has a task, ready or running, and no waiter has two. -/
  going : ∀ id waiter, p.world.waiters[id]? = some waiter →
    p.world.ready.count (.waiter id) + p.works.countP (·.awaits id) = waiter.stage.tasks
  /-- Once the outcome is published, the tasks are notified. -/
  signalled : (p.world.response r).outcome.isSome = true → .notify r ∈ p.works ∨ Signalled r m
  /-- Once they were notified, none is parked, or about to park without having been notified. -/
  roused : Signalled r m → ∀ id waiter, p.world.waiters[id]? = some waiter → waiter.r = r →
    waiter.stage ≠ .parked ∧ (.park id ∈ p.works → waiter.stage = .notified)
  early : (p.world.response r).state.isTerminal = false →
    p.world.deliveries r = [] ∧ ∀ waiter ∈ p.world.waiters, waiter.r = r → waiter.stage ≠ .finished
  /-- A waiter returns once, with what was published, which is also what is read and what listeners hear. -/
  once : ∀ label, ((p.world.deliveries r).map Prod.fst).count label = p.world.waiters.countP (·.finishes r label)
  agreed : ∀ delivery ∈ p.world.deliveries r, (p.world.response r).outcome = some delivery.2
  read : ∀ moment ∈ m, ∀ outcome, (moment.world.response r).outcome = some outcome →
    (p.world.response r).outcome = some outcome
  heard : ∀ moment ∈ m, ∀ index listener outcome rest, moment.thread.stack = .listen r index listener outcome :: rest →
    (p.world.response r).outcome = some outcome
  /-- When nothing is left to do, all who waited for a resolved response have returned. -/
  all : (p.world.response r).state.isTerminal = true → p.works = [] → (∀ id, .waiter id ∉ p.world.ready) →
    (∀ waiter ∈ p.world.waiters, waiter.r = r → waiter.stage = .finished) ∧
    ∀ label, ((p.world.deliveries r).map Prod.fst).count label = (m.filterMap Moment.begins?).count (r, label)

/-- No wake-up is lost, however the steps of those who wait, of the call that ends the response and of any
other threads are interleaved: whoever waits for a resolved response is notified or finds the outcome before
it parks, nobody returns earlier, and all who return get the outcome that everybody else gets. -/
theorem no_wakeup_lost {drive : Drive} {m : List Moment} {p : Pool} (tasking : Tasking Contained (start drive) m p) (r : Nat) :
    Woken r m p := by
  have chronicle := tasking.chronicle
  have waited := Waited.of_tasking tasking
  obtain ⟨h, valid⟩ := chronicle.valid
  constructor
  case begun => exact waited.begun
  case going => exact fun id waiter => waited.going
  case signalled => exact signalled_of_ended chronicle
  case roused => exact waited.roused r
  case early => exact fun unresolved => waited.none_returned ((valid.unresolved_iff r).mp unresolved)
  case once => exact waited.told r
  case agreed => exact waited.agreed r
  case read =>
    intro moment among outcome published
    obtain ⟨past, later, rfl⟩ := List.append_of_mem among
    exact chronicle.outcome_from published
  case heard =>
    intro moment among index listener outcome rest stack
    obtain ⟨past, later, rfl⟩ := List.append_of_mem among
    exact chronicle.outcome_from (chronicle.hears_outcome stack).1
  case all =>
    intro resolved idle none
    have signalled := (signalled_of_ended chronicle ((valid.outcome_iff r).1.mpr resolved)).resolve_left (by rw [idle]; simp)
    have returned := waited.all_returned signalled idle none
    exact ⟨returned, waited.count_returned returned⟩

namespace Tasking

variable {rule : World → Thread → Prop} {m : List Moment} {p : Pool} {w : World} {threads : List Thread}

theorem thread (before after : List Thread) {t : Thread} (past : Tasking rule p m ⟨w, before ++ t :: after⟩) (fuel : Nat)
    (obeys : Obeys rule fuel w t) :
    ∃ m, Tasking rule p m ⟨(runThread fuel w t).1, before ++ (runThread fuel w t).2 :: after⟩ := by
  induction fuel generalizing m w t with
  | zero => exact ⟨m, past⟩
  | succ fuel ih =>
    unfold runThread
    split
    · exact ⟨m, past⟩
    next busy =>
      rcases obeys with idle | ⟨allowed, obeys⟩
      · exact absurd idle busy
      · cases stack : t.stack with
        | nil => simp [stack] at busy
        | cons work rest => exact ih (past.run stack allowed) obeys

theorem call (past : Tasking rule p m ⟨w, threads⟩) (action : Action) (fuel : Nat)
    (obeys : Obeys rule fuel w { stack := [.call action] }) :
    ∃ m, Tasking rule p m ⟨(runThread fuel w { stack := [.call action] }).1,
      threads ++ [(runThread fuel w { stack := [.call action] }).2]⟩ :=
  (past.spawn (.inl ⟨action, rfl⟩) (by simp)).thread threads [] fuel obeys

theorem first (past : Tasking rule p m ⟨w, threads⟩) {id : Nat} {later : List Task} (ready : w.ready = .waiter id :: later) (fuel : Nat)
    (obeys : Obeys rule fuel { w with ready := later } (Task.waiter id).thread) :
    ∃ m, Tasking rule p m ⟨(runThread fuel { w with ready := later } (Task.waiter id).thread).1,
      threads ++ [(runThread fuel { w with ready := later } (Task.waiter id).thread).2]⟩ :=
  (past.start (show w.ready = [] ++ .waiter id :: later from ready)).thread threads [] fuel obeys

end Tasking

/-- One task is parked, one has found no outcome and is about to park, and one is begun between the publication
and the notification. -/
theorem no_wakeup_lost_racing : ∃ m p, Tasking Contained (start .runtime) m p ∧
    p.world.deliveries 0 = [("third", .completed "value"), ("second", .completed "value"), ("first", .completed "value")] ∧
    (∀ waiter ∈ p.world.waiters, waiter.r = 0 → waiter.stage = .finished) ∧ ((m.filterMap Moment.begins?).count (0, "first") = 1) := by
  have begun : Tasking Contained (start .runtime) [] (start .runtime) := .refl
  obtain ⟨_, made⟩ := begun.call (.create 1 .events) 9 (by decide)
  obtain ⟨_, one⟩ := made.call (.wait 0 "first") 9 (by decide)
  obtain ⟨_, two⟩ := one.call (.wait 0 "second") 9 (by decide)
  obtain ⟨_, parked⟩ := two.first rfl 3 (by decide)
  obtain ⟨_, parking⟩ := parked.first rfl 2 (by decide)
  obtain ⟨_, published⟩ := parking.call (.resume 0 "value") 1 (by decide)
  obtain ⟨_, three⟩ := published.call (.wait 0 "third") 9 (by decide)
  obtain ⟨_, found⟩ := three.first rfl 9 (by decide)
  obtain ⟨_, notified⟩ := found.thread [_, _, _, _, _] [_, _] 30 (by decide)
  obtain ⟨_, renewed⟩ := notified.thread [_, _, _, _] [_, _, _] 9 (by decide)
  obtain ⟨m, returned⟩ := renewed.first rfl 9 (by decide)
  have told := no_wakeup_lost returned 0
  obtain ⟨finished, counts⟩ := told.all rfl rfl fun _ => List.not_mem_nil
  exact ⟨m, _, returned, rfl, finished, (counts "first").symm⟩

end Pool
end Deferral.Simulation
