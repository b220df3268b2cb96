import Deferral.Proofs.Attendance

/-! Every listener runs once, in order, and apart from the others. A call that has listeners to run keeps
them on its stack above its own return, and a panic takes nothing from there but what is left of the
listener that panicked. -/

namespace Deferral.Simulation

/-- The work of a call that runs listeners of a response, in order. -/
def notices (r : Nat) (outcome : Outcome String) (listeners : List (Nat × Listener)) : List Work :=
  listeners.map fun (index, listener) => .listen r index listener outcome

theorem Grants.ends_work {r : Nat} {x : Response String Listener} {asked : Request} {g : Grant} {operation : Operation}
    {outcome : Outcome String} (grants : Grants r x asked g) (ends : asked.ending? = some (operation, outcome)) :
    x.state.isTerminal = false ∧
      ∃ above, g.work r = above ++ notices r outcome x.listeners ++ [.settled r operation] := by
  cases grants with
  | finish ends' current unresolved =>
    cases ends.symm.trans ends'
    refine ⟨unresolved, x.timer.toList.map .disarm ++ [.notify r, .announce r outcome x.listeners.length], ?_⟩
    simp [Grant.work, notices]
  | start starts => cases asked <;> first | (cases starts; done) | cases ends
  | declare | suspend | subscribe | store | stale => cases ends

namespace Delivery

variable {w w' : World} {work : Work} {rest stack : List Work}

theorem pushes (delivery : Delivery w work rest w' stack) :
    (∃ pushed, stack = pushed ++ rest) ∨
      ∃ message, work = .call (.panic message) ∧ stack = (rest.dropWhile (!·.isGuard)).tail := by
  cases delivery with
  | granted => exact .inl ⟨_, rfl⟩
  | @listened r index listener => exact .inl ⟨[listener.work r, .guardListener r index], rfl⟩
  | returned | misreported => exact .inl ⟨[], rfl⟩
  | untracked => exact .inl ⟨[.measure], rfl⟩
  | @registered r => exact .inl ⟨[.measure, .request r (.subscribe .untrack), .answer .done], rfl⟩
  | panicked => exact .inr ⟨_, rfl, rfl⟩
  | passed pushed => exact .inl ⟨pushed, rfl⟩

theorem keeps (delivery : Delivery w work rest w' stack) (caught : Caught work rest) {above base : List Work} {f : Work}
    (same : rest = above ++ f :: base) (unscripted : f.isScripted = false) (unguarded : f.isGuard = false) :
    ∃ above, stack = above ++ f :: base := by
  rcases delivery.pushes with ⟨pushed, rfl⟩ | ⟨message, rfl, rfl⟩
  · exact ⟨pushed ++ above, by rw [same, List.append_assoc]⟩
  · obtain ⟨scripts, r, index, below, rfl, scripted⟩ := caught message rfl
    rw [dropWhile_guard scripted, List.tail_cons]
    rcases List.append_eq_append_iff.mp same with ⟨between, rfl, guard⟩ | ⟨between, rfl, kept⟩
    · cases between with
      | nil =>
        cases guard
        cases unguarded
      | cons guarded between =>
        cases guard
        exact ⟨between, rfl⟩
    · cases between with
      | nil =>
        cases kept
        cases unguarded
      | cons first between =>
        cases kept
        rw [scripted f (by simp)] at unscripted
        cases unscripted

end Delivery

namespace Pool

variable {m : List Moment} {p : Pool} {r : Nat}

namespace Attended

theorem once (attended : Attended m p r) (index : Nat) :
    p.works.countP (·.listens r (·.1 == index)) + (heard r m).countP (·.1 == index) ≤ 1 := by
  have numbers : (registered r m).countP (·.1 == index) = ((registered r m).map Prod.fst).count index := by
    rw [List.count_eq_countP, List.countP_map]
    rfl
  have one : ((registered r m).map Prod.fst).count index ≤ 1 := by
    rw [attended.numbered]
    exact List.nodup_iff_count.mp List.nodup_range index
  have counts := attended.accounted (·.1 == index)
  omega

theorem heard_once (attended : Attended m p r) (index : Nat) : ((heard r m).map Prod.fst).count index ≤ 1 := by
  have one := attended.once index
  rw [List.count_eq_countP, List.countP_map]
  exact Nat.le_trans (Nat.le_add_left _ _) one

theorem registered_of_heard (attended : Attended m p r) {listener : Nat × Listener} (member : listener ∈ heard r m) :
    listener ∈ registered r m := by
  classical
  have counts := attended.accounted fun other => decide (other = listener)
  have positive : 0 < (heard r m).countP fun other => decide (other = listener) :=
    List.countP_pos_iff.mpr ⟨listener, member, by simp⟩
  obtain ⟨other, inside, same⟩ := List.countP_pos_iff.mp (Nat.lt_of_lt_of_le positive (counts ▸ Nat.le_add_left _ _))
  rw [← of_decide_eq_true same]
  exact inside

theorem unheard (attended : Attended m p r) (none : (p.world.response r).outcome = none) : heard r m = [] := by
  have counts := attended.accounted fun _ => true
  rw [attended.kept none] at counts
  have empty : (heard r m).countP (fun _ => true) = 0 := by omega
  rw [List.countP_true] at empty
  exact List.length_eq_zero_iff.mp empty

theorem heard_all (attended : Attended m p r) (ended : (p.world.response r).outcome.isSome = true) (idle : p.works = []) :
    (heard r m).Perm (registered r m) := by
  classical
  refine List.perm_iff_count.mpr fun listener => ?_
  have counts := attended.accounted (· == listener)
  rw [attended.released ended, idle] at counts
  rw [List.count_eq_countP, List.count_eq_countP, counts]
  simp

theorem failed_once (attended : Attended m p r) (index : Nat) : ((failed r m).map Prod.fst).count index ≤ 1 := by
  have guarded := attended.guarded index
  have one := attended.heard_once index
  omega

theorem heard_of_failed (attended : Attended m p r) {failure : Nat × String} (member : failure ∈ failed r m) :
    failure.1 ∈ (heard r m).map Prod.fst := by
  have guarded := attended.guarded failure.1
  have positive : 0 < ((failed r m).map Prod.fst).count failure.1 := List.count_pos_iff.mpr (List.mem_map_of_mem member)
  exact List.count_pos_iff.mp (by omega)

end Attended

namespace Chronicle

variable {rule : World → Thread → Prop} {drive : Drive} {q : Pool} {past later : List Moment} {moment : Moment}
  {outcome : Outcome String}

/-- A response keeps the outcome that it has. -/
theorem keeps_outcome (first : Chronicle rule (start drive) past q) (second : Chronicle rule q later p)
    (published : (q.world.response r).outcome = some outcome) : (p.world.response r).outcome = some outcome := by
  obtain ⟨h, valid⟩ := first.valid
  obtain ⟨notes, run⟩ := second.history
  exact (valid.outcome_stays run (by rw [published]; rfl)).trans published

theorem outcome_from (chronicle : Chronicle rule (start drive) (past ++ moment :: later) p)
    (published : (moment.world.response r).outcome = some outcome) : (p.world.response r).outcome = some outcome := by
  cases chronicle.cut with
  | found first top allowed second => exact first.keeps_outcome ((Chronicle.refl.move (.run top allowed)).trans second) published

theorem hears_outcome {index : Nat} {listener : Listener} {rest : List Work}
    (chronicle : Chronicle Contained (start drive) (past ++ moment :: later) p)
    (stack : moment.thread.stack = .listen r index listener outcome :: rest) :
    (moment.world.response r).outcome = some outcome ∧ (moment.world.response r).state = outcome.state := by
  cases chronicle.cut with
  | found first top allowed second =>
    have published := (Attended.of_chronicle first r).published index listener outcome
      (mem_works_here stack (List.mem_cons_self ..))
    obtain ⟨h, valid⟩ := first.valid
    exact ⟨published, ((valid.outcome_iff r).2 outcome published).symm⟩

end Chronicle

def heardAmong (r : Nat) (listeners : List (Nat × Listener)) (m : List Moment) : List (Nat × Listener) :=
  (heard r m).filter fun listener => (listeners.map Prod.fst).contains listener.1

/-- How far a call has come with the listeners that it has to run: those that ran are the first ones, and
they ran inside the call; the others stand on the stack above what it does afterwards. -/
structure InOrder (r : Nat) (outcome : Outcome String) (listeners : List (Nat × Listener)) (place : Nat)
    (base : List Work) (m : List Moment) (p : Pool) : Prop where
  sequence : ∃ todo, heardAmong r listeners m ++ todo = listeners ∧ (todo ≠ [] → ∃ t above,
    p.threads[place]? = some t ∧ t.stack = above ++ notices r outcome todo ++ base)
  inside : ∀ moment ∈ m, ∀ listener, moment.hears? r = some listener → listener.1 ∈ listeners.map Prod.fst →
    moment.place = place ∧ base <:+ moment.thread.stack

theorem heardAmong_snoc (r : Nat) (listeners : List (Nat × Listener)) (m : List Moment) (moment : Moment) :
    heardAmong r listeners (m ++ [moment]) = heardAmong r listeners m ++
      (moment.hears? r).toList.filter fun listener => (listeners.map Prod.fst).contains listener.1 := by
  unfold heardAmong heard
  rw [List.filterMap_append, List.filter_append]
  cases hears : moment.hears? r <;> simp [hears]

theorem elsewhere {before after : List Thread} {t u : Thread} {place : Nat} (apart : place ≠ before.length) :
    (before ++ u :: after)[place]? = (before ++ t :: after)[place]? ∧
      ∀ v, (before ++ t :: after)[place]? = some v → v ∈ before ++ after := by
  rcases Nat.lt_or_gt_of_ne apart with left | right
  · rw [List.getElem?_append_left left, List.getElem?_append_left left]
    exact ⟨rfl, fun v found => List.mem_append_left _ (List.mem_of_getElem? found)⟩
  · obtain ⟨n, same⟩ : ∃ n, place - before.length = n + 1 := ⟨place - before.length - 1, by omega⟩
    rw [List.getElem?_append_right (by omega), List.getElem?_append_right (by omega), same]
    exact ⟨rfl, fun v found => List.mem_append_right _ (List.mem_of_getElem? found)⟩

namespace InOrder

variable {outcome : Outcome String} {listeners : List (Nat × Listener)} {place : Nat} {base : List Work}
  {past later : List Moment}

theorem initial {t : Thread} {above : List Work} (found : p.threads[place]? = some t)
    (stack : t.stack = above ++ notices r outcome listeners ++ base) : InOrder r outcome listeners place base [] p :=
  ⟨⟨listeners, rfl, fun _ => ⟨t, above, found, stack⟩⟩, by simp⟩

theorem countP_notices {index : Nat} (member : index ∈ listeners.map Prod.fst) :
    0 < (notices r outcome listeners).countP (·.listens r (·.1 == index)) := by
  obtain ⟨listener, inside, rfl⟩ := List.mem_map.mp member
  refine List.countP_pos_iff.mpr ⟨_, List.mem_map.mpr ⟨listener, inside, rfl⟩, ?_⟩
  simp [Work.listens, Work.hears?]

/-- Of the listeners that a call has to run, only the first one that is left can run next, and it does so there. -/
theorem next {w : World} {before after : List Thread} {t : Thread} {work : Work} {rest : List Work}
    {todo : List (Nat × Listener)} {listener : Nat × Listener}
    (attended : Attended (past ++ later) ⟨w, before ++ t :: after⟩ r) (stack : t.stack = work :: rest)
    (whole : heardAmong r listeners later ++ todo = listeners) (pending : todo ≠ [] → ∃ t' above,
      (before ++ t :: after)[place]? = some t' ∧ t'.stack = above ++ notices r outcome todo ++ base)
    (runs : work.hears? r = some listener) (member : listener.1 ∈ listeners.map Prod.fst) :
    ∃ left, todo = listener :: left ∧ place = before.length ∧ work :: rest = notices r outcome todo ++ base := by
  have one := attended.once listener.1
  have here : work.listens r (·.1 == listener.1) = true := by simp [Work.listens, runs]
  rw [countP_works_run, stack, List.countP_cons, if_pos here] at one
  rw [← whole, List.map_append, List.mem_append] at member
  rcases member with gone | left
  · have counted : 0 < (heard r (past ++ later)).countP (·.1 == listener.1) := by
      obtain ⟨other, among, same⟩ := List.mem_map.mp gone
      refine List.countP_pos_iff.mpr ⟨other, ?_, by simp [same]⟩
      rw [heard, List.filterMap_append]
      exact List.mem_append_right _ (List.mem_filter.mp among).1
    omega
  · obtain ⟨first, todo, rfl⟩ := List.exists_cons_of_ne_nil (List.ne_nil_of_mem (List.mem_map.mp left).choose_spec.1)
    obtain ⟨t', above, found, stack'⟩ := pending (List.cons_ne_nil _ _)
    have counted : 0 < (notices r outcome (first :: todo)).countP (·.listens r (·.1 == listener.1)) := countP_notices left
    by_cases same : place = before.length
    · rw [same, List.getElem?_append_right (Nat.le_refl _), Nat.sub_self, List.getElem?_cons_zero] at found
      cases found
      rw [stack] at stack'
      cases above with
      | nil =>
        rw [List.nil_append] at stack'
        have top : work = .listen r first.1 first.2 outcome := by cases stack'; rfl
        rw [top] at runs
        have first : first = listener := by simpa [Work.hears?] using runs
        rw [← first]
        exact ⟨todo, rfl, same, stack'⟩
      | cons other above =>
        have below : rest = above ++ notices r outcome (first :: todo) ++ base := (List.cons.inj stack').2
        have counts : (notices r outcome (first :: todo)).countP (·.listens r (·.1 == listener.1)) ≤
            rest.countP (·.listens r (·.1 == listener.1)) := by
          rw [below, List.append_assoc]
          exact (List.sublist_append_of_sublist_right (List.sublist_append_left _ _)).countP_le
        omega
    · have among := (elsewhere (u := t) same).2 t' found
      have others : 0 < (Pool.mk w (before ++ after)).works.countP (·.listens r (·.1 == listener.1)) := by
        obtain ⟨f, inside, listens⟩ := List.countP_pos_iff.mp counted
        refine List.countP_pos_iff.mpr ⟨f, List.mem_flatMap.mpr ⟨t', among, ?_⟩, listens⟩
        rw [stack']
        simp [inside]
      omega

theorem run {w : World} {before after : List Thread} {t : Thread} {work : Work} {rest : List Work}
    (order : InOrder r outcome listeners place base later ⟨w, before ++ t :: after⟩)
    (attended : Attended (past ++ later) ⟨w, before ++ t :: after⟩ r) (stack : t.stack = work :: rest)
    (allowed : Contained w t) :
    InOrder r outcome listeners place base (later ++ [⟨before.length, w, t⟩])
      ⟨(step w t).1, before ++ (step w t).2 :: after⟩ := by
  have delivery := step_delivery (w := w) stack
  have caught := allowed.caught stack
  have hears : Moment.hears? r ⟨before.length, w, t⟩ = work.hears? r := by simp [Moment.hears?, stack]
  have mine {u : Thread} : (before ++ u :: after)[before.length]? = some u := by simp
  obtain ⟨⟨todo, whole, pending⟩, inside⟩ := order
  by_cases named : ∃ listener, work.hears? r = some listener ∧ listener.1 ∈ listeners.map Prod.fst
  · obtain ⟨listener, runs, member⟩ := named
    obtain ⟨left, rfl, rfl, same⟩ := next attended stack whole pending runs member
    obtain ⟨rfl, rfl⟩ : work = .listen r listener.1 listener.2 outcome ∧ rest = notices r outcome left ++ base := by
      cases same
      exact ⟨rfl, rfl⟩
    refine ⟨⟨left, ?_, fun _ => ?_⟩, ?_⟩
    · rw [heardAmong_snoc, hears, runs, Option.toList_some, List.filter_cons_of_pos (by simpa using member),
        List.filter_nil, List.append_assoc]
      exact whole
    · obtain ⟨pushed, kept⟩ | ⟨message, panics, -⟩ := delivery.pushes
      · exact ⟨_, pushed, mine, by rw [kept, List.append_assoc]⟩
      · cases panics
    · intro moment among heard
      rcases List.mem_append.mp among with old | new
      · exact inside moment old heard
      · rw [List.mem_singleton.mp new]
        refine fun _ _ => ⟨rfl, ?_⟩
        rw [stack]
        exact ⟨_ :: notices r outcome left, rfl⟩
  · refine ⟨⟨todo, ?_, fun some => ?_⟩, ?_⟩
    · rw [heardAmong_snoc, hears]
      cases runs : work.hears? r with
      | none => simpa using whole
      | some listener =>
        have other : listener.1 ∉ listeners.map Prod.fst := fun member => named ⟨listener, runs, member⟩
        rw [Option.toList_some, List.filter_cons_of_neg (by simpa using other), List.filter_nil, List.append_nil]
        exact whole
    · obtain ⟨t', above, found, stack'⟩ := pending some
      by_cases same : place = before.length
      · rw [same, mine] at found
        cases found
        obtain ⟨first, left, rfl⟩ := List.exists_cons_of_ne_nil some
        rw [stack] at stack'
        cases above with
        | nil =>
          cases stack'
          refine absurd ⟨first, by simp [Work.hears?], ?_⟩ named
          rw [← whole]
          simp
        | cons top above =>
          have waiting : rest = above ++ .listen r first.1 first.2 outcome :: (notices r outcome left ++ base) := by
            simpa [notices] using (List.cons.inj stack').2
          obtain ⟨above, kept⟩ := delivery.keeps caught waiting rfl rfl
          exact ⟨_, above, by rw [same, mine], by rw [kept]; simp [notices]⟩
      · exact ⟨t', above, (elsewhere same).1.trans found, stack'⟩
    · intro moment among listener heard member
      rcases List.mem_append.mp among with old | new
      · exact inside moment old listener heard member
      · rw [List.mem_singleton.mp new, hears] at heard
        exact absurd ⟨listener, heard, member⟩ named

theorem of_chronicle {drive : Drive} {q : Pool} {t : Thread} {above : List Work}
    (first : Chronicle Contained (start drive) past q) (found : q.threads[place]? = some t)
    (stack : t.stack = above ++ notices r outcome listeners ++ base) (second : Chronicle Contained q later p) :
    InOrder r outcome listeners place base later p := by
  induction second with
  | refl => exact initial found stack
  | move middle next ih =>
    cases next with
    | run top allowed => exact ih.run (.of_chronicle (first.trans middle) r) top allowed
    | @spawn w threads u fresh =>
      rw [List.append_nil]
      obtain ⟨⟨todo, whole, pending⟩, inside⟩ := ih
      refine ⟨⟨todo, whole, fun some => ?_⟩, inside⟩
      obtain ⟨t, above, found, stack⟩ := pending some
      exact ⟨t, above, (List.getElem?_append_left (List.getElem?_eq_some_iff.mp found).1).trans found, stack⟩
    | wait now sleeping ready =>
      rw [List.append_nil]
      exact ⟨ih.sequence, ih.inside⟩

theorem finished (order : InOrder r outcome listeners place base later p) {t : Thread}
    (found : p.threads[place]? = some t) (stack : t.stack = base) : heardAmong r listeners later = listeners := by
  obtain ⟨todo, whole, pending⟩ := order.sequence
  cases todo with
  | nil => rwa [List.append_nil] at whole
  | cons first left =>
    obtain ⟨u, above, found', stack'⟩ := pending (List.cons_ne_nil _ _)
    cases found.symm.trans found'
    rw [stack] at stack'
    have longer := congrArg List.length stack'
    simp only [notices, List.map_cons, List.length_append, List.length_cons] at longer
    omega

end InOrder

/-- A call that ends a response, with what the thread does after it. -/
inductive Ends (r : Nat) (operation : Operation) (outcome : Outcome String) (rest : List Work) : Moment → Prop where
  | granted {place w t work asked x grant} (stack : t.stack = work :: rest) (asks : work.request? = some (r, asked))
      (ends : asked.ending? = some (operation, outcome)) (found : w.responses[r]? = some x)
      (granted : asked.grant r x = .ok grant) : Ends r operation outcome rest ⟨place, w, t⟩

/-- A call that registers a listener on a response that has ended, with what the thread does after it. -/
inductive JoinsLate (r : Nat) (listener : Nat × Listener) (outcome : Outcome String) (rest : List Work) : Moment → Prop where
  | granted {place w t work x} (stack : t.stack = work :: rest) (asks : work.request? = some (r, .subscribe listener.2))
      (found : w.responses[r]? = some x) (ended : x.outcome = some outcome) (number : x.nextListener = listener.1) :
      JoinsLate r listener outcome rest ⟨place, w, t⟩

section Calls

variable {drive : Drive} {outcome : Outcome String} {listeners : List (Nat × Listener)} {base rest above : List Work}
  {past early later : List Moment} {moment back : Moment} {operation : Operation} {listener : Nat × Listener}

theorem inOrder_of_step (chronicle : Chronicle Contained (start drive) (past ++ moment :: later) p)
    (stack : (step moment.world moment.thread).2.stack = above ++ notices r outcome listeners ++ base) :
    InOrder r outcome listeners moment.place base later p := by
  cases chronicle.cut with
  | found first top allowed second => exact .of_chronicle (first.move (.run top allowed)) (by simp) stack second

theorem heard_of_back (chronicle : Chronicle Contained (start drive) (past ++ moment :: (early ++ back :: later)) p)
    (stack : (step moment.world moment.thread).2.stack = above ++ notices r outcome listeners ++ base)
    (same : back.place = moment.place) (next : back.thread.stack = base) : heardAmong r listeners early = listeners := by
  rw [← List.cons_append, ← List.append_assoc] at chronicle
  cases chronicle.cut with
  | found first top allowed second =>
    have order := inOrder_of_step first stack
    rw [← same] at order
    exact order.finished (by simp) next

theorem Ends.stack (chronicle : Chronicle Contained (start drive) (past ++ moment :: later) p)
    (ends : Ends r operation outcome rest moment) : ∃ above, (step moment.world moment.thread).2.stack =
      above ++ notices r outcome (registered r past) ++ .settled r operation :: rest := by
  cases chronicle.cut with
  | found first top allowed second =>
    cases ends with
    | granted stack asks ends found granted =>
      obtain ⟨h, valid⟩ := first.valid
      have attended := Attended.of_chronicle first r
      have response := World.response_found found
      obtain ⟨unresolved, above, work⟩ := (valid.grants found granted).ends_work ends
      have kept := attended.kept ((valid.unresolved_iff r).mp (by rw [response]; exact unresolved))
      refine ⟨above, ?_⟩
      rw [step_asks stack asks, World.serve_granted found granted, ← kept, response]
      simp [Thread.push, work]

theorem JoinsLate.stack (joins : JoinsLate r listener outcome rest moment) :
    (step moment.world moment.thread).2.stack = [] ++ notices r outcome [listener] ++ .answer .done :: rest := by
  cases joins with
  | granted stack asks found ended number =>
    rw [step_asks stack asks, World.serve_granted found (Request.grant_subscribe ended _), number]
    rfl

end Calls

/-- What a chronicle tells of the listeners of a response. -/
structure Notified (r : Nat) (m : List Moment) (p : Pool) : Prop where
  numbered : (registered r m).map Prod.fst = List.range (registered r m).length
  once : ((heard r m).map Prod.fst).Nodup ∧ ∀ listener ∈ heard r m, listener ∈ registered r m
  early : (p.world.response r).state.isTerminal = false → heard r m = []
  all : (p.world.response r).state.isTerminal = true → p.works = [] → (heard r m).Perm (registered r m)
  /-- A listener hears the outcome that the response has from then on, and finds it in its terminal state. -/
  published : ∀ moment ∈ m, ∀ index listener outcome rest, moment.thread.stack = .listen r index listener outcome :: rest →
    (moment.world.response r).outcome = some outcome ∧ (moment.world.response r).state = outcome.state ∧
      (p.world.response r).outcome = some outcome
  /-- The call that ends the response runs the listeners registered before, in order, and then returns. -/
  winning : ∀ past moment later operation outcome rest, m = past ++ moment :: later → Ends r operation outcome rest moment →
    InOrder r outcome (registered r past) moment.place (.settled r operation :: rest) later p ∧
    ∀ before back after, later = before ++ back :: after → back.place = moment.place →
      back.thread.stack = .settled r operation :: rest →
        heardAmong r (registered r past) before = registered r past ∧
        step back.world back.thread = (back.world, { back.thread with stack := rest, result := .done })
  /-- A registration on a response that has ended runs the listener, and then returns. -/
  late : ∀ past moment later listener outcome rest, m = past ++ moment :: later → JoinsLate r listener outcome rest moment →
    InOrder r outcome [listener] moment.place (.answer .done :: rest) later p ∧
    ∀ before back after, later = before ++ back :: after → back.place = moment.place →
      back.thread.stack = .answer .done :: rest → heardAmong r [listener] before = [listener]
  /-- The sink of the response is told of each panic, once for a listener, and no sink of anything else. -/
  reported : (∀ sink, p.world.told sink r = if sink = (p.world.response r).sink then failed r m else []) ∧
    ((failed r m).map Prod.fst).Nodup ∧ ∀ failure ∈ failed r m, failure.1 ∈ (heard r m).map Prod.fst
  /-- A panic touches no response, timer or table, and the thread goes on as if the listener had returned. -/
  isolated : ∀ moment ∈ m, ∀ failure, moment.fails? r = some failure →
    (step moment.world moment.thread).1.responses = moment.world.responses ∧
    (step moment.world moment.thread).1.timers = moment.world.timers ∧
    (step moment.world moment.thread).1.registry = moment.world.registry ∧
    ∃ above below, moment.thread.stack = above ++ .guardListener r failure.1 :: below ∧
      (step moment.world moment.thread).2 = { moment.thread with stack := below }

theorem step_panic {w : World} {t : Thread} {work : Work} {rest : List Work} {failure : Nat × String}
    (stack : t.stack = work :: rest) (contained : Contained w t) (fails : failure? r (work :: rest) = some failure) :
    (step w t).1.responses = w.responses ∧ (step w t).1.timers = w.timers ∧ (step w t).1.registry = w.registry ∧
    ∃ above below, t.stack = above ++ .guardListener r failure.1 :: below ∧ (step w t).2 = { t with stack := below } := by
  cases work with
  | call action =>
    cases action with
    | panic message =>
      obtain ⟨above, s, index, below, rfl, scripted⟩ := contained.caught stack message rfl
      rw [failure?_guard message scripted] at fails
      split at fails
      · next same =>
        cases fails
        subst same
        have unwinds := World.unwind_guard (t := { t with stack := above ++ .guardListener s index :: below }) rfl
          fun f member => Work.not_guard_of_scripted (scripted f member)
        have goes : step w t = w.panic { t with stack := above ++ .guardListener s index :: below } message := by
          unfold step
          rw [stack]
          rfl
        rw [goes]
        unfold World.panic
        rw [unwinds]
        refine ⟨?_, ?_, ?_, .call (.panic message) :: above, below, stack, ?_⟩
        all_goals
          dsimp only
          split <;> rfl
      · cases fails
    | _ => cases fails
  | _ => cases fails

/-- Every listener runs at most once, and it has run once the call that ends the response has returned or
no call is in progress; those registered before run in order inside that call, the others inside their
registration; each hears the outcome that was published; and a panic is reported once and changes nothing
else. -/
theorem listeners_notified {drive : Drive} (chronicle : Chronicle Contained (start drive) m p) (r : Nat) : Notified r m p := by
  obtain ⟨h, valid⟩ := chronicle.valid
  have attended := Attended.of_chronicle chronicle r
  constructor
  case numbered =>
    have length := congrArg List.length attended.numbered
    rw [List.length_map, List.length_range] at length
    rw [length]
    exact attended.numbered
  case once => exact ⟨List.nodup_iff_count.mpr attended.heard_once, fun _ => attended.registered_of_heard⟩
  case early => exact fun unresolved => attended.unheard ((valid.unresolved_iff r).mp unresolved)
  case all => exact fun terminal => attended.heard_all ((valid.outcome_iff r).1.mpr terminal)
  case published =>
    intro moment member index listener outcome rest stack
    obtain ⟨past, later, rfl⟩ := List.append_of_mem member
    obtain ⟨published, state⟩ := chronicle.hears_outcome stack
    exact ⟨published, state, chronicle.outcome_from published⟩
  case winning =>
    intro past moment later operation outcome rest told ends
    subst told
    obtain ⟨above, stack⟩ := ends.stack chronicle
    refine ⟨inOrder_of_step chronicle stack, ?_⟩
    rintro before back after rfl same next
    refine ⟨heard_of_back chronicle stack same next, ?_⟩
    simp only [step, next]
    rfl
  case late =>
    intro past moment later listener outcome rest told joins
    subst told
    refine ⟨inOrder_of_step chronicle joins.stack, ?_⟩
    rintro before back after rfl same next
    exact heard_of_back chronicle joins.stack same next
  case reported =>
    exact ⟨attended.told, List.nodup_iff_count.mpr attended.failed_once, fun _ => attended.heard_of_failed⟩
  case isolated =>
    intro moment member failure fails
    obtain ⟨past, later, rfl⟩ := List.append_of_mem member
    cases chronicle.cut with
    | found first top allowed second =>
      refine step_panic top allowed ?_
      rw [← top]
      exact fails

/-- Of two listeners the first panics; the second registers a third, which runs within it. -/
theorem listeners_notified_panicking : ∃ m p, Chronicle Contained (start .runtime) m p ∧
    (p.world.response 0).state = .completed ∧ (registered 0 m).map Prod.fst = [0, 1, 2] ∧
    (heard 0 m).Perm (registered 0 m) ∧ failed 0 m = [(0, "boom")] := by
  have begun : Run Contained (start .runtime) [] (start .runtime) := .refl
  obtain ⟨_, made⟩ := begun.call (.create 1 .events) 9 (by decide)
  obtain ⟨_, first⟩ := made.call (.onResolved 0 "first" [.panic (some "boom")]) 9 (by decide)
  obtain ⟨_, second⟩ := first.call (.onResolved 0 "second" [.onResolved 0 "third" []]) 9 (by decide)
  obtain ⟨_, ended⟩ := second.call (.resume 0 "value") 30 (by decide)
  obtain ⟨m, chronicle⟩ := Chronicle.of_run ended
  have told := listeners_notified chronicle 0
  exact ⟨m, _, chronicle, rfl, (Attended.of_chronicle chronicle 0).numbered, told.all rfl rfl, (told.reported.1 .events).symm⟩

end Pool
end Deferral.Simulation
