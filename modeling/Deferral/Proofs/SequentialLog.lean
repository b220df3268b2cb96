import Deferral.Proofs.CallCounts
import Deferral.Proofs.Refusals

/-! Runs in which one call is in progress at a time, with all the calls that it makes itself. An entry of the
log that says that a response was suspended or its clock started stands on the stack until the timer of an
older clock was cancelled; only what the scheduler runs in that cancel comes between. -/

namespace Deferral.Simulation

theorem Request.operation_of_refused {r : Nat} {x : Response String Listener} {asked : Request} {error : TransitionError}
    (refused : asked.grant r x = .error error) : asked.operation? = some error.operation := by
  cases named : asked.operation? with
  | some operation => rw [((grant_error_iff named).mp refused).2, TransitionError.operation_refuse]
  | none =>
    cases asked with
    | subscribe => cases refused
    | keepTimer timer generation =>
      simp only [grant] at refused
      split at refused <;> cases refused
    | _ => cases named

namespace Pool

def Single (p : Pool) : Prop := p.threads.countP (!·.stack.isEmpty) ≤ 1

/-- A chronicle in which no call begins while another one is in progress. -/
inductive Sequential (rule : World → Thread → Prop) (p : Pool) : List Moment → Pool → Prop where
  | refl : Sequential rule p [] p
  | move {m q moments last} (past : Sequential rule p m q) (next : Move rule q moments last) (single : last.Single) :
      Sequential rule p (m ++ moments) last

variable {rule : World → Thread → Prop} {drive : Drive} {m : List Moment} {p q : Pool}

theorem Single.start (drive : Drive) : (start drive).Single := Nat.zero_le 1

theorem Single.idle {w : World} {before after : List Thread} {t u : Thread} {work : Work} {rest : List Work}
    (single : Single ⟨w, before ++ t :: after⟩) (stack : t.stack = work :: rest) (other : u ∈ before ++ after) :
    u.stack = [] := by
  unfold Single at single
  have none : (before ++ after).countP (!·.stack.isEmpty) = 0 := by
    rw [List.countP_append]
    simp only [List.countP_append, List.countP_cons, stack, List.isEmpty_cons, Bool.not_false, if_true] at single
    omega
  have empty := List.countP_eq_zero.mp none u other
  simpa using empty

namespace Sequential

theorem chronicle (run : Sequential rule p m q) : Chronicle rule p m q := by
  induction run with
  | refl => exact .refl
  | move past next single ih => exact ih.move next

theorem single (run : Sequential rule p m q) (first : p.Single) : q.Single := by
  cases run with
  | refl => exact first
  | move past next single => exact single

theorem single_of_idle {threads : List Thread} (idle : threads.all (·.stack.isEmpty) = true) (w : World) (t : Thread) :
    Single ⟨w, threads ++ [t]⟩ := by
  have none : threads.countP (!·.stack.isEmpty) = 0 := by
    refine List.countP_eq_zero.mpr fun u member => ?_
    simpa using List.all_eq_true.mp idle u member
  unfold Single
  rw [List.countP_append, none, Nat.zero_add]
  exact List.countP_le_length

theorem thread {threads : List Thread} (idle : threads.all (·.stack.isEmpty) = true) {fuel : Nat} {w : World} {t : Thread}
    (run : Sequential rule p m ⟨w, threads ++ [t]⟩) (obeys : Obeys rule fuel w t) :
    ∃ n, Sequential rule p n ⟨(runThread fuel w t).1, threads ++ [(runThread fuel w t).2]⟩ := by
  induction fuel generalizing w t m with
  | zero => exact ⟨m, run⟩
  | succ fuel ih =>
    unfold runThread
    split
    · exact ⟨m, run⟩
    next busy =>
      rcases obeys with done | ⟨allowed, obeys⟩
      · exact absurd done busy
      · cases stack : t.stack with
        | nil => simp [stack] at busy
        | cons work rest => exact ih (run.move (.run stack allowed) (single_of_idle idle _ _)) obeys

theorem call {w : World} {threads : List Thread} (run : Sequential rule p m ⟨w, threads⟩) (action : Action) (fuel : Nat)
    (idle : threads.all (·.stack.isEmpty) = true) (obeys : Obeys rule fuel w { stack := [.call action] }) :
    ∃ n, Sequential rule p n ⟨(runThread fuel w { stack := [.call action] }).1,
      threads ++ [(runThread fuel w { stack := [.call action] }).2]⟩ :=
  thread idle (run.move (.spawn (.inl ⟨action, rfl⟩)) (single_of_idle idle _ _)) obeys

end Sequential

/-- Since the moment `begun` a thread has been having a timer cancelled, with an entry to log when that is
done, and since then no other thread has gone on. -/
structure Cancelling (r : Nat) (event : LogEvent) (below : List Work) (begun : Moment) (inner : List Moment) : Prop where
  timer : ∃ id, begun.thread.stack = .disarm id :: .record event :: below
  unresolved : (begun.world.response r).outcome = none
  inside : ∀ moment ∈ inner, moment.place = begun.place ∧ .record event :: below <:+ moment.thread.stack

/-- An entry was logged late: the call that logs it had a timer cancelled, and the response ended inside that
cancel. -/
def Overtaken (r : Nat) (event : LogEvent) (before : List LogEvent) (m : List Moment) : Prop :=
  ∃ past begun early ending late last later below operation outcome rest,
    m = past ++ begun :: (early ++ ending :: late) ++ last :: later ∧
    Cancelling r event below begun (early ++ ending :: late) ∧ Ends r operation outcome rest ending ∧
    last.place = begun.place ∧ last.thread.stack = .record event :: below ∧ last.world.log.toList = before

theorem Overtaken.later {r : Nat} {event : LogEvent} {before : List LogEvent} (overtaken : Overtaken r event before m)
    (moments : List Moment) : Overtaken r event before (m ++ moments) := by
  obtain ⟨past, begun, early, ending, late, last, later, below, operation, outcome, rest, rfl, told⟩ := overtaken
  exact ⟨past, begun, early, ending, late, last, later ++ moments, below, operation, outcome, rest, by simp, told⟩

/-- Where an entry stands that is to be logged: what stands above it, below it, and how that came about. -/
inductive Awaits (m : List Moment) (w : World) (place : Nat) (event : LogEvent) (below : List Work) : List Work → Prop where
  | next {r} (opens : event.opening? = some r) (unresolved : (w.response r).outcome = none) :
      Awaits m w place event below []
  | timer {r ms replaced id} (starts : event = .timeoutSet r ms replaced) (unresolved : (w.response r).outcome = none) :
      Awaits m w place event below [.disarm id]
  | cancelling {r ms replaced above past begun inner} (starts : event = .timeoutSet r ms replaced)
      (told : m = past ++ begun :: inner) (same : begun.place = place)
      (cancelling : Cancelling r event below begun inner) : Awaits m w place event below above

/-- How the entries that tell of suspensions and clocks stand to those that tell of endings. -/
structure InSequence (m : List Moment) (p : Pool) : Prop where
  awaits : ∀ place t above event below, p.threads[place]? = some t → t.stack = above ++ .record event :: below →
    Awaits m p.world place event below above
  suspended : ∀ r timeout before after, p.world.log.toList = before ++ .suspended r timeout :: after →
    (closings before).filter (·.1 == r) = []
  started : ∀ r ms replaced before after, p.world.log.toList = before ++ .timeoutSet r ms replaced :: after →
    (closings before).filter (·.1 == r) = [] ∨ Overtaken r (.timeoutSet r ms replaced) before m

theorem Awaits.overtaken {w : World} {before after : List Thread} {t : Thread} {event : LogEvent} {rest : List Work}
    (awaits : Awaits m w before.length event rest []) (chronicle : Chronicle rule (start drive) m ⟨w, before ++ t :: after⟩)
    (stack : t.stack = .record event :: rest) : (∃ r, event.opening? = some r ∧ (w.response r).outcome = none) ∨
      ∃ r ms replaced, event = .timeoutSet r ms replaced ∧ Overtaken r event w.log.toList (m ++ [⟨before.length, w, t⟩]) := by
  cases awaits with
  | next opens unresolved => exact .inl ⟨_, opens, unresolved⟩
  | @cancelling r ms replaced _ past begun inner starts told same cancelling =>
    subst told
    cases ended : (w.response r).outcome with
    | none => exact .inl ⟨r, by rw [starts]; rfl, ended⟩
    | some outcome =>
      cases chronicle.cut with
      | @found v front u back work below _ _ first top allowed second =>
        obtain ⟨id, timer⟩ := cancelling.timer
        have unresolved : ((step v u).1.response r).outcome = none := by
          obtain ⟨rfl, -⟩ := List.cons.inj (top.symm.trans timer)
          have kept := (step_effect (w := v) top).kept fun _ _ _ _ asks => by cases asks
          rw [kept.response r]
          exact cancelling.unresolved
        obtain ⟨h, valid⟩ := (first.move (.run top allowed)).valid
        obtain ⟨early, ending, late, operation, outcome, rest', rfl, ends⟩ := exists_ends valid second unresolved ended
        exact .inr ⟨r, ms, replaced, starts, past, _, early, ending, late, ⟨before.length, w, t⟩, [], rest, operation, outcome,
          rest', by simp, cancelling, ends, same.symm, stack, rfl⟩

theorem Awaits.of_telling {w w' : World} {t : Thread} {work : Work} {rest stack above below : List Work} {place : Nat}
    {event : LogEvent} (telling : Telling w work rest w' stack) (top : t.stack = work :: rest)
    (sound : ∀ r, Sound (w.response r))
    (old : ∀ above, t.stack = above ++ .record event :: below → Awaits m w place event below above)
    (waits : stack = above ++ .record event :: below) : Awaits (m ++ [⟨place, w, t⟩]) w' place event below above := by
  have kept (inner : List Work) (same : rest = inner ++ .record event :: below) :
      Awaits (m ++ [⟨place, w, t⟩]) w' place event below above := by
    have whole : t.stack = (work :: inner) ++ .record event :: below := by rw [top, same, List.cons_append]
    generalize waiting : work :: inner = higher at whole
    cases old higher whole with
    | next => cases waiting
    | @timer r ms replaced id starts unresolved =>
      exact .cancelling starts rfl rfl ⟨⟨id, whole⟩, unresolved, by simp⟩
    | @cancelling r ms replaced _ past begun inner starts told same cancelling =>
      have longer : m ++ [⟨place, w, t⟩] = past ++ begun :: (inner ++ [⟨place, w, t⟩]) := by simp [told]
      refine .cancelling starts longer same ⟨cancelling.timer, cancelling.unresolved, fun moment member => ?_⟩
      rcases List.mem_append.mp member with earlier | now
      · exact cancelling.inside moment earlier
      · rw [List.mem_singleton.mp now]
        exact ⟨same.symm, higher, whole.symm⟩
  cases telling with
  | @granted s asked x g asks found granted responses =>
    rcases List.append_eq_append_iff.mp waits with ⟨inner, -, same⟩ | ⟨between, work, same⟩
    · exact kept inner same
    · cases between with
      | nil => exact kept [] same.symm
      | cons first between =>
        obtain ⟨rfl, -⟩ := List.cons.inj same
        have response := World.response_found found
        have agrees := (response ▸ sound s).agrees
        obtain ⟨unresolved, outcome, opens⟩ := Request.grant_records granted work
        have none : (w'.response s).outcome = none := by
          rw [Delivery.granted_here found responses, outcome]
          simpa [unresolved] using agrees
        rcases opens with ⟨timeout, rfl, rfl⟩ | ⟨ms, replaced, rfl, rfl | ⟨id, rfl⟩⟩
        · exact .next rfl none
        · exact .next rfl none
        · exact .timer rfl none
  | pushed pushed untold =>
    rcases List.append_eq_append_iff.mp waits with ⟨inner, -, same⟩ | ⟨between, work, same⟩
    · exact kept inner same
    · cases between with
      | nil => exact kept [] same.symm
      | cons first between =>
        obtain ⟨rfl, -⟩ := List.cons.inj same
        have among : .record event ∈ pushed := by simp [work]
        cases untold _ among
  | unwound =>
    obtain ⟨dropped, same⟩ := (List.tail_suffix _).trans (List.dropWhile_suffix (!·.isGuard) (l := rest))
    rw [waits, ← List.append_assoc] at same
    exact kept _ same.symm

namespace InSequence

theorem initial (drive : Drive) : InSequence [] (start drive) := by
  refine ⟨fun place t above event below found => ?_, fun r timeout before after log => ?_,
    fun r ms replaced before after log => ?_⟩
  · simp [start] at found
  · simp [start] at log
  · simp [start] at log

theorem spawn {w : World} {threads : List Thread} {t : Thread} (ordered : InSequence m ⟨w, threads⟩) (fresh : t.Fresh) :
    InSequence m ⟨w, threads ++ [t]⟩ := by
  refine ⟨fun place u above event below found stack => ?_, ordered.suspended, ordered.started⟩
  have among : .record event ∈ u.stack := by simp [stack]
  rcases Nat.lt_or_ge place threads.length with old | new
  · exact ordered.awaits place u above event below ((List.getElem?_append_left old).symm.trans found) stack
  · have own : u ∈ [t] := List.mem_of_getElem? ((List.getElem?_append_right new).symm.trans found)
    rw [List.mem_singleton.mp own] at among
    cases fresh.untold _ among

theorem run {w : World} {before after : List Thread} {t : Thread} {work : Work} {rest : List Work}
    (ordered : InSequence m ⟨w, before ++ t :: after⟩) (reconciled : Reconciled m ⟨w, before ++ t :: after⟩)
    (chronicle : Chronicle rule (start drive) m ⟨w, before ++ t :: after⟩) (sound : ∀ r, Sound (w.response r))
    (stack : t.stack = work :: rest) (single : Single ⟨w, before ++ t :: after⟩) :
    InSequence (m ++ [⟨before.length, w, t⟩]) ⟨(step w t).1, before ++ (step w t).2 :: after⟩ := by
  have telling := (step_effect (w := w) stack).telling
  have awaiting (above : List Work) (event : LogEvent) (below : List Work) (same : t.stack = above ++ .record event :: below) :
      Awaits m w before.length event below above := ordered.awaits _ t above event below (by simp) same
  have booking := step_booking (w := w) stack
  have recorded {event : LogEvent} (records : work = .record event) :
      (∃ r, event.opening? = some r ∧ (closings w.log.toList).filter (·.1 == r) = []) ∨
        ∃ r ms replaced, event = .timeoutSet r ms replaced ∧
          Overtaken r event w.log.toList (m ++ [⟨before.length, w, t⟩]) := by
    subst records
    rcases (awaiting [] event rest stack).overtaken chronicle stack with ⟨r, opens, unresolved⟩ | late
    · exact .inl ⟨r, opens, reconciled.unlogged unresolved⟩
    · exact .inr late
  refine ⟨fun place u above event below found waits => ?_, fun r timeout early late same => ?_,
    fun r ms replaced early late same => ?_⟩
  · by_cases here : place = before.length
    · subst here
      obtain rfl : (step w t).2 = u := by simpa using found
      exact .of_telling telling stack sound (fun above => awaiting above event below) waits
    · have other := (elsewhere (t := (step w t).2) (u := t) here).2 u found
      rw [single.idle stack other] at waits
      simp at waits
  · rcases booking.logged rfl same with ⟨late, old⟩ | ⟨records, rfl⟩
    · exact ordered.suspended r timeout early late old
    · rcases recorded records with ⟨s, opens, none⟩ | ⟨s, ms, replaced, starts, -⟩
      · cases opens
        exact none
      · cases starts
  · rcases booking.logged rfl same with ⟨late, old⟩ | ⟨records, rfl⟩
    · exact (ordered.started r ms replaced early late old).imp_right (·.later _)
    · rcases recorded records with ⟨s, opens, none⟩ | ⟨s, ms, replaced, starts, overtaken⟩
      · cases opens
        exact .inl none
      · cases starts
        exact .inr overtaken

theorem of_sequential (run : Sequential Reported (start drive) m p) : InSequence m p := by
  induction run with
  | refl => exact initial drive
  | move past next single ih =>
    obtain ⟨h, valid⟩ := past.chronicle.valid
    cases next with
    | run stack allowed =>
      exact ih.run (.of_chronicle past.chronicle) past.chronicle valid.sound stack (past.single (.start drive))
    | spawn fresh =>
      rw [List.append_nil]
      exact ih.spawn fresh
    | wait now sleeping ready =>
      rw [List.append_nil]
      refine ⟨fun place t above event below found stack => ?_, ih.suspended, ih.started⟩
      cases ih.awaits place t above event below found stack with
      | next opens unresolved => exact .next opens unresolved
      | timer starts unresolved => exact .timer starts unresolved
      | cancelling starts told same cancelling => exact .cancelling starts told same cancelling

end InSequence

inductive ReturnsError (operation : Operation) : Moment → Prop where
  | call {place w t work rest r asked error} (stack : t.stack = work :: rest) (asks : work.request? = some (r, asked))
      (named : asked.operation? = some operation)
      (returned : (step w t).2 = { t with stack := rest, result := .rejected error }) : ReturnsError operation ⟨place, w, t⟩

theorem refuses_iff {place : Nat} {w : World} {t : Thread} (sound : ∀ r, Sound (w.response r)) (operation : Operation) :
    Moment.refuses operation ⟨place, w, t⟩ = true ↔ ReturnsError operation ⟨place, w, t⟩ := by
  constructor
  · intro refuses
    cases stack : t.stack with
    | nil => simp [Moment.refuses, stack] at refuses
    | cons work rest =>
      cases refusal : work.refusal? w with
      | none => simp [Moment.refuses, stack, Work.refuses, refusal] at refuses
      | some pair =>
        obtain ⟨r, error⟩ := pair
        have same : error.operation = operation := by simpa [Moment.refuses, stack, Work.refuses, refusal] using refuses
        obtain ⟨asked, x, asks, found, refused⟩ := Work.refusal?_eq_some refusal
        have named := Request.operation_of_refused refused
        rw [same] at named
        have returned : (step w t).2 = { t with stack := rest, result := .rejected error } := by
          rw [step_asks stack asks, World.serve_refused found refused]
          rfl
        exact .call stack asks named returned
  · intro returns
    cases returns with
    | @call _ _ _ work rest r asked error stack asks named returned =>
    rw [step_asks stack asks] at returned
    cases found : w.responses[r]? with
    | none =>
      rw [World.serve_absent asked found] at returned
      cases congrArg Thread.result returned
    | some x =>
      cases answered : asked.grant r x with
      | error refusal =>
        have same := (Request.operation_of_refused answered).symm.trans named
        simp [Moment.refuses, stack, Work.refuses, Work.refusal?_asked asks found answered, Option.some.inj same]
      | ok g =>
        rw [World.serve_granted found answered] at returned
        obtain ⟨above, last, work, -⟩ :=
          (Request.grant_cases (World.response_found found ▸ sound r) answered).ends_returning named
        have shorter := congrArg (·.stack.length) returned
        simp only [Thread.push, work, List.length_append, List.length_cons] at shorter
        omega

/-- What counters and log tell of a run that is at rest: each response that ended and each call that was
refused, once. -/
structure Accounted (m : List Moment) (p : Pool) : Prop where
  transitions : ∀ kind, p.world.metrics.count (.transitions kind) = p.world.resolved kind
  rejections : ∀ operation, p.world.metrics.count (.rejections operation) = m.countP (·.refuses operation) ∧
    p.world.metrics.count (.rejections operation) = p.world.log.toList.countP (·.rejects operation)
  refused : ∀ moment ∈ m, ∀ operation, moment.refuses operation = true ↔ ReturnsError operation moment
  /-- A response that ended is logged as ended once, with the listeners that were registered before. -/
  ended : ∀ r, (p.world.response r).state.isTerminal = true → ∃ past moment later operation outcome rest,
    m = past ++ moment :: later ∧ Ends r operation outcome rest moment ∧ (p.world.response r).outcome = some outcome ∧
    (closings p.world.log.toList).filter (·.1 == r) = [(r, outcome.kind, (registered r past).length)]
  unended : ∀ r, (p.world.response r).state.isTerminal = false → (closings p.world.log.toList).filter (·.1 == r) = []
  /-- No suspension is logged after the end of its response. -/
  suspended : ∀ r timeout before after, p.world.log.toList = before ++ .suspended r timeout :: after →
    (closings before).filter (·.1 == r) = []
  /-- The start of a clock is logged after the end of its response only if the response ended while the call
  had the timer of the clock before cancelled. -/
  started : ∀ r ms replaced before after, p.world.log.toList = before ++ .timeoutSet r ms replaced :: after →
    (closings before).filter (·.1 == r) = [] ∨ Overtaken r (.timeoutSet r ms replaced) before m

/-- In a run in which one call is in progress at a time, and no panic drops the log entry of an ending, the
counters and the log account for every response and every refused call whenever no call is in progress. -/
theorem calls_accounted (run : Sequential Reported (start drive) m p) (idle : p.works = []) : Accounted m p := by
  have reconciled := Reconciled.of_chronicle run.chronicle
  have ordered := InSequence.of_sequential run
  have logged := reconciled.logged idle
  obtain ⟨h, valid⟩ := run.chronicle.valid
  refine ⟨fun kind => ?_, fun operation => ⟨reconciled.rejections operation, ?_⟩, fun moment member operation => ?_,
    fun r terminal => ?_, fun r unresolved => ?_, ordered.suspended, ordered.started⟩
  · rw [reconciled.transitions, reconciled.resolved, logged.countP_eq]
  · rw [reconciled.rejections, reconciled.rejected]
  · obtain ⟨past, later, rfl⟩ := List.append_of_mem member
    cases run.chronicle.cut with
    | found first top allowed second =>
      obtain ⟨h, valid⟩ := first.valid
      exact refuses_iff valid.sound operation
  · obtain ⟨outcome, published⟩ := Option.isSome_iff_exists.mp ((valid.outcome_iff r).1.mpr terminal)
    have kinds := reconciled.outcome r
    rw [published, Option.toList_some, List.map_singleton] at kinds
    obtain ⟨ending, only, -⟩ := List.map_eq_singleton_iff.mp kinds
    have member : ending ∈ (conclusions m).filter (·.1 == r) := by simp [only]
    obtain ⟨told, own⟩ := List.mem_filter.mp member
    obtain ⟨moment, among, ends⟩ := List.mem_filterMap.mp told
    obtain ⟨past, later, rfl⟩ := List.append_of_mem among
    obtain ⟨operation, outcome', rest, ended, outcomes, same⟩ := concluded run.chronicle ends
    have here : ending.1 = r := by simpa using own
    rw [here] at ended outcomes same
    refine ⟨past, moment, later, operation, outcome', rest, rfl, ended, outcomes, ?_⟩
    have perm := logged.filter (·.1 == r)
    rw [only, List.perm_singleton] at perm
    rw [perm, same]
  · exact reconciled.unlogged ((valid.unresolved_iff r).mp unresolved)

/-- A scheduler ends a response while it cancels its timer for a new clock; a cancel afterwards is refused. -/
theorem calls_accounted_overtaken : ∃ m p, Sequential Reported (start (.manual false)) m p ∧ p.works = [] ∧
    p.world.log.toList = [.created 0, .timeoutSet 0 2000 false, .timerCancelled 1, .resolved 0 .completed 0,
      .timeoutSet 0 3000 true, .timerCancelled 2, .rejected 0 .cancel .completed] ∧
    p.world.metrics.count (.transitions .completed) = 1 ∧ m.countP (·.refuses .cancel) = 1 ∧
    Overtaken 0 (.timeoutSet 0 3000 true) [.created 0, .timeoutSet 0 2000 false, .timerCancelled 1,
      .resolved 0 .completed 0] m := by
  have begun : Sequential Reported (start (.manual false)) [] (start (.manual false)) := .refl
  obtain ⟨_, made⟩ := begun.call (.create 1 .events) 9 rfl (by decide)
  obtain ⟨_, started⟩ := made.call (.setTimeout 0 (.ofSecs 2)) 20 rfl (by decide)
  obtain ⟨_, hooked⟩ := started.call (.hookCancel [.resume 0 "value"]) 9 rfl (by decide)
  obtain ⟨_, again⟩ := hooked.call (.setTimeout 0 (.ofSecs 3)) 30 rfl (by decide)
  obtain ⟨m, refused⟩ := again.call (.cancel 0) 9 rfl (by decide)
  have told := calls_accounted refused rfl
  refine ⟨m, _, refused, rfl, rfl, ?_, ?_, ?_⟩
  · rw [told.transitions]
    rfl
  · rw [← (told.rejections .cancel).1]
    rfl
  · exact (told.started 0 3000 true _ [.timerCancelled 2, .rejected 0 .cancel .completed] rfl).resolve_left (by decide)

/-- A scheduler can put an entry after the end of its response, by ending the response in the cancel that the
entry waits for; and a scheduler that panics in the cancel that an ending asks for leaves a response that has
ended and is neither counted nor logged. -/
theorem unaccounted_in_cancels : ∃ m p, Sequential Freely (start (.manual false)) m p ∧ p.works = [] ∧
    (∃ before after, p.world.log.toList = before ++ .timeoutSet 0 3000 true :: after ∧ .resolved 0 .completed 0 ∈ before) ∧
    p.world.resolved .cancelled = 1 ∧ p.world.metrics.count (.transitions .cancelled) = 0 ∧
    (p.world.response 1).state = .cancelled ∧ (closings p.world.log.toList).filter (·.1 == 1) = [] := by
  have begun : Sequential Freely (start (.manual false)) [] (start (.manual false)) := .refl
  obtain ⟨_, made⟩ := begun.call (.create 3 .events) 9 rfl (.freely _ _ _)
  obtain ⟨_, started⟩ := made.call (.setTimeout 0 (.ofSecs 2)) 20 rfl (.freely _ _ _)
  obtain ⟨_, resumes⟩ := started.call (.hookCancel [.resume 0 "v"]) 9 rfl (.freely _ _ _)
  obtain ⟨_, again⟩ := resumes.call (.setTimeout 0 (.ofSecs 3)) 30 rfl (.freely _ _ _)
  obtain ⟨_, other⟩ := again.call (.setTimeout 1 (.ofSecs 2)) 20 rfl (.freely _ _ _)
  obtain ⟨_, panics⟩ := other.call (.hookCancel [.panic (some "boom")]) 9 rfl (.freely _ _ _)
  obtain ⟨_, listens⟩ := panics.call (.onResolved 2 "l" [.cancel 1]) 9 rfl (.freely _ _ _)
  obtain ⟨m, ended⟩ := listens.call (.resume 2 "v") 40 rfl (.freely _ _ _)
  refine ⟨m, _, ended, rfl, ⟨[.created 0, .created 1, .created 2, .timeoutSet 0 2000 false, .timerCancelled 1,
    .resolved 0 .completed 0], [.timerCancelled 2, .timeoutSet 1 2000 false, .timerCancelled 3, .resolved 2 .completed 1],
    rfl, by decide⟩, rfl, rfl, rfl, rfl⟩

end Pool
end Deferral.Simulation
