import Deferral.Proofs.Deliveries

/-! What one step adds to the log and to the counters of calls on responses. A refusal is counted and logged
in the step that refuses. An ending is counted and logged later, by work that the grant leaves; until then
that work stands on the stack of the call. -/

namespace Deferral

/-- The ending of a response that a log event tells of: the response, the kind of its outcome, and the number
of listeners that it had. -/
def LogEvent.closing? : LogEvent → Option (Nat × OutcomeKind × Nat)
  | .resolved r kind listeners => some (r, kind, listeners)
  | _ => none

def LogEvent.rejects (operation : Operation) : LogEvent → Bool
  | .rejected _ op _ => op == operation
  | _ => false

/-- The response whose suspension, or whose clock's start, a log event tells of. -/
def LogEvent.opening? : LogEvent → Option Nat
  | .suspended r _ | .timeoutSet r _ _ => some r
  | _ => none

theorem LogEvent.unaccounted {event : LogEvent} (plain : event.accounts = false) (operation : Operation) :
    event.closing? = none ∧ event.rejects operation = false ∧ event.opening? = none := by
  cases event <;> first | exact ⟨rfl, rfl, rfl⟩ | cases plain

theorem LogEvent.of_opening {event : LogEvent} {r : Nat} (opens : event.opening? = some r) (operation : Operation) :
    event.closing? = none ∧ event.rejects operation = false := by
  cases event <;> first | exact ⟨rfl, rfl⟩ | cases opens

def closings (log : List LogEvent) : List (Nat × OutcomeKind × Nat) := log.filterMap LogEvent.closing?

theorem closings_append (log entries : List LogEvent) : closings (log ++ entries) = closings log ++ closings entries :=
  List.filterMap_append

namespace Simulation

namespace Work

/-- The error with which a response refuses what some work asks. -/
def refusal? (w : World) (work : Work) : Option (Nat × TransitionError) :=
  match work.request? with
  | some (r, asked) =>
    match w.responses[r]?.map (asked.grant r) with
    | some (.error error) => some (r, error)
    | _ => none
  | none => none

def refuses (w : World) (operation : Operation) (work : Work) : Bool :=
  (work.refusal? w).any (·.2.operation == operation)

/-- The ending that some work logs. -/
def closing? : Work → Option (Nat × OutcomeKind × Nat)
  | .announce r outcome listeners => some (r, outcome.kind, listeners)
  | _ => none

def closes (closing : Nat × OutcomeKind × Nat) (work : Work) : Bool := work.closing? == some closing

/-- Work that logs what became of a call on a response. -/
def books : Work → Bool
  | .record _ | .announce _ _ _ => true
  | _ => false

variable {w : World} {work : Work}

theorem refusal?_unasked (asks : work.request? = none) : work.refusal? w = none := by
  simp only [refusal?, asks]

theorem telling_of_closes {closing : Nat × OutcomeKind × Nat} (closes : work.closes closing = true) :
    work.isTelling = true := by
  cases work <;> first | rfl | cases closes

theorem closing?_of_silent (silent : work.books = false) : work.closing? = none := by
  cases work <;> first | rfl | cases silent

theorem closing?_of_refusal {refusal : Nat × TransitionError} (refuses : work.refusal? w = some refusal) :
    work.closing? = none := by
  cases work <;> first | rfl | cases refuses

theorem refusal?_asked {r : Nat} {asked : Request} {x : Response String Listener} {error : TransitionError}
    (asks : work.request? = some (r, asked)) (found : w.responses[r]? = some x) (refused : asked.grant r x = .error error) :
    work.refusal? w = some (r, error) := by
  simp only [refusal?, asks, found, Option.map_some, refused]

theorem refusal?_eq_some {r : Nat} {error : TransitionError} (refuses : work.refusal? w = some (r, error)) :
    ∃ asked x, work.request? = some (r, asked) ∧ w.responses[r]? = some x ∧ asked.grant r x = .error error := by
  unfold refusal? at refuses
  split at refuses
  next s asked asks =>
    cases found : w.responses[s]? with
    | none => simp only [found, Option.map_none, reduceCtorEq] at refuses
    | some x =>
      cases answered : asked.grant s x with
      | ok g => simp only [found, Option.map_some, answered, reduceCtorEq] at refuses
      | error refusal =>
        simp only [found, Option.map_some, answered, Option.some.injEq, Prod.mk.injEq] at refuses
        obtain ⟨rfl, rfl⟩ := refuses
        exact ⟨asked, x, asks, found, answered⟩
  · cases refuses

theorem refusal?_granted {r : Nat} {asked : Request} {x : Response String Listener} {g : Grant}
    (asks : work.request? = some (r, asked)) (found : w.responses[r]? = some x) (granted : asked.grant r x = .ok g) :
    work.refusal? w = none := by
  simp only [refusal?, asks, found, Option.map_some, granted]

theorem refusal?_absent {r : Nat} {asked : Request} (asks : work.request? = some (r, asked))
    (absent : w.responses[r]? = none) : work.refusal? w = none := by
  simp only [refusal?, asks, absent, Option.map_none]

end Work

/-- What a step adds to the log and to the counters of calls. -/
inductive Booking (before : World) : Work → World → Prop where
  | refused {work after r error} (refuses : work.refusal? before = some (r, error))
      (log : after.log.toList = before.log.toList ++ [.rejected r error.operation error.state])
      (metrics : after.metrics = before.metrics.countRejection error.operation) : Booking before work after
  | announced {r outcome listeners after}
      (log : after.log.toList = before.log.toList ++ [.resolved r outcome.kind listeners])
      (metrics : after.metrics = before.metrics.countTransition outcome.kind) :
      Booking before (.announce r outcome listeners) after
  | recorded {event after} (log : after.log.toList = before.log.toList ++ [event])
      (metrics : after.metrics = before.metrics) : Booking before (.record event) after
  | unbooked {work after} (unrefused : work.refusal? before = none) (silent : work.books = false)
      (unbooked : World.Unbooked before after) : Booking before work after

namespace World

variable {w : World} {t : Thread}

theorem Unbooked.counted {metrics : Metrics}
    (same : ∀ metric, metric.accounts = true → metrics.count metric = w.metrics.count metric) :
    Unbooked w { w with metrics } :=
  ⟨⟨[], by simp, by simp⟩, same⟩

theorem panic_unbooked (message : Option String) : Unbooked w (w.panic t message).1 := by
  have counted : Unbooked w { w with metrics := w.metrics.increment .listenerFailures } := by
    refine .counted fun metric accounts => ?_
    rw [Metrics.count_increment, if_neg]
    rintro rfl
    cases accounts
  unfold panic
  dsimp only
  split
  · exact .same rfl rfl
  · split
    · exact counted.trans (.record _ rfl)
    · exact .same rfl rfl

theorem serve_booking {work : Work} {r : Nat} {asked : Request} (asks : work.request? = some (r, asked))
    (silent : work.books = false) : Booking w work (w.serve t r asked).1 := by
  cases found : w.responses[r]? with
  | none =>
    rw [serve_absent asked found]
    exact .unbooked (Work.refusal?_absent asks found) silent (.same rfl rfl)
  | some x =>
    cases answered : asked.grant r x with
    | error error =>
      rw [serve_refused found answered]
      exact .refused (Work.refusal?_asked asks found answered) (by simp [refuse, recordRejection, record]) rfl
    | ok grant =>
      rw [serve_granted found answered]
      exact .unbooked (Work.refusal?_granted asks found answered) silent (.same rfl rfl)

theorem call_booking (action : Action) : Booking w (.call action) (w.call t action).1 := by
  have plain {action : Action} {after : World} (asks : action.request? = none) (unbooked : Unbooked w after) :
      Booking w (.call action) after := .unbooked (Work.refusal?_unasked asks) rfl unbooked
  have still : Unbooked w w := .same rfl rfl
  cases action with
  | create count sink => exact plain rfl (create_plain w sink count).toUnbooked
  | applyPolicy r timeout unit =>
    cases unit with
    | error error => exact plain rfl still
    | ok unit => exact serve_booking rfl rfl
  | setTimeoutIn r amount unit =>
    cases unit with
    | error error => exact plain rfl still
    | ok unit => exact serve_booking rfl rfl
  | suspend | setTimeout | resume | resumeWithError | cancel | onResolved => exact serve_booking rfl rfl
  | inspect r =>
    obtain ⟨world, -⟩ := onResponse_unchanged (w := w) (t := t) (r := r)
      (f := fun x => (w, t.answer (.inspection ⟨x.state, x.window, x.outcome⟩))) (fun _ => ⟨rfl, rfl⟩)
    exact plain rfl (by simp only [call, world]; exact still)
  | cancelTracked named => cases named <;> exact plain rfl still
  | fire timer force => exact plain rfl (fireByHand_plain timer force).toUnbooked
  | panic message => exact plain rfl (panic_unbooked message)
  | schedule window body => exact plain rfl (schedule_plain window _ _).toUnbooked
  | disarm id => exact plain rfl (disarm_plain id).toUnbooked
  | wait | register | tracked | cancelAll | trackedIds | hookSchedule | hookCancel | race =>
    exact plain rfl (.same rfl rfl)

theorem perform_booking (work : Work) : Booking w work (w.perform t work).1 := by
  have plain {work : Work} {after : World} (asks : work.request? = none) (silent : work.books = false)
      (unbooked : Unbooked w after) : Booking w work after := .unbooked (Work.refusal?_unasked asks) silent unbooked
  have still : Unbooked w w := .same rfl rfl
  cases work with
  | call action => exact call_booking action
  | request r asked => exact serve_booking rfl rfl
  | record event => exact .recorded (by simp [perform, record]) rfl
  | announce r outcome listeners => exact .announced (by simp [perform, record]) rfl
  | script speaker body => cases body <;> exact plain rfl rfl still
  | disarm id => exact plain rfl rfl (disarm_plain id).toUnbooked
  | arm r arming => exact plain rfl rfl (schedule_plain arming.window _ _).toUnbooked
  | fireInline id =>
    refine plain rfl rfl ?_
    simp only [perform]
    split
    · exact ((Plain.emit w t fun _ => rfl).trans (runCallback_plain id)).toUnbooked
    · exact still
  | timerDue id =>
    refine plain rfl rfl ?_
    simp only [perform]
    split
    · exact ((Plain.record w rfl fun _ => rfl).trans (runCallback_plain id)).toUnbooked
    · exact still
  | expired r =>
    refine plain rfl rfl ?_
    simp only [perform]
    split
    · exact .record w rfl
    · exact still
  | listen r index listener outcome => cases listener <;> exact plain rfl rfl (.same rfl rfl)
  | gauge length =>
    refine plain rfl rfl (.counted fun metric accounts => ?_)
    rw [Metrics.count_set, if_neg]
    rintro rfl
    cases accounts
  | cancelEach pending cancelled =>
    cases pending with
    | nil => exact plain rfl rfl (cancelEach_plain cancelled).toUnbooked
    | cons r pending => exact plain rfl rfl still
  | race threads action tally => cases threads <;> exact plain rfl rfl still
  | readOutcome id => exact plain rfl rfl (readOutcome_plain id).1.toUnbooked
  | park id => exact plain rfl rfl (park_plain id).1.toUnbooked
  | rouse id => exact plain rfl rfl (rouse_plain id).1.toUnbooked
  | line | answer | settled | notify | guardListener | untrack | measure | countCancelled | countRaced | backOnClock
  | enable => exact plain rfl rfl (.same rfl rfl)

end World

theorem step_booking {w : World} {t : Thread} {work : Work} {rest : List Work} (stack : t.stack = work :: rest) :
    Booking w work (step w t).1 := by
  unfold step
  rw [stack]
  exact World.perform_booking (t := { t with stack := rest }) work

namespace Booking

variable {before after : World} {work : Work}

theorem transitions (booking : Booking before work after) (kind : OutcomeKind) :
    after.metrics.count (.transitions kind) = before.metrics.count (.transitions kind) +
      work.closing?.toList.countP (·.2.1 == kind) := by
  cases booking with
  | refused refuses log metrics =>
    simp [metrics, Work.closing?_of_refusal refuses, Metrics.countRejection, Metrics.count_increment]
  | @announced r outcome listeners _ log metrics =>
    by_cases same : kind = outcome.kind
    · simp [metrics, Work.closing?, Metrics.countTransition, Metrics.count_increment, same]
    · simp [metrics, Work.closing?, Metrics.countTransition, Metrics.count_increment, same, Ne.symm same]
  | recorded log metrics => simp [metrics, Work.closing?]
  | unbooked unrefused silent unbooked =>
    simp [unbooked.metrics (.transitions kind) rfl, Work.closing?_of_silent silent]

theorem rejections (booking : Booking before work after) (operation : Operation) :
    after.metrics.count (.rejections operation) = before.metrics.count (.rejections operation) +
      if work.refuses before operation then 1 else 0 := by
  cases booking with
  | @refused _ _ r error refuses log metrics =>
    by_cases same : operation = error.operation
    · simp [metrics, Work.refuses, refuses, Metrics.countRejection, Metrics.count_increment, same]
    · simp [metrics, Work.refuses, refuses, Metrics.countRejection, Metrics.count_increment, same, Ne.symm same]
  | announced log metrics =>
    simp [metrics, Work.refuses, Work.refusal?, Work.request?, Metrics.countTransition, Metrics.count_increment]
  | recorded log metrics => simp [metrics, Work.refuses, Work.refusal?, Work.request?]
  | unbooked unrefused silent unbooked => simp [unbooked.metrics (.rejections operation) rfl, Work.refuses, unrefused]

/-- Work that logs an event of its own logs that a response was suspended or its clock started. -/
def Faithful (work : Work) : Prop := ∀ event, work = .record event → event.opening?.isSome = true

theorem rejected (booking : Booking before work after) (faithful : Faithful work) (operation : Operation) :
    after.log.toList.countP (·.rejects operation) = before.log.toList.countP (·.rejects operation) +
      if work.refuses before operation then 1 else 0 := by
  cases booking with
  | @refused _ _ r error refuses log metrics =>
    simp [log, Work.refuses, refuses, LogEvent.rejects, List.countP_cons]
  | announced log metrics => simp [log, LogEvent.rejects, Work.refuses, Work.refusal?, Work.request?]
  | @recorded event _ log metrics =>
    obtain ⟨r, opens⟩ := Option.isSome_iff_exists.mp (faithful event rfl)
    simp [log, (LogEvent.of_opening opens operation).2, Work.refuses, Work.refusal?, Work.request?]
  | unbooked unrefused silent unbooked =>
    obtain ⟨entries, log, plain⟩ := unbooked.log
    have none : entries.countP (·.rejects operation) = 0 :=
      List.countP_eq_zero.mpr fun entry member => by simp [(LogEvent.unaccounted (plain entry member) operation).2.1]
    simp [log, none, Work.refuses, unrefused]

theorem closings (booking : Booking before work after) (faithful : Faithful work) :
    closings after.log.toList = closings before.log.toList ++ work.closing?.toList := by
  cases booking with
  | refused refuses log metrics =>
    rw [log, closings_append, Work.closing?_of_refusal refuses]
    rfl
  | announced log metrics =>
    rw [log, closings_append]
    rfl
  | @recorded event _ log metrics =>
    obtain ⟨r, opens⟩ := Option.isSome_iff_exists.mp (faithful event rfl)
    rw [log, closings_append]
    simp [Deferral.closings, (LogEvent.of_opening opens .resume).1, Work.closing?]
  | unbooked unrefused silent unbooked =>
    obtain ⟨entries, log, plain⟩ := unbooked.log
    have none : Deferral.closings entries = [] :=
      List.filterMap_eq_nil_iff.mpr fun entry member => (LogEvent.unaccounted (plain entry member) .resume).1
    rw [log, closings_append, none, Work.closing?_of_silent silent]
    rfl

theorem opening (booking : Booking before work after) : ∃ entries, after.log.toList = before.log.toList ++ entries ∧
    ∀ event ∈ entries, event.opening?.isSome = true → work = .record event ∧ entries = [event] := by
  cases booking with
  | refused _ log | announced log => exact ⟨_, log, by simp [LogEvent.opening?]⟩
  | recorded log =>
    refine ⟨_, log, fun event member _ => ?_⟩
    rw [List.mem_singleton.mp member]
    exact ⟨rfl, rfl⟩
  | unbooked unrefused silent unbooked =>
    obtain ⟨entries, log, plain⟩ := unbooked.log
    refine ⟨entries, log, fun event member opens => ?_⟩
    rw [(LogEvent.unaccounted (plain event member) .resume).2.2] at opens
    cases opens

theorem logged (booking : Booking before work after) {early late : List LogEvent} {event : LogEvent}
    (opens : event.opening?.isSome = true) (same : after.log.toList = early ++ event :: late) :
    (∃ late, before.log.toList = early ++ event :: late) ∨ work = .record event ∧ early = before.log.toList := by
  obtain ⟨entries, log, opening⟩ := booking.opening
  rw [log] at same
  rcases List.append_eq_append_iff.mp same with ⟨between, rfl, new⟩ | ⟨between, old, new⟩
  · have among : event ∈ entries := by simp [new]
    obtain ⟨records, only⟩ := opening event among opens
    rw [only] at new
    cases between with
    | nil => exact .inr ⟨records, List.append_nil _⟩
    | cons first between =>
      have longer := congrArg List.length new
      simp at longer
  · cases between with
    | nil =>
      have among : event ∈ [] ++ entries := new ▸ List.mem_cons_self ..
      obtain ⟨records, only⟩ := opening event among opens
      exact .inr ⟨records, by rw [old, List.append_nil]⟩
    | cons first between =>
      obtain ⟨rfl, -⟩ := List.cons.inj new
      exact .inl ⟨between, old⟩

end Booking
end Simulation
end Deferral
