import Deferral.Proofs.Grants

/-! Everything that one step can do to the responses, the timers and the work to come. Proofs about
runs go by these cases and do not open the step again. -/

namespace Deferral.Simulation

/-- The request that a call makes of a response. -/
def Action.request? : Action → Option (Nat × Request)
  | .applyPolicy r timeout (.ok unit) => some (r, .declare (SuspendPolicy.duration ⟨timeout, unit⟩))
  | .suspend r => some (r, .suspend)
  | .setTimeout r window => some (r, .setTimeout window)
  | .setTimeoutIn r amount (.ok unit) => some (r, .setTimeout (unit.toDuration amount))
  | .resume r value => some (r, .produce (.ok value))
  | .resumeWithError r failure => some (r, .produce (.error failure))
  | .cancel r => some (r, .cancel)
  | .onResolved r label body => some (r, .subscribe (.script label body))
  | _ => none

def Work.request? : Work → Option (Nat × Request)
  | .call action => action.request?
  | .request r asked => some (r, asked)
  | _ => none

theorem Work.eq_request {work : Work} {r n : Nat} {asked : Request} (asks : work.request? = some (r, asked))
    (named : asked.generation? = some n) : work = .request r asked := by
  cases work with
  | request => cases asks; rfl
  | call action =>
    have calls : action.request? = some (r, asked) := asks
    unfold Action.request? at calls
    split at calls <;> cases calls <;> cases named
  | _ => cases asks

/-- Work that is a call of the scheduler for a response. -/
def Work.isTimed : Work → Bool
  | .disarm _ | .arm _ _ => true
  | _ => false

theorem Work.untimed_of_request {work : Work} {r : Nat} {asked : Request} (asks : work.request? = some (r, asked)) :
    work.isTimed = false := by
  cases work <;> first | rfl | cases asks

/-- The callback that some work hands to the scheduler. -/
def Work.callback? : Work → Option Callback
  | .arm r arming => some (.expire r arming.window arming.generation)
  | .call (.schedule _ body) => some (.script body)
  | _ => none

/-- The work that a timer's callback is. -/
def Callback.work (id : Nat) : Callback → List Work
  | .expire r window generation => [.request r (.expire window generation), .expired r]
  | .script body => [.script (.timer id) body]

theorem Callback.mem_work {id : Nat} {callback : Callback} {f : Work} (member : f ∈ callback.work id) :
    (∃ r window generation, callback = .expire r window generation ∧
      (f = .request r (.expire window generation) ∨ f = .expired r)) ∨
    ∃ body, callback = .script body ∧ f = .script (.timer id) body := by
  cases callback with
  | expire r window generation =>
    left
    rcases List.mem_cons.mp member with first | second
    · exact ⟨r, window, generation, rfl, .inl first⟩
    · exact ⟨r, window, generation, rfl, .inr (List.mem_singleton.mp second)⟩
  | script body => exact .inr ⟨body, rfl, List.mem_singleton.mp member⟩

/-- What every step leaves alone, and that the tasks it makes ready are waiters. -/
structure Alongside (before after : World) : Prop where
  drive : after.drive = before.drive
  now : after.now = before.now
  sleeping : after.sleeping = before.sleeping
  ready : ∃ woken : List Nat, after.ready = before.ready ++ woken.map .waiter

/-- A timer was scheduled; under a runtime a task sleeps until it is due. -/
structure Scheduled (before : World) (window : Duration) (callback : Callback) (after : World) : Prop where
  drive : after.drive = before.drive
  now : after.now = before.now
  responses : after.responses = before.responses
  timers : after.timers =
    (before.timers.schedule window (before.drive.due before.now window) callback).1
  tasks : before.drive = .runtime →
    after.sleeping = (before.sleepUntil (before.drive.due before.now window)
      (.timer (before.timers.list.length + 1))).sleeping ∧
    after.ready = (before.sleepUntil (before.drive.due before.now window)
      (.timer (before.timers.list.length + 1))).ready

/-- What a hook adds to a call of the scheduler. A runtime has no hooks. -/
def Hooked (before : World) (extra : List Work) : Prop :=
  (∀ work ∈ extra, (∃ speaker body, work = .script speaker body) ∨ (∃ result, work = .answer result) ∨
    ∃ id, work = .fireInline id) ∧ (before.drive = .runtime → extra = [])

/-- The effects of a step of a thread whose stack is `work :: rest`. -/
inductive Effect (before : World) : Work → List Work → World → List Work → Prop where
  | refused {work rest after r asked x error} (asks : work.request? = some (r, asked))
      (found : before.responses[r]? = some x) (refused : asked.grant r x = .error error)
      (responses : after.responses = before.responses) (timers : after.timers = before.timers)
      (aside : Alongside before after) : Effect before work rest after rest
  | granted {work rest after r asked x grant} (asks : work.request? = some (r, asked))
      (found : before.responses[r]? = some x) (granted : asked.grant r x = .ok grant)
      (responses : after.responses = before.responses.set r grant.response)
      (timers : after.timers = before.timers) (aside : Alongside before after) :
      Effect before work rest after (grant.work r ++ rest)
  | created {rest after count sink}
      (responses : after.responses = before.responses ++ List.replicate count { sink := sink })
      (timers : after.timers = before.timers) (aside : Alongside before after) :
      Effect before (.call (.create count sink)) rest after rest
  | armed {r arming rest after extra} (hooked : Hooked before extra)
      (scheduled : Scheduled before arming.window (.expire r arming.window arming.generation) after) :
      Effect before (.arm r arming) rest after
        (extra ++ .request r (.keepTimer (before.timers.list.length + 1) arming.generation) :: rest)
  | scheduled {window body rest after extra result} (hooked : Hooked before extra)
      (scheduled : Scheduled before window (.script body) after) :
      Effect before (.call (.schedule window body)) rest after (extra ++ .answer result :: rest)
  | disarmed {work id rest after extra} (asks : work = .disarm id ∨ work = .call (.disarm id))
      (hooked : Hooked before extra) (responses : after.responses = before.responses)
      (timers : after.timers = before.timers.disarm id) (aside : Alongside before after) :
      Effect before work rest after (extra ++ rest)
  | fired {work id timer rest after returns}
      (asks : (work = .timerDue id ∨ work = .fireInline id) ∧ timer.armed = true ∨ ∃ force, work = .call (.fire id force))
      (found : before.timers.get? id = some timer) (returned : ∀ w ∈ returns, ∃ result, w = .answer result)
      (responses : after.responses = before.responses)
      (timers : after.timers = before.timers.spend id) (aside : Alongside before after) :
      Effect before work rest after (timer.callback.work id ++ returns ++ rest)
  | unwound {message rest after} (responses : after.responses = before.responses)
      (timers : after.timers = before.timers) (aside : Alongside before after) :
      Effect before (.call (.panic message)) rest after (rest.dropWhile (!·.isGuard)).tail
  | quiet {work rest after} (pushed : List Work)
      (absent : ∀ r asked, work.request? = some (r, asked) → before.responses[r]? = none) (untimed : work.isTimed = false)
      (outer : ∀ w ∈ pushed, w.isInner = false ∧ w.isTelling = false)
      (opened : work.isOpen = false → ∀ w ∈ pushed, w.isOpen = false)
      (responses : after.responses = before.responses) (timers : after.timers = before.timers)
      (aside : Alongside before after) : Effect before work rest after (pushed ++ rest)

theorem Alongside.same {before after : World} (drive : after.drive = before.drive) (now : after.now = before.now)
    (sleeping : after.sleeping = before.sleeping) (ready : after.ready = before.ready) : Alongside before after :=
  ⟨drive, now, sleeping, [], by simp [ready]⟩

theorem Alongside.refl (w : World) : Alongside w w := .same rfl rfl rfl rfl

namespace World

variable {w : World} {t : Thread} {rest : List Work}

theorem create_alongside (w : World) (sink : FailureSink) (count : Nat) :
    (w.create sink count).responses = w.responses ++ List.replicate count { sink := sink } ∧
      (w.create sink count).timers = w.timers ∧ Alongside w (w.create sink count) := by
  induction count generalizing w with
  | zero => exact ⟨by simp [create], rfl, .refl w⟩
  | succ count ih =>
    obtain ⟨responses, timers, aside⟩ := ih { w.record (.created w.responses.length) with
      responses := w.responses ++ [{ sink := sink }] }
    refine ⟨?_, timers, aside.drive, aside.now, aside.sleeping, aside.ready⟩
    rw [create, responses, List.replicate_succ, List.append_assoc]
    rfl

theorem serve_absent {r : Nat} (asked : Request) (absent : w.responses[r]? = none) :
    w.serve t r asked = (w, t.answer .absent) := by
  simp only [serve, onResponse, absent]

theorem serve_refused {r : Nat} {asked : Request} {x : Response String Listener} {error : TransitionError}
    (found : w.responses[r]? = some x) (refused : asked.grant r x = .error error) :
    w.serve t r asked = w.refuse t r error := by
  simp only [serve, onResponse, found, refused]

theorem serve_granted {r : Nat} {asked : Request} {x : Response String Listener} {grant : Grant}
    (found : w.responses[r]? = some x) (granted : asked.grant r x = .ok grant) :
    w.serve t r asked = (w.setResponse r grant.response, t.push (grant.work r)) := by
  simp only [serve, onResponse, found, granted]

theorem serve_effect {work : Work} {r : Nat} {asked : Request} (asks : work.request? = some (r, asked)) :
    Effect w work t.stack (w.serve t r asked).1 (w.serve t r asked).2.stack := by
  cases found : w.responses[r]? with
  | none =>
    rw [serve_absent asked found]
    refine .quiet [] ?_ (Work.untimed_of_request asks) (by simp) (by simp) rfl rfl (.refl w)
    intro s other same
    rw [asks] at same
    cases same
    exact found
  | some x =>
    cases answered : asked.grant r x with
    | error error =>
      rw [serve_refused found answered]
      exact .refused asks found answered rfl rfl (.same rfl rfl rfl rfl)
    | ok grant =>
      rw [serve_granted found answered]
      exact .granted asks found answered rfl rfl (.same rfl rfl rfl rfl)

theorem sleepUntil_aside (w : World) (due : Option Nat) (task : Task) :
    (w.sleepUntil due task).drive = w.drive ∧ (w.sleepUntil due task).now = w.now ∧
      (w.sleepUntil due task).responses = w.responses ∧ (w.sleepUntil due task).timers = w.timers := by
  unfold sleepUntil
  split
  · exact ⟨rfl, rfl, rfl, rfl⟩
  · split <;> exact ⟨rfl, rfl, rfl, rfl⟩

theorem sleepUntil_tasks {v : World} (due : Option Nat) (task : Task) (now : v.now = w.now)
    (sleeping : v.sleeping = w.sleeping) (ready : v.ready = w.ready) :
    (v.sleepUntil due task).sleeping = (w.sleepUntil due task).sleeping ∧
      (v.sleepUntil due task).ready = (w.sleepUntil due task).ready := by
  unfold sleepUntil
  rw [now]
  split
  · exact ⟨sleeping, ready⟩
  · split <;> simp [sleeping, ready]

theorem schedule_effect (after : Duration) (callback : Callback) (next : Nat → List Work) :
    ∃ extra, Hooked w extra ∧ Scheduled w after callback (w.schedule t after callback next).1 ∧
      (w.schedule t after callback next).2.stack = extra ++ next (w.timers.list.length + 1) ++ t.stack := by
  let armed : World := { w with timers := (w.timers.schedule after (w.drive.due w.now after) callback).1 }
  cases drive : w.drive with
  | runtime =>
    have same : w.schedule t after callback next =
        (armed.sleepUntil (w.drive.due w.now after) (.timer (w.timers.list.length + 1)),
          t.push (next (w.timers.list.length + 1))) := by
      simp only [schedule, Timers.schedule, drive, armed]
    obtain ⟨drives, now, responses, timers⟩ :=
      armed.sleepUntil_aside (w.drive.due w.now after) (.timer (w.timers.list.length + 1))
    rw [same]
    exact ⟨[], ⟨by simp, fun _ => rfl⟩, ⟨drives, now, responses, timers, fun _ => sleepUntil_tasks _ _ rfl rfl rfl⟩, rfl⟩
  | manual inlineZero =>
    refine ⟨(takeScheduleHook w).2 ++ if inlineZero && after.isZero then [.fireInline (w.timers.list.length + 1)] else [],
      ⟨?_, by simp [drive]⟩, ?_, ?_⟩
    · unfold takeScheduleHook
      cases w.scheduleHooks <;> cases inlineZero <;> cases after.isZero <;> simp
    · constructor
      all_goals simp [schedule, Timers.schedule, drive, takeScheduleHook, emit, record]
      all_goals cases w.scheduleHooks <;> simp
    · simp [schedule, Timers.schedule, drive, takeScheduleHook, emit, record, Thread.push]
      cases w.scheduleHooks <;> simp

theorem disarm_effect {work : Work} {id : Nat} (asks : work = .disarm id ∨ work = .call (.disarm id)) :
    Effect w work t.stack (w.disarm t id).1 (w.disarm t id).2.stack := by
  cases drive : w.drive with
  | runtime =>
    have same : (w.disarm t id).2.stack = [] ++ t.stack := by
      simp [disarm, drive, Thread.answer]
    rw [same]
    refine .disarmed asks ⟨by simp, fun _ => rfl⟩ ?_ ?_ (.same ?_ ?_ ?_ ?_)
    all_goals
      simp only [disarm, drive]
      split <;> simp [record]
  | manual inlineZero =>
    have same : (w.disarm t id).2.stack = ((takeCancelHook w).2 ++ [.answer (.flag (w.timers.isArmed id))]) ++ t.stack := by
      simp only [disarm, drive, takeCancelHook, emit, Thread.push]
      cases w.cancelHooks <;> rfl
    rw [same]
    refine .disarmed asks ⟨?_, by simp [drive]⟩ ?_ ?_ (.same ?_ ?_ ?_ ?_)
    · unfold takeCancelHook
      cases w.cancelHooks <;> simp
    all_goals
      simp only [disarm, drive, takeCancelHook, emit]
      cases w.cancelHooks <;> simp

theorem runCallback_effect {v : World} {work : Work} {id : Nat} {timer : Timer Callback} (returns : List Work)
    (asks : (work = .timerDue id ∨ work = .fireInline id) ∧ timer.armed = true ∨ ∃ force, work = .call (.fire id force))
    (returned : ∀ w ∈ returns, ∃ result, w = .answer result) (found : w.timers.get? id = some timer)
    (stack : t.stack = returns ++ rest) (responses : v.responses = w.responses) (timers : v.timers = w.timers)
    (aside : v.drive = w.drive ∧ v.now = w.now ∧ v.sleeping = w.sleeping ∧ v.ready = w.ready) :
    Effect w work rest (v.runCallback t id).1 (v.runCallback t id).2.stack := by
  obtain ⟨drive, now, sleeping, ready⟩ := aside
  rw [← timers] at found
  have same : (v.runCallback t id).2.stack = timer.callback.work id ++ returns ++ rest := by
    simp only [runCallback, found]
    cases timer.callback <;> simp [Callback.work, Thread.push, stack]
  have kept : (v.runCallback t id).1.responses = v.responses ∧
      (v.runCallback t id).1.timers = v.timers.spend id ∧ (v.runCallback t id).1.drive = v.drive ∧
      (v.runCallback t id).1.now = v.now ∧ (v.runCallback t id).1.sleeping = v.sleeping ∧
      (v.runCallback t id).1.ready = v.ready := by
    simp only [runCallback, found]
    cases timer.callback with
    | expire r window generation => exact ⟨rfl, rfl, rfl, rfl, rfl, rfl⟩
    | script body => simp only; split <;> exact ⟨rfl, rfl, rfl, rfl, rfl, rfl⟩
  rw [same]
  rw [timers] at found kept
  exact .fired asks found returned (kept.1.trans responses) kept.2.1
    (.same (kept.2.2.1.trans drive) (kept.2.2.2.1.trans now) (kept.2.2.2.2.1.trans sleeping)
      (kept.2.2.2.2.2.trans ready))

theorem isArmed_eq_true {ts : Timers Callback} {id : Nat} (armed : ts.isArmed id = true) :
    ∃ timer, ts.get? id = some timer ∧ timer.armed = true := by
  unfold Timers.isArmed at armed
  cases found : ts.get? id with
  | none => simp [found] at armed
  | some timer => exact ⟨timer, rfl, by simpa [found] using armed⟩

theorem fireByHand_effect (id : Nat) (force : Bool) :
    Effect w (.call (.fire id force)) t.stack (w.fireByHand t id force).1 (w.fireByHand t id force).2.stack := by
  have still (result : Result) : Effect w (.call (.fire id force)) t.stack w (t.answer result).stack :=
    .quiet [] (by simp [Work.request?, Action.request?]) rfl (by simp) (by simp) rfl rfl (.refl w)
  unfold fireByHand
  cases found : w.timers.get? id with
  | none => exact still _
  | some timer =>
    simp only
    split
    · exact still _
    · split
      · exact still _
      · exact runCallback_effect [.answer (.fire .fired)] (.inr ⟨force, rfl⟩) (by simp) found rfl rfl rfl
          ⟨rfl, rfl, rfl, rfl⟩

theorem panic_stack (message : Option String) :
    (w.panic t message).2.stack = (t.stack.dropWhile (!·.isGuard)).tail := by
  have unwound (stack : List Work) :
      (stack.dropWhile (!·.isGuard)).tail = (Thread.unwind.go stack).elim [] (·.2.2) := by
    induction stack with
    | nil => rfl
    | cons work rest ih =>
      cases work <;> first | exact ih | rfl
  rw [unwound]
  unfold panic Thread.unwind
  cases Thread.unwind.go t.stack with
  | none => rfl
  | some found =>
    obtain ⟨r, index, below⟩ := found
    simp only
    split <;> rfl

theorem panic_effect (message : Option String) :
    Effect w (.call (.panic message)) t.stack (w.panic t message).1 (w.panic t message).2.stack := by
  rw [panic_stack]
  have kept : (w.panic t message).1.responses = w.responses ∧ (w.panic t message).1.timers = w.timers ∧
      (w.panic t message).1.drive = w.drive ∧ (w.panic t message).1.now = w.now ∧
      (w.panic t message).1.sleeping = w.sleeping ∧ (w.panic t message).1.ready = w.ready := by
    unfold panic
    cases t.unwind with
    | none => exact ⟨rfl, rfl, rfl, rfl, rfl, rfl⟩
    | some found =>
      simp only
      split <;> exact ⟨rfl, rfl, rfl, rfl, rfl, rfl⟩
  exact .unwound kept.1 kept.2.1 (.same kept.2.2.1 kept.2.2.2.1 kept.2.2.2.2.1 kept.2.2.2.2.2)

theorem onResponse_unchanged {r : Nat} {f : Response String Listener → World × Thread}
    (same : ∀ x, (f x).1 = w ∧ (f x).2.stack = t.stack) :
    (w.onResponse t r f).1 = w ∧ (w.onResponse t r f).2.stack = t.stack := by
  unfold onResponse
  split
  · exact same _
  · exact ⟨rfl, rfl⟩

theorem notify_ready (w : World) (r : Nat) :
    ∃ woken : List Nat, (w.notify r).ready = w.ready ++ woken.map .waiter := by
  refine ⟨w.waiters.zipIdx.filterMap fun entry =>
    if entry.1.r = r ∧ entry.1.stage = .parked then some entry.2 else none, ?_⟩
  simp only [notify, List.map_filterMap, List.append_cancel_left_eq]
  congr 1
  funext ⟨waiter, id⟩
  simp only
  split <;> rfl

theorem call_effect (action : Action) :
    Effect w (.call action) t.stack (w.call t action).1 (w.call t action).2.stack := by
  have quiet {action : Action} {after : World} (pushed : List Work) (asks : action.request? = none)
      (outer : ∀ work ∈ pushed, work.isInner = false ∧ work.isTelling = false) (responses : after.responses = w.responses)
      (timers : after.timers = w.timers) (aside : Alongside w after) :
      Effect w (.call action) t.stack after (pushed ++ t.stack) :=
    .quiet pushed (by simp [Work.request?, asks]) rfl outer (by simp [Work.isOpen]) responses timers aside
  cases action with
  | create count sink =>
    obtain ⟨responses, timers, aside⟩ := w.create_alongside sink count
    exact .created responses timers aside
  | applyPolicy r timeout unit =>
    cases unit with
    | error error => exact quiet [] rfl (by simp) rfl rfl (.refl w)
    | ok unit => exact serve_effect rfl
  | setTimeoutIn r amount unit =>
    cases unit with
    | error error => exact quiet [] rfl (by simp) rfl rfl (.refl w)
    | ok unit => exact serve_effect rfl
  | suspend r => exact serve_effect rfl
  | setTimeout r window => exact serve_effect rfl
  | resume r value => exact serve_effect rfl
  | resumeWithError r failure => exact serve_effect rfl
  | cancel r => exact serve_effect rfl
  | onResolved r label body => exact serve_effect rfl
  | wait r label => exact quiet [] rfl (by simp) rfl rfl ⟨rfl, rfl, rfl, [w.waiters.length], rfl⟩
  | inspect r =>
    obtain ⟨world, stack⟩ := onResponse_unchanged (w := w) (t := t) (r := r)
      (f := fun x => (w, t.answer (.inspection ⟨x.state, x.window, x.outcome⟩))) (fun _ => ⟨rfl, rfl⟩)
    simp only [call, world, stack]
    exact quiet [] rfl (by simp) rfl rfl (.refl w)
  | register r =>
    exact quiet [.measure, .request r (.subscribe .untrack), .answer .done] rfl (by simp [Work.isInner, Work.isTelling]) rfl rfl
      (.same rfl rfl rfl rfl)
  | tracked r => exact quiet [] rfl (by simp) rfl rfl (.refl w)
  | cancelTracked named =>
    cases named with
    | none => exact quiet [] rfl (by simp) rfl rfl (.refl w)
    | some r =>
      simp only [call]
      split
      · exact quiet [.call (.cancel r)] rfl (by simp [Work.isInner, Work.isTelling]) rfl rfl (.refl w)
      · exact quiet [] rfl (by simp) rfl rfl (.refl w)
  | cancelAll => exact quiet [.cancelEach w.registry.ids 0] rfl (by simp [Work.isInner, Work.isTelling]) rfl rfl (.refl w)
  | trackedIds => exact quiet [] rfl (by simp) rfl rfl (.refl w)
  | fire timer force => exact fireByHand_effect timer force
  | hookSchedule body => exact quiet [] rfl (by simp) rfl rfl (.same rfl rfl rfl rfl)
  | hookCancel body => exact quiet [] rfl (by simp) rfl rfl (.same rfl rfl rfl rfl)
  | race threads raced =>
    refine quiet (.race threads raced {} :: if w.drive == .runtime && t.onClock then [.backOnClock] else []) rfl ?_
      rfl rfl (.refl w)
    cases w.drive == .runtime && t.onClock <;> simp [Work.isInner, Work.isTelling]
  | panic message => exact panic_effect message
  | schedule window body =>
    obtain ⟨extra, hooked, scheduled, stack⟩ :=
      schedule_effect (w := w) (t := t) window (.script body) (fun id => [.answer (.number id)])
    simp only [call, stack, List.append_assoc]
    exact .scheduled hooked scheduled
  | disarm id => exact disarm_effect (.inr rfl)

theorem deliver_unchanged (waiter : Waiter) (outcome : Outcome String) :
    (w.deliver t waiter outcome).responses = w.responses ∧ (w.deliver t waiter outcome).timers = w.timers ∧
      Alongside w (w.deliver t waiter outcome) := by
  unfold deliver
  split <;> exact ⟨rfl, rfl, .same rfl rfl rfl rfl⟩

theorem onWaiter_effect {work : Work} {id : Nat} {f : Waiter → World × Thread} (asks : work.request? = none)
    (untimed : work.isTimed = false) (opens : work.isOpen = true)
    (keeps : ∀ waiter, ∃ pushed, (f waiter).2.stack = pushed ++ t.stack ∧ (∀ work ∈ pushed, work.isInner = false ∧ work.isTelling = false) ∧
      (f waiter).1.responses = w.responses ∧ (f waiter).1.timers = w.timers ∧ Alongside w (f waiter).1) :
    Effect w work t.stack (w.onWaiter t id f).1 (w.onWaiter t id f).2.stack := by
  unfold onWaiter
  split
  next waiter found =>
    obtain ⟨pushed, stack, outer, responses, timers, aside⟩ := keeps waiter
    rw [stack]
    exact .quiet pushed (by simp [asks]) untimed outer (by simp [opens]) responses timers aside
  next => exact .quiet [] (by simp [asks]) untimed (by simp) (by simp) rfl rfl (.refl w)

theorem perform_effect (work : Work) :
    Effect w work t.stack (w.perform t work).1 (w.perform t work).2.stack := by
  have quiet {work : Work} {after : World} (pushed : List Work) (asks : work.request? = none)
      (untimed : work.isTimed = false) (outer : ∀ work ∈ pushed, work.isInner = false ∧ work.isTelling = false)
      (opened : work.isOpen = false → ∀ work ∈ pushed, work.isOpen = false) (responses : after.responses = w.responses)
      (timers : after.timers = w.timers) (aside : Alongside w after) :
      Effect w work t.stack after (pushed ++ t.stack) :=
    .quiet pushed (by simp [asks]) untimed outer opened responses timers aside
  have same : Alongside w w := .refl w
  cases work with
  | call action => exact call_effect action
  | request r asked => exact serve_effect rfl
  | script speaker body =>
    cases body with
    | nil => exact quiet [] rfl rfl (by simp) (by simp) rfl rfl same
    | cons action rest =>
      exact quiet [.call action, .line speaker action, .script speaker rest] rfl rfl (by simp [Work.isInner, Work.isTelling])
        (by simp [Work.isOpen]) rfl rfl same
  | line speaker action => exact quiet [] rfl rfl (by simp) (by simp) rfl rfl (.same rfl rfl rfl rfl)
  | answer result => exact quiet [] rfl rfl (by simp) (by simp) rfl rfl same
  | settled r operation => exact quiet [] rfl rfl (by simp) (by simp) rfl rfl same
  | record event => exact quiet [] rfl rfl (by simp) (by simp) rfl rfl (.same rfl rfl rfl rfl)
  | disarm id => exact disarm_effect (.inl rfl)
  | arm r arming =>
    obtain ⟨extra, hooked, scheduled, stack⟩ :=
      schedule_effect (w := w) (t := t) arming.window (.expire r arming.window arming.generation)
        (fun id => [.request r (.keepTimer id arming.generation)])
    simp only [perform, stack, List.append_assoc]
    exact .armed hooked scheduled
  | fireInline id =>
    simp only [perform]
    split
    next armed =>
      obtain ⟨timer, found, armed⟩ := isArmed_eq_true armed
      exact runCallback_effect [] (.inl ⟨.inr rfl, armed⟩) (by simp) found rfl rfl rfl ⟨rfl, rfl, rfl, rfl⟩
    next => exact quiet [] rfl rfl (by simp) (by simp) rfl rfl same
  | timerDue id =>
    simp only [perform]
    split
    next armed =>
      obtain ⟨timer, found, armed⟩ := isArmed_eq_true armed
      exact runCallback_effect [] (.inl ⟨.inl rfl, armed⟩) (by simp) found rfl rfl rfl ⟨rfl, rfl, rfl, rfl⟩
    next => exact quiet [] rfl rfl (by simp) (by simp) rfl rfl same
  | expired r =>
    simp only [perform]
    split
    · exact quiet [] rfl rfl (by simp) (by simp) rfl rfl (.same rfl rfl rfl rfl)
    · exact quiet [] rfl rfl (by simp) (by simp) rfl rfl same
  | notify r => exact quiet [] rfl rfl (by simp) (by simp) rfl rfl ⟨rfl, rfl, rfl, notify_ready w r⟩
  | announce r outcome listeners => exact quiet [] rfl rfl (by simp) (by simp) rfl rfl (.same rfl rfl rfl rfl)
  | listen r index listener outcome =>
    cases listener with
    | script label body =>
      exact quiet [.script (.listener label) body, .guardListener r index] rfl rfl (by simp [Work.isInner, Work.isTelling])
        (by simp [Work.isOpen]) rfl rfl (.same rfl rfl rfl rfl)
    | untrack => exact quiet [.untrack r, .guardListener r index] rfl rfl (by simp [Work.isInner, Work.isTelling]) (by simp [Work.isOpen]) rfl rfl same
  | guardListener r index => exact quiet [] rfl rfl (by simp) (by simp) rfl rfl same
  | untrack r => exact quiet [.measure] rfl rfl (by simp [Work.isInner, Work.isTelling]) (by simp [Work.isOpen]) rfl rfl (.same rfl rfl rfl rfl)
  | measure => exact quiet [.gauge w.registry.size] rfl rfl (by simp [Work.isInner, Work.isTelling]) (by simp [Work.isOpen]) rfl rfl same
  | gauge length => exact quiet [] rfl rfl (by simp) (by simp) rfl rfl (.same rfl rfl rfl rfl)
  | cancelEach pending cancelled =>
    cases pending with
    | nil =>
      simp only [perform]
      split
      · exact quiet [] rfl rfl (by simp) (by simp) rfl rfl (.same rfl rfl rfl rfl)
      · exact quiet [] rfl rfl (by simp) (by simp) rfl rfl same
    | cons r pending =>
      exact quiet [.call (.cancel r), .countCancelled pending cancelled] rfl rfl (by simp [Work.isInner, Work.isTelling])
        (by simp [Work.isOpen]) rfl rfl same
  | countCancelled pending cancelled =>
    exact quiet [.cancelEach pending _] rfl rfl (by simp [Work.isInner, Work.isTelling]) (by simp [Work.isOpen]) rfl rfl same
  | race threads action tally =>
    cases threads with
    | zero => exact quiet [] rfl rfl (by simp) (by simp) rfl rfl same
    | succ threads =>
      exact quiet [.call action, .countRaced threads action tally] rfl rfl (by simp [Work.isInner, Work.isTelling])
        (by simp [Work.isOpen]) rfl rfl same
  | countRaced threads action tally =>
    exact quiet [.race threads action (tally.add t.result)] rfl rfl (by simp [Work.isInner, Work.isTelling]) (by simp [Work.isOpen]) rfl rfl same
  | backOnClock => exact quiet [] rfl rfl (by simp) (by simp) rfl rfl same
  | enable id => exact quiet [] rfl rfl (by simp) (by simp) rfl rfl (.same rfl rfl rfl rfl)
  | readOutcome id =>
    refine onWaiter_effect rfl rfl rfl fun waiter => ?_
    split
    next outcome found =>
      obtain ⟨responses, timers, aside⟩ := deliver_unchanged (w := w.setStage id .finished) (t := t) waiter outcome
      exact ⟨[], rfl, by simp, responses, timers, aside.drive, aside.now, aside.sleeping, aside.ready⟩
    next => exact ⟨[.park id], rfl, by simp [Work.isInner, Work.isTelling], rfl, rfl, same⟩
  | park id =>
    refine onWaiter_effect rfl rfl rfl fun waiter => ?_
    have parks (stage : WaitStage) : Alongside w (w.setStage id stage) := .same rfl rfl rfl rfl
    split
    · exact ⟨[.enable id, .readOutcome id], rfl, by simp [Work.isInner, Work.isTelling], rfl, rfl, same⟩
    · split
      · split
        · exact ⟨[.request waiter.r (.produce _)], rfl, by simp [Work.isInner, Work.isTelling], rfl, rfl, parks _⟩
        · exact ⟨[], rfl, by simp, rfl, rfl, parks _⟩
      · exact ⟨[], rfl, by simp, rfl, rfl, parks _⟩
  | rouse id =>
    refine onWaiter_effect rfl rfl rfl fun waiter => ?_
    split
    · exact ⟨[.request waiter.r (.produce _)], rfl, by simp [Work.isInner, Work.isTelling], rfl, rfl, .same rfl rfl rfl rfl⟩
    · exact ⟨[], rfl, by simp, rfl, rfl, same⟩

end World

namespace Effect

variable {before after : World} {work : Work} {rest stack : List Work}

theorem callbacks (effect : Effect before work rest after stack) :
    after.timers.callbacks = before.timers.callbacks ∨
      ∃ callback, work.callback? = some callback ∧
        after.timers.callbacks = before.timers.callbacks ++ [callback] := by
  cases effect with
  | armed _ scheduled => exact .inr ⟨_, rfl, by rw [scheduled.timers, Timers.callbacks_schedule]⟩
  | scheduled _ scheduled => exact .inr ⟨_, rfl, by rw [scheduled.timers, Timers.callbacks_schedule]⟩
  | disarmed _ _ _ timers => exact .inl (by rw [timers, Timers.callbacks_disarm])
  | fired _ _ _ _ timers => exact .inl (by rw [timers, Timers.callbacks_spend])
  | refused _ _ _ _ timers | granted _ _ _ _ timers | created _ timers | unwound _ timers
  | quiet _ _ _ _ _ _ timers => exact .inl (by rw [timers])

/-- The inner work that a step adds: what a grant leaves, the handle to store of a timer that was armed, the
callback of a timer that fires, and a timer that fires while a hand-driven scheduler is called. -/
inductive Left (before : World) (work : Work) : Work → Prop where
  | grant {r asked x grant f} (asks : work.request? = some (r, asked)) (found : before.responses[r]? = some x)
      (granted : asked.grant r x = .ok grant) (member : f ∈ grant.work r) : Left before work f
  | keep {r arming} (arms : work = .arm r arming) :
      Left before work (.request r (.keepTimer (before.timers.list.length + 1) arming.generation))
  | callback {id timer f}
      (asks : (work = .timerDue id ∨ work = .fireInline id) ∧ timer.armed = true ∨ ∃ force, work = .call (.fire id force))
      (found : before.timers.get? id = some timer) (member : f ∈ timer.callback.work id) : Left before work f
  | inline {id} (manual : before.drive ≠ .runtime) : Left before work (.fireInline id)

theorem inner (effect : Effect before work rest after stack) {f : Work} (member : f ∈ stack)
    (inner : f.isInner = true) : f ∈ rest ∨ Left before work f := by
  have hooked {extra : List Work} (hooked : Hooked before extra) (member : f ∈ extra) : Left before work f := by
    rcases hooked.1 f member with ⟨speaker, body, rfl⟩ | ⟨result, rfl⟩ | ⟨id, rfl⟩
    · cases inner
    · cases inner
    · apply Left.inline
      intro runtime
      rw [hooked.2 runtime] at member
      cases member
  cases effect with
  | refused | created => exact .inl member
  | granted asks found granted =>
    rcases List.mem_append.mp member with new | old
    · exact .inr (.grant asks found granted new)
    · exact .inl old
  | armed hooks =>
    rcases List.mem_append.mp member with hook | member
    · exact .inr (hooked hooks hook)
    · rcases List.mem_cons.mp member with rfl | old
      · exact .inr (.keep rfl)
      · exact .inl old
  | scheduled hooks =>
    rcases List.mem_append.mp member with hook | member
    · exact .inr (hooked hooks hook)
    · rcases List.mem_cons.mp member with rfl | old
      · cases inner
      · exact .inl old
  | disarmed _ hooks =>
    rcases List.mem_append.mp member with hook | old
    · exact .inr (hooked hooks hook)
    · exact .inl old
  | fired asks found returned =>
    rcases List.mem_append.mp member with new | old
    · rcases List.mem_append.mp new with runs | back
      · exact .inr (.callback asks found runs)
      · obtain ⟨result, rfl⟩ := returned f back
        cases inner
    · exact .inl old
  | unwound => exact .inl ((List.dropWhile_suffix _).subset (List.mem_of_mem_tail member))
  | quiet pushed _ _ outer =>
    rcases List.mem_append.mp member with new | old
    · rw [(outer f new).1] at inner
      cases inner
    · exact .inl old

namespace Left

variable {r id generation : Nat} {window : Duration}

theorem expire (left : Left before work (.request r (.expire window generation))) :
    ∃ id, before.timers.callback? id = some (.expire r window generation) ∧
      (work = .timerDue id ∨ work = .fireInline id ∨ ∃ force, work = .call (.fire id force)) := by
  cases left with
  | grant _ _ granted member => cases Request.grant_duty granted member rfl
  | @callback id timer _ asks found member =>
    rcases Callback.mem_work member with ⟨s, other, number, callback, same | same⟩ | ⟨body, -, same⟩
    · cases same
      refine ⟨id, ?_, ?_⟩
      · rw [Timers.callback?, found, ← callback]
        rfl
      · rcases asks with ⟨due | inline, -⟩ | calls
        · exact .inl due
        · exact .inr (.inl inline)
        · exact .inr (.inr calls)
    · cases same
    · cases same

theorem keepTimer (left : Left before work (.request r (.keepTimer id generation))) :
    ∃ window, work = .arm r ⟨window, generation⟩ := by
  cases left with
  | grant _ _ granted member => cases Request.grant_duty granted member rfl
  | keep arms => exact ⟨_, arms⟩
  | callback _ _ member =>
    rcases Callback.mem_work member with ⟨s, other, number, -, same | same⟩ | ⟨body, -, same⟩ <;> cases same

theorem arm {arming : Response.Arming} (left : Left before work (.arm r arming)) :
    ∃ asked x grant, work.request? = some (r, asked) ∧ before.responses[r]? = some x ∧
      asked.grant r x = .ok grant ∧ grant.arms = some arming := by
  cases left with
  | grant asks found granted member =>
    rcases Request.grant_work granted member rfl with ⟨_, -, same⟩ | ⟨_, arms, same⟩ | ⟨_, same⟩
    · cases same
    · cases same
      exact ⟨_, _, _, asks, found, granted, arms⟩
    · cases same
  | callback _ _ member =>
    rcases Callback.mem_work member with ⟨s, other, number, -, same | same⟩ | ⟨body, -, same⟩ <;> cases same

theorem fireInline (left : Left before work (.fireInline id)) : before.drive ≠ .runtime := by
  cases left with
  | grant _ _ granted member => cases Request.grant_duty granted member rfl
  | callback _ _ member =>
    rcases Callback.mem_work member with ⟨s, other, number, -, same | same⟩ | ⟨body, -, same⟩ <;> cases same
  | inline manual => exact manual

theorem not_timerDue (left : Left before work (.timerDue id)) : False := by
  cases left with
  | grant _ _ granted member => cases Request.grant_duty granted member rfl
  | callback _ _ member =>
    rcases Callback.mem_work member with ⟨s, other, number, -, same | same⟩ | ⟨body, -, same⟩ <;> cases same

end Left

theorem duties (effect : Effect before work rest after stack) {counted : Work → Bool}
    (duty : ∀ work, counted work = true → work.isDuty = true) :
    stack.countP counted ≤ rest.countP counted ∨
      ∃ r asked x grant, work.request? = some (r, asked) ∧ before.responses[r]? = some x ∧
        asked.grant r x = .ok grant ∧ stack = grant.work r ++ rest := by
  have hooked {extra : List Work} (hooked : Hooked before extra) : extra.countP counted = 0 := by
    apply Work.countP_none duty
    intro work member
    rcases hooked.1 work member with ⟨speaker, body, rfl⟩ | ⟨result, rfl⟩ | ⟨id, rfl⟩ <;> rfl
  have pushed {work : Work} (none : work.isDuty = false) : (work :: rest).countP counted = rest.countP counted := by
    cases counts : counted work with
    | false => simp [counts]
    | true => rw [duty work counts] at none; cases none
  cases effect with
  | granted asks found granted => exact .inr ⟨_, _, _, _, asks, found, granted, rfl⟩
  | refused | created => exact .inl (Nat.le_refl _)
  | armed hooks | scheduled hooks =>
    left
    rw [List.countP_append, hooked hooks, pushed rfl]
    omega
  | disarmed _ hooks =>
    left
    rw [List.countP_append, hooked hooks]
    omega
  | @fired _ id timer _ _ returns _ found returned =>
    left
    have spent : (timer.callback.work id).countP counted = 0 := by
      apply Work.countP_none duty
      intro work member
      rcases Callback.mem_work member with ⟨r, window, generation, -, rfl | rfl⟩ | ⟨body, -, rfl⟩ <;> rfl
    have back : returns.countP counted = 0 := by
      apply Work.countP_none duty
      intro work member
      obtain ⟨result, rfl⟩ := returned work member
      rfl
    rw [List.countP_append, List.countP_append, spent, back]
    omega
  | unwound =>
    exact .inl (List.Sublist.countP_le ((List.tail_sublist _).trans (List.dropWhile_suffix _).sublist))
  | quiet pushed _ _ outer =>
    left
    rw [List.countP_append, Work.countP_outer duty fun f member => (outer f member).1]
    omega

end Effect

theorem step_effect {w : World} {t : Thread} {work : Work} {rest : List Work} (stack : t.stack = work :: rest) :
    Effect w work rest (step w t).1 (step w t).2.stack := by
  unfold step
  rw [stack]
  exact World.perform_effect (t := { t with stack := rest }) work

theorem step_asks {w : World} {t : Thread} {work : Work} {r : Nat} {asked : Request} {rest : List Work}
    (stack : t.stack = work :: rest) (asks : work.request? = some (r, asked)) :
    step w t = w.serve { t with stack := rest } r asked := by
  unfold step
  rw [stack]
  cases work with
  | call action =>
    cases action with
    | applyPolicy _ _ unit => cases unit <;> cases asks; rfl
    | setTimeoutIn _ _ unit => cases unit <;> cases asks; rfl
    | _ => cases asks <;> rfl
  | _ => cases asks <;> rfl

theorem step_serve {w : World} {t : Thread} {r : Nat} {asked : Request} {rest : List Work}
    (stack : t.stack = .request r asked :: rest) : step w t = w.serve { t with stack := rest } r asked :=
  step_asks stack rfl

end Deferral.Simulation
