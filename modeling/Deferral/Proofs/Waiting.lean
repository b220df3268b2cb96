import Deferral.Proofs.Effects
import Deferral.Proofs.Interleaving

/-! What one step does to the tasks that wait for an outcome. A call starts a waiting task, the task asks to
be notified, reads the outcome and parks, and a notification reaches the tasks that park or are about to.
No other step changes how far a waiting task has got, makes one ready or delivers to one. -/

namespace Deferral.Simulation

/-- The work that a waiting task consists of. -/
def Work.waits : Work → Bool
  | .enable _ | .readOutcome _ | .park _ => true
  | _ => false

/-- Work that changes how far a waiting task has got, or how many there are. -/
def Work.moves : Work → Bool
  | .enable _ | .readOutcome _ | .park _ | .notify _ | .call (.wait _ _) => true
  | _ => false

def Event.delivered? (r : Nat) : Event → Option (String × Outcome String)
  | .delivered label s outcome => if s = r then some (label, outcome) else none
  | _ => none

/-- What was delivered to the tasks that waited for a response, oldest first, with their labels. -/
def World.deliveries (w : World) (r : Nat) : List (String × Outcome String) :=
  w.events.toList.filterMap fun stamped => stamped.event.delivered? r

/-- A step that no waiting task takes note of. -/
structure Unnoticed (before after : World) : Prop where
  waiters : after.waiters = before.waiters
  ready : ∀ id, after.ready.count (.waiter id) = before.ready.count (.waiter id)
  deliveries : after.deliveries = before.deliveries

namespace Unnoticed

variable {w w' w'' : World} {t : Thread}

theorem same (waiters : w'.waiters = w.waiters) (ready : w'.ready = w.ready) (events : w'.events = w.events) :
    Unnoticed w w' := by
  refine ⟨waiters, fun id => by rw [ready], ?_⟩
  funext r
  rw [World.deliveries, World.deliveries, events]

theorem refl (w : World) : Unnoticed w w := same rfl rfl rfl

theorem trans (first : Unnoticed w w') (second : Unnoticed w' w'') : Unnoticed w w'' :=
  ⟨second.waiters.trans first.waiters, fun id => (second.ready id).trans (first.ready id),
    second.deliveries.trans first.deliveries⟩

theorem record (w : World) (event : LogEvent) : Unnoticed w (w.record event) := same rfl rfl rfl

theorem emit (w : World) (t : Thread) {event : Event} (mild : ∀ r, event.delivered? r = none) :
    Unnoticed w (w.emit t event) := by
  refine ⟨rfl, fun _ => rfl, ?_⟩
  funext r
  simp [World.deliveries, World.emit, mild]

end Unnoticed

/-- What work leaves to do when it waits for nothing: the stack gains no work of a waiting task. -/
structure Heedless (before : World) (rest : List Work) (after : World) (stack : List Work) : Prop where
  world : Unnoticed before after
  stack : ∀ f ∈ stack, f.waits = true → f ∈ rest

theorem Heedless.pushed {before after : World} {rest : List Work} (world : Unnoticed before after) (pushed : List Work)
    (none : ∀ f ∈ pushed, f.waits = false) : Heedless before rest after (pushed ++ rest) := by
  refine ⟨world, fun f member waits => ?_⟩
  rcases List.mem_append.mp member with new | old
  · rw [none f new] at waits
    cases waits
  · exact old

/-- The effects of a step of a thread whose stack is `work :: rest` on the tasks that wait. -/
inductive Hearing (before : World) : Work → List Work → World → List Work → Prop where
  | began {r label rest after}
      (waiters : after.waiters = before.waiters ++ [{ r, role := .observer label }])
      (ready : after.ready = before.ready ++ [.waiter before.waiters.length])
      (told : after.deliveries = before.deliveries) : Hearing before (.call (.wait r label)) rest after rest
  | enabled {id rest} : Hearing before (.enable id) rest (before.setStage id .enabled) rest
  | returned {id waiter label outcome rest after} (found : before.waiters[id]? = some waiter)
      (role : waiter.role = .observer label) (published : (before.response waiter.r).outcome = some outcome)
      (waiters : after.waiters = (before.setStage id .finished).waiters) (ready : after.ready = before.ready)
      (told : ∀ r, after.deliveries r = before.deliveries r ++ if waiter.r = r then [(label, outcome)] else []) :
      Hearing before (.readOutcome id) rest after rest
  | missed {id waiter rest} (found : before.waiters[id]? = some waiter)
      (unpublished : (before.response waiter.r).outcome = none) :
      Hearing before (.readOutcome id) rest before (.park id :: rest)
  | renewed {id waiter rest} (found : before.waiters[id]? = some waiter) (notified : waiter.stage = .notified) :
      Hearing before (.park id) rest before (.enable id :: .readOutcome id :: rest)
  | parked {id waiter rest} (found : before.waiters[id]? = some waiter) (unnotified : waiter.stage ≠ .notified) :
      Hearing before (.park id) rest (before.setStage id .parked) rest
  | notified {r rest} : Hearing before (.notify r) rest (before.notify r) rest
  | absent {work id rest} (reads : work = .readOutcome id ∨ work = .park id) (none : before.waiters[id]? = none) :
      Hearing before work rest before rest
  | heedless {work rest after stack} (other : work.moves = false) (heedless : Heedless before rest after stack) :
      Hearing before work rest after stack

theorem Request.grant_unwaiting {r : Nat} {x : Response String Listener} {asked : Request} {g : Grant}
    (granted : asked.grant r x = .ok g) : ∀ f ∈ g.work r, f.waits = false := by
  obtain ⟨tells, returns⟩ := grant_tells granted
  simp only [Grant.work, List.forall_mem_append, List.forall_mem_map]
  refine ⟨⟨⟨fun _ _ => rfl, fun f told => ?_⟩, fun _ _ => rfl⟩, fun f returned => ?_⟩
  · have telling := tells f told
    cases f <;> first | rfl | cases telling
  · rcases returns with done | ⟨operation, outcome, -, settled⟩
    · rw [done f returned]
      rfl
    · rw [settled, List.mem_singleton] at returned
      rw [returned]
      rfl

theorem Hooked.unwaiting {before : World} {extra : List Work} (hooked : Hooked before extra) :
    ∀ f ∈ extra, f.waits = false := by
  intro f member
  rcases hooked.1 f member with ⟨speaker, body, rfl⟩ | ⟨result, rfl⟩ | ⟨id, rfl⟩ <;> rfl

namespace World

variable {w : World} {t : Thread}

theorem sleepUntil_unnoticed (w : World) (due : Option Nat) (id : Nat) :
    Unnoticed w (w.sleepUntil due (.timer id)) := by
  unfold sleepUntil
  split
  · exact .refl w
  · split
    · exact ⟨rfl, by simp, rfl⟩
    · exact .same rfl rfl rfl

theorem create_unnoticed (w : World) (sink : FailureSink) (count : Nat) : Unnoticed w (w.create sink count) := by
  induction count generalizing w with
  | zero => exact .refl w
  | succ count ih =>
    have made : Unnoticed w { w.record (.created w.responses.length) with responses := w.responses ++ [{ sink := sink }] } :=
      .same rfl rfl rfl
    exact made.trans (ih _)

theorem takeScheduleHook_unnoticed (w : World) : Unnoticed w w.takeScheduleHook.1 := by
  unfold takeScheduleHook
  split
  · exact .refl w
  · exact .same rfl rfl rfl

theorem takeCancelHook_unnoticed (w : World) : Unnoticed w w.takeCancelHook.1 := by
  unfold takeCancelHook
  split
  · exact .refl w
  · exact .same rfl rfl rfl

theorem schedule_unnoticed (after : Duration) (callback : Callback) (next : Nat → List Work) :
    Unnoticed w (w.schedule t after callback next).1 := by
  have armed : Unnoticed w { w with timers := (w.timers.schedule after (w.drive.due w.now after) callback).1 } :=
    .same rfl rfl rfl
  unfold schedule
  dsimp only [Timers.schedule]
  split
  · exact armed.trans (sleepUntil_unnoticed _ _ _)
  · exact ((armed.trans (.record _ _)).trans (.emit _ t fun _ => rfl)).trans (takeScheduleHook_unnoticed _)

theorem disarm_heedless (id : Nat) : Heedless w t.stack (w.disarm t id).1 (w.disarm t id).2.stack := by
  have disarmed : Unnoticed w { w with timers := w.timers.disarm id } := .same rfl rfl rfl
  unfold disarm
  dsimp only
  split
  · refine .pushed ?_ [] (by simp)
    dsimp only
    split
    · exact disarmed.trans (.same rfl rfl rfl)
    · exact disarmed
  · refine .pushed ((disarmed.trans (.emit _ t fun _ => rfl)).trans (takeCancelHook_unnoticed _)) _ ?_
    unfold takeCancelHook
    split <;> simp [Work.waits]

theorem runCallback_heedless (w : World) (t : Thread) (id : Nat) :
    Heedless w t.stack (w.runCallback t id).1 (w.runCallback t id).2.stack := by
  have spent : Unnoticed w { w with timers := w.timers.spend id } := .same rfl rfl rfl
  unfold runCallback
  split
  · exact .pushed (.refl w) [] (by simp)
  · dsimp only
    split
    · exact .pushed spent _ (by simp [Work.waits])
    · refine .pushed ?_ _ (by simp [Work.waits])
      split
      · exact spent.trans (.emit _ t fun _ => rfl)
      · exact spent

theorem fireByHand_heedless (id : Nat) (force : Bool) :
    Heedless w t.stack (w.fireByHand t id force).1 (w.fireByHand t id force).2.stack := by
  unfold fireByHand
  split
  · exact .pushed (.refl w) [] (by simp)
  · split
    · exact .pushed (.refl w) [] (by simp)
    · split
      · exact .pushed (.refl w) [] (by simp)
      · have ran := runCallback_heedless (w.emit (t.push [.answer (.fire .fired)]) (.fired id))
          (t.push [.answer (.fire .fired)]) id
        refine ⟨(Unnoticed.emit w _ fun _ => rfl).trans ran.world, fun f member waits => ?_⟩
        rcases List.mem_cons.mp (ran.stack f member waits) with rfl | old
        · cases waits
        · exact old

theorem panic_heedless (message : Option String) :
    Heedless w t.stack (w.panic t message).1 (w.panic t message).2.stack := by
  rw [panic_stack]
  refine ⟨?_, fun f member _ => (List.dropWhile_suffix _).subset (List.mem_of_mem_tail member)⟩
  unfold panic
  dsimp only
  split
  · exact .refl w
  · split
    · exact .same rfl rfl rfl
    · exact .emit w _ fun _ => rfl

theorem serve_heedless (r : Nat) (asked : Request) :
    Heedless w t.stack (w.serve t r asked).1 (w.serve t r asked).2.stack := by
  cases found : w.responses[r]? with
  | none =>
    rw [serve_absent asked found]
    exact .pushed (.refl w) [] (by simp)
  | some x =>
    cases answered : asked.grant r x with
    | error error =>
      have refused : Unnoticed w (w.recordRejection r error) := .same rfl rfl rfl
      rw [serve_refused found answered]
      exact .pushed refused [] (by simp)
    | ok grant =>
      have granted : Unnoticed w (w.setResponse r grant.response) := .same rfl rfl rfl
      rw [serve_granted found answered]
      exact .pushed granted _ (Request.grant_unwaiting answered)

theorem response_outcome (w : World) (r : Nat) : w.responses[r]?.bind (·.outcome) = (w.response r).outcome := by
  unfold response
  cases w.responses[r]? <;> rfl

theorem call_hearing (action : Action) :
    Hearing w (.call action) t.stack (w.call t action).1 (w.call t action).2.stack := by
  have asks (r : Nat) (asked : Request) : Heedless w t.stack (w.serve t r asked).1 (w.serve t r asked).2.stack :=
    serve_heedless r asked
  have pushed {action : Action} {after : World} (pushed : List Work) (other : Work.moves (.call action) = false)
      (none : ∀ f ∈ pushed, f.waits = false) (world : Unnoticed w after) :
      Hearing w (.call action) t.stack after (pushed ++ t.stack) := .heedless other (.pushed world pushed none)
  have same : Unnoticed w w := .refl w
  cases action with
  | create count sink => exact pushed [] rfl (by simp) (create_unnoticed w sink count)
  | applyPolicy r timeout unit =>
    cases unit with
    | error error => exact pushed [] rfl (by simp) same
    | ok unit => exact .heedless rfl (asks r _)
  | setTimeoutIn r amount unit =>
    cases unit with
    | error error => exact pushed [] rfl (by simp) same
    | ok unit => exact .heedless rfl (asks r _)
  | suspend r => exact .heedless rfl (asks r _)
  | setTimeout r window => exact .heedless rfl (asks r _)
  | resume r value => exact .heedless rfl (asks r _)
  | resumeWithError r failure => exact .heedless rfl (asks r _)
  | cancel r => exact .heedless rfl (asks r _)
  | onResolved r label body => exact .heedless rfl (asks r _)
  | wait r label => exact .began rfl rfl rfl
  | inspect r =>
    obtain ⟨world, stack⟩ := onResponse_unchanged (w := w) (t := t) (r := r)
      (f := fun x => (w, t.answer (.inspection ⟨x.state, x.window, x.outcome⟩))) (fun _ => ⟨rfl, rfl⟩)
    simp only [call, world, stack]
    exact pushed [] rfl (by simp) same
  | register r =>
    exact pushed [.measure, .request r (.subscribe .untrack), .answer .done] rfl (by simp [Work.waits]) (.same rfl rfl rfl)
  | tracked r => exact pushed [] rfl (by simp) same
  | cancelTracked named =>
    cases named with
    | none => exact pushed [] rfl (by simp) same
    | some r =>
      simp only [call]
      split
      · exact pushed [.call (.cancel r)] rfl (by simp [Work.waits]) same
      · exact pushed [] rfl (by simp) same
  | cancelAll => exact pushed [.cancelEach w.registry.ids 0] rfl (by simp [Work.waits]) same
  | trackedIds => exact pushed [] rfl (by simp) same
  | fire timer force => exact .heedless rfl (fireByHand_heedless timer force)
  | hookSchedule body => exact pushed [] rfl (by simp) (.same rfl rfl rfl)
  | hookCancel body => exact pushed [] rfl (by simp) (.same rfl rfl rfl)
  | race threads raced =>
    refine pushed (.race threads raced {} :: if w.drive == .runtime && t.onClock then [.backOnClock] else []) rfl ?_ same
    cases w.drive == .runtime && t.onClock <;> simp [Work.waits]
  | panic message => exact .heedless rfl (panic_heedless message)
  | schedule window body =>
    obtain ⟨extra, hooked, -, stack⟩ :=
      schedule_effect (w := w) (t := t) window (.script body) (fun id => [.answer (.number id)])
    simp only [call, stack]
    refine pushed _ rfl ?_ (schedule_unnoticed window _ _)
    exact List.forall_mem_append.mpr ⟨hooked.unwaiting, by simp [Work.waits]⟩
  | disarm id => exact .heedless rfl (disarm_heedless id)

theorem perform_hearing (observers : ∀ waiter ∈ w.waiters, ∃ label, waiter.role = .observer label)
    (work : Work) : Hearing w work t.stack (w.perform t work).1 (w.perform t work).2.stack := by
  have pushed {work : Work} {after : World} (pushed : List Work) (other : work.moves = false)
      (none : ∀ f ∈ pushed, f.waits = false) (world : Unnoticed w after) :
      Hearing w work t.stack after (pushed ++ t.stack) := .heedless other (.pushed world pushed none)
  have same : Unnoticed w w := .refl w
  cases work with
  | call action => exact call_hearing action
  | request r asked => exact .heedless rfl (serve_heedless r asked)
  | script speaker body =>
    cases body with
    | nil => exact pushed [] rfl (by simp) same
    | cons action rest => exact pushed [.call action, .line speaker action, .script speaker rest] rfl (by simp [Work.waits]) same
  | line speaker action => exact pushed [] rfl (by simp) (.emit w t fun _ => rfl)
  | answer result => exact pushed [] rfl (by simp) same
  | settled r operation => exact pushed [] rfl (by simp) same
  | record event => exact pushed [] rfl (by simp) (.same rfl rfl rfl)
  | disarm id => exact .heedless rfl (disarm_heedless id)
  | arm r arming =>
    obtain ⟨extra, hooked, -, stack⟩ :=
      schedule_effect (w := w) (t := t) arming.window (.expire r arming.window arming.generation)
        (fun id => [.request r (.keepTimer id arming.generation)])
    simp only [perform, stack]
    refine pushed _ rfl ?_ (schedule_unnoticed arming.window _ _)
    exact List.forall_mem_append.mpr ⟨hooked.unwaiting, by simp [Work.waits]⟩
  | fireInline id =>
    simp only [perform]
    split
    · have ran := runCallback_heedless (w.emit t (.fired id)) t id
      exact .heedless rfl ⟨(Unnoticed.emit w t fun _ => rfl).trans ran.world, ran.stack⟩
    · exact pushed [] rfl (by simp) same
  | timerDue id =>
    simp only [perform]
    split
    · have ran := runCallback_heedless (w.record (.timerFired id)) t id
      exact .heedless rfl ⟨(Unnoticed.record w _).trans ran.world, ran.stack⟩
    · exact pushed [] rfl (by simp) same
  | expired r =>
    simp only [perform]
    split
    · exact pushed [] rfl (by simp) (.same rfl rfl rfl)
    · exact pushed [] rfl (by simp) same
  | notify r => exact .notified
  | announce r outcome listeners => exact pushed [] rfl (by simp) (.same rfl rfl rfl)
  | listen r index listener outcome =>
    cases listener with
    | script label body =>
      exact pushed [.script (.listener label) body, .guardListener r index] rfl (by simp [Work.waits]) (.emit w t fun _ => rfl)
    | untrack => exact pushed [.untrack r, .guardListener r index] rfl (by simp [Work.waits]) same
  | guardListener r index => exact pushed [] rfl (by simp) same
  | untrack r => exact pushed [.measure] rfl (by simp [Work.waits]) (.same rfl rfl rfl)
  | measure => exact pushed [.gauge w.registry.size] rfl (by simp [Work.waits]) same
  | gauge length => exact pushed [] rfl (by simp) (.same rfl rfl rfl)
  | cancelEach pending cancelled =>
    cases pending with
    | nil =>
      simp only [perform]
      split
      · exact pushed [] rfl (by simp) (.same rfl rfl rfl)
      · exact pushed [] rfl (by simp) same
    | cons r pending => exact pushed [.call (.cancel r), .countCancelled pending cancelled] rfl (by simp [Work.waits]) same
  | countCancelled pending cancelled => exact pushed [.cancelEach pending _] rfl (by simp [Work.waits]) same
  | race threads action tally =>
    cases threads with
    | zero => exact pushed [] rfl (by simp) same
    | succ threads => exact pushed [.call action, .countRaced threads action tally] rfl (by simp [Work.waits]) same
  | countRaced threads action tally =>
    exact pushed [.race threads action (tally.add t.result)] rfl (by simp [Work.waits]) same
  | backOnClock => exact pushed [] rfl (by simp) same
  | enable id => exact .enabled
  | readOutcome id =>
    cases found : w.waiters[id]? with
    | none =>
      simp only [perform, onWaiter, found]
      exact .absent (.inl rfl) found
    | some waiter =>
      simp only [perform, onWaiter, found, response_outcome]
      cases published : (w.response waiter.r).outcome with
      | none => exact .missed found published
      | some outcome =>
        obtain ⟨label, role⟩ := observers waiter (List.mem_of_getElem? found)
        simp only [deliver, role]
        refine .returned found role published rfl rfl fun r => ?_
        by_cases mine : waiter.r = r <;> simp [deliveries, emit, setStage, Event.delivered?, mine]
  | park id =>
    cases found : w.waiters[id]? with
    | none =>
      simp only [perform, onWaiter, found]
      exact .absent (.inr rfl) found
    | some waiter =>
      obtain ⟨label, role⟩ := observers waiter (List.mem_of_getElem? found)
      simp only [perform, onWaiter, found, role]
      split
      · next notified => exact .renewed found notified
      · next unnotified => exact .parked found unnotified
  | rouse id =>
    have stays : w.perform t (.rouse id) = (w, t) := by
      simp only [perform, onWaiter]
      split
      · next waiter found =>
        obtain ⟨label, role⟩ := observers waiter (List.mem_of_getElem? found)
        simp only [role]
        cases waiter.stage <;> rfl
      · rfl
    rw [stays]
    exact pushed [] rfl (by simp) same

end World

theorem step_hearing {w : World} {t : Thread} {work : Work} {rest : List Work} (stack : t.stack = work :: rest)
    (observers : ∀ waiter ∈ w.waiters, ∃ label, waiter.role = .observer label) :
    Hearing w work rest (step w t).1 (step w t).2.stack := by
  unfold step
  rw [stack]
  exact World.perform_hearing (t := { t with stack := rest }) observers work

end Deferral.Simulation
