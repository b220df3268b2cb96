import Deferral.Simulation.World

/-!
Steps. A thread is a stack of pending work and the result of its last call. One step takes the top
of the stack and does what is done without interruption: one section under a lock, one call of the
scheduler, one entry in a record. Between two steps other threads may run.
-/

namespace Deferral.Simulation

/-- What is asked of a response. Each request is answered in one section under its lock. -/
inductive Request where
  | declare (window : Duration)
  | suspend
  | setTimeout (window : Duration)
  | produce (result : Except Failure String)
  | cancel
  | expire (window : Duration) (generation : Nat)
  | subscribe (listener : Listener)
  | keepTimer (timer generation : Nat)

inductive Work where
  | call (action : Action)
  /-- The rest of a script; the result of each action is recorded. -/
  | script (speaker : Speaker) (body : List Action)
  | line (speaker : Speaker) (action : Action)
  | request (r : Nat) (request : Request)
  | answer (result : Result)
  /-- The call that resolved a response returns. -/
  | settled (r : Nat) (operation : Operation)
  | record (event : LogEvent)
  | disarm (timer : Nat)
  /-- The scheduler arms a timer that times a response out. -/
  | arm (r : Nat) (arming : Response.Arming)
  /-- A timer of no duration fires while it is being scheduled. -/
  | fireInline (timer : Nat)
  /-- A timer that is due fires if it is still armed. -/
  | timerDue (timer : Nat)
  | expired (r : Nat)
  | notify (r : Nat)
  | announce (r : Nat) (outcome : Outcome String) (listeners : Nat)
  | listen (r index : Nat) (listener : Listener) (outcome : Outcome String)
  /-- Where the panic of a listener stops. -/
  | guardListener (r index : Nat)
  | untrack (r : Nat)
  | measure
  | gauge (length : Nat)
  | cancelEach (pending : List Nat) (cancelled : Nat)
  | countCancelled (pending : List Nat) (cancelled : Nat)
  | race (threads : Nat) (action : Action) (tally : Tally)
  | countRaced (threads : Nat) (action : Action) (tally : Tally)
  | backOnClock
  | enable (waiter : Nat)
  | readOutcome (waiter : Nat)
  | park (waiter : Nat)
  | rouse (waiter : Nat)

structure Thread where
  stack : List Work
  result : Result := .done
  onClock : Bool := true

namespace Thread

def push (t : Thread) (work : List Work) : Thread := { t with stack := work ++ t.stack }

def answer (t : Thread) (result : Result) : Thread := { t with result }

/-- The work that is left after a panic: what stands below the listener that panicked. -/
def unwind (t : Thread) : Option (Nat × Nat × Thread) :=
  match go t.stack with
  | some (r, index, stack) => some (r, index, { t with stack })
  | none => none
where
  go : List Work → Option (Nat × Nat × List Work)
    | [] => none
    | .guardListener r index :: rest => some (r, index, rest)
    | _ :: rest => go rest

end Thread

/-- What a granted request leaves: the response, and what the call still does outside the lock. -/
structure Grant where
  response : Response String Listener
  /-- The timer that is disarmed first. -/
  disarms : Option Nat := none
  tells : List Work := []
  /-- The clock that is started last. -/
  arms : Option Response.Arming := none
  returns : List Work := [.answer .done]

def Grant.work (g : Grant) (r : Nat) : List Work :=
  g.disarms.toList.map .disarm ++ g.tells ++ g.arms.toList.map (.arm r) ++ g.returns

namespace Request

def conclude (r : Nat) (response : Response String Listener) (operation : Operation)
    (outcome : Outcome String) (generation : Option Nat) : Except TransitionError Grant :=
  (response.resolve operation outcome generation).map fun resolution => {
    response := resolution.response
    disarms := resolution.timer
    tells := [.notify r, .announce r outcome resolution.listeners.length] ++
      resolution.listeners.map fun (index, listener) => .listen r index listener outcome
    returns := [.settled r operation] }

def grant (r : Nat) (response : Response String Listener) : Request → Except TransitionError Grant
  | .declare window => (response.applyPolicy window).map fun response => { response }
  | .suspend => response.suspend.map fun (response, arms) => {
      response, arms
      tells := [.record (.suspended r (arms.map (·.window.millisWord)))] }
  | .setTimeout window => (response.setTimeout window).map fun (response, arming, previous) => {
      response
      disarms := previous
      tells := [.record (.timeoutSet r window.millisWord previous.isSome)]
      arms := some arming }
  | .produce result => conclude r response .resume (.ofResult result) none
  | .cancel => conclude r response .cancel .cancelled none
  | .expire window generation =>
    conclude r response .timeoutFire (.timedOut window) (some generation)
  | .subscribe listener =>
    let (response, index, resolved) := response.subscribe listener
    .ok { response, tells := resolved.toList.map (.listen r index listener) }
  | .keepTimer timer generation =>
    match response.keepTimer timer generation with
    | some response => .ok { response, returns := [] }
    | none => .ok { response, disarms := some timer, returns := [] }

end Request

namespace World

def emit (w : World) (t : Thread) (event : Event) : World :=
  { w with events := w.events.push ⟨if t.onClock then some w.now else none, event⟩ }

/-- Runs `f` on a response; a response that does not exist answers nothing. -/
def onResponse (w : World) (t : Thread) (r : Nat)
    (f : Response String Listener → World × Thread) : World × Thread :=
  match w.responses[r]? with
  | some response => f response
  | none => (w, t.answer .absent)

def refuse (w : World) (t : Thread) (r : Nat) (error : TransitionError) : World × Thread :=
  (w.recordRejection r error, t.answer (.rejected error))

/-- Answers a request. A refusal is the result of the call; a grant leaves it more to do. -/
def serve (w : World) (t : Thread) (r : Nat) (request : Request) : World × Thread :=
  w.onResponse t r fun response =>
    match request.grant r response with
    | .error error => w.refuse t r error
    | .ok grant => (w.setResponse r grant.response, t.push (grant.work r))

def takeScheduleHook (w : World) : World × List Work :=
  match w.scheduleHooks with
  | [] => (w, [])
  | body :: rest => ({ w with scheduleHooks := rest }, [.script .onSchedule body])

def takeCancelHook (w : World) : World × List Work :=
  match w.cancelHooks with
  | [] => (w, [])
  | body :: rest => ({ w with cancelHooks := rest }, [.script .onCancel body])

/-- Arms a timer; `after` says what the caller does with its number. -/
def schedule (w : World) (t : Thread) (after : Duration) (callback : Callback)
    (next : Nat → List Work) : World × Thread :=
  let due := w.drive.due w.now after
  let (timers, id) := w.timers.schedule after due callback
  let w := { w with timers }
  match w.drive with
  | .runtime => (w.sleepUntil due (.timer id), t.push (next id))
  | .manual inlineZero =>
    let w := (w.record (.timerCancelled id)).emit t (.scheduled id after)
    let (w, hook) := w.takeScheduleHook
    let inline : List Work := if inlineZero && after.isZero then [.fireInline id] else []
    (w, t.push (hook ++ inline ++ next id))

def disarm (w : World) (t : Thread) (id : Nat) : World × Thread :=
  let armed := w.timers.isArmed id
  let w := { w with timers := w.timers.disarm id }
  match w.drive with
  | .runtime => (if armed then w.record (.timerCancelled id) else w, t.answer (.flag armed))
  | .manual _ =>
    let (w, hook) := (w.emit t (.disarmed id armed)).takeCancelHook
    (w, t.push (hook ++ [.answer (.flag armed)]))

/-- Takes a timer's callback and runs it. Under the runtime a script's timer shows that it fired. -/
def runCallback (w : World) (t : Thread) (id : Nat) : World × Thread :=
  match w.timers.get? id with
  | none => (w, t)
  | some timer =>
    let w := { w with timers := w.timers.spend id }
    match timer.callback with
    | .expire r window generation =>
      (w, t.push [.request r (.expire window generation), .expired r])
    | .script body =>
      (if w.drive = .runtime then w.emit t (.fired id) else w, t.push [.script (.timer id) body])

def fire (w : World) (t : Thread) (id : Nat) : World × Thread :=
  (w.emit t (.fired id)).runCallback t id

def fireByHand (w : World) (t : Thread) (id : Nat) (force : Bool) : World × Thread :=
  match w.timers.get? id with
  | none => (w, t.answer (.fire .unknown))
  | some timer =>
    if !timer.armed && !force then (w, t.answer (.fire .disarmed))
    else if timer.ran then (w, t.answer (.fire .spent))
    else w.fire (t.push [.answer (.fire .fired)]) id

/-- A listener has panicked: the failure is reported and the work below the listener goes on. A
panic outside any listener ends the thread. -/
def panic (w : World) (t : Thread) (message : Option String) : World × Thread :=
  let text := message.getD "listener panicked"
  match t.unwind with
  | none => (w, { t with stack := [] })
  | some (r, index, t) =>
    match (w.responses[r]?.map (·.sink)).getD .events with
    | .log =>
      ({ w with metrics := w.metrics.increment .listenerFailures }.record
        (.listenerFailed r index text), t)
    | .events => (w.emit t (.listenerFailed index r text), t)

def create (w : World) (sink : FailureSink) : Nat → World
  | 0 => w
  | count + 1 =>
    let response : Response String Listener := { sink }
    let created := w.record (.created w.responses.length)
    create { created with responses := w.responses ++ [response] } sink count

/-- Makes a call: its first section runs now, and what follows it is pushed. -/
def call (w : World) (t : Thread) : Action → World × Thread
  | .create count sink =>
    let w := w.create sink count
    (w, t.answer (.number (w.responses.length - 1)))
  | .applyPolicy r timeout unit =>
    match unit with
    | .ok unit => w.serve t r (.declare (SuspendPolicy.duration ⟨timeout, unit⟩))
    | .error error => (w, t.answer (.badUnit error))
  | .suspend r => w.serve t r .suspend
  | .setTimeout r window => w.serve t r (.setTimeout window)
  | .setTimeoutIn r amount unit =>
    match unit with
    | .ok unit => w.serve t r (.setTimeout (unit.toDuration amount))
    | .error error => (w, t.answer (.badUnit error))
  | .resume r value => w.serve t r (.produce (.ok value))
  | .resumeWithError r failure => w.serve t r (.produce (.error failure))
  | .cancel r => w.serve t r .cancel
  | .onResolved r label body => w.serve t r (.subscribe (.script label body))
  | .wait r label => (w.startWaiter r (.observer label), t.answer .done)
  | .inspect r =>
    w.onResponse t r fun response =>
      (w, t.answer (.inspection ⟨response.state, response.window, response.outcome⟩))
  | .register r =>
    ({ w with registry := w.registry.insert r }, t.push [.measure, .request r (.subscribe .untrack), .answer .done])
  | .tracked r => (w, t.answer (if w.registry.contains r then .number r else .absent))
  | .cancelTracked (some r) =>
    (w, if w.registry.contains r then t.push [.call (.cancel r)] else t.answer .absent)
  | .cancelTracked none => (w, t.answer .absent)
  | .cancelAll => (w, t.push [.cancelEach w.registry.ids 0])
  | .trackedIds => (w, t.answer (.indices (w.registry.ids.mergeSort (fun a b => decide (a ≤ b)))))
  | .fire timer force => w.fireByHand t timer force
  | .hookSchedule body => ({ w with scheduleHooks := w.scheduleHooks ++ [body] }, t.answer .done)
  | .hookCancel body => ({ w with cancelHooks := w.cancelHooks ++ [body] }, t.answer .done)
  | .race threads action =>
    let offClock := w.drive == .runtime && t.onClock
    (w, { t.push (.race threads action {} :: if offClock then [.backOnClock] else []) with
      onClock := t.onClock && !offClock })
  | .panic message => w.panic t message
  | .schedule after body => w.schedule t after (.script body) fun id => [.answer (.number id)]
  | .disarm timer => w.disarm t timer

def deliver (w : World) (t : Thread) (waiter : Waiter) (outcome : Outcome String) : World :=
  match waiter.role with
  | .observer label => w.emit t (.delivered label waiter.r outcome)
  | .handler => w.emit t (.answered waiter.r outcome)
  | .worker .. => w.record (.workerStoppedEarly waiter.r outcome.kind)

def onWaiter (w : World) (t : Thread) (id : Nat) (f : Waiter → World × Thread) : World × Thread :=
  match w.waiters[id]? with
  | some waiter => f waiter
  | none => (w, t)

def perform (w : World) (t : Thread) : Work → World × Thread
  | .call action => w.call t action
  | .script _ [] => (w, t)
  | .script speaker (action :: rest) =>
    (w, t.push [.call action, .line speaker action, .script speaker rest])
  | .line speaker action => (w.emit t (.line speaker action t.result), t)
  | .request r request => w.serve t r request
  | .answer result => (w, t.answer result)
  | .settled _ _ => (w, t.answer .done)
  | .record event => (w.record event, t)
  | .disarm timer => w.disarm t timer
  | .arm r arming =>
    w.schedule t arming.window (.expire r arming.window arming.generation) fun id =>
      [.request r (.keepTimer id arming.generation)]
  | .fireInline timer => if w.timers.isArmed timer then w.fire t timer else (w, t)
  | .timerDue timer =>
    if w.timers.isArmed timer then (w.record (.timerFired timer)).runCallback t timer else (w, t)
  | .expired r =>
    match t.result with
    | .rejected error => (w.record (.firedLate r error), t)
    | _ => (w, t)
  | .notify r => (w.notify r, t)
  | .announce r outcome listeners =>
    ({ w with metrics := w.metrics.countTransition outcome.kind }.record
      (.resolved r outcome.kind listeners), t)
  | .listen r index (.script label body) outcome =>
    (w.emit t (.listener label r outcome),
      t.push [.script (.listener label) body, .guardListener r index])
  | .listen r index .untrack _ => (w, t.push [.untrack r, .guardListener r index])
  | .guardListener _ _ => (w, t)
  | .untrack r => ({ w with registry := w.registry.remove r }, t.push [.measure])
  | .measure => (w, t.push [.gauge w.registry.size])
  | .gauge length => ({ w with metrics := w.metrics.set .inFlight length }, t)
  | .cancelEach [] cancelled =>
    (if cancelled > 0 then w.record (.cancelledInFlight cancelled) else w, t.answer (.number cancelled))
  | .cancelEach (r :: pending) cancelled =>
    (w, t.push [.call (.cancel r), .countCancelled pending cancelled])
  | .countCancelled pending cancelled =>
    let cancelled := match t.result with
      | .done => cancelled + 1
      | _ => cancelled
    (w, t.push [.cancelEach pending cancelled])
  | .race 0 _ tally => (w, t.answer (.tally tally))
  | .race (threads + 1) action tally => (w, t.push [.call action, .countRaced threads action tally])
  | .countRaced threads action tally => (w, t.push [.race threads action (tally.add t.result)])
  | .backOnClock => (w, { t with onClock := true })
  | .enable waiter => (w.setStage waiter .enabled, t)
  | .readOutcome id =>
    w.onWaiter t id fun waiter =>
      match w.responses[waiter.r]?.bind (·.outcome) with
      | some outcome => ((w.setStage id .finished).deliver t waiter outcome, t)
      | none => (w, t.push [.park id])
  | .park id =>
    w.onWaiter t id fun waiter =>
      if waiter.stage = .notified then (w, t.push [.enable id, .readOutcome id])
      else
        match waiter.role with
        | .worker (some due) result =>
          if due ≤ w.now then
            (w.setStage id .finished, t.push [.request waiter.r (.produce result)])
          else (w.setStage id .parked, t)
        | _ => (w.setStage id .parked, t)
  | .rouse id =>
    w.onWaiter t id fun waiter =>
      match waiter.stage, waiter.role with
      | .parked, .worker _ result =>
        (w.setStage id .finished, t.push [.request waiter.r (.produce result)])
      | _, _ => (w, t)

end World

def step (w : World) (t : Thread) : World × Thread :=
  match t.stack with
  | [] => (w, t)
  | work :: rest => w.perform { t with stack := rest } work

def Task.thread : Task → Thread
  | .timer id => { stack := [.timerDue id] }
  | .waiter id => { stack := [.enable id, .readOutcome id] }
  | .worker id => { stack := [.rouse id] }

end Deferral.Simulation
