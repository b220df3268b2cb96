import Deferral.Log
import Deferral.Metrics
import Deferral.Registry
import Deferral.Simulation.Action
import Deferral.Timer

/-!
The world that a script acts on: responses, one scheduler, one registry, the tasks that wait, and
the records of what happened.
-/

namespace Deferral.Simulation

/-- Who drives the timers: a runtime whose clock counts milliseconds and whose tasks run when the
current step is over, or the script itself, by hand, to the nanosecond. -/
inductive Drive where
  | runtime
  /-- With `inlineZero` a timer of no duration fires while it is being scheduled. -/
  | manual (inlineZero : Bool)
  deriving DecidableEq, Repr

namespace Drive

def tick : Drive → Nat
  | .runtime => 1000000
  | .manual _ => 1

def due (drive : Drive) (now : Nat) (after : Duration) : Option Nat :=
  let t := now + after.ticks drive.tick
  match drive with
  | .runtime => if t ≤ Duration.wordMax then some t else none
  | .manual _ => some t

end Drive

inductive FireResult where
  | unknown | disarmed | spent | fired
  deriving DecidableEq, Repr

/-- How often the racing calls succeeded, and how often each was refused. -/
structure Tally where
  ok : Nat := 0
  rejected : List (String × Nat) := []
  deriving DecidableEq, Repr

def Tally.reject (t : Tally) (message : String) : Tally :=
  { t with rejected := go t.rejected }
where
  go : List (String × Nat) → List (String × Nat)
    | [] => [(message, 1)]
    | (m, n) :: rest => if m = message then (m, n + 1) :: rest else (m, n) :: go rest

structure Inspection where
  state : ResponseState
  window : Option Duration
  outcome : Option (Outcome String)

inductive Result where
  | done
  | rejected (error : TransitionError)
  | badUnit (error : Config.DecodeError)
  | number (n : Nat)
  | absent
  | flag (value : Bool)
  | indices (rs : List Nat)
  | inspection (report : Inspection)
  | fire (result : FireResult)
  | tally (tally : Tally)

/-- Counts a call of the race. A call that answers with a value counts as refused without a reason. -/
def Tally.add (t : Tally) : Result → Tally
  | .done => { t with ok := t.ok + 1 }
  | .rejected error => t.reject error.message
  | .badUnit error => t.reject (error.message .interchange)
  | _ => t.reject ""

inductive Event where
  | listener (label : String) (r : Nat) (outcome : Outcome String)
  | line (speaker : Speaker) (action : Action) (result : Result)
  | delivered (label : String) (r : Nat) (outcome : Outcome String)
  | answered (r : Nat) (outcome : Outcome String)
  | listenerFailed (index : Nat) (r : Nat) (message : String)
  | scheduled (timer : Nat) (after : Duration)
  | disarmed (timer : Nat) (wasArmed : Bool)
  | fired (timer : Nat)

/-- An event with the tick at which it happened, unless it happened on a thread off the clock. -/
structure Stamped where
  tick : Option Nat
  event : Event

inductive Role where
  | observer (label : String)
  | handler
  /-- Resumes the response when its delay is over, unless the response resolves first. -/
  | worker (due : Option Nat) (result : Except Failure String)

/-- How far a waiting task has got. It asks to be notified, then reads the outcome, then parks. -/
inductive WaitStage where
  | fresh | enabled | parked | notified | finished
  deriving DecidableEq, Repr

structure Waiter where
  r : Nat
  role : Role
  stage : WaitStage := .fresh

inductive Task where
  | timer (id : Nat)
  | waiter (id : Nat)
  | worker (id : Nat)
  deriving DecidableEq, Repr

structure World where
  drive : Drive
  now : Nat := 0
  responses : List (Response String Listener) := []
  timers : Timers Callback := {}
  registry : Registry := {}
  /-- Tasks that sleep, with the ticks that wake them, in the order they fell asleep. -/
  sleeping : List (Nat × Task) := []
  ready : List Task := []
  waiters : List Waiter := []
  scheduleHooks : List (List Action) := []
  cancelHooks : List (List Action) := []
  events : Array Stamped := #[]
  log : Array LogEvent := #[]
  metrics : Metrics := {}

namespace World

def record (w : World) (event : LogEvent) : World := { w with log := w.log.push event }

def setResponse (w : World) (r : Nat) (response : Response String Listener) : World :=
  { w with responses := w.responses.set r response }

/-- A refused call is counted and logged, and changes nothing else. -/
def recordRejection (w : World) (r : Nat) (error : TransitionError) : World :=
  { w with metrics := w.metrics.countRejection error.operation }.record
    (.rejected r error.operation error.state)

def setStage (w : World) (id : Nat) (stage : WaitStage) : World :=
  { w with waiters := w.waiters.modify id fun waiter => { waiter with stage } }

/-- Puts a task to sleep until a tick; if that is now it is ready, and beyond the clock it never is. -/
def sleepUntil (w : World) (due : Option Nat) (task : Task) : World :=
  match due with
  | none => w
  | some t => if t ≤ w.now then { w with ready := w.ready ++ [task] }
    else { w with sleeping := w.sleeping ++ [(t, task)] }

def addWaiter (w : World) (r : Nat) (role : Role) : World :=
  { w with waiters := w.waiters ++ [{ r, role }] }

def startWaiter (w : World) (r : Nat) (role : Role) : World :=
  let id := w.waiters.length
  { w.addWaiter r role with ready := w.ready ++ [.waiter id] }

/-- Wakes the tasks that wait for a response: those that park now, and those that have asked to be
notified and are about to. -/
def notify (w : World) (r : Nat) : World :=
  let woken := (w.waiters.zipIdx).filterMap fun (waiter, id) =>
    if waiter.r = r ∧ waiter.stage = .parked then some (Task.waiter id) else none
  { w with
    waiters := w.waiters.map fun waiter =>
      if waiter.r = r ∧ (waiter.stage = .parked ∨ waiter.stage = .enabled) then
        { waiter with stage := .notified }
      else waiter
    ready := w.ready ++ woken }

end World
end Deferral.Simulation
