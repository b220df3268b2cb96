import Deferral.Config.Decode
import Deferral.Response.Basic

/-!
Scripts. Everything that clients, listeners, timers and scheduler hooks may do is an action; what a
listener or a hook does is a list of actions, so a run is determined by its script.
-/

namespace Deferral.Simulation

open Config (DecodeError)

/-- One call. Responses are named by their indices and timers by their numbers. -/
inductive Action where
  | create (count : Nat) (sink : FailureSink)
  | applyPolicy (r timeout : Nat) (unit : Except DecodeError TimeUnit)
  | suspend (r : Nat)
  | setTimeout (r : Nat) (window : Duration)
  | setTimeoutIn (r amount : Nat) (unit : Except DecodeError TimeUnit)
  | resume (r : Nat) (value : String)
  | resumeWithError (r : Nat) (failure : Failure)
  | cancel (r : Nat)
  | onResolved (r : Nat) (label : String) (body : List Action)
  /-- Starts a task that waits for the outcome. -/
  | wait (r : Nat) (label : String)
  | inspect (r : Nat)
  | register (r : Nat)
  | tracked (r : Nat)
  /-- Cancels a response through the registry; `none` names one that no registry holds. -/
  | cancelTracked (r : Option Nat)
  | cancelAll
  | trackedIds
  /-- Fires a timer by hand; `force` runs the callback of a cancelled one. -/
  | fire (timer : Nat) (force : Bool)
  /-- Queues a script that the next scheduling of a timer runs. -/
  | hookSchedule (body : List Action)
  | hookCancel (body : List Action)
  /-- Makes the same call on several threads, which amounts to making it that many times. -/
  | race (threads : Nat) (action : Action)
  /-- Stops the listener by a panic, with a message or with another payload. -/
  | panic (message : Option String)
  | schedule (after : Duration) (body : List Action)
  | disarm (timer : Nat)

inductive Speaker where
  | listener (label : String)
  | onSchedule
  | onCancel
  | timer (id : Nat)
  deriving DecidableEq, Repr

inductive Listener where
  | script (label : String) (body : List Action)
  | untrack

inductive Callback where
  /-- Times a response out, with the window and the generation it was armed with. -/
  | expire (r : Nat) (window : Duration) (generation : Nat)
  | script (body : List Action)

mutual

/-- A bound on how many actions an action can cause. -/
def Action.work : Action → Nat
  | .create count _ => count + 1
  | .onResolved _ _ body => Action.workAll body + 1
  | .hookSchedule body => Action.workAll body + 1
  | .hookCancel body => Action.workAll body + 1
  | .schedule _ body => Action.workAll body + 1
  | .race threads action => threads * (action.work + 1) + 1
  | _ => 1

def Action.workAll : List Action → Nat
  | [] => 0
  | action :: rest => action.work + Action.workAll rest

end

end Deferral.Simulation
