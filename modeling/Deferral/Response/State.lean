/-!
The states of a deferred response, and the byte that stores one.
-/

namespace Deferral

inductive ResponseState where
  | pending | suspended | completed | timedOut | cancelled
  deriving DecidableEq, Repr, Inhabited

namespace ResponseState

def name : ResponseState → String
  | .pending => "pending"
  | .suspended => "suspended"
  | .completed => "completed"
  | .timedOut => "timed_out"
  | .cancelled => "cancelled"

def longName : ResponseState → String
  | .pending => "Pending"
  | .suspended => "SuspendedWithTimeout"
  | .completed => "Completed"
  | .timedOut => "TimedOut"
  | .cancelled => "Cancelled"

def toByte : ResponseState → UInt8
  | .pending => 0
  | .suspended => 1
  | .completed => 2
  | .timedOut => 3
  | .cancelled => 4

/-- Reads a stored byte; one that stores no state reads as `pending`. -/
def ofByte (b : UInt8) : ResponseState :=
  if b = 1 then .suspended
  else if b = 2 then .completed
  else if b = 3 then .timedOut
  else if b = 4 then .cancelled
  else .pending

def isTerminal : ResponseState → Bool
  | .pending | .suspended => false
  | .completed | .timedOut | .cancelled => true

def dump (s : ResponseState) (id : String) : String :=
  s!"DeferredResponse \x7b id: {id}, state: {s.longName} \x7d"

@[simp] theorem isTerminal_pending : pending.isTerminal = false := rfl

@[simp] theorem isTerminal_suspended : suspended.isTerminal = false := rfl

@[simp] theorem isTerminal_completed : completed.isTerminal = true := rfl

@[simp] theorem isTerminal_timedOut : timedOut.isTerminal = true := rfl

@[simp] theorem isTerminal_cancelled : cancelled.isTerminal = true := rfl

@[simp] theorem ofByte_toByte (s : ResponseState) : ofByte s.toByte = s := by
  cases s <;> rfl

end ResponseState
end Deferral
