import Deferral.Duration
import Deferral.Response.Error

/-!
How a deferred response ended. A failure that its producer reports is a completion; a window that
elapsed first and a cancellation are states of their own.
-/

namespace Deferral

def timeoutMessage (after : Duration) : String := s!"request timed out after {after.millis}ms"

inductive Failure where
  | text (message : String)
  | timeout (after : Duration)
  | rejection (error : TransitionError)
  deriving DecidableEq, Repr

def Failure.message : Failure → String
  | .text message => message
  | .timeout after => timeoutMessage after
  | .rejection error => error.message

inductive Outcome (α : Type) where
  | completed (value : α)
  | failed (failure : Failure)
  | timedOut (after : Duration)
  | cancelled
  deriving DecidableEq, Repr

inductive OutcomeKind where
  | completed | failed | timedOut | cancelled
  deriving DecidableEq, Repr

def OutcomeKind.name : OutcomeKind → String
  | .completed => "completed"
  | .failed => "failed"
  | .timedOut => "timed_out"
  | .cancelled => "cancelled"

namespace Outcome

variable {α : Type}

def ofResult : Except Failure α → Outcome α
  | .ok value => .completed value
  | .error failure => .failed failure

def state : Outcome α → ResponseState
  | .completed _ | .failed _ => .completed
  | .timedOut _ => .timedOut
  | .cancelled => .cancelled

def kind : Outcome α → OutcomeKind
  | .completed _ => .completed
  | .failed _ => .failed
  | .timedOut _ => .timedOut
  | .cancelled => .cancelled

def value? : Outcome α → Option α
  | .completed v => some v
  | _ => none

/-- The text of the cause: the producer's, or that of the elapsed window. -/
def failure? : Outcome α → Option String
  | .failed f => some f.message
  | .timedOut after => some (timeoutMessage after)
  | _ => none

def after? : Outcome α → Option Duration
  | .timedOut after => some after
  | _ => none

@[simp] theorem state_ofResult (result : Except Failure α) : (ofResult result).state = .completed := by
  cases result <;> rfl

@[simp] theorem isTerminal_state (o : Outcome α) : o.state.isTerminal = true := by
  cases o <;> rfl

end Outcome
end Deferral
