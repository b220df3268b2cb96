import Deferral.Response.State

/-!
The state-changing calls on a response and the two ways one is refused.
-/

namespace Deferral

inductive Operation where
  | resume | cancel | setTimeout | suspend | applyPolicy | timeoutFire
  deriving DecidableEq, Repr, Inhabited

namespace Operation

def name : Operation → String
  | .resume => "resume"
  | .cancel => "cancel"
  | .setTimeout => "set_timeout"
  | .suspend => "suspend"
  | .applyPolicy => "apply_policy"
  | .timeoutFire => "timeout_fire"

def longName : Operation → String
  | .resume => "Resume"
  | .cancel => "Cancel"
  | .setTimeout => "SetTimeout"
  | .suspend => "Suspend"
  | .applyPolicy => "ApplyPolicy"
  | .timeoutFire => "TimeoutFire"

end Operation

/-- Why a call was refused: the response was already resolved, or it is unresolved and in a state
that does not allow the call. -/
inductive TransitionError where
  | alreadyResolved (operation : Operation) (state : ResponseState)
  | invalidTransition (operation : Operation) (state : ResponseState)
  deriving DecidableEq, Repr

namespace TransitionError

def refuse (operation : Operation) (state : ResponseState) : TransitionError :=
  if state.isTerminal then .alreadyResolved operation state else .invalidTransition operation state

def operation : TransitionError → Operation
  | .alreadyResolved op _ | .invalidTransition op _ => op

def state : TransitionError → ResponseState
  | .alreadyResolved _ s | .invalidTransition _ s => s

def name : TransitionError → String
  | .alreadyResolved .. => "AlreadyResolved"
  | .invalidTransition .. => "InvalidTransition"

def message : TransitionError → String
  | .alreadyResolved op s => s!"cannot {op.name}: response already resolved ({s.name})"
  | .invalidTransition op s => s!"cannot {op.name} while {s.name}"

def dump (e : TransitionError) : String :=
  s!"{e.name} \x7b operation: {e.operation.longName}, state: {e.state.longName} \x7d"

@[simp] theorem operation_refuse (op : Operation) (s : ResponseState) :
    (refuse op s).operation = op := by
  unfold refuse; split <;> rfl

@[simp] theorem state_refuse (op : Operation) (s : ResponseState) : (refuse op s).state = s := by
  unfold refuse; split <;> rfl

end TransitionError
end Deferral
