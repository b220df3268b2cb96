import Deferral.Response.Outcome

/-!
One deferred response and the sections of its calls that run under its lock. Each section is a
function from the response before to the response after, or to the refusal; what a call does
outside the lock (timers, listeners, logs) is decided by what its section returns.
-/

namespace Deferral

inductive FailureSink where
  | log | events
  deriving DecidableEq, Repr, Inhabited

/-- A response whose value has type `α` and whose listeners have type `ℓ`. -/
structure Response (α ℓ : Type) where
  sink : FailureSink := .events
  state : ResponseState := .pending
  outcome : Option (Outcome α) := none
  /-- Listeners not yet run, with the numbers they were registered under. -/
  listeners : List (Nat × ℓ) := []
  nextListener : Nat := 0
  /-- The window declared before suspension. -/
  declared : Option Duration := none
  /-- The window that the running clock was started with. -/
  active : Option Duration := none
  timer : Option Nat := none
  /-- Counts the times the clock was started; a timer of an earlier count is stale. -/
  generation : Nat := 0

namespace Response

variable {α ℓ : Type}

/-- The running window, or else the declared one. -/
def window (r : Response α ℓ) : Option Duration := r.active <|> r.declared

def isDone (r : Response α ℓ) : Bool := r.state.isTerminal

/-- What `suspend` and `setTimeout` leave to do: a window to start under a generation. -/
structure Arming where
  window : Duration
  generation : Nat
  deriving DecidableEq, Repr

/-- Declares a window, which replaces one declared before. Only a pending response takes it. -/
def applyPolicy (r : Response α ℓ) (window : Duration) : Except TransitionError (Response α ℓ) :=
  if r.state = .pending then .ok { r with declared := some window }
  else .error (.refuse .applyPolicy r.state)

/-- Suspends a pending response; a declared window starts now. -/
def suspend (r : Response α ℓ) : Except TransitionError (Response α ℓ × Option Arming) :=
  if r.state = .pending then
    match r.declared with
    | some window =>
      let generation := r.generation + 1
      .ok ({ r with state := .suspended, generation, active := some window }, some ⟨window, generation⟩)
    | none => .ok ({ r with state := .suspended }, none)
  else .error (.refuse .suspend r.state)

/-- Starts or restarts the clock with `window`, suspending a pending response. Returns the arming to
do and the timer that it replaces. -/
def setTimeout (r : Response α ℓ) (window : Duration) :
    Except TransitionError (Response α ℓ × Arming × Option Nat) :=
  if r.state.isTerminal then .error (.refuse .setTimeout r.state)
  else
    let generation := r.generation + 1
    .ok ({ r with state := .suspended, generation, active := some window, timer := none },
      ⟨window, generation⟩, r.timer)

structure Resolution (α ℓ : Type) where
  response : Response α ℓ
  listeners : List (Nat × ℓ)
  timer : Option Nat

/-- The one terminal transition; the first caller wins. A timer names the generation it was armed
under and is refused when that is no longer the current one. -/
def resolve (r : Response α ℓ) (operation : Operation) (outcome : Outcome α)
    (generation : Option Nat) : Except TransitionError (Resolution α ℓ) :=
  if generation.any (· != r.generation) || r.state.isTerminal then
    .error (.refuse operation r.state)
  else
    .ok {
      response := { r with state := outcome.state, outcome := some outcome, listeners := [], timer := none }
      listeners := r.listeners
      timer := r.timer }

/-- Takes the next number for a listener. On an unresolved response the listener is kept; on a
resolved one it is to run now, with the outcome returned. -/
def subscribe (r : Response α ℓ) (listener : ℓ) : Response α ℓ × Nat × Option (Outcome α) :=
  let index := r.nextListener
  match r.outcome with
  | some outcome => ({ r with nextListener := index + 1 }, index, some outcome)
  | none =>
    ({ r with nextListener := index + 1, listeners := r.listeners ++ [(index, listener)] }, index, none)

/-- Remembers a timer armed under `generation`. Returns `none` when the clock was restarted or the
response resolved meanwhile: that timer is stale and has to be disarmed. -/
def keepTimer (r : Response α ℓ) (timer generation : Nat) : Option (Response α ℓ) :=
  if r.generation = generation ∧ r.isDone = false then some { r with timer := some timer } else none

end Response
end Deferral
