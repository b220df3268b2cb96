import Deferral.Log

/-!
The shutdown signal. Everyone who subscribed before a trigger is sent it; a receiver that has not
read the last signal when the next one comes is told how many it missed and keeps the newest.
-/

namespace Deferral

/-- A receiver, by the number of signals that it has not read. -/
structure Receiver where
  held : Bool := true
  unread : Nat := 0
  deriving DecidableEq, Repr

structure Shutdown where
  receivers : List Receiver := []
  deriving DecidableEq, Repr

namespace Shutdown

inductive Received where
  | signal
  | empty
  | lagged (missed : Nat)
  | dropped
  deriving DecidableEq, Repr

def receiverCount (s : Shutdown) : Nat := s.receivers.countP (·.held)

def subscribe (s : Shutdown) : Shutdown × Nat :=
  ({ s with receivers := s.receivers ++ [{}] }, s.receivers.length)

/-- Sends a signal to the receivers that are held, and returns how many they are. -/
def trigger (s : Shutdown) : Shutdown × Nat :=
  ({ s with receivers := s.receivers.map fun r => if r.held then { r with unread := r.unread + 1 } else r },
    s.receiverCount)

def drop (s : Shutdown) (k : Nat) : Shutdown × Bool :=
  ({ s with receivers := s.receivers.modify k fun r => { r with held := false } },
    (s.receivers[k]?).any (·.held))

/-- Reads a receiver without waiting. One signal is kept for each; what was missed before it is
reported first. -/
def tryReceive (s : Shutdown) (k : Nat) : Shutdown × Received :=
  let set (unread : Nat) : Shutdown :=
    { s with receivers := s.receivers.modify k fun r => { r with unread } }
  match s.receivers[k]? with
  | none => (s, .dropped)
  | some r =>
    if !r.held then (s, .dropped)
    else if r.unread = 0 then (s, .empty)
    else if r.unread = 1 then (set 0, .signal)
    else (set 1, .lagged (r.unread - 1))

inductive Call where
  | subscribe
  | trigger
  | drop (k : Nat)
  | tryReceive (k : Nat)
  deriving DecidableEq, Repr

inductive Answer where
  | number (n : Nat)
  | flag (value : Bool)
  | received (what : Received)
  deriving DecidableEq, Repr

def call (s : Shutdown) : Call → Shutdown × Answer × List LogEvent
  | .subscribe =>
    let (s, k) := s.subscribe
    (s, .number k, [])
  | .trigger =>
    let (s, n) := s.trigger
    (s, .number n, [.shutdownTriggered n])
  | .drop k =>
    let (s, held) := s.drop k
    (s, .flag held, [])
  | .tryReceive k =>
    let (s, what) := s.tryReceive k
    (s, .received what, [])

def runFrom (s : Shutdown) : List Call → List (Answer × Nat) × List LogEvent
  | [] => ([], [])
  | c :: rest =>
    let (s, answer, log) := s.call c
    let (answers, more) := runFrom s rest
    ((answer, s.receiverCount) :: answers, log ++ more)

def run (calls : List Call) : List (Answer × Nat) × List LogEvent := runFrom {} calls

end Shutdown
end Deferral
