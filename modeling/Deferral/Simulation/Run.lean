import Deferral.Simulation.Step

/-!
Runs. A thread runs until its stack is empty; ready tasks run one after the other, each to its end;
and the clock advances from one deadline to the next, so that every callback sees its own time.
-/

namespace Deferral.Simulation

/-- Runs a thread to its end, for at most `fuel` steps. -/
def runThread : Nat → World → Thread → World × Thread
  | 0, w, t => (w, t)
  | fuel + 1, w, t =>
    if t.stack.isEmpty then (w, t)
    else
      let (w, t) := step w t
      runThread fuel w t

namespace World

/-- Runs the ready tasks, and those that they make ready, until none is left; at most `fuel`. -/
def settleUpTo (steps : Nat) : Nat → World → World
  | 0, w => w
  | fuel + 1, w =>
    match w.ready with
    | [] => w
    | task :: rest => settleUpTo steps fuel (runThread steps { w with ready := rest } task.thread).1

def settle (fuel : Nat) (w : World) : World := settleUpTo fuel fuel w

def nextWaking (w : World) (limit : Nat) : Option Nat :=
  ((w.sleeping.map Prod.fst).filter (· ≤ limit)).min?

/-- Moves the clock to a tick and makes ready the tasks that wake at it, in the order they fell
asleep. -/
def wakeAt (w : World) (tick : Nat) : World :=
  let due := w.sleeping.filter fun (t, _) => decide (t ≤ tick)
  { w with
    now := max w.now tick
    sleeping := w.sleeping.filter fun (t, _) => !decide (t ≤ tick)
    ready := w.ready ++ due.map Prod.snd }

theorem nextWaking_eq_none_iff {w : World} {limit : Nat} :
    w.nextWaking limit = none ↔ ∀ alarm ∈ w.sleeping, limit < alarm.1 := by
  rw [nextWaking, List.min?_eq_none_iff, List.filter_eq_nil_iff, List.forall_mem_map]
  simp

theorem nextWaking_eq_some_iff {w : World} {limit tick : Nat} : w.nextWaking limit = some tick ↔
    tick ≤ limit ∧ (∀ alarm ∈ w.sleeping, tick ≤ alarm.1) ∧ ∃ alarm ∈ w.sleeping, alarm.1 = tick := by
  rw [nextWaking, List.min?_eq_some_iff, List.mem_filter, List.mem_map]
  constructor
  · rintro ⟨⟨listed, inside⟩, least⟩
    have inside : tick ≤ limit := by simpa using inside
    refine ⟨inside, fun alarm asleep => ?_, listed⟩
    by_cases due : alarm.1 ≤ limit
    · exact least alarm.1 (List.mem_filter.mpr ⟨List.mem_map_of_mem asleep, by simpa using due⟩)
    · omega
  · rintro ⟨inside, least, listed⟩
    refine ⟨⟨listed, by simpa using inside⟩, fun other member => ?_⟩
    obtain ⟨alarm, asleep, rfl⟩ := List.mem_map.mp (List.mem_filter.mp member).1
    exact least alarm asleep

/-- A clock that reaches a tick before any alarm only moves. -/
theorem wakeAt_quiet {w : World} {tick : Nat} (asleep : ∀ alarm ∈ w.sleeping, tick < alarm.1) :
    w.wakeAt tick = { w with now := max w.now tick } := by
  have kept : w.sleeping.filter (fun alarm => !decide (alarm.1 ≤ tick)) = w.sleeping :=
    List.filter_eq_self.mpr fun alarm member => by simpa using asleep alarm member
  have none : w.sleeping.filter (fun alarm => decide (alarm.1 ≤ tick)) = [] :=
    List.filter_eq_nil_iff.mpr fun alarm member => by simpa using asleep alarm member
  simp [wakeAt, kept, none]

/-- Lets the runtime's clock run up to a tick: at each waking the tasks that are due run before the
clock moves on. -/
def advanceRuntime (steps : Nat) : Nat → World → Nat → World
  | 0, w, target => { w with now := max w.now target }
  | fuel + 1, w, target =>
    match w.nextWaking target with
    | none => { w with now := max w.now target }
    | some tick => advanceRuntime steps fuel ((w.wakeAt tick).settle steps) target

/-- Lets the script's clock run up to a tick: timers fire one by one, the earliest first. -/
def advanceManual (steps : Nat) : Nat → World → Nat → World
  | 0, w, target => { w with now := max w.now target }
  | fuel + 1, w, target =>
    match w.timers.next? target with
    | none => { w with now := max w.now target }
    | some (tick, id) =>
      let w := { w with now := max w.now tick }
      advanceManual steps fuel (runThread steps w { stack := [.fireInline id] }).1 target

def advance (fuel : Nat) (w : World) (ticks : Nat) : World :=
  match w.drive with
  | .runtime => advanceRuntime fuel fuel w (w.now + ticks)
  | .manual _ => advanceManual fuel fuel w (w.now + ticks)

def run (fuel : Nat) (w : World) (action : Action) : World × Result :=
  let (w, t) := runThread fuel w { stack := [.call action] }
  (w, t.result)

end World
end Deferral.Simulation
