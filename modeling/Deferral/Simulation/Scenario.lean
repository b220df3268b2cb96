import Deferral.Simulation.Run

/-!
Scenarios: scripts for the world from outside, one step at a time, with a report after each. When a
step is over, the tasks that it made ready run before the report is taken.
-/

namespace Deferral.Simulation

inductive ScenarioStep where
  | call (action : Action)
  | advance (ticks : Nat)

def ScenarioStep.work : ScenarioStep → Nat
  | .call action => action.work
  | .advance _ => 1

def ScenarioStep.workAll : List ScenarioStep → Nat
  | [] => 0
  | step :: rest => step.work + workAll rest

structure StepReport where
  result : Result
  events : List Stamped
  world : World

/-- More steps than a script of this much work can take: each action and each response that a call
goes through takes a bounded number of them. -/
def stepBound (work : Nat) : Nat := 64 * (work + 2) * (work + 2)

/-- The key that puts the events of a step that cancels everything into an order of their own: by
response, then by timer, events without either first. -/
private def Event.sortKey : Event → Nat × Nat
  | .listener _ r _ | .delivered _ r _ | .listenerFailed _ r _ | .answered r _ => (r + 1, 0)
  | .disarmed timer _ => (0, timer + 1)
  | .line .. | .scheduled .. | .fired _ => (0, 0)

private def keyLE (a b : Stamped) : Bool :=
  let (r, t) := a.event.sortKey
  let (r', t') := b.event.sortKey
  r < r' || (r == r' && t ≤ t')

/-- The events of a step. The registry is visited in no particular order by a step that cancels
everything, so its events are told in the order of their keys. -/
private def stepEvents (step : ScenarioStep) (events : List Stamped) : List Stamped :=
  match step with
  | .call .cancelAll => events.mergeSort keyLE
  | _ => events

def World.take (fuel : Nat) (w : World) (step : ScenarioStep) : StepReport :=
  let seen := w.events.size
  let (w, result) := match step with
    | .call action => w.run fuel action
    | .advance ticks =>
      let w := w.advance fuel ticks
      (w, match w.drive with
        | .runtime => .number w.now
        | .manual _ => .done)
  let w := w.settle fuel
  { result, world := w, events := stepEvents step (w.events.toList.drop seen) }

def reports (fuel : Nat) (w : World) : List ScenarioStep → List StepReport × World
  | [] => ([], w)
  | step :: rest =>
    let report := w.take fuel step
    let (more, last) := reports fuel report.world rest
    (report :: more, last)

def runScenario (drive : Drive) (steps : List ScenarioStep) : List StepReport × World :=
  reports (stepBound (ScenarioStep.workAll steps)) { drive } steps

end Deferral.Simulation
