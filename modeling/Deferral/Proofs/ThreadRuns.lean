import Deferral.Proofs.Effects
import Deferral.Proofs.RequestCounts
import Deferral.Simulation.Run

/-! A thread that runs alone. The steps of a call are followed one by one, and the call that ends a
tracked response is summed up as one change of the world. -/

namespace Deferral.Simulation

theorem runThread_idle (fuel : Nat) {w : World} {t : Thread} (idle : t.stack = []) : runThread fuel w t = (w, t) := by
  cases fuel with
  | zero => rfl
  | succ fuel => simp [runThread, idle]

theorem runThread_add (n m : Nat) (w : World) (t : Thread) :
    runThread (n + m) w t = runThread m (runThread n w t).1 (runThread n w t).2 := by
  induction n generalizing w t with
  | zero => rw [Nat.zero_add]; rfl
  | succ n ih =>
    rw [Nat.add_right_comm, runThread, runThread]
    split
    · next idle => exact (runThread_idle m (List.isEmpty_iff.mp idle)).symm
    · exact ih _ _

/-- A thread gets from one world to another in at most `bound` steps. -/
def Reaches (bound : Nat) (w : World) (t : Thread) (w' : World) (t' : Thread) : Prop :=
  ∃ n ≤ bound, runThread n w t = (w', t')

namespace Reaches

variable {bound more : Nat} {w w' w'' : World} {t t' t'' : Thread}

theorem refl : Reaches 0 w t w t := ⟨0, Nat.le_refl 0, rfl⟩

theorem step {work : Work} {rest : List Work} {result : Result} {onClock : Bool}
    (later : Reaches bound (w.perform { stack := rest, result, onClock } work).1
      (w.perform { stack := rest, result, onClock } work).2 w' t') :
    Reaches (bound + 1) w { stack := work :: rest, result, onClock } w' t' := by
  obtain ⟨n, within, ran⟩ := later
  exact ⟨n + 1, Nat.succ_le_succ within, ran⟩

theorem next {work : Work} {rest : List Work} {result : Result} {onClock : Bool}
    (performs : w.perform { stack := rest, result, onClock } work = (w', t')) (later : Reaches bound w' t' w'' t'') :
    Reaches (bound + 1) w { stack := work :: rest, result, onClock } w'' t'' := by
  apply step
  rw [performs]
  exact later

theorem trans (first : Reaches bound w t w' t') (second : Reaches more w' t' w'' t'') :
    Reaches (bound + more) w t w'' t'' := by
  obtain ⟨n, within, ran⟩ := first
  obtain ⟨m, within', ran'⟩ := second
  refine ⟨n + m, Nat.add_le_add within within', ?_⟩
  rw [runThread_add, ran]
  exact ran'

theorem mono (reaches : Reaches bound w t w' t') (less : bound ≤ more) : Reaches more w t w' t' := by
  obtain ⟨n, within, ran⟩ := reaches
  exact ⟨n, Nat.le_trans within less, ran⟩

theorem runThread (reaches : Reaches bound w t w' t') (idle : t'.stack = []) {fuel : Nat} (enough : bound ≤ fuel) :
    runThread fuel w t = (w', t') := by
  obtain ⟨n, within, ran⟩ := reaches
  obtain ⟨m, rfl⟩ := Nat.exists_eq_add_of_le (Nat.le_trans within enough)
  rw [runThread_add, ran]
  exact runThread_idle m idle

end Reaches

/-- Worlds that differ in their log and in metrics that count no replies. -/
def Alike (w w' : World) : Prop :=
  ∃ log metrics, w' = { w with log, metrics } ∧ metrics.requestTotal = w.metrics.requestTotal

namespace Alike

theorem refl (w : World) : Alike w w := ⟨w.log, w.metrics, rfl, rfl⟩

theorem trans {w w' w'' : World} (first : Alike w w') (second : Alike w' w'') : Alike w w'' := by
  obtain ⟨log, metrics, rfl, same⟩ := first
  obtain ⟨log', metrics', rfl, same'⟩ := second
  exact ⟨log', metrics', rfl, same'.trans same⟩

theorem record (w : World) (event : LogEvent) : Alike w (w.record event) := ⟨_, _, rfl, rfl⟩

end Alike

namespace World

/-- The world after response `i`, tracked and with nobody else listening, has ended. -/
def ended (w : World) (i : Nat) (x : Response String Listener) (outcome : Outcome String) : World :=
  { (w.setResponse i (x.resolved outcome)).notify i with
    timers := (x.timer.map w.timers.disarm).getD w.timers
    registry := w.registry.remove i }

end World

theorem World.disarm_alike {w : World} (runtime : w.drive = .runtime) (t : Thread) (id : Nat) :
    ∃ w', Alike { w with timers := w.timers.disarm id } w' ∧
      w.disarm t id = (w', t.answer (.flag (w.timers.isArmed id))) := by
  simp only [disarm, runtime]
  cases w.timers.isArmed id with
  | true => exact ⟨_, .record _ _, rfl⟩
  | false => exact ⟨_, .refl _, rfl⟩

theorem Request.grant_ending {i : Nat} {x : Response String Listener} {asked : Request} {operation : Operation}
    {outcome : Outcome String} (ends : asked.ending? = some (operation, outcome))
    (current : ∀ n, asked.generation? = some n → n = x.generation) (unresolved : x.state.isTerminal = false) :
    asked.grant i x = .ok {
      response := x.resolved outcome
      disarms := x.timer
      tells := [.notify i, .announce i outcome x.listeners.length] ++
        x.listeners.map fun (index, listener) => .listen i index listener outcome
      returns := [.settled i operation] } := by
  cases asked with
  | produce | cancel =>
    cases ends
    simp [grant, conclude, Response.resolve, unresolved, Except.map, Response.resolved]
  | expire window generation =>
    cases ends
    have same := current generation rfl
    simp [grant, conclude, Response.resolve, unresolved, Except.map, Response.resolved, same]
  | declare | suspend | setTimeout | subscribe | keepTimer => cases ends

private theorem reaches_announced (w : World) (i : Nat) (outcome : Outcome String) (operation : Operation)
    (below : List Work) (result : Result) (onClock : Bool) :
    ∃ w', Alike { w.notify i with registry := w.registry.remove i } w' ∧
      Reaches 8 w
        ⟨.notify i :: .announce i outcome 1 :: .listen i 0 .untrack outcome :: .settled i operation :: below, result, onClock⟩
        w' ⟨below, .done, onClock⟩ := by
  let log := w.log.push (.resolved i outcome.kind 1)
  let metrics := (w.metrics.countTransition outcome.kind).set .inFlight (w.registry.remove i).size
  refine ⟨{ w.notify i with registry := w.registry.remove i, log, metrics }, ⟨log, metrics, rfl, ?_⟩, 8, Nat.le_refl 8, rfl⟩
  exact (Metrics.requestTotal_set _ _ rfl).trans (Metrics.requestTotal_countTransition _ _)

/-- A request that ends a tracked response is followed to where its call returns. -/
theorem reaches_ended {w : World} {i : Nat} {x : Response String Listener} (work : Work) {asked : Request}
    {operation : Operation} {outcome : Outcome String} (asks : work.request? = some (i, asked)) (runtime : w.drive = .runtime)
    (found : w.responses[i]? = some x)
    (ends : asked.ending? = some (operation, outcome)) (current : ∀ n, asked.generation? = some n → n = x.generation)
    (unresolved : x.state.isTerminal = false) (listens : x.listeners = [(0, .untrack)]) (below : List Work)
    (result : Result) (onClock : Bool) :
    ∃ w', Alike (w.ended i x outcome) w' ∧
      Reaches 10 w ⟨work :: below, result, onClock⟩ w' ⟨below, .done, onClock⟩ := by
  have granted := Request.grant_ending (i := i) ends current unresolved
  have served : w.perform ⟨below, result, onClock⟩ work = _ :=
    (step_asks (t := ⟨work :: below, result, onClock⟩) rfl asks).trans (World.serve_granted found granted)
  let resolved := w.setResponse i (x.resolved outcome)
  let told : List Work :=
    .notify i :: .announce i outcome 1 :: .listen i 0 .untrack outcome :: .settled i operation :: below
  cases timed : x.timer with
  | none =>
    obtain ⟨_, ⟨log, metrics, rfl, same⟩, reaches⟩ := reaches_announced resolved i outcome operation below result onClock
    have first : w.perform ⟨below, result, onClock⟩ work = (resolved, ⟨told, result, onClock⟩) := by
      rw [served, Grant.work, timed, listens]
      rfl
    refine ⟨{ w.ended i x outcome with log, metrics }, ⟨log, metrics, rfl, same⟩, .mono (.step ?_) (Nat.le_succ 9)⟩
    rw [first, World.ended, timed]
    exact reaches
  | some id =>
    obtain ⟨_, ⟨log, metrics, rfl, same⟩, disarms⟩ := resolved.disarm_alike runtime ⟨told, result, onClock⟩ id
    obtain ⟨_, ⟨log', metrics', rfl, same'⟩, reaches⟩ := reaches_announced
      { resolved with timers := resolved.timers.disarm id, log, metrics } i outcome operation below _ onClock
    have first : w.perform ⟨below, result, onClock⟩ work = (resolved, ⟨.disarm id :: told, result, onClock⟩) := by
      rw [served, Grant.work, timed, listens]
      rfl
    have next : resolved.perform ⟨told, result, onClock⟩ (.disarm id) = _ := disarms
    refine ⟨{ w.ended i x outcome with log := log', metrics := metrics' }, ⟨log', metrics', rfl, same'.trans same⟩, ?_⟩
    apply Reaches.step
    rw [first]
    apply Reaches.step
    rw [next, World.ended, timed]
    exact reaches

/-! ### Calls on the newest response -/

/-- The tasks of those alarms that go off at a tick. -/
def goingOff (now : Nat) (alarms : List (Nat × Task)) : List Task :=
  (alarms.filter fun alarm => alarm.1 == now).map Prod.snd

section Calls

variable {w : World} {fuel : Nat}

theorem run_eq {action : Action} {bound : Nat} {w' : World} {result : Result} {onClock : Bool}
    (reaches : Reaches bound w { stack := [.call action] } w' ⟨[], result, onClock⟩) (enough : bound ≤ fuel) :
    w.run fuel action = (w', result) := by
  rw [World.run, reaches.runThread rfl enough]

theorem run_created (enough : 1 ≤ fuel) (sink : FailureSink) :
    Alike { w with responses := w.responses ++ [{ sink := sink }] } (w.run fuel (.create 1 sink)).1 := by
  have reaches : Reaches 1 w { stack := [.call (.create 1 sink)] } (w.create sink 1) _ := .step .refl
  rw [run_eq reaches enough]
  exact ⟨_, _, rfl, rfl⟩

variable {before : List (Response String Listener)} {x : Response String Listener}

theorem serve_last {t : Thread} {asked : Request} {g : Grant} (responses : w.responses = before ++ [x])
    (granted : asked.grant before.length x = .ok g) :
    w.serve t before.length asked = ({ w with responses := before ++ [g.response] }, t.push (g.work before.length)) := by
  have found : w.responses[before.length]? = some x := by simp [responses]
  rw [World.serve_granted found granted, World.setResponse, responses]
  simp

theorem run_registered (enough : 6 ≤ fuel) {sink : FailureSink} (responses : w.responses = before ++ [{ sink := sink }]) :
    Alike
      { w with
        responses := before ++ [{ sink := sink, listeners := [(0, .untrack)], nextListener := 1 }]
        registry := w.registry.insert before.length }
      (w.run fuel (.register before.length)).1 := by
  let tracked : World := { w with
    registry := w.registry.insert before.length
    metrics := w.metrics.set .inFlight (w.registry.insert before.length).size }
  have served : tracked.serve { stack := [.answer .done] } before.length (.subscribe .untrack) = _ :=
    serve_last responses rfl
  have asks : Reaches 3 w { stack := [.call (.register before.length)] } tracked
      { stack := [.request before.length (.subscribe .untrack), .answer .done] } := .step (.step (.step .refl))
  have reaches := asks.trans (.next served (.step (.step .refl)))
  rw [run_eq reaches enough]
  exact ⟨_, _, rfl, Metrics.requestTotal_set _ _ rfl⟩

theorem run_suspended (enough : 3 ≤ fuel) (responses : w.responses = before ++ [x]) (pending : x.state = .pending)
    (undeclared : x.declared = none) :
    ∃ w', w.run fuel (.suspend before.length) = (w', .done) ∧
      Alike { w with responses := before ++ [{ x with state := .suspended }] } w' := by
  have granted : Request.suspend.grant before.length x = .ok {
      response := { x with state := .suspended }
      tells := [.record (.suspended before.length none)] } := by
    simp only [Request.grant, Response.suspend, if_pos pending, undeclared]
    rfl
  have served := serve_last (t := { stack := [] }) responses granted
  exact ⟨_, run_eq (.next served (.step (.step .refl))) enough, _, _, rfl, rfl⟩

theorem run_declared (enough : 2 ≤ fuel) (responses : w.responses = before ++ [x]) (pending : x.state = .pending)
    (timeout : Nat) (unit : TimeUnit) :
    w.run fuel (.applyPolicy before.length timeout (.ok unit)) =
      ({ w with responses := before ++ [{ x with declared := some (SuspendPolicy.duration ⟨timeout, unit⟩) }] }, .done) := by
  have granted : Request.grant before.length x (.declare (SuspendPolicy.duration ⟨timeout, unit⟩)) = .ok {
      response := { x with declared := some (SuspendPolicy.duration ⟨timeout, unit⟩) } } := by
    simp only [Request.grant, Response.applyPolicy, if_pos pending]
    rfl
  have served := serve_last (t := { stack := [] }) responses granted
  exact run_eq (.next served (.step .refl)) enough

theorem due_ahead {drive : Drive} {now tick : Nat} {after : Duration} (due : drive.due now after = some tick) :
    now ≤ tick := by
  unfold Drive.due at due
  cases drive with
  | runtime =>
    simp only at due
    split at due
    · cases due
      omega
    · cases due
  | manual _ =>
    cases due
    omega

theorem sleepUntil_eq (w : World) {due : Option Nat} (task : Task) (ahead : ∀ tick, due = some tick → w.now ≤ tick) :
    w.sleepUntil due task = { w with
      sleeping := w.sleeping ++ (due.map fun tick => (tick, task)).toList.filter fun alarm => decide (w.now < alarm.1)
      ready := w.ready ++ goingOff w.now (due.map fun tick => (tick, task)).toList } := by
  cases due with
  | none => simp [World.sleepUntil, goingOff]
  | some tick =>
    have later := ahead tick rfl
    by_cases now : tick ≤ w.now
    · have same : tick = w.now := by omega
      simp [World.sleepUntil, goingOff, same]
    · have apart : ¬ tick = w.now := by omega
      have beyond : w.now < tick := by omega
      simp [World.sleepUntil, goingOff, now, apart, beyond]

theorem schedule_runtime (runtime : w.drive = .runtime) (t : Thread) (after : Duration) (callback : Callback)
    (next : Nat → List Work) : w.schedule t after callback next =
      (({ w with timers := (w.timers.schedule after (Drive.runtime.due w.now after) callback).1 } : World).sleepUntil
        (Drive.runtime.due w.now after) (.timer (w.timers.list.length + 1)), t.push (next (w.timers.list.length + 1))) := by
  obtain ⟨drive, now, responses, timers, registry, sleeping, ready, waiters, onSchedule, onCancel, events, log, metrics⟩ := w
  cases runtime
  rfl

theorem run_clocked (enough : 5 ≤ fuel) (runtime : w.drive = .runtime) (responses : w.responses = before ++ [x])
    {action : Action} {asked : Request} {window : Duration} {event : LogEvent}
    (asks : action.request? = some (before.length, asked))
    (granted : asked.grant before.length x = .ok {
      response := x.started window
      tells := [.record event]
      arms := some ⟨window, x.generation + 1⟩ }) :
    ∃ w', w.run fuel action = (w', .done) ∧ Alike { w with
      responses := before ++ [{ x.started window with timer := some (w.timers.list.length + 1) }]
      timers := (w.timers.schedule window (Drive.runtime.due w.now window) (.expire before.length window (x.generation + 1))).1
      sleeping := w.sleeping ++ ((Drive.runtime.due w.now window).map fun tick =>
        (tick, Task.timer (w.timers.list.length + 1))).toList.filter fun alarm => decide (w.now < alarm.1)
      ready := w.ready ++ goingOff w.now ((Drive.runtime.due w.now window).map fun tick =>
        (tick, Task.timer (w.timers.list.length + 1))).toList } w' := by
  let started : World := { w with responses := before ++ [x.started window], log := w.log.push event }
  let id := w.timers.list.length + 1
  let armed : World := { started with
    timers := (w.timers.schedule window (Drive.runtime.due w.now window) (.expire before.length window (x.generation + 1))).1 }
  let asleep := armed.sleepUntil (Drive.runtime.due w.now window) (.timer id)
  have served : w.perform { stack := [] } (.call action) = _ :=
    (step_asks (t := { stack := [.call action] }) rfl asks).trans (serve_last responses granted)
  have scheduled : started.perform { stack := [.answer .done] } (.arm before.length ⟨window, x.generation + 1⟩) =
      (asleep, { stack := [.request before.length (.keepTimer id (x.generation + 1)), .answer .done] }) := by
    rw [World.perform, schedule_runtime (w := started) runtime]
    rfl
  have slept : asleep = _ := sleepUntil_eq armed (.timer id) fun tick due => due_ahead due
  have stored : Request.grant before.length (x.started window) (.keepTimer id (x.generation + 1)) = .ok {
      response := { x.started window with timer := some id }
      returns := [] } := by
    simp [Request.grant, Response.keepTimer, Response.started, Response.isDone]
  have kept : asleep.perform { stack := [.answer .done] } (.request before.length (.keepTimer id (x.generation + 1))) = _ :=
    serve_last (t := { stack := [.answer .done] }) (by rw [slept]) stored
  refine ⟨_, run_eq (.next served (.step (.next scheduled (.next kept (.step .refl))))) enough, started.log, w.metrics, ?_, rfl⟩
  rw [slept]
  rfl

end Calls

end Deferral.Simulation
