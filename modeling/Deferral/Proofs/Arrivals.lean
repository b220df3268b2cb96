import Deferral.Proofs.DeskClock

/-! How a deferred request takes its desk. Its response is made, tracked and suspended, its worker starts
and its handler parks; to everyone else nothing happens. -/

namespace Deferral.Http
open Simulation

/-- The timer of the next window to start. -/
def Ticket.timer (ticket : Ticket) (w : World) : Option Nat := ticket.window.map fun _ => w.timers.list.length + 1

/-- A response that its handler has made and registered, and perhaps declared a window for. -/
def registeredResponse (declared : Option Duration) : Response String Listener where
  sink := .log
  listeners := [(0, .untrack)]
  nextListener := 1
  declared := declared

/-- The response of a request that has arrived. -/
def Ticket.response (ticket : Ticket) (declared : Option Duration) (timer : Option Nat) : Response String Listener :=
  { registeredResponse declared with
    state := .suspended
    active := ticket.window
    timer := timer
    generation := if ticket.window.isSome then 1 else 0 }

/-- The world after a request has come to where its handler waits. -/
def arrived (w : World) (ticket : Ticket) (declared : Option Duration) : World :=
  let i := w.responses.length
  let timer := ticket.timer w
  { w with
    responses := w.responses ++ [ticket.response declared timer]
    timers := match ticket.window with
      | some window => (w.timers.schedule window ticket.timeoutDue (.expire i window 1)).1
      | none => w.timers
    registry := w.registry.insert i
    sleeping := w.sleeping ++ (ticket.timeoutAlarm timer ++ ticket.workAlarm i).filter fun alarm => decide (w.now < alarm.1)
    ready := w.ready ++ goingOff w.now (ticket.timeoutAlarm timer) ++ [.waiter (2 * i)]
    waiters := w.waiters ++ [⟨i, .worker ticket.workDue ticket.result, .fresh⟩, ⟨i, .handler, .parked⟩] }

def suspended (w : World) (before : List (Response String Listener)) (ticket : Ticket) (declared : Option Duration) : World :=
  let timer := ticket.timer w
  { w with
    responses := before ++ [ticket.response declared timer]
    timers := match ticket.window with
      | some window => (w.timers.schedule window ticket.timeoutDue (.expire before.length window 1)).1
      | none => w.timers
    sleeping := w.sleeping ++ (ticket.timeoutAlarm timer).filter fun alarm => decide (w.now < alarm.1)
    ready := w.ready ++ goingOff w.now (ticket.timeoutAlarm timer) }

section Suspension

variable {s : Server} {before : List (Response String Listener)} {x : Response String Listener} {ticket : Ticket}

theorem run_with (s : Server) {action : Action} {w' : World} {result : Result}
    (ran : s.world.run s.fuel action = (w', result)) : s.run action = ({ s with world := w' }, result) := by
  rw [Server.run, ran]

theorem run_started (action : Action) {window : Duration} {declared : Option Duration} {asked : Simulation.Request}
    {event : LogEvent} (enough : 5 ≤ s.fuel) (runtime : s.world.drive = .runtime) (arrives : ticket.arrival = s.world.now)
    (given : ticket.window = some window) (responses : s.world.responses = before ++ [registeredResponse declared])
    (asks : action.request? = some (before.length, asked))
    (granted : asked.grant before.length (registeredResponse declared) = .ok {
      response := (registeredResponse declared).started window
      tells := [.record event]
      arms := some ⟨window, 1⟩ }) :
    ∃ world, s.run action = ({ s with world }, .done) ∧ Alike (suspended s.world before ticket declared) world := by
  obtain ⟨world, ran, alike⟩ := run_clocked enough runtime responses asks granted
  refine ⟨world, run_with s ran, ?_⟩
  have due : ticket.timeoutDue = Drive.runtime.due s.world.now window := by
    rw [Ticket.timeoutDue, given, arrives, Option.bind_some]
  have timer : ticket.timer s.world = some (s.world.timers.list.length + 1) := by
    rw [Ticket.timer, given, Option.map_some]
  have alarm : ticket.timeoutAlarm (some (s.world.timers.list.length + 1)) =
      ((Drive.runtime.due s.world.now window).map fun tick =>
        (tick, Task.timer (s.world.timers.list.length + 1))).toList := by
    rw [Ticket.timeoutAlarm, due]
    cases Drive.runtime.due s.world.now window <;> simp
  have response : { (registeredResponse declared).started window with timer := some (s.world.timers.list.length + 1) } =
      ticket.response declared (some (s.world.timers.list.length + 1)) := by
    simp only [Response.started, Ticket.response, registeredResponse, given, Option.isSome_some, if_true]
  rw [response] at alike
  simp only [suspended, timer, alarm, due, given]
  exact alike

theorem suspend_eq (before : List (Response String Listener)) (enough : 5 ≤ s.fuel) (runtime : s.world.drive = .runtime)
    (arrives : ticket.arrival = s.world.now)
    (window : ticket.window = windowOf s.table ticket.route ticket.params)
    (responses : s.world.responses = before ++ [registeredResponse none]) :
    ∃ world declared, s.suspend before.length ticket.route ticket.params = ({ s with world }, .done) ∧
      (ticket.window <|> declared) = ticket.window ∧ Alike (suspended s.world before ticket declared) world := by
  unfold windowOf at window
  cases asked : ticket.params.timeoutMs with
  | some ms =>
    rw [asked] at window
    obtain ⟨world, ran, alike⟩ := run_started (.setTimeout before.length (.ofMillis ms)) enough runtime arrives window
      responses rfl rfl
    refine ⟨world, none, ?_, by rw [window]; rfl, alike⟩
    rw [Server.suspend, asked]
    exact ran
  | none =>
    rw [asked] at window
    cases found : s.table.resolve ticket.route with
    | some policy =>
      rw [found, Option.map_some] at window
      have declares := run_declared (x := registeredResponse none) (Nat.le_trans (by omega) enough) responses rfl policy.timeout
        policy.unit
      let world : World := { s.world with responses := before ++ [registeredResponse (some policy.duration)] }
      obtain ⟨world, ran, alike⟩ := run_started (s := { s with world }) (.suspend before.length) enough runtime
        arrives window rfl rfl rfl
      refine ⟨world, some policy.duration, ?_, by rw [window]; rfl, alike⟩
      rw [Server.suspend, asked, found]
      simp only
      rw [run_with s declares]
      exact ran
    | none =>
      rw [found, Option.map_none] at window
      obtain ⟨world, ran, alike⟩ := run_suspended (Nat.le_trans (by omega) enough) responses rfl rfl
      refine ⟨world, none, ?_, by rw [window]; rfl, ?_⟩
      · rw [Server.suspend, asked, found]
        exact run_with s ran
      · have response : { registeredResponse none with state := .suspended } = ticket.response none none := by
          simp only [Ticket.response, registeredResponse, window, Option.isSome_none, Bool.false_eq_true, if_false]
        rw [response] at alike
        simp only [suspended, Ticket.timer, Ticket.timeoutAlarm, Ticket.timeoutDue, window, goingOff, Option.map_none,
          Option.bind_none, Option.toList_none, List.filter_nil, List.map_nil, List.append_nil]
        exact alike

theorem startWorker_eq (ticket : Ticket) {w : World} (runtime : w.drive = .runtime) (arrives : ticket.arrival = w.now) {i : Nat}
    (seats : w.waiters.length = 2 * i) :
    Server.startWorker w i ticket.params = { w with
      waiters := w.waiters ++ [⟨i, .worker ticket.workDue ticket.result, .fresh⟩]
      ready := w.ready ++ [.waiter (2 * i)]
      sleeping := w.sleeping ++ (ticket.workAlarm i).filter fun alarm => decide (w.now < alarm.1) } := by
  have due : w.drive.due w.now (.ofMillis ticket.params.delayMs) = ticket.workDue := by
    rw [runtime, ← arrives, Ticket.workDue]
  rw [Server.startWorker, due, seats]
  cases given : ticket.workDue with
  | none => simp [World.startWaiter, World.addWaiter, World.sleepUntil, Ticket.workAlarm, Ticket.result, given, seats]
  | some tick =>
    have later : w.now ≤ tick := by
      rw [← arrives]
      exact due_ahead given
    by_cases now : tick ≤ w.now
    · have apart : ¬ w.now < tick := by omega
      simp [World.startWaiter, World.addWaiter, Ticket.workAlarm, Ticket.result, given, seats, now, apart]
    · have beyond : w.now < tick := by omega
      simp [World.startWaiter, World.addWaiter, World.sleepUntil, Ticket.workAlarm, Ticket.result, given, seats, now, beyond]

theorem handler_parks {w : World} {i fuel : Nat} (enough : 3 ≤ fuel)
    (undecided : w.responses[i]?.bind (·.outcome) = none) :
    (runThread fuel (w.addWaiter i .handler) (Task.waiter w.waiters.length).thread).1 =
      { w with waiters := w.waiters ++ [⟨i, .handler, .parked⟩] } := by
  have seat : (w.addWaiter i .handler).waiters[w.waiters.length]? = some ⟨i, .handler, .fresh⟩ := by
    simp [World.addWaiter]
  have parks := reaches_parked (v := w.addWaiter i .handler) seat undecided (by simp)
  rw [parks.runThread rfl enough]
  simp [World.setStage, World.addWaiter, List.modify_eq_take_cons_drop]

def tracked (w : World) : World :=
  { w with
    responses := w.responses ++ [registeredResponse none]
    registry := w.registry.insert w.responses.length }

theorem register_eq (enough : 6 ≤ s.fuel) : ∃ made world first second,
    s.run (.create 1 .log) = ({ s with world := made }, first) ∧
      Server.run { s with world := made } (.register s.world.responses.length) = ({ s with world }, second) ∧
      Alike (tracked s.world) world := by
  obtain ⟨log, metrics, created, total⟩ := run_created (w := s.world) (Nat.le_trans (by omega) enough) .log
  let made : World := { s.world with responses := s.world.responses ++ [{ sink := .log }], log, metrics }
  obtain ⟨log', metrics', registers, total'⟩ := run_registered (w := made) enough rfl
  exact ⟨made, { tracked s.world with log := log', metrics := metrics' }, _, _, run_with s (Prod.ext created rfl),
    run_with { s with world := made } (Prod.ext registers rfl), log', metrics', rfl, total'.trans total⟩

theorem parked_eq {w : World} {declared : Option Duration} (fuel : Nat) (enough : 3 ≤ fuel) (runtime : w.drive = .runtime)
    (arrives : ticket.arrival = w.now) (waiters : w.waiters.length = 2 * w.responses.length) {v : World}
    (alike : Alike (suspended (tracked w) w.responses ticket declared) v) :
    Alike (arrived w ticket declared) (runThread fuel
      ((Server.startWorker v w.responses.length ticket.params).addWaiter w.responses.length .handler)
      (Task.waiter (Server.startWorker v w.responses.length ticket.params).waiters.length).thread).1 := by
  obtain ⟨log, metrics, rfl, total⟩ := alike
  have works := startWorker_eq ticket (i := w.responses.length)
    (w := { suspended (tracked w) w.responses ticket declared with log, metrics }) runtime arrives waiters
  rw [works, handler_parks enough]
  · refine ⟨log, metrics, ?_, total⟩
    simp only [arrived, suspended, tracked, List.filter_append, List.append_assoc, List.cons_append, List.nil_append]
    rfl
  · simp [suspended, Ticket.response, registeredResponse]

/-- A deferred request is taken: it always comes to where its handler waits. -/
theorem handleDeferred_eq (enough : 6 ≤ s.fuel) (runtime : s.world.drive = .runtime) (arrives : ticket.arrival = s.world.now)
    (window : ticket.window = windowOf s.table ticket.route ticket.params)
    (responses : s.world.responses.length = s.exchanges.length) (waiters : s.world.waiters.length = 2 * s.exchanges.length) :
    ∃ world declared, s.handleDeferred ticket.number ticket.method ticket.route ticket.params =
      ({ s with
        world
        exchanges := s.exchanges ++ [{
          request := ticket.number, method := ticket.method, route := ticket.route, handler := 2 * s.exchanges.length + 1 }] },
        []) ∧ (ticket.window <|> declared) = ticket.window ∧ Alike (arrived s.world ticket declared) world := by
  obtain ⟨made, world, _, _, first, second, alike⟩ := register_eq (s := s) enough
  have entered : world.drive = .runtime ∧ ticket.arrival = world.now ∧ world.responses = (tracked s.world).responses := by
    obtain ⟨log, metrics, rfl, -⟩ := alike
    exact ⟨runtime, arrives, rfl⟩
  obtain ⟨stopped, declared, suspends, declares, alike'⟩ := suspend_eq (s := { s with world }) s.world.responses
    (Nat.le_trans (by omega) enough) entered.1 entered.2.1 window entered.2.2
  have same : Alike (suspended (tracked s.world) s.world.responses ticket declared) stopped := by
    obtain ⟨log, metrics, rfl, total⟩ := alike
    obtain ⟨log', metrics', rfl, total'⟩ := alike'
    exact ⟨log', metrics', rfl, total'.trans total⟩
  have stays : stopped.drive = .runtime ∧ ticket.arrival = stopped.now ∧
      stopped.waiters.length = 2 * s.world.responses.length := by
    obtain ⟨log, metrics, rfl, -⟩ := same
    exact ⟨runtime, arrives, by rw [responses]; exact waiters⟩
  have parked := parked_eq s.fuel (Nat.le_trans (by omega) enough) runtime arrives (by rw [waiters, responses])
    (same.trans (.record _ (.requestSuspended s.world.responses.length ticket.route
      (stopped.responses[s.world.responses.length]?.bind (·.window)) ticket.params.delayMs)))
  refine ⟨_, declared, ?_, declares, parked⟩
  rw [Server.handleDeferred, ← responses]
  simp only [first, second, suspends]
  have seat : (Server.startWorker (stopped.record (.requestSuspended s.world.responses.length ticket.route
      (stopped.responses[s.world.responses.length]?.bind (·.window)) ticket.params.delayMs)) s.world.responses.length
      ticket.params).waiters.length = 2 * s.world.responses.length + 1 := by
    rw [startWorker_eq ticket (w := stopped.record _) stays.1 stays.2.1 stays.2.2, List.length_append]
    exact congrArg (· + 1) stays.2.2
  exact congrArg (fun handler => (Server.addExchange ⟨_, s.table, s.running, s.requests, s.exchanges⟩
    ⟨ticket.number, ticket.method, ticket.route, handler, .waiting⟩, ([] : List (Nat × Answer)))) seat

end Suspension

/-! ### The new desk and the others -/

section Arrival

variable {w : World} {count : Nat} {ticket : Ticket} {declared : Option Duration}

theorem timers_arrived (w : World) (ticket : Ticket) (declared : Option Duration) :
    ticket.window = none ∧ ticket.timer w = none ∧ (arrived w ticket declared).timers = w.timers ∨
    ∃ window, ticket.window = some window ∧ ticket.timer w = some (w.timers.list.length + 1) ∧
      (arrived w ticket declared).timers =
        (w.timers.schedule window ticket.timeoutDue (.expire w.responses.length window 1)).1 := by
  cases given : ticket.window with
  | none => exact .inl ⟨rfl, by simp [Ticket.timer, given], by simp [arrived, given]⟩
  | some window => exact .inr ⟨window, rfl, by simp [Ticket.timer, given], by simp [arrived, given]⟩

theorem callback?_arrived {id : Nat} {callback : Callback} (found : w.timers.callback? id = some callback) :
    (arrived w ticket declared).timers.callback? id = some callback := by
  rcases timers_arrived w ticket declared with ⟨-, -, same⟩ | ⟨window, -, -, same⟩
  · rw [same]
    exact found
  · rw [same]
    exact Timers.callback?_schedule_of_some found

theorem exchangeOf_arrived {task : Task} {i : Nat} (ours : exchangeOf w.timers task = some i) :
    exchangeOf (arrived w ticket declared).timers task = some i := by
  cases task with
  | waiter id | worker id => exact ours
  | timer id =>
    cases callback : w.timers.callback? id with
    | none => simp [exchangeOf, callback] at ours
    | some given =>
      simp only [exchangeOf, callback] at ours
      simp only [exchangeOf, callback?_arrived callback]
      exact ours

theorem exchangeOf_alarm (alarm : Nat × Task)
    (member : alarm ∈ ticket.timeoutAlarm (ticket.timer w) ++ ticket.workAlarm w.responses.length) :
    exchangeOf (arrived w ticket declared).timers alarm.2 = some w.responses.length := by
  simp only [Ticket.timeoutAlarm, Ticket.workAlarm, List.mem_append, Option.mem_toList, Option.bind_eq_some_iff,
    Option.map_eq_some_iff] at member
  rcases member with ⟨due, -, id, timer, rfl⟩ | ⟨due, -, rfl⟩
  · rcases timers_arrived w ticket declared with ⟨-, none, -⟩ | ⟨window, -, stored, same⟩
    · rw [none] at timer
      cases timer
    · rw [stored, Option.some_inj] at timer
      subst timer
      simp only [exchangeOf, same, Timers.callback?_schedule, if_true]
  · simp only [exchangeOf, Option.some_inj]
    omega

theorem mem_goingOff {now : Nat} {alarms : List (Nat × Task)} {task : Task} (member : task ∈ goingOff now alarms) :
    (now, task) ∈ alarms := by
  obtain ⟨alarm, listed, rfl⟩ := List.mem_map.mp member
  obtain ⟨listed, due⟩ := List.mem_filter.mp listed
  rw [← beq_iff_eq.mp due]
  exact listed

theorem alarmsOf_arrived (orderly : Orderly w count) (j : Nat) :
    alarmsOf (arrived w ticket declared) j = alarmsOf w j ++ if j = w.responses.length then
      (ticket.timeoutAlarm (ticket.timer w) ++ ticket.workAlarm w.responses.length).filter fun alarm => decide (w.now < alarm.1)
    else [] := by
  rw [alarmsOf, show (arrived w ticket declared).sleeping = w.sleeping ++ _ from rfl, List.filter_append]
  congr 1
  · apply List.filter_congr
    intro alarm member
    obtain ⟨i, -, ours⟩ := orderly.tasks alarm.2 (List.mem_append_right _ (List.mem_map_of_mem member))
    rw [ours, exchangeOf_arrived ours]
  · split
    next same =>
      apply List.filter_eq_self.mpr
      intro alarm member
      rw [exchangeOf_alarm alarm (List.mem_filter.mp member).1, same]
      exact beq_self_eq_true _
    next other =>
      apply List.filter_eq_nil_iff.mpr
      intro alarm member
      rw [exchangeOf_alarm alarm (List.mem_filter.mp member).1]
      simpa using Ne.symm other

theorem queueOf_arrived (orderly : Orderly w count) (j : Nat) :
    queueOf (arrived w ticket declared) j = queueOf w j ++ if j = w.responses.length then
      goingOff w.now (ticket.timeoutAlarm (ticket.timer w)) ++ [.waiter (2 * w.responses.length)]
    else [] := by
  rw [queueOf, show (arrived w ticket declared).ready = w.ready ++ _ ++ _ from rfl, List.append_assoc, List.filter_append]
  have new : ∀ task ∈ goingOff w.now (ticket.timeoutAlarm (ticket.timer w)) ++ [.waiter (2 * w.responses.length)],
      exchangeOf (arrived w ticket declared).timers task = some w.responses.length := by
    intro task member
    rcases List.mem_append.mp member with alarm | worker
    · exact exchangeOf_alarm (w.now, task) (List.mem_append_left _ (mem_goingOff alarm))
    · rw [List.mem_singleton.mp worker]
      simp only [exchangeOf, Option.some_inj]
      omega
  congr 1
  · apply List.filter_congr
    intro task member
    obtain ⟨i, -, ours⟩ := orderly.tasks task (List.mem_append_left _ member)
    rw [ours, exchangeOf_arrived ours]
  · split
    next same =>
      apply List.filter_eq_self.mpr
      intro task member
      rw [new task member, same]
      exact beq_self_eq_true _
    next other =>
      apply List.filter_eq_nil_iff.mpr
      intro task member
      rw [new task member]
      simpa using Ne.symm other

theorem Framed.arrived (orderly : Orderly w count) {j : Nat} (older : j < count) :
    Framed j w (Http.arrived w ticket declared) where
  now := rfl
  response := List.getElem?_append_left (by rw [orderly.responses]; exact older)
  callbacks := fun _ _ found => callback?_arrived found
  worker := List.getElem?_append_left (by rw [orderly.waiters]; omega)
  handler := List.getElem?_append_left (by rw [orderly.waiters]; omega)
  alarms := by
    have other : ¬ j = w.responses.length := by
      rw [orderly.responses]
      omega
    rw [alarmsOf_arrived orderly, if_neg other, List.append_nil]
  queue := by
    have other : ¬ j = w.responses.length := by
      rw [orderly.responses]
      omega
    rw [queueOf_arrived orderly, if_neg other, List.append_nil]
  answers := rfl

theorem Waits.arrived (orderly : Orderly w count) (arrives : ticket.arrival = w.now)
    (declares : (ticket.window <|> declared) = ticket.window) :
    Waits (Http.arrived w ticket declared) count ticket true (ticket.response declared (ticket.timer w)) := by
  have length := orderly.responses
  have none : ∀ task ∈ w.ready ++ w.sleeping.map Prod.snd, exchangeOf w.timers task ≠ some count := by
    intro task member ours
    obtain ⟨i, inside, same⟩ := orderly.tasks task member
    rw [same, Option.some_inj] at ours
    omega
  have seats := orderly.waiters
  constructor
  case found => simp [Http.arrived, ← length]
  case unresolved => rfl
  case undecided => rfl
  case listens => rfl
  case window => exact declares
  case timed =>
    intro id timer
    have timer : ticket.timer w = some id := timer
    rcases timers_arrived w ticket declared with ⟨-, none, -⟩ | ⟨window, given, stored, same⟩
    · rw [none] at timer
      cases timer
    · rw [stored, Option.some_inj] at timer
      subst timer
      refine ⟨window, given, ?_⟩
      rw [same, Timers.callback?_schedule, if_pos rfl, length]
      simp [Ticket.response, given]
  case untimed =>
    intro timer
    have timer : ticket.timer w = Option.none := timer
    rcases timers_arrived w ticket declared with ⟨given, -, -⟩ | ⟨window, -, stored, -⟩
    · exact given
    · rw [stored] at timer
      cases timer
  case worker => simp [Http.arrived, ← seats, length]
  case handler =>
    show (w.waiters ++ _)[2 * count + 1]? = _
    rw [List.getElem?_append_right (by omega), seats]
    simp [length]
  case timing =>
    intro tick due
    obtain ⟨window, -, sum, -⟩ := Ticket.timeoutDue_eq_some.mp due
    show w.now ≤ tick
    omega
  case working =>
    intro tick due
    obtain ⟨sum, -⟩ := Ticket.workDue_eq_some.mp due
    show w.now ≤ tick
    omega
  case alarms =>
    have old : alarmsOf w count = [] := by
      apply List.filter_eq_nil_iff.mpr
      intro alarm member
      simpa using none alarm.2 (List.mem_append_right _ (List.mem_map_of_mem member))
    rw [alarmsOf_arrived orderly, old, if_pos length.symm, List.nil_append, length]
    rfl
  case queue =>
    have old : queueOf w count = [] := by
      apply List.filter_eq_nil_iff.mpr
      intro task member
      simpa using none task (List.mem_append_left _ member)
    rw [queueOf_arrived orderly, old, if_pos length.symm, List.nil_append, length]
    rfl
  case unanswered => exact orderly.silent count (Nat.le_refl _)

theorem isArmed_arrived (w : World) (ticket : Ticket) (declared : Option Duration) (id : Nat) :
    (arrived w ticket declared).timers.isArmed id = (decide (ticket.timer w = some id) || w.timers.isArmed id) := by
  rcases timers_arrived w ticket declared with ⟨-, timer, same⟩ | ⟨window, -, timer, same⟩
  · simp [same, timer]
  · rw [same, timer, Timers.isArmed_schedule]
    by_cases new : id = w.timers.list.length + 1
    · simp [new]
    · simp [new, Ne.symm new]

theorem tracked_arrived (orderly : Orderly w count) : (arrived w ticket declared).registry.ids =
    (List.range (count + 1)).filter fun r => ((arrived w ticket declared).responses[r]?).any (!·.isDone) := by
  have length := orderly.responses
  have untracked : w.registry.contains count = false := by
    rw [Registry.contains, orderly.tracked]
    simp
  have older : ∀ r ∈ List.range count, ((arrived w ticket declared).responses[r]?).any (!·.isDone) =
      (w.responses[r]?).any (!·.isDone) := by
    intro r member
    have inside : r < w.responses.length := by
      rw [length]
      exact List.mem_range.mp member
    rw [show (arrived w ticket declared).responses[r]? = _ from List.getElem?_append_left inside]
  have new : ((arrived w ticket declared).responses[count]?).any (!·.isDone) = true := by
    simp [arrived, ← length, Ticket.response, Response.isDone]
  rw [show (arrived w ticket declared).registry = w.registry.insert w.responses.length from rfl, length, Registry.insert,
    if_neg (by simp [untracked]), List.range_succ, List.filter_append, List.filter_congr older, ← orderly.tracked]
  simp only [List.filter_cons, List.filter_nil, new, if_true]

theorem timeoutAlarm_few (ticket : Ticket) (timer : Option Nat) : (ticket.timeoutAlarm timer).length ≤ 1 := by
  unfold Ticket.timeoutAlarm
  cases ticket.timeoutDue.bind fun due => timer.map fun id => (due, Task.timer id) <;> simp

theorem workAlarm_few (ticket : Ticket) (i : Nat) : (ticket.workAlarm i).length ≤ 1 := by
  unfold Ticket.workAlarm
  cases ticket.workDue.map fun due => (due, Task.worker (2 * i)) <;> simp

theorem mem_sleeping_arrived {alarm : Nat × Task} (member : alarm ∈ (arrived w ticket declared).sleeping) :
    alarm ∈ w.sleeping ∨
      w.now < alarm.1 ∧ alarm ∈ ticket.timeoutAlarm (ticket.timer w) ++ ticket.workAlarm w.responses.length := by
  rcases List.mem_append.mp member with old | new
  · exact .inl old
  · obtain ⟨listed, later⟩ := List.mem_filter.mp new
    exact .inr ⟨of_decide_eq_true later, listed⟩

theorem seats_arrived (orderly : Orderly w count) {id : Nat} {waiter : Waiter}
    (found : (arrived w ticket declared).waiters[id]? = some waiter) : waiter.r = id / 2 := by
  have length := orderly.responses
  have seats := orderly.waiters
  have found : (w.waiters ++ _)[id]? = some waiter := found
  by_cases old : id < w.waiters.length
  · rw [List.getElem?_append_left old] at found
    exact orderly.seats id waiter found
  · rw [List.getElem?_append_right (by omega)] at found
    obtain ⟨k, rfl⟩ := Nat.exists_eq_add_of_le (Nat.le_of_not_lt old)
    rw [Nat.add_sub_cancel_left] at found
    match k with
    | 0 =>
      cases found
      show w.responses.length = _
      omega
    | 1 =>
      cases found
      show w.responses.length = _
      omega

theorem callbacks_arrived (orderly : Orderly w count) {id : Nat} {callback : Callback}
    (given : (arrived w ticket declared).timers.callback? id = some callback) :
    ∃ r window generation, callback = .expire r window generation ∧ r < count + 1 := by
  have length := orderly.responses
  rcases timers_arrived w ticket declared with ⟨-, -, same⟩ | ⟨window, -, -, same⟩
  · rw [same] at given
    obtain ⟨r, window, generation, expires, inside⟩ := orderly.callbacks id callback given
    exact ⟨r, window, generation, expires, by omega⟩
  · rw [same, Timers.callback?_schedule] at given
    split at given
    · cases given
      exact ⟨_, _, _, rfl, by omega⟩
    · obtain ⟨r, window, generation, expires, inside⟩ := orderly.callbacks id callback given
      exact ⟨r, window, generation, expires, by omega⟩

theorem held_arrived (orderly : Orderly w count) {r id : Nat} {x : Response String Listener}
    (found : (arrived w ticket declared).responses[r]? = some x) (timer : x.timer = some id) :
    (arrived w ticket declared).timers.isArmed id = true ∧
      ∃ window, (arrived w ticket declared).timers.callback? id = some (.expire r window x.generation) := by
  have found : (w.responses ++ [_])[r]? = some x := found
  rw [List.getElem?_append] at found
  split at found
  · obtain ⟨armed, window, callback⟩ := orderly.held r x id found timer
    refine ⟨?_, window, callback?_arrived callback⟩
    rw [isArmed_arrived, armed, Bool.or_true]
  next beyond =>
    have here : r = w.responses.length := by
      have inside := (List.getElem?_eq_some_iff.mp found).1
      simp only [List.length_singleton] at inside
      omega
    rw [here, Nat.sub_self] at found
    cases found
    have timer : ticket.timer w = some id := timer
    refine ⟨by rw [isArmed_arrived, decide_eq_true timer, Bool.true_or], ?_⟩
    rcases timers_arrived w ticket declared with ⟨-, none, -⟩ | ⟨window, given, stored, same⟩
    · rw [none] at timer
      cases timer
    · rw [stored, Option.some_inj] at timer
      subst timer
      refine ⟨window, ?_⟩
      rw [same, Timers.callback?_schedule, if_pos rfl, here]
      simp [Ticket.response, given]

theorem armed_arrived (orderly : Orderly w count) :
    (arrived w ticket declared).timers.armed = (arrived w ticket declared).responses.countP (·.timer.isSome) := by
  have responses : (arrived w ticket declared).responses.countP (·.timer.isSome) =
      w.responses.countP (·.timer.isSome) + if (ticket.timer w).isSome then 1 else 0 := by
    simp only [arrived, List.countP_append, List.countP_singleton]
    rfl
  rw [responses, ← orderly.armed]
  rcases timers_arrived w ticket declared with ⟨-, timer, same⟩ | ⟨window, -, timer, same⟩
  · simp [same, timer]
  · simp [same, timer, Timers.armed_schedule]

theorem tasks_arrived (orderly : Orderly w count) {task : Task}
    (member : task ∈ (arrived w ticket declared).ready ++ (arrived w ticket declared).sleeping.map Prod.snd) :
    ∃ i < count + 1, exchangeOf (arrived w ticket declared).timers task = some i := by
  have length := orderly.responses
  rcases List.mem_append.mp member with ready | asleep
  · have ready : task ∈ w.ready ++ _ ++ _ := ready
    rw [List.append_assoc] at ready
    rcases List.mem_append.mp ready with old | new
    · obtain ⟨i, inside, ours⟩ := orderly.tasks task (List.mem_append_left _ old)
      exact ⟨i, by omega, exchangeOf_arrived ours⟩
    · refine ⟨w.responses.length, by omega, ?_⟩
      rcases List.mem_append.mp new with alarm | worker
      · exact exchangeOf_alarm (w.now, task) (List.mem_append_left _ (mem_goingOff alarm))
      · rw [List.mem_singleton.mp worker]
        simp only [exchangeOf, Option.some_inj]
        omega
  · obtain ⟨alarm, listed, rfl⟩ := List.mem_map.mp asleep
    rcases mem_sleeping_arrived listed with old | ⟨-, new⟩
    · obtain ⟨i, inside, ours⟩ := orderly.tasks alarm.2 (List.mem_append_right _ (List.mem_map_of_mem old))
      exact ⟨i, by omega, exchangeOf_arrived ours⟩
    · exact ⟨w.responses.length, by omega, exchangeOf_alarm alarm new⟩

theorem Orderly.arrived (orderly : Orderly w count) : Orderly (Http.arrived w ticket declared) (count + 1) := by
  have length := orderly.responses
  constructor
  case runtime => exact orderly.runtime
  case responses => simp [Http.arrived, length]
  case waiters =>
    simp only [Http.arrived, List.length_append, orderly.waiters, List.length_cons, List.length_nil]
    omega
  case seats => exact fun _ _ found => seats_arrived orderly found
  case callbacks => exact fun _ _ given => callbacks_arrived orderly given
  case owned =>
    intro id armed
    rw [isArmed_arrived, Bool.or_eq_true, decide_eq_true_iff] at armed
    rcases armed with timer | armed
    · exact ⟨count, ticket.response declared (ticket.timer w), by simp [Http.arrived, ← length], timer⟩
    · obtain ⟨r, x, found, timer⟩ := orderly.owned id armed
      exact ⟨r, x, (List.getElem?_append_left (List.getElem?_eq_some_iff.mp found).1).trans found, timer⟩
  case held => exact fun _ _ _ found timer => held_arrived orderly found timer
  case armed => exact armed_arrived orderly
  case tracked => exact tracked_arrived orderly
  case tasks => exact fun _ member => tasks_arrived orderly member
  case later =>
    intro alarm member
    rcases mem_sleeping_arrived member with old | ⟨later, -⟩
    · exact orderly.later alarm old
    · exact later
  case sleepers =>
    intro alarm member
    rcases mem_sleeping_arrived member with old | ⟨-, new⟩
    · exact orderly.sleepers alarm old
    · simp only [Ticket.timeoutAlarm, Ticket.workAlarm, List.mem_append, Option.mem_toList, Option.bind_eq_some_iff,
        Option.map_eq_some_iff] at new
      rcases new with ⟨due, -, id, -, rfl⟩ | ⟨due, -, rfl⟩ <;> simp
  case few =>
    have timeout := timeoutAlarm_few ticket (ticket.timer w)
    have work := workAlarm_few ticket w.responses.length
    have filtered := List.length_filter_le (fun alarm : Nat × Task => decide (w.now < alarm.1))
      (ticket.timeoutAlarm (ticket.timer w) ++ ticket.workAlarm w.responses.length)
    have old := orderly.few
    simp only [Http.arrived, List.length_append] at filtered ⊢
    omega
  case silent => exact fun i beyond => orderly.silent i (by omega)

end Arrival

end Deferral.Http
