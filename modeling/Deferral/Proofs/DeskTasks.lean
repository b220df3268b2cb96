import Deferral.Proofs.Desks

/-! The tasks of a desk. A timer that goes off, a worker whose delay is over and a handler that is
notified change their own desk alone, and a desk closes only by its request's verdict. -/

namespace Deferral.Http
open Simulation

/-- How a standing may change, at a desk whose response may end as `ends` says and whose client may go away
if it `leaves`. -/
def Standing.Moves (ends : Nat → Outcome String → Prop) (leaves : Prop) : Standing → Standing → Prop
  | .waiting _, .waiting _ => True
  | .waiting _, .closing tick outcome | .waiting _, .answered tick outcome => ends tick outcome
  | .waiting _, .dropped => leaves
  | .closing tick outcome, .closing tick' outcome' | .closing tick outcome, .answered tick' outcome'
  | .answered tick outcome, .answered tick' outcome' => tick' = tick ∧ outcome' = outcome
  | .dropped, .dropped => True
  | _, _ => False

namespace Standing.Moves

variable {ends more : Nat → Outcome String → Prop} {leaves goes : Prop} {a b c : Standing}

theorem refl (standing : Standing) : Moves ends leaves standing standing := by
  cases standing <;> simp [Moves]

theorem trans (first : Moves ends leaves a b) (second : Moves ends leaves b c) : Moves ends leaves a c := by
  cases a <;> cases b <;> cases c <;> simp_all [Moves]

theorem mono (moves : Moves ends leaves a b) (wider : ∀ tick outcome, ends tick outcome → more tick outcome)
    (also : leaves → goes) : Moves more goes a b := by
  cases a <;> cases b <;> simp_all [Moves]

end Standing.Moves

/-- A request's verdict falls between two ticks. -/
def Ticket.EndsWithin (ticket : Ticket) (first last : Nat) (tick : Nat) (outcome : Outcome String) : Prop :=
  ticket.verdict = (some tick, outcome) ∧ first ≤ tick ∧ tick ≤ last

section Changes

variable {w : World} {count : Nat}

theorem Orderly.adjust (orderly : Orderly w count) {w' : World} (runtime : w'.drive = w.drive) (now : w'.now = w.now)
    (responses : w'.responses = w.responses) (registry : w'.registry = w.registry) (sleeping : w'.sleeping = w.sleeping)
    (ready : ∀ task ∈ w'.ready, task ∈ w.ready) (waiters : w'.waiters.length = w.waiters.length)
    (seats : ∀ id waiter, w'.waiters[id]? = some waiter → waiter.r = id / 2)
    (callbacks : ∀ id, w'.timers.callback? id = w.timers.callback? id)
    (armed : ∀ id, w'.timers.isArmed id = w.timers.isArmed id) (number : w'.timers.armed = w.timers.armed)
    (answers : ∀ i, count ≤ i → answersOf w' i = answersOf w i) : Orderly w' count where
  runtime := runtime.trans orderly.runtime
  responses := by rw [responses]; exact orderly.responses
  waiters := waiters.trans orderly.waiters
  seats := seats
  callbacks := by simp only [callbacks]; exact orderly.callbacks
  owned := by simp only [armed, responses]; exact orderly.owned
  held := by simp only [armed, callbacks, responses]; exact orderly.held
  armed := by rw [number, responses]; exact orderly.armed
  tracked := by rw [registry, responses]; exact orderly.tracked
  tasks := by
    intro task member
    rw [exchangeOf_congr callbacks]
    rcases List.mem_append.mp member with first | second
    · exact orderly.tasks task (List.mem_append_left _ (ready task first))
    · rw [sleeping] at second
      exact orderly.tasks task (List.mem_append_right _ second)
  later := by rw [sleeping, now]; exact orderly.later
  sleepers := by rw [sleeping]; exact orderly.sleepers
  few := by rw [sleeping]; exact orderly.few
  silent := fun i beyond => (answers i beyond).trans (orderly.silent i beyond)

theorem Orderly.alike (orderly : Orderly w count) {w' : World} (same : Alike w w') : Orderly w' count := by
  obtain ⟨log, metrics, rfl, -⟩ := same
  exact orderly.adjust rfl rfl rfl rfl rfl (fun _ member => member) rfl orderly.seats (fun _ => rfl) (fun _ => rfl) rfl
    fun _ _ => rfl

theorem Orderly.popped (orderly : Orderly w count) {task : Task} {rest : List Task} (ready : w.ready = task :: rest) :
    Orderly { w with ready := rest } count :=
  orderly.adjust rfl rfl rfl rfl rfl (fun _ member => by rw [ready]; exact List.mem_cons_of_mem _ member) rfl
    orderly.seats (fun _ => rfl) (fun _ => rfl) rfl fun _ _ => rfl

theorem getElem?_setStage (w : World) (id other : Nat) (stage : WaitStage) :
    (w.setStage id stage).waiters[other]? =
      if id = other then (w.waiters[other]?).map ({ · with stage }) else w.waiters[other]? := by
  simp only [World.setStage, List.getElem?_modify]
  split <;> simp

@[simp] theorem setStage_setStage (w : World) (id : Nat) (stage later : WaitStage) :
    (w.setStage id stage).setStage id later = w.setStage id later := by
  simp [World.setStage, List.modify_modify_eq, Function.comp_def]

theorem Orderly.setStage (orderly : Orderly w count) (id : Nat) (stage : WaitStage) : Orderly (w.setStage id stage) count := by
  refine orderly.adjust rfl rfl rfl rfl rfl (fun _ member => member) (List.length_modify ..) ?_ (fun _ => rfl)
    (fun _ => rfl) rfl fun _ _ => rfl
  intro other waiter found
  rw [getElem?_setStage] at found
  split at found
  · obtain ⟨before, seat, rfl⟩ := Option.map_eq_some_iff.mp found
    exact orderly.seats other before seat
  · exact orderly.seats other waiter found

theorem Framed.setStage (w : World) {id i : Nat} (other : i ≠ id / 2) (stage : WaitStage) : Framed i w (w.setStage id stage) where
  now := rfl
  response := rfl
  callbacks := fun _ _ found => found
  worker := by rw [getElem?_setStage, if_neg (by omega)]
  handler := by rw [getElem?_setStage, if_neg (by omega)]
  alarms := rfl
  queue := rfl
  answers := rfl

theorem Framed.retimed (w : World) {timers : Timers Callback} (same : ∀ id, timers.callback? id = w.timers.callback? id)
    (log : Array LogEvent) (i : Nat) : Framed i w { w with timers, log } where
  now := rfl
  response := rfl
  callbacks := fun id _ found => (same id).trans found
  worker := rfl
  handler := rfl
  alarms := by simp only [alarmsOf, exchangeOf_congr same]
  queue := by simp only [queueOf, exchangeOf_congr same]
  answers := rfl

theorem Framed.popped {task : Task} {rest : List Task} (ready : w.ready = task :: rest) {i : Nat}
    (other : exchangeOf w.timers task ≠ some i) : Framed i w { w with ready := rest } where
  now := rfl
  response := rfl
  callbacks := fun _ _ found => found
  worker := rfl
  handler := rfl
  alarms := rfl
  queue := by
    rw [queueOf, queueOf, ready, List.filter_cons_of_neg]
    simpa using other
  answers := rfl

theorem queueOf_popped {task : Task} {rest : List Task} (ready : w.ready = task :: rest) {i : Nat}
    (ours : exchangeOf w.timers task = some i) : queueOf w i = task :: queueOf { w with ready := rest } i := by
  rw [queueOf, queueOf, ready, List.filter_cons_of_pos]
  rw [ours]
  exact beq_self_eq_true _

end Changes

/-! ### The threads of a desk's tasks -/

def idle : Thread := { stack := [] }

section Threads

variable {v : World} {id : Nat} {waiter : Waiter}

theorem reaches_delivered {outcome : Outcome String} (seat : v.waiters[id]? = some waiter)
    (resolved : v.responses[waiter.r]?.bind (·.outcome) = some outcome) :
    Reaches 2 v (Task.waiter id).thread ((v.setStage id .finished).deliver idle { waiter with stage := .enabled } outcome)
      idle := by
  apply Reaches.step
  apply Reaches.step
  have enabled : (v.setStage id .enabled).waiters[id]? = some { waiter with stage := .enabled } := by
    rw [getElem?_setStage, if_pos rfl, seat]
    rfl
  have resolved : (v.setStage id .enabled).responses[waiter.r]?.bind (·.outcome) = some outcome := resolved
  simp only [World.perform, World.onWaiter, enabled, resolved, setStage_setStage]
  exact .refl

theorem reaches_park (seat : v.waiters[id]? = some waiter) (undecided : v.responses[waiter.r]?.bind (·.outcome) = none) :
    Reaches 2 v (Task.waiter id).thread (v.setStage id .enabled) { stack := [.park id] } := by
  apply Reaches.step
  apply Reaches.step
  have enabled : (v.setStage id .enabled).waiters[id]? = some { waiter with stage := .enabled } := by
    rw [getElem?_setStage, if_pos rfl, seat]
    rfl
  have undecided : (v.setStage id .enabled).responses[waiter.r]?.bind (·.outcome) = none := undecided
  simp only [World.perform, World.onWaiter, enabled, undecided]
  exact .refl

theorem reaches_parked (seat : v.waiters[id]? = some waiter) (undecided : v.responses[waiter.r]?.bind (·.outcome) = none)
    (early : ∀ due result, waiter.role = .worker (some due) result → v.now < due) :
    Reaches 3 v (Task.waiter id).thread (v.setStage id .parked) idle := by
  have parks : Reaches 1 (v.setStage id .enabled) { stack := [.park id] } (v.setStage id .parked) idle := by
    apply Reaches.step
    have enabled : (v.setStage id .enabled).waiters[id]? = some { waiter with stage := .enabled } := by
      rw [getElem?_setStage, if_pos rfl, seat]
      rfl
    simp only [World.perform, World.onWaiter, enabled]
    rw [if_neg (by simp)]
    cases role : waiter.role with
    | observer | handler => simp only [setStage_setStage]; exact .refl
    | worker due result =>
      cases due with
      | none => simp only [setStage_setStage]; exact .refl
      | some due =>
        have running : ¬ due ≤ (v.setStage id .enabled).now := Nat.not_le.mpr (early due result role)
        simp only [setStage_setStage, if_neg running]
        exact .refl
  exact (reaches_park seat undecided).trans parks

theorem reaches_worked {due : Nat} {result : Except Failure String} (seat : v.waiters[id]? = some waiter)
    (undecided : v.responses[waiter.r]?.bind (·.outcome) = none) (role : waiter.role = .worker (some due) result)
    (elapsed : due ≤ v.now) :
    Reaches 3 v (Task.waiter id).thread (v.setStage id .finished) { stack := [.request waiter.r (.produce result)] } := by
  have works : Reaches 1 (v.setStage id .enabled) { stack := [.park id] } (v.setStage id .finished)
      { stack := [.request waiter.r (.produce result)] } := by
    apply Reaches.step
    have enabled : (v.setStage id .enabled).waiters[id]? = some { waiter with stage := .enabled } := by
      rw [getElem?_setStage, if_pos rfl, seat]
      rfl
    have elapsed : due ≤ (v.setStage id .enabled).now := elapsed
    simp only [World.perform, World.onWaiter, enabled]
    rw [if_neg (by simp)]
    simp only [role, if_pos elapsed, setStage_setStage]
    exact .refl
  exact (reaches_park seat undecided).trans works

theorem reaches_roused {due : Option Nat} {result : Except Failure String} (seat : v.waiters[id]? = some waiter)
    (parked : waiter.stage = .parked) (role : waiter.role = .worker due result) :
    Reaches 1 v (Task.worker id).thread (v.setStage id .finished) { stack := [.request waiter.r (.produce result)] } := by
  apply Reaches.step
  simp only [World.perform, World.onWaiter, seat, parked, role]
  exact .refl

theorem reaches_overslept (seat : v.waiters[id]? = some waiter)
    (other : waiter.stage = .parked → waiter.role = .handler) : Reaches 1 v (Task.worker id).thread v idle := by
  apply Reaches.step
  simp only [World.perform, World.onWaiter, seat]
  obtain ⟨r, role, stage⟩ := waiter
  cases stage with
  | parked =>
    have same : role = .handler := other rfl
    subst same
    exact .refl
  | fresh | enabled | notified | finished => exact .refl

theorem reaches_disarmed (disarmed : v.timers.isArmed id = false) : Reaches 1 v (Task.timer id).thread v idle := by
  apply Reaches.step
  simp only [World.perform, disarmed]
  exact .refl

theorem reaches_fired {i generation : Nat} {window : Duration} (armed : v.timers.isArmed id = true)
    (callback : v.timers.callback? id = some (.expire i window generation)) :
    Reaches 1 v (Task.timer id).thread { v.record (.timerFired id) with timers := v.timers.spend id }
      { stack := [.request i (.expire window generation), .expired i] } := by
  apply Reaches.step
  obtain ⟨timer, found, given⟩ := Option.map_eq_some_iff.mp callback
  have found : (v.record (.timerFired id)).timers.get? id = some timer := found
  simp only [World.perform, armed, if_true, World.runCallback, found, given]
  exact .refl

end Threads

/-! ### Changes at one desk -/

/-- One world has become another by what was done at desk `i`. -/
structure Beside (i count : Nat) (w w' : World) : Prop where
  orderly : Orderly w' count
  now : w'.now = w.now
  sleeping : w'.sleeping = w.sleeping
  served : w'.metrics.requestTotal = w.metrics.requestTotal
  events : w.events.toList <+: w'.events.toList
  others : ∀ j, j ≠ i → Framed j w w'

/-- How many tasks can still run: those that are ready, and the worker and the handler that each response
in flight can wake. -/
def load (w : World) : Nat := w.ready.length + 2 * w.registry.size

section Beside

variable {i count : Nat} {w v u : World} {x : Response String Listener} {outcome : Outcome String}

namespace Beside

theorem trans (first : Beside i count w v) (second : Beside i count v u) : Beside i count w u where
  orderly := second.orderly
  now := second.now.trans first.now
  sleeping := second.sleeping.trans first.sleeping
  served := second.served.trans first.served
  events := first.events.trans second.events
  others := fun j other => (first.others j other).trans (second.others j other)

theorem alike (beside : Beside i count w v) (same : Alike v u) : Beside i count w u := by
  refine beside.trans ⟨beside.orderly.alike same, ?_, ?_, ?_, ?_, fun j _ => .alike j same⟩
  all_goals obtain ⟨log, metrics, rfl, total⟩ := same
  · rfl
  · rfl
  · exact total
  · exact List.prefix_rfl

theorem popped (orderly : Orderly w count) {task : Task} {rest : List Task} (ready : w.ready = task :: rest)
    (ours : exchangeOf w.timers task = some i) : Beside i count w { w with ready := rest } := by
  refine ⟨orderly.popped ready, rfl, rfl, rfl, List.prefix_rfl, fun j other => .popped ready ?_⟩
  rw [ours]
  simpa using Ne.symm other

theorem setStage (orderly : Orderly w count) {id : Nat} (seat : id / 2 = i) (stage : WaitStage) :
    Beside i count w (w.setStage id stage) :=
  ⟨orderly.setStage id stage, rfl, rfl, rfl, List.prefix_rfl, fun _ other => .setStage w (by rw [seat]; exact other) stage⟩

theorem ended (orderly : Orderly w count) (found : w.responses[i]? = some x) : Beside i count w (w.ended i x outcome) := by
  have inside : i < count := by
    rw [← orderly.responses]
    exact (List.getElem?_eq_some_iff.mp found).1
  have seated : 2 * i + 1 < w.waiters.length := by
    rw [orderly.waiters]
    omega
  have first := List.getElem?_eq_getElem (l := w.waiters) (i := 2 * i) (by omega)
  have second := List.getElem?_eq_getElem seated
  exact ⟨orderly.ended found, rfl, rfl, rfl, List.prefix_rfl, fun j other => .ended orderly.seats first second other⟩

end Beside

theorem load_popped {task : Task} {rest : List Task} (ready : w.ready = task :: rest) :
    load w = load { w with ready := rest } + 1 := by
  simp only [load, ready, List.length_cons]
  omega

theorem load_alike (same : Alike v u) : load u = load v := by
  obtain ⟨log, metrics, rfl, -⟩ := same
  rfl

theorem load_ended (orderly : Orderly w count) (found : w.responses[i]? = some x) (unresolved : x.state.isTerminal = false)
    {worker handler : Waiter} (first : w.waiters[2 * i]? = some worker) (second : w.waiters[2 * i + 1]? = some handler) :
    load (w.ended i x outcome) ≤ load w := by
  have inside : i < count := by
    rw [← orderly.responses]
    exact (List.getElem?_eq_some_iff.mp found).1
  have member : i ∈ w.registry.ids := by
    rw [orderly.tracked]
    exact List.mem_filter.mpr ⟨List.mem_range.mpr inside, by simp [found, Response.isDone, unresolved]⟩
  have once : w.registry.ids.Nodup := by
    rw [orderly.tracked]
    exact List.nodup_range.filter _
  have removed : (w.ended i x outcome).registry.size + 1 = w.registry.size := by
    have erased := List.length_erase_of_mem member
    have positive := List.length_pos_of_mem member
    rw [once.erase_eq_filter] at erased
    show (w.registry.ids.filter (· != i)).length + 1 = w.registry.ids.length
    omega
  have woken : (w.ended i x outcome).ready.length ≤ w.ready.length + 2 := by
    rw [show (w.ended i x outcome).ready = w.ready ++ wokenAt i worker handler from notify_ready orderly.seats first second,
      List.length_append, wokenAt, List.length_append]
    split <;> split <;> simp
  unfold load
  omega

theorem Closed.ended {ticket : Ticket} {stage handler next : WaitStage}
    (seats : ∀ id waiter, w.waiters[id]? = some waiter → waiter.r = id / 2) (found : w.responses[i]? = some x)
    (worker : w.waiters[2 * i]? = some ⟨i, .worker ticket.workDue ticket.result, stage⟩)
    (handled : w.waiters[2 * i + 1]? = some ⟨i, .handler, handler⟩)
    (uncalled : (queueOf w i).count (.waiter (2 * i + 1)) = 0)
    (stages : handler = .parked ∧ next = .notified ∨ handler = .finished ∧ next = .finished) :
    Closed (w.ended i x outcome) i ticket outcome next := by
  have inside := (List.getElem?_eq_some_iff.mp found).1
  have notified (id : Nat) : (w.ended i x outcome).waiters[id]? = _ :=
    notify_waiter (w.setResponse i (x.resolved outcome)) i id
  constructor
  case response => exact ⟨x.resolved outcome, List.getElem?_set_self inside, outcome.isTerminal_state, rfl, rfl⟩
  case worker =>
    rw [notified, show (w.setResponse i (x.resolved outcome)).waiters[2 * i]? = _ from worker]
    refine ⟨if stage = .parked ∨ stage = .enabled then .notified else stage, ?_, ?_⟩
    · cases stage <;> simp
    · cases stage <;> simp
  case handler =>
    rw [notified, show (w.setResponse i (x.resolved outcome)).waiters[2 * i + 1]? = _ from handled]
    rcases stages with ⟨rfl, rfl⟩ | ⟨rfl, rfl⟩ <;> simp
  case calls =>
    rw [queueOf_ended seats worker handled, if_pos rfl, List.count_append, uncalled, wokenAt, List.count_append]
    have other : ([.waiter (2 * i)] : List Task).count (.waiter (2 * i + 1)) = 0 := by
      simp
    rcases stages with ⟨rfl, rfl⟩ | ⟨rfl, rfl⟩ <;> split <;> simp [other]

end Beside

/-! ### The tasks of a desk that waits -/

section Waiting

variable {w v : World} {i count : Nat} {ticket : Ticket} {fresh : Bool} {x : Response String Listener}

namespace Waits

theorem timeout_cases (waits : Waits w i ticket fresh x) :
    (∃ id, x.timer = some id ∧ ticket.timeoutDue = some w.now ∧ goingOff w.now (ticket.timeoutAlarm x.timer) = [.timer id]) ∨
    (∀ tick, ticket.timeoutDue = some tick → w.now < tick) ∧ goingOff w.now (ticket.timeoutAlarm x.timer) = [] := by
  cases due : ticket.timeoutDue with
  | none => exact .inr ⟨by simp, by simp [goingOff, Ticket.timeoutAlarm, due]⟩
  | some tick =>
    have reached := waits.timing tick due
    cases timer : x.timer with
    | none => simp [Ticket.timeoutDue, waits.untimed timer] at due
    | some id =>
      by_cases now : tick = w.now
      · subst now
        exact .inl ⟨id, rfl, rfl, by simp [goingOff, Ticket.timeoutAlarm, due]⟩
      · refine .inr ⟨?_, by simp [goingOff, Ticket.timeoutAlarm, due, now]⟩
        intro same given
        cases given
        omega

theorem work_cases (waits : Waits w i ticket fresh x) :
    ticket.workDue = some w.now ∧ goingOff w.now (ticket.workAlarm i) = [.worker (2 * i)] ∨
    (∀ tick, ticket.workDue = some tick → w.now < tick) ∧ goingOff w.now (ticket.workAlarm i) = [] := by
  cases due : ticket.workDue with
  | none => exact .inr ⟨by simp, by simp [goingOff, Ticket.workAlarm, due]⟩
  | some tick =>
    have reached := waits.working tick due
    by_cases now : tick = w.now
    · subst now
      exact .inl ⟨rfl, by simp [goingOff, Ticket.workAlarm, due]⟩
    · refine .inr ⟨?_, by simp [goingOff, Ticket.workAlarm, due, now]⟩
      intro same given
      cases given
      omega

theorem uncalled (waits : Waits w i ticket fresh x) : (queueOf w i).count (.waiter (2 * i + 1)) = 0 := by
  rw [waits.queue, List.count_append]
  rcases waits.timeout_cases with ⟨id, -, -, timer⟩ | ⟨-, timer⟩ <;>
    rcases waits.work_cases with ⟨-, work⟩ | ⟨-, work⟩ <;> cases fresh <;> simp [timer, work]

theorem next (waits : Waits w i ticket fresh x) {task : Task} {tasks : List Task} (queue : queueOf w i = task :: tasks) :
    (∃ id, task = .timer id ∧ x.timer = some id ∧ ticket.timeoutDue = some w.now) ∨
    (∀ tick, ticket.timeoutDue = some tick → w.now < tick) ∧ tasks = [] ∧ goingOff w.now (ticket.timeoutAlarm x.timer) = [] ∧
      (task = .waiter (2 * i) ∧ fresh = true ∨ task = .worker (2 * i) ∧ fresh = false ∧ ticket.workDue = some w.now) := by
  rw [waits.queue] at queue
  rcases waits.timeout_cases with ⟨id, timer, due, alarm⟩ | ⟨running, alarm⟩
  · rw [alarm] at queue
    cases queue
    exact .inl ⟨id, rfl, timer, due⟩
  · rw [alarm] at queue
    right
    cases fresh with
    | true =>
      cases queue
      exact ⟨running, rfl, alarm, .inl ⟨rfl, rfl⟩⟩
    | false =>
      rcases waits.work_cases with ⟨due, work⟩ | ⟨-, work⟩
      · simp only [work] at queue
        cases queue
        exact ⟨running, rfl, alarm, .inr ⟨rfl, rfl, due⟩⟩
      · simp [work] at queue

theorem closing (waits : Waits w i ticket fresh x) (outcome : Outcome String) {stage : WaitStage} (orderly : Orderly v count)
    (response : v.responses[i]? = some x)
    (worker : v.waiters[2 * i]? = some ⟨i, .worker ticket.workDue ticket.result, stage⟩)
    (handler : v.waiters[2 * i + 1]? = some ⟨i, .handler, .parked⟩)
    (uncalled : (queueOf v i).count (.waiter (2 * i + 1)) = 0) (unanswered : answersOf v i = []) :
    load (v.ended i x outcome) ≤ load v ∧ Desk (v.ended i x outcome) i ticket (.closing v.now outcome) :=
  ⟨load_ended orderly response waits.unresolved worker handler,
    rfl, .ended orderly.seats response worker handler uncalled (.inl ⟨rfl, rfl⟩), unanswered⟩

theorem uncalled_popped (waits : Waits w i ticket fresh x) {task : Task} {rest : List Task} (ready : w.ready = task :: rest)
    (ours : exchangeOf w.timers task = some i) : (queueOf { w with ready := rest } i).count (.waiter (2 * i + 1)) = 0 := by
  have none := waits.uncalled
  rw [queueOf_popped ready ours, List.count_cons] at none
  omega

theorem run_timer (waits : Waits w i ticket fresh x) (orderly : Orderly w count) {id : Nat} {rest : List Task}
    (ready : w.ready = .timer id :: rest) (timer : x.timer = some id) (due : ticket.timeoutDue = some w.now) :
    ∃ w' outcome, Reaches 13 { w with ready := rest } (Task.timer id).thread w' idle ∧ Beside i count w w' ∧
      load w' < load w ∧ Desk w' i ticket (.closing w.now outcome) ∧ ticket.verdict = (some w.now, outcome) := by
  obtain ⟨window, given, verdict⟩ := Ticket.verdict_of_timeout due waits.working
  obtain ⟨armed, -⟩ := orderly.held i x id waits.found timer
  obtain ⟨window', given', callback⟩ := waits.timed id timer
  rw [given, Option.some_inj] at given'
  subst given'
  have ours : exchangeOf w.timers (.timer id) = some i := by simp [exchangeOf, callback]
  let v : World := { w with ready := rest }
  have orderly' : Orderly v count := orderly.popped ready
  obtain ⟨lighter, desk⟩ := waits.closing (v := v) (.timedOut window) orderly' waits.found waits.worker
    waits.handler (waits.uncalled_popped ready ours) waits.unanswered
  -- The timer is spent before the response ends, and disarmed then; to the desks that is one.
  have armed' : v.timers.isArmed id = true := armed
  have spent : ∀ other, (v.timers.spend id).callback? other = (v.ended i x (.timedOut window)).timers.callback? other := by
    intro other
    rw [callback?_ended, Timers.callback?_spend]
  let fired : World := { v.record (.timerFired id) with timers := v.timers.spend id }
  have same : fired.ended i x (.timedOut window) =
      { v.ended i x (.timedOut window) with timers := v.timers.spend id, log := (v.record (.timerFired id)).log } := by
    simp only [World.ended, timer, fired, Option.map_some, Option.getD_some, Timers.disarm_spend]
    rfl
  have retimed : Beside i count (v.ended i x (.timedOut window)) (fired.ended i x (.timedOut window)) := by
    rw [same]
    refine ⟨(orderly'.ended waits.found).adjust rfl rfl rfl rfl rfl (fun _ member => member) rfl
      (orderly'.ended waits.found).seats spent ?_ ?_ fun _ _ => rfl, rfl, rfl, rfl, List.prefix_rfl,
      fun j _ => .retimed _ spent _ j⟩
    · intro other
      rw [isArmed_ended, timer, Timers.isArmed_spend]
      by_cases ours : id = other <;> simp [ours]
    · have ended := armed_ended (.timedOut window) orderly' waits.found
      have once := Timers.armed_spend armed'
      have once' := Timers.armed_disarm armed'
      simp only [World.ended, timer, Option.map_some, Option.getD_some]
      omega
  obtain ⟨w', alike, ended⟩ := reaches_ended (w := fired)
    (.request i (.expire window x.generation)) rfl orderly.runtime waits.found rfl
    (by rintro n ⟨⟩; rfl) waits.unresolved waits.listens [.expired i] .done true
  have late : Reaches 1 w' ⟨[.expired i], .done, true⟩ w' idle := .step .refl
  refine ⟨w', .timedOut window, ((reaches_fired armed' callback).trans (ended.trans late)).mono (by omega),
    (((Beside.popped orderly ready ours).trans (.ended orderly' waits.found)).trans retimed).alike alike, ?_, ?_, verdict⟩
  · rw [load_popped ready, load_alike alike, same]
    exact Nat.lt_succ_of_le lighter
  · rw [same] at alike
    exact ((Framed.retimed _ spent _ i).trans (.alike i alike)).desk desk

theorem run_work (waits : Waits w i ticket fresh x) (orderly : Orderly w count) {task : Task} {rest : List Task}
    (ready : w.ready = task :: rest) (ours : exchangeOf w.timers task = some i)
    (resumes : Reaches 3 { w with ready := rest } task.thread ({ w with ready := rest }.setStage (2 * i) .finished)
      { stack := [.request i (.produce ticket.result)] })
    (due : ticket.workDue = some w.now) (running : ∀ tick, ticket.timeoutDue = some tick → w.now < tick) :
    ∃ w' outcome, Reaches 13 { w with ready := rest } task.thread w' idle ∧ Beside i count w w' ∧
      load w' < load w ∧ Desk w' i ticket (.closing w.now outcome) ∧ ticket.verdict = (some w.now, outcome) := by
  let v : World := { w with ready := rest }.setStage (2 * i) .finished
  have orderly' : Orderly v count := (orderly.popped ready).setStage _ _
  have worker : v.waiters[2 * i]? = some ⟨i, .worker ticket.workDue ticket.result, .finished⟩ := by
    rw [getElem?_setStage, if_pos rfl, waits.worker]
    rfl
  have handler : v.waiters[2 * i + 1]? = some ⟨i, .handler, .parked⟩ := by
    rw [getElem?_setStage, if_neg (by omega)]
    exact waits.handler
  obtain ⟨lighter, desk⟩ := waits.closing (.ofResult ticket.result) orderly' waits.found worker handler
    (waits.uncalled_popped ready ours) waits.unanswered
  obtain ⟨w', alike, ended⟩ := reaches_ended (w := v)
    (.request i (.produce ticket.result)) rfl orderly.runtime waits.found rfl
    (by simp [Request.generation?]) waits.unresolved waits.listens [] .done true
  refine ⟨w', .ofResult ticket.result, resumes.trans ended,
    (((Beside.popped orderly ready ours).trans (.setStage (orderly.popped ready) (by omega) _)).trans
      (.ended orderly' waits.found)).alike alike, ?_, (Framed.alike i alike).desk desk, Ticket.verdict_of_work due running⟩
  rw [load_popped ready, load_alike alike]
  exact Nat.lt_succ_of_le lighter

theorem run_park (waits : Waits w i ticket true x) (orderly : Orderly w count) {rest : List Task}
    (ready : w.ready = .waiter (2 * i) :: rest) (running : ∀ tick, ticket.workDue = some tick → w.now < tick)
    (timing : goingOff w.now (ticket.timeoutAlarm x.timer) = []) :
    ∃ w', Reaches 13 { w with ready := rest } (Task.waiter (2 * i)).thread w' idle ∧ Beside i count w w' ∧
      load w' < load w ∧ Desk w' i ticket (.waiting false) := by
  have ours : exchangeOf w.timers (.waiter (2 * i)) = some i := by
    simp only [exchangeOf, Option.some_inj]
    omega
  have queue := waits.queue
  rw [queueOf_popped ready ours, timing, List.nil_append, if_pos rfl, List.cons.injEq] at queue
  have quiet : goingOff w.now (ticket.workAlarm i) = [] := by
    rcases waits.work_cases with ⟨due, -⟩ | ⟨-, quiet⟩
    · exact absurd (running _ due) (Nat.lt_irrefl _)
    · exact quiet
  refine ⟨{ w with ready := rest }.setStage (2 * i) .parked, ?_,
    (Beside.popped orderly ready ours).trans (.setStage (orderly.popped ready) (by omega) _), ?_, x, ?_⟩
  · apply (reaches_parked (v := { w with ready := rest }) waits.worker ?_ ?_).mono (by omega)
    · simp [waits.found, waits.undecided]
    · intro due result role
      simp only [Role.worker.injEq] at role
      exact running due role.1
  · rw [load_popped ready]
    exact Nat.lt_succ_self _
  · constructor
    case found => exact waits.found
    case unresolved => exact waits.unresolved
    case undecided => exact waits.undecided
    case listens => exact waits.listens
    case window => exact waits.window
    case timed => exact waits.timed
    case untimed => exact waits.untimed
    case worker => rw [getElem?_setStage, if_pos rfl, waits.worker]; rfl
    case handler => rw [getElem?_setStage, if_neg (by omega)]; exact waits.handler
    case timing => exact waits.timing
    case working => exact waits.working
    case alarms => exact waits.alarms
    case queue =>
      show queueOf { w with ready := rest } i = goingOff w.now _ ++ goingOff w.now _
      rw [queue.2, timing, quiet]
      rfl
    case unanswered => exact waits.unanswered

/-- Whatever task of a waiting desk runs next, the desk keeps waiting or closes by its verdict. -/
theorem run (waits : Waits w i ticket fresh x) (orderly : Orderly w count) {task : Task} {rest : List Task}
    (ready : w.ready = task :: rest) (ours : exchangeOf w.timers task = some i) :
    ∃ w' next, Reaches 13 { w with ready := rest } task.thread w' idle ∧ Beside i count w w' ∧ load w' < load w ∧
      Desk w' i ticket next ∧ (Standing.waiting fresh).Moves (ticket.EndsWithin w.now w.now) False next := by
  have closes : (∃ w' outcome, Reaches 13 { w with ready := rest } task.thread w' idle ∧ Beside i count w w' ∧
      load w' < load w ∧ Desk w' i ticket (.closing w.now outcome) ∧ ticket.verdict = (some w.now, outcome)) →
      ∃ w' next, Reaches 13 { w with ready := rest } task.thread w' idle ∧ Beside i count w w' ∧ load w' < load w ∧
        Desk w' i ticket next ∧ (Standing.waiting fresh).Moves (ticket.EndsWithin w.now w.now) False next := by
    rintro ⟨w', outcome, reaches, beside, lighter, desk, ends⟩
    exact ⟨w', .closing w.now outcome, reaches, beside, lighter, desk, ends, Nat.le_refl _, Nat.le_refl _⟩
  have undecided : ({ w with ready := rest } : World).responses[i]?.bind (·.outcome) = none := by
    simp [waits.found, waits.undecided]
  rcases waits.next (queueOf_popped ready ours) with
    ⟨id, rfl, timer, due⟩ | ⟨running, -, timing, ⟨rfl, rfl⟩ | ⟨rfl, rfl, due⟩⟩
  · exact closes (waits.run_timer orderly ready timer due)
  · rcases waits.work_cases with ⟨due, -⟩ | ⟨lasts, -⟩
    · apply closes
      apply waits.run_work orderly ready ours _ due running
      refine reaches_worked (v := { w with ready := rest }) waits.worker undecided ?_ (Nat.le_refl _)
      rw [due]
    · obtain ⟨w', reaches, beside, lighter, desk⟩ := waits.run_park orderly ready lasts timing
      exact ⟨w', .waiting false, reaches, beside, lighter, desk, trivial⟩
  · apply closes
    apply waits.run_work orderly ready ours _ due running
    exact (reaches_roused (v := { w with ready := rest }) waits.worker rfl rfl).mono (by omega)

end Waits

end Waiting

/-! ### The tasks of a desk that is closed -/

section Closing

variable {w v : World} {i count : Nat} {ticket : Ticket} {outcome : Outcome String} {stage : WaitStage}

theorem answersOf_emit (w : World) (i j : Nat) (outcome : Outcome String) :
    answersOf (w.emit idle (.answered i outcome)) j =
      answersOf w j ++ if j = i then [⟨some w.now, .answered i outcome⟩] else [] := by
  have same : Stamped.answers j ⟨some w.now, .answered i outcome⟩ = decide (j = i) := by
    simp [Stamped.answers, eq_comm, Bool.beq_eq_decide_eq]
  simp only [answersOf, World.emit, idle, if_true, Array.toList_push, List.filter_append, List.filter_cons, same,
    List.filter_nil, decide_eq_true_eq]

theorem Beside.emitted (orderly : Orderly w count) (inside : i < count) (outcome : Outcome String) :
    Beside i count w (w.emit idle (.answered i outcome)) := by
  refine ⟨orderly.adjust rfl rfl rfl rfl rfl (fun _ member => member) rfl orderly.seats (fun _ => rfl) (fun _ => rfl) rfl ?_,
    rfl, rfl, rfl, ?_, ?_⟩
  · intro j beyond
    rw [answersOf_emit, if_neg (by omega), List.append_nil]
  · simp [World.emit]
  · intro j other
    exact ⟨rfl, rfl, fun _ _ found => found, rfl, rfl, rfl, rfl, by rw [answersOf_emit, if_neg other, List.append_nil]⟩

namespace Closed

theorem popped (closed : Closed w i ticket outcome stage) {task : Task} {rest : List Task} (ready : w.ready = task :: rest)
    (ours : exchangeOf w.timers task = some i) (other : task ≠ .waiter (2 * i + 1)) :
    Closed { w with ready := rest } i ticket outcome stage where
  response := closed.response
  worker := closed.worker
  handler := closed.handler
  calls := by
    have calls := closed.calls
    rw [queueOf_popped ready ours, List.count_cons_of_ne other] at calls
    exact calls

theorem disarmed (closed : Closed w i ticket outcome stage) (orderly : Orderly w count) {id : Nat}
    (ours : exchangeOf w.timers (.timer id) = some i) : w.timers.isArmed id = false := by
  obtain ⟨x, found, -, -, untimed⟩ := closed.response
  cases armed : w.timers.isArmed id with
  | false => rfl
  | true =>
    obtain ⟨r, y, present, timer⟩ := orderly.owned id armed
    obtain ⟨-, window, callback⟩ := orderly.held r y id present timer
    simp only [exchangeOf, callback, Option.some_inj] at ours
    subst ours
    rw [found] at present
    cases present
    rw [untimed] at timer
    cases timer

theorem run_handler (closed : Closed w i ticket outcome stage) (orderly : Orderly w count) {rest : List Task}
    (ready : w.ready = .waiter (2 * i + 1) :: rest) :
    ∃ w', Reaches 13 { w with ready := rest } (Task.waiter (2 * i + 1)).thread w' idle ∧ Beside i count w w' ∧
      load w' < load w ∧ stage = .notified ∧ Closed w' i ticket outcome .finished ∧
      answersOf w' i = answersOf w i ++ [⟨some w.now, .answered i outcome⟩] := by
  have ours : exchangeOf w.timers (.waiter (2 * i + 1)) = some i := by
    simp only [exchangeOf, Option.some_inj]
    omega
  obtain ⟨x, found, terminal, result, untimed⟩ := closed.response
  let v : World := { w with ready := rest }.setStage (2 * i + 1) .finished
  have orderly' : Orderly v count := (orderly.popped ready).setStage _ _
  have calls := closed.calls
  rw [queueOf_popped ready ours, List.count_cons_self] at calls
  have inside : i < count := by
    rw [← orderly.responses]
    exact (List.getElem?_eq_some_iff.mp found).1
  refine ⟨v.emit idle (.answered i outcome), ?_, ((Beside.popped orderly ready ours).trans
    (.setStage (orderly.popped ready) (by omega) _)).trans (.emitted orderly' inside outcome), ?_, ?_, ?_, ?_⟩
  · exact (reaches_delivered (v := { w with ready := rest }) closed.handler (by simp [found, result])).mono (by omega)
  · rw [load_popped ready]
    exact Nat.lt_succ_self _
  · split at calls
    · assumption
    · cases calls
  · constructor
    case response => exact ⟨x, found, terminal, result, untimed⟩
    case worker =>
      obtain ⟨reached, apart, worker⟩ := closed.worker
      exact ⟨reached, apart, (getElem?_setStage ..).trans ((if_neg (by omega)).trans worker)⟩
    case handler => exact (getElem?_setStage ..).trans ((if_pos rfl).trans (congrArg _ closed.handler))
    case calls =>
      show (queueOf { w with ready := rest } i).count _ = 0
      split at calls
      · omega
      · cases calls
  · rw [answersOf_emit, if_pos rfl]
    rfl

theorem run_other (closed : Closed w i ticket outcome stage) (orderly : Orderly w count) {task : Task} {rest : List Task}
    (ready : w.ready = task :: rest) (ours : exchangeOf w.timers task = some i) (other : task ≠ .waiter (2 * i + 1)) :
    ∃ w', Reaches 13 { w with ready := rest } task.thread w' idle ∧ Beside i count w w' ∧ load w' < load w ∧
      Closed w' i ticket outcome stage ∧ answersOf w' i = answersOf w i := by
  have popped := closed.popped ready ours other
  have lighter : load { w with ready := rest } < load w := by
    rw [load_popped ready]
    exact Nat.lt_succ_self _
  obtain ⟨x, found, terminal, result, untimed⟩ := closed.response
  obtain ⟨reached, apart, worker⟩ := closed.worker
  cases task with
  | timer id =>
    have disarmed := closed.disarmed orderly ours
    exact ⟨_, (reaches_disarmed (v := { w with ready := rest }) disarmed).mono (by omega), .popped orderly ready ours,
      lighter, popped, rfl⟩
  | waiter id =>
    have seat : id = 2 * i := by
      simp only [exchangeOf, Option.some_inj] at ours
      simp only [ne_eq, Task.waiter.injEq] at other
      omega
    subst seat
    let v : World := { w with ready := rest }.setStage (2 * i) .finished
    have recorded : Alike v (v.record (.workerStoppedEarly i outcome.kind)) := .record _ _
    refine ⟨v.record (.workerStoppedEarly i outcome.kind), ?_, ((Beside.popped orderly ready ours).trans
      (.setStage (orderly.popped ready) (by omega) _)).alike recorded, lighter, (Framed.alike i recorded).closed ?_, rfl⟩
    · exact (reaches_delivered (v := { w with ready := rest }) worker (by simp [found, result])).mono (by omega)
    · constructor
      case response => exact popped.response
      case worker => exact ⟨.finished, by simp, (getElem?_setStage ..).trans ((if_pos rfl).trans (congrArg _ worker))⟩
      case handler => exact (getElem?_setStage ..).trans ((if_neg (by omega)).trans closed.handler)
      case calls => exact popped.calls
  | worker id =>
    have seats : id = 2 * i ∨ id = 2 * i + 1 := by
      simp only [exchangeOf, Option.some_inj] at ours
      omega
    refine ⟨_, ?_, .popped orderly ready ours, lighter, popped, rfl⟩
    rcases seats with rfl | rfl
    · exact (reaches_overslept (v := { w with ready := rest }) worker (fun parked => absurd parked apart)).mono (by omega)
    · exact (reaches_overslept (v := { w with ready := rest }) closed.handler (fun _ => rfl)).mono (by omega)

end Closed

end Closing

/-- Whatever task of a desk runs next, the desk goes on by its verdict alone. -/
theorem Desk.run {w : World} {i count : Nat} {ticket : Ticket} {standing : Standing} (desk : Desk w i ticket standing)
    (orderly : Orderly w count) {task : Task} {rest : List Task} (ready : w.ready = task :: rest)
    (ours : exchangeOf w.timers task = some i) :
    ∃ w' next, Reaches 13 { w with ready := rest } task.thread w' idle ∧ Beside i count w w' ∧ load w' < load w ∧
      Desk w' i ticket next ∧ standing.Moves (ticket.EndsWithin w.now w.now) False next := by
  cases standing with
  | waiting fresh =>
    obtain ⟨x, waits⟩ := desk
    exact waits.run orderly ready ours
  | closing tick outcome =>
    obtain ⟨rfl, closed, silent⟩ := desk
    by_cases calls : task = .waiter (2 * i + 1)
    · subst calls
      obtain ⟨w', reaches, beside, lighter, -, closed, answers⟩ := closed.run_handler orderly ready
      rw [silent] at answers
      exact ⟨w', .answered w.now outcome, reaches, beside, lighter, ⟨closed, answers⟩, rfl, rfl⟩
    · obtain ⟨w', reaches, beside, lighter, closed, same⟩ := closed.run_other orderly ready ours calls
      exact ⟨w', .closing w.now outcome, reaches, beside, lighter, ⟨beside.now.symm, closed, same.trans silent⟩, rfl, rfl⟩
  | answered tick outcome =>
    obtain ⟨closed, answered⟩ := desk
    by_cases calls : task = .waiter (2 * i + 1)
    · subst calls
      obtain ⟨w', -, -, -, stage, -⟩ := closed.run_handler orderly ready
      cases stage
    · obtain ⟨w', reaches, beside, lighter, closed, same⟩ := closed.run_other orderly ready ours calls
      exact ⟨w', .answered tick outcome, reaches, beside, lighter, ⟨closed, same.trans answered⟩, rfl, rfl⟩
  | dropped =>
    obtain ⟨⟨outcome, closed⟩, silent⟩ := desk
    by_cases calls : task = .waiter (2 * i + 1)
    · subst calls
      obtain ⟨w', -, -, -, stage, -⟩ := closed.run_handler orderly ready
      cases stage
    · obtain ⟨w', reaches, beside, lighter, closed, same⟩ := closed.run_other orderly ready ours calls
      exact ⟨w', .dropped, reaches, beside, lighter, ⟨⟨outcome, closed⟩, same.trans silent⟩, trivial⟩

end Deferral.Http
