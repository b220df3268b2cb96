import Deferral.Proofs.ThreadRuns
import Deferral.Proofs.Tickets

/-! Each deferred request has a desk: its response, its timer, its worker and its handler, with their
places among the tasks that sleep and those that are ready. What is done at one desk leaves the
others as they are. -/

namespace Deferral.Http
open Simulation

/-- The request that a task belongs to. -/
def exchangeOf (timers : Timers Callback) : Task → Option Nat
  | .timer id =>
    match timers.callback? id with
    | some (.expire r _ _) => some r
    | _ => none
  | .waiter id | .worker id => some (id / 2)

def queueOf (w : World) (i : Nat) : List Task := w.ready.filter fun task => exchangeOf w.timers task == some i

def alarmsOf (w : World) (i : Nat) : List (Nat × Task) :=
  w.sleeping.filter fun alarm => exchangeOf w.timers alarm.2 == some i

def Stamped.answers (i : Nat) (stamped : Stamped) : Bool :=
  match stamped.event with
  | .answered r _ => r == i
  | _ => false

def answersOf (w : World) (i : Nat) : List Stamped := w.events.toList.filter (Stamped.answers i)

namespace Ticket

/-- The alarm that ends the window, if there is one that the clock reaches. -/
def timeoutAlarm (ticket : Ticket) (timer : Option Nat) : List (Nat × Task) :=
  (ticket.timeoutDue.bind fun due => timer.map fun id => (due, Task.timer id)).toList

def workAlarm (ticket : Ticket) (i : Nat) : List (Nat × Task) :=
  (ticket.workDue.map fun due => (due, Task.worker (2 * i))).toList

end Ticket

/-- The desk of a request whose response `x` is not resolved. Its worker is fresh in the step of the
request and parked afterwards. -/
structure Waits (w : World) (i : Nat) (ticket : Ticket) (fresh : Bool) (x : Response String Listener) : Prop where
  found : w.responses[i]? = some x
  unresolved : x.state.isTerminal = false
  undecided : x.outcome = none
  listens : x.listeners = [(0, .untrack)]
  window : x.window = ticket.window
  timed : ∀ id, x.timer = some id → ∃ window, ticket.window = some window ∧
    w.timers.callback? id = some (.expire i window x.generation)
  untimed : x.timer = none → ticket.window = none
  worker : w.waiters[2 * i]? = some ⟨i, .worker ticket.workDue ticket.result, if fresh then .fresh else .parked⟩
  handler : w.waiters[2 * i + 1]? = some ⟨i, .handler, .parked⟩
  timing : ∀ tick, ticket.timeoutDue = some tick → w.now ≤ tick
  working : ∀ tick, ticket.workDue = some tick → w.now ≤ tick
  alarms : alarmsOf w i =
    (ticket.timeoutAlarm x.timer ++ ticket.workAlarm i).filter fun alarm => decide (w.now < alarm.1)
  queue : queueOf w i = goingOff w.now (ticket.timeoutAlarm x.timer) ++
    if fresh then [.waiter (2 * i)] else goingOff w.now (ticket.workAlarm i)
  unanswered : answersOf w i = []

/-- The desk of a request whose response has an outcome. Its handler is notified and will run once, or it
is through. -/
structure Closed (w : World) (i : Nat) (ticket : Ticket) (outcome : Outcome String) (stage : WaitStage) : Prop where
  response : ∃ x, w.responses[i]? = some x ∧ x.state.isTerminal = true ∧ x.outcome = some outcome ∧ x.timer = none
  worker : ∃ reached, reached ≠ .parked ∧ w.waiters[2 * i]? = some ⟨i, .worker ticket.workDue ticket.result, reached⟩
  handler : w.waiters[2 * i + 1]? = some ⟨i, .handler, stage⟩
  calls : (queueOf w i).count (.waiter (2 * i + 1)) = if stage = .notified then 1 else 0

inductive Standing where
  | waiting (fresh : Bool)
  /-- The response has ended at this tick and the handler is yet to run. -/
  | closing (tick : Nat) (outcome : Outcome String)
  | answered (tick : Nat) (outcome : Outcome String)
  /-- The client went away, so that nobody is answered. -/
  | dropped

def Desk (w : World) (i : Nat) (ticket : Ticket) : Standing → Prop
  | .waiting fresh => ∃ x, Waits w i ticket fresh x
  | .closing tick outcome => tick = w.now ∧ Closed w i ticket outcome .notified ∧ answersOf w i = []
  | .answered tick outcome =>
    Closed w i ticket outcome .finished ∧ answersOf w i = [⟨some tick, .answered i outcome⟩]
  | .dropped => (∃ outcome, Closed w i ticket outcome .finished) ∧ answersOf w i = []

/-- Nothing of a desk changes between two worlds. -/
structure Framed (i : Nat) (w w' : World) : Prop where
  now : w'.now = w.now
  response : w'.responses[i]? = w.responses[i]?
  callbacks : ∀ id callback, w.timers.callback? id = some callback → w'.timers.callback? id = some callback
  worker : w'.waiters[2 * i]? = w.waiters[2 * i]?
  handler : w'.waiters[2 * i + 1]? = w.waiters[2 * i + 1]?
  alarms : alarmsOf w' i = alarmsOf w i
  queue : queueOf w' i = queueOf w i
  answers : answersOf w' i = answersOf w i

namespace Framed

variable {w w' w'' : World} {i : Nat} {ticket : Ticket}

theorem trans (first : Framed i w w') (second : Framed i w' w'') : Framed i w w'' where
  now := second.now.trans first.now
  response := second.response.trans first.response
  callbacks := fun id callback found => second.callbacks id callback (first.callbacks id callback found)
  worker := second.worker.trans first.worker
  handler := second.handler.trans first.handler
  alarms := second.alarms.trans first.alarms
  queue := second.queue.trans first.queue
  answers := second.answers.trans first.answers

theorem alike (i : Nat) (same : Alike w w') : Framed i w w' := by
  obtain ⟨log, metrics, rfl, -⟩ := same
  exact ⟨rfl, rfl, fun _ _ found => found, rfl, rfl, rfl, rfl, rfl⟩

theorem closed (framed : Framed i w w') {outcome : Outcome String} {stage : WaitStage}
    (closed : Closed w i ticket outcome stage) : Closed w' i ticket outcome stage where
  response := by rw [framed.response]; exact closed.response
  worker := by rw [framed.worker]; exact closed.worker
  handler := by rw [framed.handler]; exact closed.handler
  calls := by rw [framed.queue]; exact closed.calls

theorem waits (framed : Framed i w w') {fresh : Bool} {x : Response String Listener} (waits : Waits w i ticket fresh x) :
    Waits w' i ticket fresh x where
  found := framed.response.trans waits.found
  unresolved := waits.unresolved
  undecided := waits.undecided
  listens := waits.listens
  window := waits.window
  timed := by
    intro id timer
    obtain ⟨window, given, callback⟩ := waits.timed id timer
    exact ⟨window, given, framed.callbacks _ _ callback⟩
  untimed := waits.untimed
  worker := framed.worker.trans waits.worker
  handler := framed.handler.trans waits.handler
  timing := by rw [framed.now]; exact waits.timing
  working := by rw [framed.now]; exact waits.working
  alarms := by rw [framed.alarms, framed.now]; exact waits.alarms
  queue := by rw [framed.queue, framed.now]; exact waits.queue
  unanswered := framed.answers.trans waits.unanswered

theorem desk (framed : Framed i w w') {standing : Standing} (desk : Desk w i ticket standing) :
    Desk w' i ticket standing := by
  cases standing with
  | waiting fresh =>
    obtain ⟨x, waits⟩ := desk
    exact ⟨x, framed.waits waits⟩
  | closing tick outcome => exact ⟨desk.1.trans framed.now.symm, framed.closed desk.2.1, framed.answers.trans desk.2.2⟩
  | answered tick outcome => exact ⟨framed.closed desk.1, framed.answers.trans desk.2⟩
  | dropped =>
    obtain ⟨⟨outcome, closed⟩, silent⟩ := desk
    exact ⟨⟨outcome, framed.closed closed⟩, framed.answers.trans silent⟩

end Framed

/-- What holds of a server's world whatever becomes of its `count` desks. -/
structure Orderly (w : World) (count : Nat) : Prop where
  runtime : w.drive = .runtime
  responses : w.responses.length = count
  waiters : w.waiters.length = 2 * count
  seats : ∀ id waiter, w.waiters[id]? = some waiter → waiter.r = id / 2
  callbacks : ∀ id callback, w.timers.callback? id = some callback →
    ∃ r window generation, callback = .expire r window generation ∧ r < count
  owned : ∀ id, w.timers.isArmed id = true →
    ∃ (r : Nat) (x : Response String Listener), w.responses[r]? = some x ∧ x.timer = some id
  held : ∀ (r : Nat) (x : Response String Listener) id, w.responses[r]? = some x → x.timer = some id →
    w.timers.isArmed id = true ∧ ∃ window, w.timers.callback? id = some (.expire r window x.generation)
  armed : w.timers.armed = w.responses.countP (·.timer.isSome)
  tracked : w.registry.ids = (List.range count).filter fun r => (w.responses[r]?).any (!·.isDone)
  tasks : ∀ task ∈ w.ready ++ w.sleeping.map Prod.snd, ∃ i < count, exchangeOf w.timers task = some i
  later : ∀ alarm ∈ w.sleeping, w.now < alarm.1
  sleepers : ∀ alarm ∈ w.sleeping, ∀ id, alarm.2 ≠ .waiter id
  few : w.sleeping.length ≤ 2 * count
  silent : ∀ i, count ≤ i → answersOf w i = []

private theorem filterMap_zipIdx_pair {α β : Type} {l : List α} {f : α × Nat → Option β} {k : Nat} {a b : α}
    (first : l[k]? = some a) (second : l[k + 1]? = some b)
    (others : ∀ m c, l[m]? = some c → m ≠ k → m ≠ k + 1 → f (c, m) = none) :
    l.zipIdx.filterMap f = (f (a, k)).toList ++ (f (b, k + 1)).toList := by
  obtain ⟨inside, here⟩ := List.getElem?_eq_some_iff.mp first
  obtain ⟨inside', next⟩ := List.getElem?_eq_some_iff.mp second
  have cut : l = l.take k ++ a :: b :: l.drop (k + 2) := by
    rw [← next, ← List.drop_eq_getElem_cons inside', ← here, ← List.drop_eq_getElem_cons inside, List.take_append_drop]
  have length : (l.take k).length = k := List.length_take_of_le (by omega)
  have before : ((l.take k).zipIdx).filterMap f = [] := by
    apply List.filterMap_eq_nil_iff.mpr
    rintro ⟨c, m⟩ member
    have at_ := List.mem_zipIdx_iff_getElem?.mp member
    have small : m < k := by
      have := (List.getElem?_eq_some_iff.mp at_).1
      omega
    rw [List.getElem?_take_of_lt small] at at_
    exact others m c at_ (by omega) (by omega)
  have after : ((l.drop (k + 2)).zipIdx (k + 2)).filterMap f = [] := by
    apply List.filterMap_eq_nil_iff.mpr
    rintro ⟨c, m⟩ member
    obtain ⟨large, at_⟩ := List.mk_mem_zipIdx_iff_le_and_getElem?_sub.mp member
    rw [List.getElem?_drop, Nat.add_sub_cancel' large] at at_
    exact others m c at_ (by omega) (by omega)
  calc l.zipIdx.filterMap f = ((l.take k ++ a :: b :: l.drop (k + 2)).zipIdx).filterMap f := by rw [← cut]
    _ = (f (a, k)).toList ++ (f (b, k + 1)).toList := by
      rw [List.zipIdx_append, List.filterMap_append, before, length, Nat.zero_add, List.zipIdx_cons, List.zipIdx_cons,
        List.filterMap_cons, List.filterMap_cons, after]
      cases f (a, k) <;> cases f (b, k + 1) <;> rfl

section Ending

variable {w : World} {count i : Nat} {x : Response String Listener} {outcome : Outcome String} {worker handler : Waiter}

theorem notify_waiter (w : World) (i id : Nat) : (w.notify i).waiters[id]? = (w.waiters[id]?).map fun waiter =>
    if waiter.r = i ∧ (waiter.stage = .parked ∨ waiter.stage = .enabled) then { waiter with stage := .notified } else waiter := by
  simp only [World.notify, List.getElem?_map]

/-- The tasks woken at a desk: its worker and its handler, as far as they are parked. -/
def wokenAt (i : Nat) (worker handler : Waiter) : List Task :=
  (if worker.stage = .parked then [.waiter (2 * i)] else []) ++
    if handler.stage = .parked then [.waiter (2 * i + 1)] else []

private theorem woken_pair (seats : ∀ id waiter, w.waiters[id]? = some waiter → waiter.r = id / 2)
    (first : w.waiters[2 * i]? = some worker) (second : w.waiters[2 * i + 1]? = some handler) :
    (w.waiters.zipIdx.filterMap fun (waiter, id) =>
      if waiter.r = i ∧ waiter.stage = .parked then some (Task.waiter id) else none) =
      (if worker.r = i ∧ worker.stage = .parked then some (Task.waiter (2 * i)) else none).toList ++
        (if handler.r = i ∧ handler.stage = .parked then some (Task.waiter (2 * i + 1)) else none).toList := by
  apply filterMap_zipIdx_pair first second
  intro m waiter found other other'
  have seat := seats m waiter found
  apply if_neg
  rintro ⟨same, -⟩
  omega

theorem notify_ready (seats : ∀ id waiter, w.waiters[id]? = some waiter → waiter.r = id / 2)
    (first : w.waiters[2 * i]? = some worker) (second : w.waiters[2 * i + 1]? = some handler) :
    (w.notify i).ready = w.ready ++ wokenAt i worker handler := by
  have ours : worker.r = i := by rw [seats _ _ first]; omega
  have ours' : handler.r = i := by rw [seats _ _ second]; omega
  simp only [World.notify, woken_pair seats first second, wokenAt, ours, ours', true_and]
  split <;> split <;> rfl

theorem mem_wokenAt {task : Task} (member : task ∈ wokenAt i worker handler) :
    task = .waiter (2 * i) ∨ task = .waiter (2 * i + 1) := by
  unfold wokenAt at member
  rcases List.mem_append.mp member with first | second
  · split at first
    · exact .inl (List.mem_singleton.mp first)
    · cases first
  · split at second
    · exact .inr (List.mem_singleton.mp second)
    · cases second

theorem exchangeOf_wokenAt (timers : Timers Callback) {task : Task} (member : task ∈ wokenAt i worker handler) :
    exchangeOf timers task = some i := by
  rcases mem_wokenAt member with rfl | rfl
  · simp only [exchangeOf, Option.some_inj]
    omega
  · simp only [exchangeOf, Option.some_inj]
    omega

theorem exchangeOf_congr {timers timers' : Timers Callback} (same : ∀ id, timers'.callback? id = timers.callback? id)
    (task : Task) : exchangeOf timers' task = exchangeOf timers task := by
  cases task with
  | timer id => simp only [exchangeOf, same]
  | waiter id | worker id => rfl

theorem callback?_ended (w : World) (i : Nat) (x : Response String Listener) (outcome : Outcome String) (id : Nat) :
    (w.ended i x outcome).timers.callback? id = w.timers.callback? id := by
  cases timed : x.timer <;> simp [World.ended, timed]

theorem queueOf_ended (seats : ∀ id waiter, w.waiters[id]? = some waiter → waiter.r = id / 2)
    (first : w.waiters[2 * i]? = some worker) (second : w.waiters[2 * i + 1]? = some handler) (j : Nat) :
    queueOf (w.ended i x outcome) j = queueOf w j ++ if j = i then wokenAt i worker handler else [] := by
  have ready : (w.ended i x outcome).ready = w.ready ++ wokenAt i worker handler := notify_ready seats first second
  rw [queueOf, ready, List.filter_append]
  congr 1
  · simp only [queueOf, exchangeOf_congr (callback?_ended w i x outcome)]
  · split
    next same =>
      apply List.filter_eq_self.mpr
      intro task member
      rw [exchangeOf_wokenAt _ member, same]
      exact beq_self_eq_true _
    next other =>
      apply List.filter_eq_nil_iff.mpr
      intro task member
      rw [exchangeOf_wokenAt _ member]
      simpa using Ne.symm other

theorem alarmsOf_ended (j : Nat) : alarmsOf (w.ended i x outcome) j = alarmsOf w j := by
  simp only [alarmsOf, exchangeOf_congr (callback?_ended w i x outcome)]
  rfl

theorem Framed.ended (seats : ∀ id waiter, w.waiters[id]? = some waiter → waiter.r = id / 2)
    (first : w.waiters[2 * i]? = some worker) (second : w.waiters[2 * i + 1]? = some handler) {j : Nat} (other : j ≠ i) :
    Framed j w (w.ended i x outcome) := by
  have kept (id : Nat) (seat : id / 2 = j) : (w.ended i x outcome).waiters[id]? = w.waiters[id]? := by
    have notified : (w.ended i x outcome).waiters[id]? = _ := notify_waiter (w.setResponse i (x.resolved outcome)) i id
    rw [notified]
    cases found : w.waiters[id]? with
    | none => simp [World.setResponse, found]
    | some waiter =>
      have apart : waiter.r ≠ i := by rw [seats id waiter found, seat]; exact other
      simp [World.setResponse, found, apart]
  constructor
  case now => rfl
  case response => exact List.getElem?_set_ne other.symm
  case callbacks => exact fun id callback found => (callback?_ended ..).trans found
  case worker => exact kept _ (by omega)
  case handler => exact kept _ (by omega)
  case alarms => exact alarmsOf_ended j
  case queue => rw [queueOf_ended seats first second, if_neg other, List.append_nil]
  case answers => rfl

theorem isArmed_ended (w : World) (i : Nat) (x : Response String Listener) (outcome : Outcome String) (id : Nat) :
    (w.ended i x outcome).timers.isArmed id = (decide (x.timer ≠ some id) && w.timers.isArmed id) := by
  cases timed : x.timer with
  | none => simp [World.ended, timed]
  | some stored => by_cases same : stored = id <;> simp [World.ended, timed, Timers.isArmed_disarm, same]

theorem armed_ended (outcome : Outcome String) (orderly : Orderly w count) (found : w.responses[i]? = some x) :
    (w.ended i x outcome).timers.armed = (w.ended i x outcome).responses.countP (·.timer.isSome) := by
  obtain ⟨inside, here⟩ := List.getElem?_eq_some_iff.mp found
  have counted : (w.ended i x outcome).responses.countP (·.timer.isSome) =
      w.responses.countP (·.timer.isSome) - if x.timer.isSome then 1 else 0 := by
    rw [show (w.ended i x outcome).responses = w.responses.set i (x.resolved outcome) from rfl, List.countP_set inside, here]
    simp [Response.resolved]
  rw [counted, ← orderly.armed]
  cases timed : x.timer with
  | none => simp [World.ended, timed]
  | some id =>
    have disarmed := Timers.armed_disarm (orderly.held i x id found timed).1
    simp only [World.ended, timed, Option.map_some, Option.getD_some, Option.isSome_some, if_true]
    omega

theorem tracked_ended (orderly : Orderly w count) (found : w.responses[i]? = some x) :
    (w.ended i x outcome).registry.ids =
      (List.range count).filter fun r => ((w.ended i x outcome).responses[r]?).any (!·.isDone) := by
  obtain ⟨inside, -⟩ := List.getElem?_eq_some_iff.mp found
  rw [show (w.ended i x outcome).registry.ids = w.registry.ids.filter (· != i) from rfl, orderly.tracked, List.filter_filter]
  apply List.filter_congr
  intro r _
  rw [show (w.ended i x outcome).responses = w.responses.set i (x.resolved outcome) from rfl]
  by_cases same : r = i
  · subst same
    rw [List.getElem?_set_self inside]
    simp [Response.resolved, Response.isDone]
  · rw [List.getElem?_set_ne (Ne.symm same)]
    simp [same]

theorem Orderly.ended (orderly : Orderly w count) (found : w.responses[i]? = some x) : Orderly (w.ended i x outcome) count := by
  have inside : i < count := by
    rw [← orderly.responses]
    exact (List.getElem?_eq_some_iff.mp found).1
  have seated : 2 * i + 1 < w.waiters.length := by
    rw [orderly.waiters]
    omega
  have first := List.getElem?_eq_getElem (l := w.waiters) (i := 2 * i) (by omega)
  have second := List.getElem?_eq_getElem seated
  constructor
  case runtime => exact orderly.runtime
  case responses => exact (List.length_set ..).trans orderly.responses
  case waiters => exact (List.length_map ..).trans orderly.waiters
  case seats =>
    intro id waiter seat
    have notified : (w.ended i x outcome).waiters[id]? = _ := notify_waiter (w.setResponse i (x.resolved outcome)) i id
    rw [notified, Option.map_eq_some_iff] at seat
    obtain ⟨before, seat, rfl⟩ := seat
    have same := orderly.seats id before seat
    split <;> exact same
  case callbacks =>
    intro id callback given
    rw [callback?_ended] at given
    exact orderly.callbacks id callback given
  case owned =>
    intro id armed
    rw [isArmed_ended, Bool.and_eq_true, decide_eq_true_iff] at armed
    obtain ⟨r, y, present, holds⟩ := orderly.owned id armed.2
    refine ⟨r, y, (List.getElem?_set_ne ?_).trans present, holds⟩
    rintro rfl
    rw [found] at present
    cases present
    exact armed.1 holds
  case held =>
    intro r y id present holds
    have present : (w.responses.set i (x.resolved outcome))[r]? = some y := present
    by_cases same : i = r
    · subst same
      rw [List.getElem?_set_self (by rw [orderly.responses]; exact inside)] at present
      cases present
      cases holds
    · rw [List.getElem?_set_ne same] at present
      obtain ⟨armed, window, callback⟩ := orderly.held r y id present holds
      refine ⟨?_, window, by rw [callback?_ended]; exact callback⟩
      rw [isArmed_ended, armed, Bool.and_true, decide_eq_true_iff]
      intro ours
      obtain ⟨-, window', callback'⟩ := orderly.held i x id found ours
      rw [callback, Option.some_inj, Callback.expire.injEq] at callback'
      exact same callback'.1.symm
  case armed => exact armed_ended outcome orderly found
  case tracked => exact tracked_ended orderly found
  case tasks =>
    intro task member
    rw [show (w.ended i x outcome).ready = w.ready ++ wokenAt i _ _ from notify_ready orderly.seats first second] at member
    rw [exchangeOf_congr (callback?_ended w i x outcome)]
    simp only [List.mem_append] at member
    rcases member with (ready | woken) | sleeping
    · exact orderly.tasks task (List.mem_append_left _ ready)
    · exact ⟨i, inside, exchangeOf_wokenAt _ woken⟩
    · exact orderly.tasks task (List.mem_append_right _ sleeping)
  case later => exact orderly.later
  case sleepers => exact orderly.sleepers
  case few => exact orderly.few
  case silent => exact orderly.silent

end Ending

end Deferral.Http
