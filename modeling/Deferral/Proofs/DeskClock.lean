import Deferral.Proofs.DeskTasks

/-! How the clock of a server runs. What is ready runs until nothing is, the clock goes from alarm to
alarm, and every desk ends at the tick of its verdict, whatever else is in flight. -/

namespace Deferral.Http
open Simulation

/-- A server's world with a desk for each request that was taken. -/
structure Staffed (tickets : List Ticket) (w : World) : Prop where
  orderly : Orderly w tickets.length
  desks : ∀ i ticket, tickets[i]? = some ticket → ∃ standing, Desk w i ticket standing

/-- One world has become another while every desk moved as it may. -/
structure Passed (tickets : List Ticket) (ends : Nat → Ticket → Nat → Outcome String → Prop) (leaves : Nat → Ticket → Prop)
    (w w' : World) : Prop where
  orderly : Orderly w' tickets.length
  now : w.now ≤ w'.now
  served : w'.metrics.requestTotal = w.metrics.requestTotal
  events : w.events.toList <+: w'.events.toList
  desks : ∀ i ticket standing, tickets[i]? = some ticket → Desk w i ticket standing →
    ∃ next, Desk w' i ticket next ∧ standing.Moves (ends i ticket) (leaves i ticket) next

/-- Requests end by their verdicts between two ticks. -/
abbrev within (first last : Nat) : Nat → Ticket → Nat → Outcome String → Prop := fun _ ticket => ticket.EndsWithin first last

abbrev nobody : Nat → Ticket → Prop := fun _ _ => False

namespace Passed

variable {tickets : List Ticket} {ends more : Nat → Ticket → Nat → Outcome String → Prop} {leaves goes : Nat → Ticket → Prop}
  {w w' w'' : World}

theorem refl (orderly : Orderly w tickets.length) : Passed tickets ends leaves w w :=
  ⟨orderly, Nat.le_refl _, rfl, List.prefix_rfl, fun _ _ standing _ desk => ⟨standing, desk, .refl standing⟩⟩

theorem trans (first : Passed tickets ends leaves w w') (second : Passed tickets ends leaves w' w'') :
    Passed tickets ends leaves w w'' where
  orderly := second.orderly
  now := Nat.le_trans first.now second.now
  served := second.served.trans first.served
  events := first.events.trans second.events
  desks := by
    intro i ticket standing given desk
    obtain ⟨next, desk, moves⟩ := first.desks i ticket standing given desk
    obtain ⟨last, desk, moves'⟩ := second.desks i ticket next given desk
    exact ⟨last, desk, moves.trans moves'⟩

theorem mono (passed : Passed tickets ends leaves w w')
    (wider : ∀ i ticket tick outcome, ends i ticket tick outcome → more i ticket tick outcome)
    (also : ∀ i ticket, leaves i ticket → goes i ticket) : Passed tickets more goes w w' :=
  { passed with
    desks := by
      intro i ticket standing given desk
      obtain ⟨next, desk, moves⟩ := passed.desks i ticket standing given desk
      exact ⟨next, desk, moves.mono (wider i ticket) (also i ticket)⟩ }

theorem widen {first last first' last' : Nat} (passed : Passed tickets (within first last) leaves w w')
    (sooner : first' ≤ first) (later : last ≤ last') : Passed tickets (within first' last') leaves w w' :=
  passed.mono (fun _ _ _ _ ⟨verdict, begun, elapsed⟩ => ⟨verdict, Nat.le_trans sooner begun, Nat.le_trans elapsed later⟩)
    fun _ _ goes => goes

theorem staffed (passed : Passed tickets ends leaves w w') (staffed : Staffed tickets w) : Staffed tickets w' where
  orderly := passed.orderly
  desks := by
    intro i ticket given
    obtain ⟨standing, desk⟩ := staffed.desks i ticket given
    obtain ⟨next, desk, -⟩ := passed.desks i ticket standing given desk
    exact ⟨next, desk⟩

theorem beside {i : Nat} (beside : Beside i tickets.length w w')
    (ours : ∀ ticket standing, tickets[i]? = some ticket → Desk w i ticket standing →
      ∃ next, Desk w' i ticket next ∧ standing.Moves (ends i ticket) (leaves i ticket) next) :
    Passed tickets ends leaves w w' where
  orderly := beside.orderly
  now := Nat.le_of_eq beside.now.symm
  served := beside.served
  events := beside.events
  desks := by
    intro j ticket standing given desk
    by_cases same : j = i
    · subst same
      exact ours ticket standing given desk
    · exact ⟨standing, (beside.others j same).desk desk, .refl standing⟩

theorem alike (orderly : Orderly w tickets.length) (same : Alike w w') : Passed tickets ends leaves w w' := by
  have events : w.events.toList <+: w'.events.toList := by
    obtain ⟨log, metrics, rfl, -⟩ := same
    exact List.prefix_rfl
  have now : w'.now = w.now := by
    obtain ⟨log, metrics, rfl, -⟩ := same
    rfl
  have served : w'.metrics.requestTotal = w.metrics.requestTotal := by
    obtain ⟨log, metrics, rfl, total⟩ := same
    exact total
  exact ⟨orderly.alike same, Nat.le_of_eq now.symm, served, events, fun i _ standing _ desk =>
    ⟨standing, (Framed.alike i same).desk desk, .refl standing⟩⟩

end Passed

variable {tickets : List Ticket} {w : World}

theorem Staffed.task (staffed : Staffed tickets w) {task : Task} {rest : List Task} (ready : w.ready = task :: rest)
    {steps : Nat} (enough : 13 ≤ steps) :
    Passed tickets (within w.now w.now) nobody w (runThread steps { w with ready := rest } task.thread).1 ∧
      (runThread steps { w with ready := rest } task.thread).1.now = w.now ∧
      (runThread steps { w with ready := rest } task.thread).1.sleeping = w.sleeping ∧
      load (runThread steps { w with ready := rest } task.thread).1 < load w := by
  obtain ⟨i, inside, ours⟩ := staffed.orderly.tasks task (by simp [ready])
  obtain ⟨ticket, given⟩ : ∃ ticket, tickets[i]? = some ticket := ⟨_, List.getElem?_eq_getElem inside⟩
  obtain ⟨standing, desk⟩ := staffed.desks i ticket given
  obtain ⟨w', next, reaches, beside, lighter, -, -⟩ := desk.run staffed.orderly ready ours
  rw [reaches.runThread rfl enough]
  refine ⟨.beside beside ?_, beside.now, beside.sleeping, lighter⟩
  intro ticket standing given desk
  obtain ⟨w'', next, reaches', -, -, desk, moves⟩ := desk.run staffed.orderly ready ours
  have same := (reaches.runThread rfl enough).symm.trans (reaches'.runThread rfl enough)
  cases same
  exact ⟨next, desk, moves⟩

theorem Staffed.settleUpTo (staffed : Staffed tickets w) {steps fuel : Nat} (enough : 13 ≤ steps) (fueled : load w ≤ fuel) :
    Passed tickets (within w.now w.now) nobody w (w.settleUpTo steps fuel) ∧ (w.settleUpTo steps fuel).ready = [] ∧
      (w.settleUpTo steps fuel).now = w.now ∧ (w.settleUpTo steps fuel).sleeping = w.sleeping := by
  induction fuel generalizing w with
  | zero =>
    have none : w.ready = [] := List.eq_nil_of_length_eq_zero (by unfold load at fueled; omega)
    exact ⟨.refl staffed.orderly, none, rfl, rfl⟩
  | succ fuel ih =>
    unfold World.settleUpTo
    split
    next none => exact ⟨.refl staffed.orderly, none, rfl, rfl⟩
    next task rest ready =>
      obtain ⟨passed, now, sleeping, lighter⟩ := staffed.task ready enough
      obtain ⟨later, settled, now', sleeping'⟩ := ih (passed.staffed staffed) (by omega)
      rw [now] at later
      exact ⟨passed.trans later, settled, now'.trans now, sleeping'.trans sleeping⟩

theorem Staffed.settle (staffed : Staffed tickets w) {fuel : Nat} (enough : 13 ≤ fuel) (light : load w ≤ fuel) :
    Passed tickets (within w.now w.now) nobody w (w.settle fuel) ∧ (w.settle fuel).ready = [] ∧
      (w.settle fuel).now = w.now ∧ (w.settle fuel).sleeping = w.sleeping :=
  staffed.settleUpTo enough light

/-! ### Waking -/

section Waking

variable {i : Nat} {ticket : Ticket} {fresh : Bool} {x : Response String Listener}

theorem Waits.quiet (waits : Waits w i ticket fresh x) (ready : w.ready = []) :
    fresh = false ∧ alarmsOf w i = ticket.timeoutAlarm x.timer ++ ticket.workAlarm i ∧
      (∀ tick, ticket.timeoutDue = some tick → w.now < tick) ∧ ∀ tick, ticket.workDue = some tick → w.now < tick := by
  have queue := waits.queue
  rw [queueOf, ready, List.filter_nil, eq_comm, List.append_eq_nil_iff] at queue
  obtain ⟨none, none'⟩ := queue
  have parked : fresh = false := by
    cases fresh with
    | false => rfl
    | true => cases none'
  subst parked
  have timing : ∀ tick, ticket.timeoutDue = some tick → w.now < tick := by
    rcases waits.timeout_cases with ⟨id, -, -, alarm⟩ | ⟨running, -⟩
    · rw [alarm] at none
      cases none
    · exact running
  have working : ∀ tick, ticket.workDue = some tick → w.now < tick := by
    rcases waits.work_cases with ⟨-, alarm⟩ | ⟨running, -⟩
    · simp [alarm] at none'
    · exact running
  refine ⟨rfl, ?_, timing, working⟩
  rw [waits.alarms, List.filter_eq_self]
  intro alarm member
  simp only [Ticket.timeoutAlarm, Ticket.workAlarm, List.mem_append, Option.mem_toList, Option.bind_eq_some_iff,
    Option.map_eq_some_iff] at member
  rcases member with ⟨due, given, id, -, rfl⟩ | ⟨due, given, rfl⟩
  · exact decide_eq_true (timing due given)
  · exact decide_eq_true (working due given)

theorem Waits.verdict_later (waits : Waits w i ticket fresh x) (ready : w.ready = []) {tick : Nat}
    (ends : ticket.verdict.1 = some tick) : w.now < tick := by
  obtain ⟨-, -, timing, working⟩ := waits.quiet ready
  exact Ticket.verdict_later timing working ends

variable {tick : Nat}

theorem queueOf_wakeAt (ready : w.ready = []) (i : Nat) :
    queueOf (w.wakeAt tick) i = ((alarmsOf w i).filter fun alarm => decide (alarm.1 ≤ tick)).map Prod.snd := by
  simp only [queueOf, alarmsOf, World.wakeAt, ready, List.nil_append, List.filter_map, List.filter_filter]
  congr 2
  funext alarm
  exact Bool.and_comm ..

theorem alarmsOf_wakeAt (i : Nat) :
    alarmsOf (w.wakeAt tick) i = (alarmsOf w i).filter fun alarm => decide (tick < alarm.1) := by
  simp only [alarmsOf, World.wakeAt, List.filter_filter]
  congr 1
  funext alarm
  rw [Bool.and_comm, ← decide_not, decide_eq_decide.mpr Nat.not_le]

theorem Waits.wakeAt (waits : Waits w i ticket fresh x) (ready : w.ready = []) (ahead : w.now ≤ tick)
    (next : ∀ alarm ∈ w.sleeping, tick ≤ alarm.1) : Waits (w.wakeAt tick) i ticket fresh x := by
  obtain ⟨rfl, alarms, timing, working⟩ := waits.quiet ready
  have asleep : ∀ alarm ∈ ticket.timeoutAlarm x.timer ++ ticket.workAlarm i, tick ≤ alarm.1 := by
    rw [← alarms]
    exact fun alarm member => next alarm (List.mem_filter.mp member).1
  have now : (w.wakeAt tick).now = tick := Nat.max_eq_right ahead
  constructor
  case found => exact waits.found
  case unresolved => exact waits.unresolved
  case undecided => exact waits.undecided
  case listens => exact waits.listens
  case window => exact waits.window
  case timed => exact waits.timed
  case untimed => exact waits.untimed
  case worker => exact waits.worker
  case handler => exact waits.handler
  case timing =>
    intro due given
    rw [now]
    cases timer : x.timer with
    | none => simp [Ticket.timeoutDue, waits.untimed timer] at given
    | some id => exact asleep (due, .timer id) (by simp [Ticket.timeoutAlarm, timer, given])
  case working =>
    intro due given
    rw [now]
    exact asleep (due, .worker (2 * i)) (by simp [Ticket.workAlarm, given])
  case alarms => rw [alarmsOf_wakeAt, alarms, now]
  case queue =>
    have precise : (ticket.timeoutAlarm x.timer ++ ticket.workAlarm i).filter (fun alarm => decide (alarm.1 ≤ tick)) =
        (ticket.timeoutAlarm x.timer ++ ticket.workAlarm i).filter fun alarm => alarm.1 == tick := by
      apply List.filter_congr
      intro alarm member
      have later := asleep alarm member
      rw [Bool.eq_iff_iff, decide_eq_true_iff, beq_iff_eq]
      omega
    rw [queueOf_wakeAt ready, alarms, now, precise, List.filter_append, List.map_append]
    rfl
  case unanswered => exact waits.unanswered

theorem Closed.wakeAt {outcome : Outcome String} (closed : Closed w i ticket outcome .finished) (ready : w.ready = [])
    (orderly : Orderly w tickets.length) : Closed (w.wakeAt tick) i ticket outcome .finished where
  response := closed.response
  worker := closed.worker
  handler := closed.handler
  calls := by
    rw [queueOf_wakeAt ready, if_neg (by simp), List.count_eq_zero]
    intro member
    obtain ⟨alarm, listed, same⟩ := List.mem_map.mp member
    exact orderly.sleepers alarm (List.mem_filter.mp (List.mem_filter.mp listed).1).1 _ same

theorem Desk.wakeAt {standing : Standing} (desk : Desk w i ticket standing) (ready : w.ready = [])
    (orderly : Orderly w tickets.length) (ahead : w.now ≤ tick) (next : ∀ alarm ∈ w.sleeping, tick ≤ alarm.1) :
    Desk (w.wakeAt tick) i ticket standing := by
  cases standing with
  | waiting fresh =>
    obtain ⟨x, waits⟩ := desk
    exact ⟨x, waits.wakeAt ready ahead next⟩
  | closing closed outcome =>
    obtain ⟨-, closing, -⟩ := desk
    have calls := closing.calls
    simp [queueOf, ready] at calls
  | answered ended outcome => exact ⟨desk.1.wakeAt ready orderly, desk.2⟩
  | dropped =>
    obtain ⟨⟨outcome, closed⟩, silent⟩ := desk
    exact ⟨⟨outcome, closed.wakeAt ready orderly⟩, silent⟩

theorem Orderly.wakeAt {count : Nat} (orderly : Orderly w count) (ahead : w.now ≤ tick) : Orderly (w.wakeAt tick) count := by
  have now : (w.wakeAt tick).now = tick := Nat.max_eq_right ahead
  have asleep : ∀ alarm ∈ (w.wakeAt tick).sleeping, alarm ∈ w.sleeping ∧ tick < alarm.1 := by
    intro alarm member
    obtain ⟨listed, later⟩ := List.mem_filter.mp member
    exact ⟨listed, by simpa using later⟩
  constructor
  case runtime => exact orderly.runtime
  case responses => exact orderly.responses
  case waiters => exact orderly.waiters
  case seats => exact orderly.seats
  case callbacks => exact orderly.callbacks
  case owned => exact orderly.owned
  case held => exact orderly.held
  case armed => exact orderly.armed
  case tracked => exact orderly.tracked
  case tasks =>
    intro task member
    apply orderly.tasks task
    simp only [World.wakeAt, List.mem_append, List.mem_map, List.mem_filter] at member ⊢
    rcases member with (ready | ⟨alarm, ⟨listed, -⟩, same⟩) | ⟨alarm, ⟨listed, -⟩, same⟩
    · exact .inl ready
    · exact .inr ⟨alarm, listed, same⟩
    · exact .inr ⟨alarm, listed, same⟩
  case later =>
    intro alarm member
    rw [now]
    exact (asleep alarm member).2
  case sleepers => exact fun alarm member => orderly.sleepers alarm (asleep alarm member).1
  case few => exact Nat.le_trans (List.length_filter_le _ _) orderly.few
  case silent => exact orderly.silent

theorem Passed.wakeAt {ends : Nat → Ticket → Nat → Outcome String → Prop} {leaves : Nat → Ticket → Prop}
    (orderly : Orderly w tickets.length) (ready : w.ready = []) (ahead : w.now ≤ tick)
    (next : ∀ alarm ∈ w.sleeping, tick ≤ alarm.1) : Passed tickets ends leaves w (w.wakeAt tick) where
  orderly := orderly.wakeAt ahead
  now := Nat.le_max_left _ _
  served := rfl
  events := List.prefix_rfl
  desks := fun _ _ standing _ desk => ⟨standing, desk.wakeAt ready orderly ahead next, .refl standing⟩

end Waking

/-! ### Advancing -/

theorem Orderly.tracked_le {count : Nat} (orderly : Orderly w count) : w.registry.size ≤ count := by
  have filtered := List.length_filter_le (fun r => (w.responses[r]?).any (!·.isDone)) (List.range count)
  rw [← orderly.tracked, List.length_range] at filtered
  exact filtered

/-- The clock runs up to a tick, and each desk closes when its verdict falls on the way. -/
theorem Staffed.advanceRuntime (staffed : Staffed tickets w) (ready : w.ready = []) {steps fuel target : Nat}
    (enough : 13 ≤ steps) (roomy : 4 * tickets.length ≤ steps) (fueled : w.sleeping.length < fuel) (ahead : w.now ≤ target) :
    Passed tickets (within w.now target) nobody w (World.advanceRuntime steps fuel w target) ∧
      (World.advanceRuntime steps fuel w target).ready = [] ∧ (World.advanceRuntime steps fuel w target).now = target := by
  induction fuel generalizing w with
  | zero => exact absurd fueled (Nat.not_lt_zero _)
  | succ fuel ih =>
    unfold World.advanceRuntime
    split
    next none =>
      have asleep := World.nextWaking_eq_none_iff.mp none
      rw [← World.wakeAt_quiet asleep]
      refine ⟨.wakeAt staffed.orderly ready ahead fun alarm member => Nat.le_of_lt (asleep alarm member), ?_,
        Nat.max_eq_right ahead⟩
      rw [World.wakeAt_quiet asleep]
      exact ready
    next tick next =>
      obtain ⟨inside, least, alarm, asleep, due⟩ := World.nextWaking_eq_some_iff.mp next
      have forward : w.now ≤ tick := by
        have later := staffed.orderly.later alarm asleep
        omega
      have woken : Passed tickets (within w.now target) nobody w (w.wakeAt tick) := .wakeAt staffed.orderly ready forward least
      have now : (w.wakeAt tick).now = tick := Nat.max_eq_right forward
      have light : load (w.wakeAt tick) ≤ steps := by
        have few : (w.wakeAt tick).ready.length ≤ 2 * tickets.length := by
          rw [show (w.wakeAt tick).ready = w.ready ++ _ from rfl, ready, List.nil_append, List.length_map]
          exact Nat.le_trans (List.length_filter_le _ _) staffed.orderly.few
        have tracked := woken.orderly.tracked_le
        unfold load
        omega
      obtain ⟨settled, none, still, sleeping⟩ := (woken.staffed staffed).settle enough light
      have fewer : ((w.wakeAt tick).settle steps).sleeping.length < fuel := by
        rw [sleeping]
        have shorter : (w.sleeping.filter fun alarm => !decide (alarm.1 ≤ tick)).length < w.sleeping.length :=
          List.length_filter_lt_length_iff_exists.mpr ⟨alarm, asleep, by simp [due]⟩
        have same : (w.wakeAt tick).sleeping = w.sleeping.filter fun alarm => !decide (alarm.1 ≤ tick) := rfl
        rw [same]
        omega
      obtain ⟨later, none, reached⟩ := ih (settled.staffed (woken.staffed staffed)) none fewer
        (by rw [still, now]; exact inside)
      refine ⟨(woken.trans (settled.widen (by omega) (by omega))).trans (later.widen ?_ (Nat.le_refl _)), none, reached⟩
      rw [still, now]
      exact forward

end Deferral.Http
