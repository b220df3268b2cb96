import Deferral.Proofs.ExactTimeouts
import Deferral.Proofs.TimerFates

/-! The order in which the timers of a runtime fire. Turns are taken in the order of the ticks at which they
are due, and those of one tick in the order of scheduling, whatever callbacks schedule and disarm. -/

namespace Deferral.Simulation

def Task.timer? : Task → Option Nat
  | .timer id => some id
  | _ => none

def turns (tasks : List Task) : List Nat := tasks.filterMap (·.timer?)

theorem mem_turns {tasks : List Task} {id : Nat} : id ∈ turns tasks ↔ .timer id ∈ tasks := by
  rw [turns, List.mem_filterMap]
  constructor
  · rintro ⟨task, member, same⟩
    cases task <;> cases same
    exact member
  · exact fun member => ⟨_, member, rfl⟩

theorem turns_append (tasks more : List Task) : turns (tasks ++ more) = turns tasks ++ turns more :=
  List.filterMap_append

theorem turns_waiters (woken : List Nat) : turns (woken.map .waiter) = [] := by
  simp [turns, Task.timer?]

/-- A tick and a timer, before another. -/
def Sooner (a b : Nat × Nat) : Prop := a.1 < b.1 ∨ a.1 = b.1 ∧ a.2 < b.2

theorem Scheduling.due_eq_some {s : Scheduling} {tick : Nat} (due : s.due = some tick) :
    tick = s.tick + (s.after.totalNanos + 999999) / 1000000 := (Drive.due_runtime due).1

namespace Pool

variable {m moments : List Moment} {moment : Moment} {p q : Pool}
variable {w : World} {before after : List Thread} {t : Thread} {work : Work} {rest : List Work}

/-- Turns stand in the order of scheduling, and the one that is to be had now comes first. -/
structure Queued (p : Pool) : Prop where
  sleeping : (turns (p.world.sleeping.map Prod.snd)).Pairwise (· < ·)
  ready : (turns p.world.ready).Pairwise (· < ·)
  first : ∀ id, .timerDue id ∈ p.works → ∀ other ∈ turns p.world.ready, id < other
  one : ∀ id other, .timerDue id ∈ p.works → .timerDue other ∈ p.works → id = other

namespace Queued

theorem initial : Queued (start .runtime) := by
  constructor
  case sleeping => exact .nil
  case ready => exact .nil
  case first =>
    intro id member
    cases member
  case one =>
    intro id other member
    cases member

private theorem kept_turn (stack : t.stack = work :: rest) {id : Nat}
    (member : .timerDue id ∈ (Pool.mk (step w t).1 (before ++ (step w t).2 :: after)).works) :
    .timerDue id ∈ (Pool.mk w (before ++ t :: after)).works := by
  rcases mem_works_run.mp member with other | here
  · exact mem_works_run.mpr (.inl other)
  · exact mem_works_here stack (List.mem_cons_of_mem _ ((step_effect (w := w) stack).keeps_turns here))

theorem start {threads : List Thread} {task : Task} {others : List Task} (queued : Queued ⟨w, threads⟩)
    (ready : w.ready = task :: others) (alone : ∀ id, .timerDue id ∉ (Pool.mk w threads).works) :
    Queued ⟨{ w with ready := others }, threads ++ [task.thread]⟩ := by
  have taken {id : Nat} (member : .timerDue id ∈ (Pool.mk { w with ready := others } (threads ++ [task.thread])).works) :
      task = .timer id := by
    simp only [works, List.flatMap_append, List.flatMap_singleton, List.mem_append] at member
    rcases member with old | new
    · exact absurd old (alone id)
    · cases task <;> simp_all [Task.thread]
  have sorted := queued.ready
  rw [ready, ← List.singleton_append, turns_append] at sorted
  obtain ⟨-, rest, apart⟩ := List.pairwise_append.mp sorted
  refine ⟨queued.sleeping, rest, ?_, ?_⟩
  · intro id member other waits
    rw [taken member] at apart
    exact apart id (List.mem_singleton.mpr rfl) other waits
  · intro id other member second
    have same := (taken member).symm.trans (taken second)
    cases same
    rfl

theorem wake {threads : List Thread} (queued : Queued ⟨w, threads⟩) (tick : Nat) (still : ∀ t ∈ threads, t.stack = [])
    (idle : w.ready = []) : Queued ⟨w.wakeAt tick, threads⟩ := by
  have none (f : Work) : f ∉ (Pool.mk w threads).works := by
    rw [Settled.works_nil ⟨still, idle⟩]
    exact List.not_mem_nil
  have sublist (kept : Nat × Task → Bool) : (turns ((w.sleeping.filter kept).map Prod.snd)).Pairwise (· < ·) :=
    queued.sleeping.sublist ((List.filter_sublist.map _).filterMap _)
  refine ⟨sublist _, ?_, fun id member => absurd member (none _), fun id other member => absurd member (none _)⟩
  show (turns (w.ready ++ _)).Pairwise (· < ·)
  rw [idle, List.nil_append]
  exact sublist _

private theorem steady_preserves (queued : Queued ⟨w, before ++ t :: after⟩) (stack : t.stack = work :: rest)
    (steady : Steady w (step w t).1) : Queued ⟨(step w t).1, before ++ (step w t).2 :: after⟩ := by
  obtain ⟨woken, ready⟩ := steady.ready
  have same : turns (step w t).1.ready = turns w.ready := by
    rw [ready, turns_append, turns_waiters, List.append_nil]
  constructor
  case sleeping =>
    rw [steady.sleeping]
    exact queued.sleeping
  case ready =>
    rw [same]
    exact queued.ready
  case first =>
    intro id member
    rw [same]
    exact queued.first id (kept_turn stack member)
  case one =>
    intro id other member second
    exact queued.one id other (kept_turn stack member) (kept_turn stack second)

private theorem scheduled_preserves {h : History} (queued : Queued ⟨w, before ++ t :: after⟩) (driven : Driven ⟨w, before ++ t :: after⟩)
    (punctual : Punctual h ⟨w, before ++ t :: after⟩) (stack : t.stack = work :: rest) {window : Duration}
    {callback : Callback} (scheduled : Scheduled w window callback (step w t).1) :
    Queued ⟨(step w t).1, before ++ (step w t).2 :: after⟩ := by
  obtain ⟨sleeping, ready⟩ := scheduled.tasks driven.runtime
  have older {id tick : Nat} (due : w.timers.due? id = some tick) : id < w.timers.list.length + 1 :=
    Nat.lt_succ_of_le (Timers.due?_le due)
  have asleep : ∀ id ∈ turns (w.sleeping.map Prod.snd), id < w.timers.list.length + 1 := by
    intro id member
    obtain ⟨⟨tick, task⟩, sleeps, rfl⟩ := List.mem_map.mp (mem_turns.mp member)
    exact older (punctual.sleepers tick id sleeps)
  have waiting : ∀ id ∈ turns w.ready, id < w.timers.list.length + 1 := by
    intro id member
    exact older (punctual.turns id (.inl (mem_turns.mp member)))
  have last {ids : List Nat} (sorted : ids.Pairwise (· < ·)) (below : ∀ id ∈ ids, id < w.timers.list.length + 1) :
      (ids ++ [w.timers.list.length + 1]).Pairwise (· < ·) := by
    refine List.pairwise_append.mpr ⟨sorted, List.pairwise_singleton .., ?_⟩
    intro id member new same
    rw [List.mem_singleton.mp same]
    exact below id member
  have tasks : (turns ((step w t).1.sleeping.map Prod.snd) = turns (w.sleeping.map Prod.snd) ∨
        turns ((step w t).1.sleeping.map Prod.snd) = turns (w.sleeping.map Prod.snd) ++ [w.timers.list.length + 1]) ∧
      (turns (step w t).1.ready = turns w.ready ∨ turns (step w t).1.ready = turns w.ready ++ [w.timers.list.length + 1]) := by
    rw [sleeping, ready]
    unfold World.sleepUntil
    split
    · exact ⟨.inl rfl, .inl rfl⟩
    · split
      · exact ⟨.inl rfl, .inr (turns_append ..)⟩
      · refine ⟨.inr ?_, .inl rfl⟩
        rw [List.map_append, turns_append]
        rfl
  refine ⟨?_, ?_, ?_, ?_⟩
  · rcases tasks.1 with same | new
    · rw [same]
      exact queued.sleeping
    · rw [new]
      exact last queued.sleeping asleep
  · rcases tasks.2 with same | new
    · rw [same]
      exact queued.ready
    · rw [new]
      exact last queued.ready waiting
  · intro id member other waits
    have turn := kept_turn stack member
    rcases tasks.2 with same | new
    · rw [same] at waits
      exact queued.first id turn other waits
    · rw [new] at waits
      rcases List.mem_append.mp waits with old | new
      · exact queued.first id turn other old
      · rw [List.mem_singleton.mp new]
        exact older (punctual.turns id (.inr turn))
  · intro id other member second
    exact queued.one id other (kept_turn stack member) (kept_turn stack second)

theorem of_course (course : Course m p) : Queued p := by
  induction course with
  | begin => exact initial
  | step past next queued =>
    cases next with
    | start ready alone => exact queued.start ready alone
    | wake tick still idle => exact queued.wake tick still idle
    | @call w threads t action stack =>
      have old {id : Nat} (member : .timerDue id ∈ (Pool.mk w (threads ++ [t])).works) : .timerDue id ∈ (Pool.mk w threads).works := by
        simpa [works, List.flatMap_append, stack] using member
      exact ⟨queued.sleeping, queued.ready, fun id member => queued.first id (old member),
        fun id other member second => queued.one id other (old member) (old second)⟩
    | run stack allowed =>
      obtain ⟨h, punctual⟩ := past.punctual
      rcases (step_effect stack).steady with steady | ⟨window, callback, scheduled, -⟩
      · exact queued.steady_preserves stack steady
      · exact queued.scheduled_preserves past.driven punctual stack scheduled

end Queued

/-- Of the timers that are armed, the one whose turn it is was due first. -/
theorem turn_first (course : Course m p) {id : Nat} (turn : .timerDue id ∈ p.works) :
    p.world.timers.due? id = some p.world.now ∧ ∀ other due, p.world.timers.isArmed other = true → other ≠ id →
      p.world.timers.due? other = some due → Sooner (p.world.now, id) (due, other) := by
  obtain ⟨h, punctual⟩ := course.punctual
  have queued := Queued.of_course course
  refine ⟨punctual.turns id (.inr turn), ?_⟩
  intro other due armed apart found
  rcases punctual.waits other due armed found with sleeps | ⟨now, waits | second⟩
  · exact .inl (punctual.asleep _ sleeps)
  · exact .inr ⟨now.symm, queued.first id turn other (mem_turns.mpr waits)⟩
  · exact absurd (queued.one other id second turn) apart

/-- The timers that have fired did so one after the other, and before all that are armed. -/
structure Sequenced (m : List Moment) (p : Pool) : Prop where
  past : ∀ firing ∈ firings m, firing.1 ≤ p.world.now
  dues : ∀ firing ∈ firings m, p.world.timers.due? firing.2 = some firing.1
  ahead : ∀ firing ∈ firings m, ∀ id due, p.world.timers.isArmed id = true → p.world.timers.due? id = some due →
    Sooner firing (due, id)
  ordered : (firings m).Pairwise Sooner

namespace Sequenced

theorem initial : Sequenced [] (Pool.start .runtime) := by
  refine ⟨?_, ?_, ?_, .nil⟩
  all_goals
    intro firing member
    cases member

theorem mono {threads : List Thread} (sequenced : Sequenced m p) (silent : firings moments = [])
    (now : p.world.now ≤ w.now) (dues : ∀ id, w.timers.due? id = p.world.timers.due? id)
    (armed : ∀ id, w.timers.isArmed id = true → p.world.timers.isArmed id = true) :
    Sequenced (m ++ moments) ⟨w, threads⟩ := by
  have same : firings (m ++ moments) = firings m := by
    rw [firings, List.filterMap_append]
    exact (congrArg (firings m ++ ·) silent).trans (List.append_nil _)
  constructor
  case past =>
    rw [same]
    exact fun firing fired => Nat.le_trans (sequenced.past firing fired) now
  case dues =>
    rw [same]
    exact fun firing fired => (dues _).trans (sequenced.dues firing fired)
  case ahead =>
    rw [same]
    intro firing fired id due live found
    rw [dues] at found
    exact sequenced.ahead firing fired id due (armed id live) found
  case ordered =>
    rw [same]
    exact sequenced.ordered

private theorem schedules_preserves {s : Scheduling} {threads : List Thread} (sequenced : Sequenced m p)
    (silent : moment.fires? = none) (now : w.now = p.world.now) (tick : s.tick = p.world.now)
    (timers : w.timers = (p.world.timers.schedule s.after s.due s.callback).1) : Sequenced (m ++ [moment]) ⟨w, threads⟩ := by
  have same : firings (m ++ [moment]) = firings m := by simp [firings, silent]
  constructor
  case past =>
    rw [same, now]
    exact sequenced.past
  case dues =>
    rw [same, timers]
    intro firing fired
    exact Timers.due?_schedule_of_some (sequenced.dues firing fired)
  case ahead =>
    rw [same, timers]
    intro firing fired id due armed found
    rw [Timers.due?_schedule] at found
    split at found
    next new =>
      have reached := sequenced.past firing fired
      have older := Timers.due?_le (sequenced.dues firing fired)
      have ahead := Scheduling.due_eq_some found
      by_cases later : firing.1 < due
      · exact .inl later
      · exact .inr ⟨by omega, by omega⟩
    next old =>
      rw [Timers.isArmed_schedule, beq_false_of_ne old] at armed
      exact sequenced.ahead firing fired id due armed found
  case ordered =>
    rw [same]
    exact sequenced.ordered

private theorem run_preserves {place : Nat} (course : Course m ⟨w, before ++ t :: after⟩)
    (sequenced : Sequenced m ⟨w, before ++ t :: after⟩) (stack : t.stack = work :: rest) (allowed : Unforced w t) :
    Sequenced (m ++ [⟨place, w, t⟩]) ⟨(step w t).1, before ++ (step w t).2 :: after⟩ := by
  have now : (step w t).1.now = w.now := (step_effect (w := w) stack).clock.2
  cases course.deed place stack allowed with
  | @schedules s told disarms fires timers goes =>
    refine sequenced.schedules_preserves fires now ?_ timers
    simp only [Moment.schedules?, stack, List.head?_cons, Option.bind_some] at told
    exact Work.tick_of_schedules told
  | disarms id schedules told fires timers =>
    refine sequenced.mono (by simp [firings, fires]) (Nat.le_of_eq now.symm) ?_ ?_ <;> intro other
    · rw [show (step w t).1.timers = _ from timers, Timers.due?_disarm]
    · rw [show (step w t).1.timers = _ from timers, Timers.isArmed_disarm, Bool.and_eq_true]
      exact And.right
  | idle schedules disarms fires timers =>
    refine sequenced.mono (by simp [firings, fires]) (Nat.le_of_eq now.symm) ?_ ?_ <;> intro other
    · rw [show (step w t).1.timers = _ from timers]
    · rw [show (step w t).1.timers = _ from timers]
      exact fun armed => armed
  | @fires id timer schedules disarms told turn found armed timers goes =>
    have timers : (step w t).1.timers = w.timers.spend id := timers
    have live : w.timers.isArmed id = true := (Timers.isArmed_found found).trans armed
    obtain ⟨due, first⟩ := turn_first course (mem_works_here stack (by rw [turn]; exact List.mem_cons_self ..))
    have same : firings (m ++ [⟨place, w, t⟩]) = firings m ++ [(w.now, id)] := by simp [firings, told]
    have split {P : Nat × Nat → Prop} (old : ∀ firing ∈ firings m, P firing) (new : P (w.now, id)) :
        ∀ firing ∈ firings (m ++ [⟨place, w, t⟩]), P firing := by
      rw [same]
      intro firing member
      rcases List.mem_append.mp member with earlier | here
      · exact old firing earlier
      · rw [List.mem_singleton.mp here]
        exact new
    have unspent {other : Nat} (armed : (step w t).1.timers.isArmed other = true) :
        other ≠ id ∧ w.timers.isArmed other = true := by
      rw [timers, Timers.isArmed_spend, Bool.and_eq_true, bne_iff_ne] at armed
      exact ⟨armed.1.symm, armed.2⟩
    constructor
    case past =>
      rw [now]
      exact split sequenced.past (Nat.le_refl _)
    case dues =>
      rw [timers]
      refine split (fun firing fired => ?_) ?_
      · rw [Timers.due?_spend]
        exact sequenced.dues firing fired
      · rw [Timers.due?_spend]
        exact due
    case ahead =>
      refine split (fun firing fired other tick armed => ?_) (fun other tick armed => ?_)
      · rw [timers, Timers.due?_spend]
        exact sequenced.ahead firing fired other tick (unspent armed).2
      · rw [timers, Timers.due?_spend]
        exact first other tick (unspent armed).2 (unspent armed).1
    case ordered =>
      rw [same]
      refine List.pairwise_append.mpr ⟨sequenced.ordered, List.pairwise_singleton .., ?_⟩
      intro firing fired last here
      rw [List.mem_singleton.mp here]
      exact sequenced.ahead firing fired id w.now live due

theorem of_course (course : Course m p) : Sequenced m p := by
  induction course with
  | begin => exact initial
  | step past next sequenced =>
    cases next with
    | call | start => exact sequenced.mono rfl (Nat.le_refl _) (fun _ => rfl) fun _ armed => armed
    | wake tick still idle later => exact sequenced.mono rfl (Nat.le_max_left ..) (fun _ => rfl) fun _ armed => armed
    | run stack allowed => exact sequenced.run_preserves past stack allowed

end Sequenced

/-- What one step does, as what went before it says. -/
structure Lawful (past : List Moment) (moment : Moment) (work : Work) (rest : List Work) : Prop where
  /-- The n-th timer that is scheduled is handed out under the number n. -/
  numbered : ∀ s, moment.schedules? = some s →
    moment.next.2.stack = work.receives ((schedulings past).length + 1) ++ rest
  disarmed : ∀ id, work.disarms? = some id →
    ∃ armed, moment.disarms? = some (id, armed) ∧ (armed = true ↔ Outstanding past id)
  /-- A timer that fires runs its callback, and nothing that is outstanding was due before it. -/
  fired : ∀ tick id, moment.fires? = some (tick, id) → Outstanding past id ∧
    (∃ s, scheduled? past id = some s ∧ moment.next.2.stack = s.callback.work id ++ rest) ∧
    ∀ other s due, Outstanding past other → other ≠ id → scheduled? past other = some s → s.due = some due →
      Sooner (tick, id) (due, other)

theorem Course.lawful {past later : List Moment} (course : Course (past ++ moment :: later) p) :
    ∃ work rest, moment.thread.stack = work :: rest ∧ Lawful past moment work rest := by
  obtain ⟨before, after, work, rest, earlier, stack, allowed⟩ := course.cut
  have booked := Booked.of_course earlier
  obtain ⟨place, w, t⟩ := moment
  refine ⟨work, rest, stack, ?_⟩
  have deed : Deed ⟨place, w, t⟩ work rest := earlier.deed place stack allowed
  constructor
  case numbered =>
    intro s schedules
    cases deed with
    | schedules told disarms fires timers goes =>
      rw [← booked.length]
      exact goes
    | disarms _ none | fires none | idle none =>
      rw [none] at schedules
      cases schedules
  case disarmed =>
    intro id disarms
    obtain ⟨told, -⟩ := disarms_told place earlier.driven.runtime stack disarms
    exact ⟨_, told, booked.armed_iff id⟩
  case fired =>
    intro tick id fires
    cases deed with
    | @fires id timer schedules disarms told turn found armed timers goes =>
      rw [told] at fires
      cases fires
      have live : w.timers.isArmed id = true := (Timers.isArmed_found found).trans armed
      obtain ⟨-, first⟩ := turn_first earlier (mem_works_here stack (by rw [turn]; exact List.mem_cons_self ..))
      have callback : (scheduled? past id).map (·.callback) = some timer.callback := by
        rw [← booked.callbacks, Timers.callback?, show w.timers.get? id = some timer from found]
        rfl
      obtain ⟨s, given, same⟩ := Option.map_eq_some_iff.mp callback
      refine ⟨(booked.armed_iff id).mp live, ⟨s, given, same ▸ goes⟩, ?_⟩
      intro other s due outstanding apart given due
      refine first other _ ((booked.armed_iff other).mpr outstanding) apart ?_
      rw [booked.dues, given, Option.bind_some]
      exact due
    | schedules _ _ none | disarms _ _ _ none | idle _ _ none =>
      rw [none] at fires
      cases fires

/-- What a runtime's timers come to. -/
structure InDueOrder (m : List Moment) (p : Pool) : Prop where
  /-- Of each timer that was handed out, and of no other, the callback ran once, or one call that disarmed it
  answered so, or it is armed. -/
  fates : ∀ id, (firings m).countP (·.2 == id) + (disarmings m).countP (· == (id, true)) +
    (p.world.timers.isArmed id).toNat = if 0 < id ∧ id ≤ (schedulings m).length then 1 else 0
  armed : p.world.timers.armed = (List.range' 1 (schedulings m).length).countP p.world.timers.isArmed
  lawful : ∀ past moment later, m = past ++ moment :: later →
    ∃ work rest, moment.thread.stack = work :: rest ∧ Lawful past moment work rest
  /-- A timer fires when its delay, in milliseconds rounded up, is over. -/
  timely : ∀ tick id, (tick, id) ∈ firings m →
    ∃ s, scheduled? m id = some s ∧ tick = s.tick + (s.after.totalNanos + 999999) / 1000000
  ordered : (firings m).Pairwise Sooner
  /-- The clock passes no tick at which an armed timer is due. -/
  unskipped : ∀ id s tick, p.world.timers.isArmed id = true → scheduled? m id = some s → s.due = some tick →
    p.world.now ≤ tick ∧ (p.Settled → p.world.now < tick)

/-- Whatever callbacks and clients schedule and disarm, and when: every timer of a runtime has fired, was
disarmed or is armed, and the timers that fire do so when they are due and in that order. -/
theorem fired_in_due_order (course : Course m p) : InDueOrder m p := by
  have booked := Booked.of_course course
  have sequenced := Sequenced.of_course course
  obtain ⟨h, punctual⟩ := course.punctual
  constructor
  case fates =>
    intro id
    have fates := booked.fates id
    rw [spent] at fates
    rw [fates]
    split
    next given => rw [scheduled?_isSome.mpr given, Bool.toNat_true]
    next unknown => rw [Bool.eq_false_iff.mpr (mt scheduled?_isSome.mp unknown), Bool.toNat_false]
  case armed =>
    rw [Timers.armed_eq_countP, booked.length]
  case lawful =>
    rintro past moment later rfl
    exact course.lawful
  case timely =>
    intro tick id fired
    have due := sequenced.dues _ fired
    rw [booked.dues] at due
    obtain ⟨s, given, due⟩ := Option.bind_eq_some_iff.mp due
    exact ⟨s, given, Scheduling.due_eq_some due⟩
  case ordered => exact sequenced.ordered
  case unskipped =>
    intro id s tick armed given due
    have found : p.world.timers.due? id = some tick := by
      rw [booked.dues, given, Option.bind_some]
      exact due
    rcases punctual.waits id tick armed found with sleeps | ⟨now, turn⟩
    · have later := punctual.asleep _ sleeps
      exact ⟨Nat.le_of_lt later, fun _ => later⟩
    · refine ⟨Nat.le_of_eq now.symm, fun settled => ?_⟩
      rw [settled.idle, settled.works_nil] at turn
      rcases turn with ready | works
      · cases ready
      · cases works

private theorem Course.goes (before after : List Thread) (course : Course m ⟨w, before ++ t :: after⟩)
    (stack : t.stack = work :: rest) (allowed : Unforced w t) :
    Course (m ++ [⟨before.length, w, t⟩]) ⟨(Simulation.step w t).1, before ++ (Simulation.step w t).2 :: after⟩ :=
  .step course (.run stack allowed)

private theorem Course.calls {threads : List Thread} (course : Course m ⟨w, threads⟩) (action : Action) :
    Course (m ++ []) ⟨w, threads ++ [{ stack := [.call action] }]⟩ :=
  .step course (.call rfl)

private theorem Course.starts {threads : List Thread} {task : Task} {others : List Task} (course : Course m ⟨w, threads⟩)
    (ready : w.ready = task :: others) (still : threads.all (·.stack.isEmpty) = true) :
    Course (m ++ []) ⟨{ w with ready := others }, threads ++ [task.thread]⟩ := by
  refine .step course (.start ready fun id member => ?_)
  obtain ⟨t, inside, turn⟩ := List.mem_flatMap.mp member
  rw [List.isEmpty_iff.mp (List.all_eq_true.mp still t inside)] at turn
  cases turn

private theorem Course.wakes {threads : List Thread} (course : Course m ⟨w, threads⟩) (tick : Nat)
    (still : threads.all (·.stack.isEmpty) = true) (idle : w.ready = []) (later : w.now ≤ tick)
    (next : w.sleeping.all (fun entry => decide (tick ≤ entry.1)) = true) : Course (m ++ []) ⟨w.wakeAt tick, threads⟩ := by
  refine .step course (.wake tick (fun t member => ?_) idle later fun entry member => ?_)
  · exact List.isEmpty_iff.mp (List.all_eq_true.mp still t member)
  · exact of_decide_eq_true (List.all_eq_true.mp next entry member)

/-- Three timers are due at one tick. The callback of the first disarms the second and schedules a fourth
without a delay, which fires behind the third. -/
theorem fired_in_due_order_nested : ∃ m p, Course m p ∧ InDueOrder m p ∧ firings m = [(1, 1), (1, 3), (1, 4)] ∧
    disarmings m = [(2, true)] := by
  have first := ((Course.begin.calls (.schedule (.ofMillis 1) [.disarm 2, .schedule .zero []])).goes [] [] rfl trivial).goes
    [] [] rfl trivial
  have second := ((first.calls (.schedule (.ofMillis 1) [])).goes [_] [] rfl trivial).goes [_] [] rfl trivial
  have third := ((second.calls (.schedule (.ofMicros 1) [])).goes [_, _] [] rfl trivial).goes [_, _] [] rfl trivial
  have woken := third.wakes 1 rfl rfl (Nat.zero_le 1) (by decide +kernel)
  have turn := ((woken.starts rfl rfl).goes [_, _, _] [] rfl trivial).goes [_, _, _] [] rfl trivial
  have disarmed := (turn.goes [_, _, _] [] rfl (by intro r window generation found; cases found)).goes [_, _, _] [] rfl trivial
  have nested := ((disarmed.goes [_, _, _] [] rfl trivial).goes [_, _, _] [] rfl trivial).goes [_, _, _] [] rfl trivial
  have ended := (nested.goes [_, _, _] [] rfl trivial).goes [_, _, _] [] rfl trivial
  have silent := (ended.starts rfl rfl).goes [_, _, _, _] [] rfl trivial
  have next := ((silent.starts rfl rfl).goes [_, _, _, _, _] [] rfl trivial).goes [_, _, _, _, _] [] rfl trivial
  have last := (next.starts rfl rfl).goes [_, _, _, _, _, _] [] rfl trivial
  exact ⟨_, _, last, fired_in_due_order last, rfl, rfl⟩

end Pool
end Deferral.Simulation
