import Deferral.Proofs.Chronicle
import Deferral.Proofs.Punctuality

/-! What becomes of the timers of a runtime that takes one timer's turn after the other. A course tells its
steps moment by moment; from these alone one reads which timers were scheduled, which calls disarmed one,
and which callbacks ran, and each timer has just one of the three fates there are. -/

namespace Deferral.Simulation

/-- A timer as it was scheduled. -/
structure Scheduling where
  tick : Nat
  after : Duration
  callback : Callback

def Scheduling.due (s : Scheduling) : Option Nat := Drive.runtime.due s.tick s.after

/-- The timer that some work schedules when it is done at a tick. -/
def Work.schedules? (now : Nat) : Work → Option Scheduling
  | .arm r arming => some ⟨now, arming.window, .expire r arming.window arming.generation⟩
  | .call (.schedule after body) => some ⟨now, after, .script body⟩
  | _ => none

/-- What is left to do with the number of the timer that was scheduled. -/
def Work.receives (id : Nat) : Work → List Work
  | .arm r arming => [.request r (.keepTimer id arming.generation)]
  | .call (.schedule _ _) => [.answer (.number id)]
  | _ => []

def Work.disarms? : Work → Option Nat
  | .disarm id | .call (.disarm id) => some id
  | _ => none

/-- The timer that fires in some work, if it does. -/
def Work.turn? : Work → Option Nat
  | .timerDue id | .fireInline id | .call (.fire id _) => some id
  | _ => none

namespace Moment

def next (moment : Moment) : World × Thread := step moment.world moment.thread

def schedules? (moment : Moment) : Option Scheduling :=
  moment.thread.stack.head?.bind (·.schedules? moment.world.now)

def disarms? (moment : Moment) : Option (Nat × Bool) :=
  match moment.thread.stack.head?.bind (·.disarms?), moment.next.2.result with
  | some id, .flag armed => some (id, armed)
  | _, _ => none

/-- The timer whose callback begins to run, with the tick. A turn that leaves nothing to do runs none. -/
def fires? (moment : Moment) : Option (Nat × Nat) :=
  if moment.next.2.stack.length < moment.thread.stack.length then none
  else (moment.thread.stack.head?.bind (·.turn?)).map (moment.world.now, ·)

end Moment

def schedulings (m : List Moment) : List Scheduling := m.filterMap (·.schedules?)

def disarmings (m : List Moment) : List (Nat × Bool) := m.filterMap (·.disarms?)

def firings (m : List Moment) : List (Nat × Nat) := m.filterMap (·.fires?)

def scheduled? (m : List Moment) (id : Nat) : Option Scheduling :=
  if id = 0 then none else (schedulings m)[id - 1]?

/-- How often the callback of a timer ran, and how often it was disarmed before it could. -/
def spent (m : List Moment) (id : Nat) : Nat := (firings m).countP (·.2 == id) + (disarmings m).countP (· == (id, true))

/-- A timer that was handed out, of which neither is so yet. -/
def Outstanding (m : List Moment) (id : Nat) : Prop := (scheduled? m id).isSome = true ∧ spent m id = 0

section Readings

variable {m : List Moment} {moment : Moment} {id : Nat}

theorem scheduled?_isSome : (scheduled? m id).isSome = true ↔ 0 < id ∧ id ≤ (schedulings m).length := by
  unfold scheduled?
  split
  · simp_all
  · rw [isSome_getElem?]
    omega

theorem scheduled?_concat {s : Scheduling} (told : moment.schedules? = some s) :
    scheduled? (m ++ [moment]) id = if id = (schedulings m).length + 1 then some s else scheduled? m id := by
  unfold scheduled? schedulings
  rw [List.filterMap_append, List.filterMap_cons_some told, List.filterMap_nil]
  by_cases none : id = 0
  · simp [none]
  · rw [if_neg none, List.getElem?_append, if_neg none]
    by_cases new : id = (m.filterMap (·.schedules?)).length + 1
    · simp [new]
    · rw [if_neg new]
      split
      · rfl
      · rw [List.getElem?_eq_none (by simp; omega), List.getElem?_eq_none (by omega)]

theorem scheduled?_silent (silent : moment.schedules? = none) : scheduled? (m ++ [moment]) id = scheduled? m id := by
  unfold scheduled? schedulings
  rw [List.filterMap_append, List.filterMap_cons_none silent, List.filterMap_nil, List.append_nil]

theorem spent_concat : spent (m ++ [moment]) id =
    spent m id + (if moment.fires?.any (·.2 == id) then 1 else 0) + if moment.disarms? = some (id, true) then 1 else 0 := by
  unfold spent firings disarmings
  simp only [List.filterMap_append, List.countP_append]
  have fires : (List.filterMap Moment.fires? [moment]).countP (·.2 == id) =
      if moment.fires?.any (·.2 == id) then 1 else 0 := by
    cases told : moment.fires? with
    | none => simp [told]
    | some firing => simp [told, List.countP_cons]
  have disarms : (List.filterMap Moment.disarms? [moment]).countP (· == (id, true)) =
      if moment.disarms? = some (id, true) then 1 else 0 := by
    cases told : moment.disarms? with
    | none => simp [told]
    | some disarming => simp [told, List.countP_cons]
  rw [fires, disarms]
  omega

end Readings

/-- What the step of a moment does to the timers, as it is read. -/
inductive Deed (moment : Moment) (work : Work) (rest : List Work) : Prop where
  | schedules {s} (told : moment.schedules? = some s) (disarms : moment.disarms? = none) (fires : moment.fires? = none)
      (timers : moment.next.1.timers = (moment.world.timers.schedule s.after s.due s.callback).1)
      (goes : moment.next.2.stack = work.receives (moment.world.timers.list.length + 1) ++ rest)
  | disarms (id : Nat) (schedules : moment.schedules? = none)
      (told : moment.disarms? = some (id, moment.world.timers.isArmed id)) (fires : moment.fires? = none)
      (timers : moment.next.1.timers = moment.world.timers.disarm id)
  | fires {id timer} (schedules : moment.schedules? = none) (disarms : moment.disarms? = none)
      (told : moment.fires? = some (moment.world.now, id)) (turn : work = .timerDue id)
      (found : moment.world.timers.get? id = some timer) (armed : timer.armed = true)
      (timers : moment.next.1.timers = moment.world.timers.spend id)
      (goes : moment.next.2.stack = timer.callback.work id ++ rest)
  | idle (schedules : moment.schedules? = none) (disarms : moment.disarms? = none) (fires : moment.fires? = none)
      (timers : moment.next.1.timers = moment.world.timers)

theorem Callback.work_ne_nil (id : Nat) (callback : Callback) : callback.work id ≠ [] := by
  cases callback <;> simp [Callback.work]

theorem Work.schedules?_eq_some {now : Nat} {work : Work} {s : Scheduling} (schedules : work.schedules? now = some s) :
    (∃ r arming, work = .arm r arming ∧ s = ⟨now, arming.window, .expire r arming.window arming.generation⟩) ∨
      ∃ after body, work = .call (.schedule after body) ∧ s = ⟨now, after, .script body⟩ := by
  unfold schedules? at schedules
  split at schedules <;> cases schedules
  · exact .inl ⟨_, _, rfl, rfl⟩
  · exact .inr ⟨_, _, rfl, rfl⟩

theorem Work.tick_of_schedules {now : Nat} {work : Work} {s : Scheduling} (schedules : work.schedules? now = some s) :
    s.tick = now := by
  rcases schedules?_eq_some schedules with ⟨r, arming, -, rfl⟩ | ⟨after, body, -, rfl⟩ <;> rfl

theorem Work.disarms?_eq_some {work : Work} {id : Nat} (disarms : work.disarms? = some id) :
    work = .disarm id ∨ work = .call (.disarm id) := by
  unfold disarms? at disarms
  split at disarms <;> cases disarms
  · exact .inl rfl
  · exact .inr rfl

theorem Effect.keeps_timers {before after : World} {work : Work} {rest stack : List Work}
    (effect : Effect before work rest after stack) (schedules : work.schedules? before.now = none)
    (disarms : work.disarms? = none) (turn : work.turn? = none) : after.timers = before.timers := by
  cases effect with
  | refused _ _ _ _ timers | granted _ _ _ _ timers | created _ timers | unwound _ timers
  | quiet _ _ _ _ _ _ timers => exact timers
  | armed | scheduled => cases schedules
  | disarmed asks => rcases asks with rfl | rfl <;> cases disarms
  | fired asks => rcases asks with ⟨rfl | rfl, -⟩ | ⟨force, rfl⟩ <;> cases turn

section Deeds

variable (place : Nat) {w : World} {t : Thread} {work : Work} {rest : List Work}

private theorem disarms?_none (stack : t.stack = work :: rest) (silent : work.disarms? = none) :
    (Moment.mk place w t).disarms? = none := by
  simp [Moment.disarms?, stack, silent]

private theorem fires?_none (stack : t.stack = work :: rest) (silent : work.turn? = none) :
    (Moment.mk place w t).fires? = none := by
  simp [Moment.fires?, stack, silent]

theorem schedules_deed {s : Scheduling} (runtime : w.drive = .runtime) (stack : t.stack = work :: rest)
    (schedules : work.schedules? w.now = some s) : Deed ⟨place, w, t⟩ work rest := by
  have told : (Moment.mk place w t).schedules? = some s := by simp [Moment.schedules?, stack, schedules]
  obtain ⟨performs, tick, disarms, turn⟩ : step w t = w.schedule { t with stack := rest } s.after s.callback (work.receives ·) ∧
      s.tick = w.now ∧ work.disarms? = none ∧ work.turn? = none := by
    unfold step
    rw [stack]
    rcases Work.schedules?_eq_some schedules with ⟨r, arming, rfl, rfl⟩ | ⟨after, body, rfl, rfl⟩ <;> exact ⟨rfl, rfl, rfl, rfl⟩
  obtain ⟨extra, hooked, scheduled, goes⟩ :=
    World.schedule_effect (w := w) (t := { t with stack := rest }) s.after s.callback (work.receives ·)
  refine .schedules told (disarms?_none place stack disarms) (fires?_none place stack turn) ?_ ?_
  · have timers := scheduled.timers
    rw [runtime] at timers
    rw [Moment.next, performs, timers, Scheduling.due, tick]
  · rw [Moment.next, performs, goes, hooked.2 runtime, List.nil_append]

theorem disarms_told {id : Nat} (runtime : w.drive = .runtime) (stack : t.stack = work :: rest)
    (disarms : work.disarms? = some id) : (Moment.mk place w t).disarms? = some (id, w.timers.isArmed id) ∧
      (Moment.mk place w t).next.1.timers = w.timers.disarm id := by
  have performs : step w t = w.disarm { t with stack := rest } id := by
    unfold step
    rw [stack]
    rcases Work.disarms?_eq_some disarms with rfl | rfl <;> rfl
  obtain ⟨timers, answers⟩ : (w.disarm { t with stack := rest } id).1.timers = w.timers.disarm id ∧
      (w.disarm { t with stack := rest } id).2.result = .flag (w.timers.isArmed id) := by
    simp only [World.disarm, runtime]
    split <;> exact ⟨rfl, rfl⟩
  constructor
  · simp [Moment.disarms?, Moment.next, stack, disarms, performs, answers]
  · rw [Moment.next, performs, timers]

theorem disarms_deed {id : Nat} (runtime : w.drive = .runtime) (stack : t.stack = work :: rest)
    (disarms : work.disarms? = some id) : Deed ⟨place, w, t⟩ work rest := by
  obtain ⟨schedules, turn⟩ : work.schedules? w.now = none ∧ work.turn? = none := by
    rcases Work.disarms?_eq_some disarms with rfl | rfl <;> exact ⟨rfl, rfl⟩
  obtain ⟨told, timers⟩ := disarms_told place runtime stack disarms
  exact .disarms id (by simp [Moment.schedules?, stack, schedules]) told (fires?_none place stack turn) timers

theorem turn_deed {id : Nat} (stack : t.stack = .timerDue id :: rest) : Deed ⟨place, w, t⟩ (.timerDue id) rest := by
  have schedules : (Moment.mk place w t).schedules? = none := by simp [Moment.schedules?, stack, Work.schedules?]
  have disarms := disarms?_none place (w := w) stack rfl
  have performs : step w t = if w.timers.isArmed id then
      (w.record (.timerFired id)).runCallback { t with stack := rest } id else (w, { t with stack := rest }) := by
    unfold step
    rw [stack]
    rfl
  cases armed : w.timers.isArmed id with
  | false =>
    rw [armed] at performs
    refine .idle schedules disarms ?_ ?_
    · simp [Moment.fires?, Moment.next, performs, stack]
    · rw [Moment.next, performs]
      rfl
  | true =>
    rw [armed] at performs
    obtain ⟨timer, found, live⟩ := World.isArmed_eq_true armed
    have runs : ((w.record (.timerFired id)).runCallback { t with stack := rest } id).1.timers = w.timers.spend id ∧
        ((w.record (.timerFired id)).runCallback { t with stack := rest } id).2.stack = timer.callback.work id ++ rest := by
      simp only [World.runCallback, show (w.record (.timerFired id)).timers.get? id = some timer from found]
      cases timer.callback with
      | expire r window generation => exact ⟨rfl, rfl⟩
      | script body => simp only; split <;> exact ⟨rfl, rfl⟩
    have longer := List.length_pos_iff.mpr (timer.callback.work_ne_nil id)
    refine .fires schedules disarms ?_ rfl found live ?_ ?_
    · rw [Moment.fires?, if_neg]
      · simp [stack, Work.turn?]
      · simp only [Moment.next, performs, if_true, runs.2, stack, List.length_append, List.length_cons]
        omega
    · rw [Moment.next, performs]
      exact runs.1
    · rw [Moment.next, performs]
      exact runs.2

/-- A step under a runtime schedules, disarms or fires one timer, or leaves them all alone. -/
theorem step_deed (runtime : w.drive = .runtime) (inline : ∀ id, work ≠ .fireInline id) (allowed : Pool.Unforced w t)
    (stack : t.stack = work :: rest) : Deed ⟨place, w, t⟩ work rest := by
  cases schedules : work.schedules? w.now with
  | some s => exact schedules_deed place runtime stack schedules
  | none =>
    cases disarms : work.disarms? with
    | some id => exact disarms_deed place runtime stack disarms
    | none =>
      cases turn : work.turn? with
      | none =>
        have timers := (step_effect (w := w) stack).keeps_timers schedules disarms turn
        exact .idle (by simp [Moment.schedules?, stack, schedules]) (disarms?_none place stack disarms) (fires?_none place stack turn) timers
      | some id =>
        cases work with
        | timerDue other => exact turn_deed place stack
        | fireInline other => exact absurd rfl (inline other)
        | call action =>
          cases action with
          | fire other force =>
            unfold Pool.Unforced at allowed
            rw [stack] at allowed
            exact allowed.elim
          | _ => cases turn
        | _ => cases turn

end Deeds

namespace Pool

/-- One step under a runtime that takes one timer's turn after the other: a task starts when no turn is still
to be had, whatever the callbacks of earlier turns and the clients have left to do. -/
inductive Turning : Pool → List Moment → Pool → Prop where
  | run {w before t after work rest} (stack : t.stack = work :: rest) (allowed : Unforced w t) :
      Turning ⟨w, before ++ t :: after⟩ [⟨before.length, w, t⟩] ⟨(step w t).1, before ++ (step w t).2 :: after⟩
  | call {w threads t action} (stack : t.stack = [.call action]) : Turning ⟨w, threads⟩ [] ⟨w, threads ++ [t]⟩
  | start {w threads task rest} (ready : w.ready = task :: rest) (alone : ∀ id, .timerDue id ∉ (Pool.mk w threads).works) :
      Turning ⟨w, threads⟩ [] ⟨{ w with ready := rest }, threads ++ [task.thread]⟩
  | wake {w threads} (tick : Nat) (still : ∀ t ∈ threads, t.stack = []) (idle : w.ready = []) (later : w.now ≤ tick)
      (next : ∀ entry ∈ w.sleeping, tick ≤ entry.1) : Turning ⟨w, threads⟩ [] ⟨w.wakeAt tick, threads⟩

/-- A run of the runtime from its start, told by its moments. -/
inductive Course : List Moment → Pool → Prop where
  | begin : Course [] (Pool.start .runtime)
  | step {m p moments q} (past : Course m p) (next : Turning p moments q) : Course (m ++ moments) q

variable {m past later moments : List Moment} {moment : Moment} {p q : Pool}

theorem Turning.ticking (next : Turning p moments q) : ∃ notes, Ticking p notes q := by
  cases next with
  | run stack allowed => exact ⟨_, .run stack allowed⟩
  | call stack => exact ⟨_, .call stack⟩
  | start ready alone => exact ⟨_, .start ready⟩
  | wake tick still idle later next => exact ⟨_, .wake tick still idle later next⟩

namespace Course

theorem runs (course : Course m p) : ∃ h, Runs Ticking (Pool.start .runtime) h p := by
  induction course with
  | begin => exact ⟨[], .refl⟩
  | step past next ih =>
    obtain ⟨h, run⟩ := ih
    obtain ⟨notes, ticks⟩ := next.ticking
    exact ⟨h ++ notes, run.step ticks⟩

theorem driven (course : Course m p) : Driven p := by
  obtain ⟨h, run⟩ := course.runs
  exact (driven_of_ticking run).1

theorem punctual (course : Course m p) : ∃ h, Punctual h p := by
  obtain ⟨h, run⟩ := course.runs
  exact ⟨h, .of_run run⟩

theorem cut (course : Course (past ++ moment :: later) p) : ∃ before after work rest,
    Course past ⟨moment.world, before ++ moment.thread :: after⟩ ∧ moment.thread.stack = work :: rest ∧
      Unforced moment.world moment.thread := by
  generalize told : past ++ moment :: later = whole at course
  induction course generalizing later with
  | begin => exact absurd told (by simp)
  | @step _ _ moments _ earlier next ih =>
    cases next with
    | call | start | wake =>
      rw [List.append_nil] at told
      exact ih told
    | run stack allowed =>
      rcases List.eq_nil_or_concat later with rfl | ⟨later, last, rfl⟩
      · obtain ⟨rfl, same⟩ := List.append_inj' told rfl
        cases same
        exact ⟨_, _, _, _, earlier, stack, allowed⟩
      · rw [List.concat_eq_append, ← List.cons_append, ← List.append_assoc] at told
        exact ih (List.append_inj' told rfl).1

theorem deed {before after : List Thread} {work : Work} {rest : List Work} {w : World} {t : Thread}
    (course : Course m ⟨w, before ++ t :: after⟩) (place : Nat) (stack : t.stack = work :: rest) (allowed : Unforced w t) :
    Deed ⟨place, w, t⟩ work rest := by
  refine step_deed place course.driven.runtime ?_ allowed stack
  rintro id rfl
  exact course.driven.scheduled id (mem_works_here stack (List.mem_cons_self ..))

end Course

/-- The timers of a runtime are those that its course tells of, and each that was handed out has fired, or was
disarmed, or is armed. -/
structure Booked (m : List Moment) (ts : Timers Callback) : Prop where
  length : ts.list.length = (schedulings m).length
  dues : ∀ id, ts.due? id = (scheduled? m id).bind (·.due)
  callbacks : ∀ id, ts.callback? id = (scheduled? m id).map (·.callback)
  fates : ∀ id, spent m id + (ts.isArmed id).toNat = (scheduled? m id).isSome.toNat

namespace Booked

variable {ts : Timers Callback}

theorem initial : Booked [] {} := by
  have none (id : Nat) : ({} : Timers Callback).get? id = none := by simp [Timers.get?]
  constructor
  · rfl
  all_goals
    intro id
    simp [Timers.due?, Timers.callback?, Timers.isArmed, none, scheduled?, schedulings, spent, firings, disarmings]

theorem armed_iff (booked : Booked m ts) (id : Nat) : ts.isArmed id = true ↔ Outstanding m id := by
  have fates := booked.fates id
  unfold Outstanding
  generalize ts.isArmed id = armed at fates ⊢
  generalize (scheduled? m id).isSome = given at fates ⊢
  cases armed <;> cases given <;> simp only [Bool.toNat_false, Bool.toNat_true] at fates <;> simp <;> omega

theorem fresh (booked : Booked m ts) : spent m (ts.list.length + 1) = 0 ∧ ts.isArmed (ts.list.length + 1) = false := by
  have fates := booked.fates (ts.list.length + 1)
  have none : (scheduled? m (ts.list.length + 1)).isSome = false := by
    rw [← Bool.not_eq_true, scheduled?_isSome, booked.length]
    omega
  rw [none, Bool.toNat_false] at fates
  exact ⟨by omega, Bool.toNat_eq_zero.mp (by omega)⟩

theorem step_preserves {work : Work} {rest : List Work} (booked : Booked m moment.world.timers)
    (deed : Deed moment work rest) : Booked (m ++ [moment]) moment.next.1.timers := by
  have length {ts : Timers Callback} (same : ts.callbacks = moment.world.timers.callbacks) (silent : moment.schedules? = none) :
      ts.list.length = (schedulings (m ++ [moment])).length := by
    have sizes := congrArg List.length same
    simp only [Timers.callbacks, List.length_map] at sizes
    rw [sizes, booked.length]
    simp [schedulings, silent]
  cases deed with
  | @schedules s told disarms fires timers goes =>
    rw [timers]
    constructor
    case length => simp [Timers.schedule, booked.length, schedulings, told]
    case dues =>
      intro id
      rw [Timers.due?_schedule, scheduled?_concat told, booked.length, booked.dues]
      by_cases new : id = (schedulings m).length + 1
      · rw [if_pos new, if_pos new, Option.bind_some]
      · rw [if_neg new, if_neg new]
    case callbacks =>
      intro id
      rw [Timers.callback?_schedule, scheduled?_concat told, booked.length, booked.callbacks]
      by_cases new : id = (schedulings m).length + 1 <;> simp [new]
    case fates =>
      intro id
      have fates := booked.fates id
      rw [spent_concat, Timers.isArmed_schedule, scheduled?_concat told, ← booked.length]
      by_cases new : id = moment.world.timers.list.length + 1
      · subst new
        simp [fires, disarms, booked.fresh.1]
      · rw [beq_false_of_ne new]
        simpa [fires, disarms, new] using fates
  | disarms id schedules told fires timers =>
    rw [timers]
    refine ⟨length (Timers.callbacks_disarm ..) schedules, ?_, ?_, ?_⟩ <;> intro other
    · rw [Timers.due?_disarm, scheduled?_silent schedules, booked.dues]
    · rw [Timers.callback?_disarm, scheduled?_silent schedules, booked.callbacks]
    · rw [spent_concat, Timers.isArmed_disarm, scheduled?_silent schedules, ← booked.fates, fires, told]
      by_cases same : id = other
      · subst same
        cases moment.world.timers.isArmed id <;> simp
      · rw [bne_iff_ne.mpr same]
        simp [same]
  | @fires id timer schedules disarms told turn found armed timers goes =>
    rw [timers]
    refine ⟨length (Timers.callbacks_spend ..) schedules, ?_, ?_, ?_⟩ <;> intro other
    · rw [Timers.due?_spend, scheduled?_silent schedules, booked.dues]
    · rw [Timers.callback?_spend, scheduled?_silent schedules, booked.callbacks]
    · rw [spent_concat, Timers.isArmed_spend, scheduled?_silent schedules, ← booked.fates, disarms, told]
      by_cases same : id = other
      · subst same
        simp [Timers.isArmed_found found, armed]
      · rw [bne_iff_ne.mpr same]
        simp [same]
  | idle schedules disarms fires timers =>
    rw [timers]
    refine ⟨length rfl schedules, ?_, ?_, ?_⟩ <;> intro other
    · rw [scheduled?_silent schedules, booked.dues]
    · rw [scheduled?_silent schedules, booked.callbacks]
    · simp [spent_concat, scheduled?_silent schedules, ← booked.fates, fires, disarms]

theorem of_course (course : Course m p) : Booked m p.world.timers := by
  induction course with
  | begin => exact .initial
  | step past next ih =>
    cases next with
    | call | start | wake =>
      rw [List.append_nil]
      exact ih
    | run stack allowed => exact ih.step_preserves (past.deed _ stack allowed)

end Booked
end Pool
end Deferral.Simulation
