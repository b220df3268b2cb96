import Deferral.Proofs.VirtualClock

/-! When the timers of a runtime have their turns. A timer is due at the tick of its arming plus its
window, and while it is armed a task waits for that tick, which the clock does not pass without it. -/

namespace Deferral.Simulation
open Response (Arming)

/-- What a step that schedules nothing leaves of the timers and the tasks. -/
structure Steady (before after : World) : Prop where
  now : after.now = before.now
  sleeping : after.sleeping = before.sleeping
  ready : ∃ woken : List Nat, after.ready = before.ready ++ woken.map .waiter
  dues : ∀ id, after.timers.due? id = before.timers.due? id
  callbacks : ∀ id, after.timers.callback? id = before.timers.callback? id
  armed : ∀ id, after.timers.isArmed id = true → before.timers.isArmed id = true

theorem Alongside.steady {before after : World} (aside : Alongside before after) (timers : after.timers = before.timers) :
    Steady before after := by
  refine ⟨aside.now, aside.sleeping, aside.ready, ?_, ?_, ?_⟩ <;> intro id <;> rw [timers]
  exact fun armed => armed

theorem Effect.steady {before after : World} {work : Work} {rest stack : List Work}
    (effect : Effect before work rest after stack) :
    Steady before after ∨ ∃ window callback, Scheduled before window callback after ∧ work.callback? = some callback ∧
      ∀ r other generation, callback = .expire r other generation → work = .arm r ⟨window, generation⟩ := by
  cases effect with
  | refused _ _ _ _ timers aside | granted _ _ _ _ timers aside | created _ timers aside | unwound _ timers aside
  | quiet _ _ _ _ _ _ timers aside => exact .inl (aside.steady timers)
  | disarmed _ _ _ timers aside =>
    refine .inl ⟨aside.now, aside.sleeping, aside.ready, ?_, ?_, ?_⟩ <;> intro id <;> rw [timers]
    · exact Timers.due?_disarm ..
    · exact Timers.callback?_disarm ..
    · rw [Timers.isArmed_disarm, Bool.and_eq_true]
      exact And.right
  | fired _ _ _ _ timers aside =>
    refine .inl ⟨aside.now, aside.sleeping, aside.ready, ?_, ?_, ?_⟩ <;> intro id <;> rw [timers]
    · exact Timers.due?_spend ..
    · exact Timers.callback?_spend ..
    · rw [Timers.isArmed_spend, Bool.and_eq_true]
      exact And.right
  | armed _ scheduled =>
    refine .inr ⟨_, _, scheduled, rfl, ?_⟩
    intro r other generation same
    cases same
    rfl
  | scheduled _ scheduled =>
    refine .inr ⟨_, _, scheduled, rfl, ?_⟩
    intro r other generation same
    cases same

theorem World.mem_sleepUntil (w : World) (due : Option Nat) (task : Task) :
    (∀ entry, entry ∈ (w.sleepUntil due task).sleeping ↔
      entry ∈ w.sleeping ∨ ∃ tick, due = some tick ∧ w.now < tick ∧ entry = (tick, task)) ∧
    ∀ other, other ∈ (w.sleepUntil due task).ready ↔
      other ∈ w.ready ∨ ∃ tick, due = some tick ∧ tick ≤ w.now ∧ other = task := by
  unfold World.sleepUntil
  cases due with
  | none => simp
  | some tick =>
    by_cases reached : tick ≤ w.now
    · have early : ¬w.now < tick := Nat.not_lt.mpr reached
      simp [reached, early]
    · have later : w.now < tick := Nat.lt_of_not_le reached
      simp [reached, later]

theorem Drive.due_runtime {now tick : Nat} {window : Duration} (due : runtime.due now window = some tick) :
    tick = now + window.ticks 1000000 ∧ tick ≤ Duration.wordMax := by
  change (if now + window.ticks 1000000 ≤ Duration.wordMax then some (now + window.ticks 1000000) else none) = some tick
    at due
  split at due
  next inside => cases due; exact ⟨rfl, inside⟩
  next => cases due

theorem step_turn {w : World} {t : Thread} {id : Nat} {rest : List Work} (stack : t.stack = .timerDue id :: rest) :
    (step w t).1.timers.isArmed id = false := by
  have effect := step_effect (w := w) stack
  unfold step at effect ⊢
  rw [stack] at effect ⊢
  simp only [World.perform]
  split
  next armed =>
    obtain ⟨timer, found, -⟩ := World.isArmed_eq_true armed
    have spent : ((w.record (.timerFired id)).runCallback { t with stack := rest } id).1.timers = w.timers.spend id := by
      unfold World.runCallback
      rw [show (w.record (.timerFired id)).timers.get? id = some timer from found]
      simp only
      split
      · rfl
      · split <;> rfl
    rw [spent, Timers.isArmed_spend, bne_self_eq_false, Bool.false_and]
  next idle => simpa using idle

namespace Pool

structure Punctual (h : History) (p : Pool) : Prop where
  asleep : ∀ entry ∈ p.world.sleeping, p.world.now < entry.1
  sleepers : ∀ tick id, (tick, .timer id) ∈ p.world.sleeping → p.world.timers.due? id = some tick
  turns : ∀ id, .timer id ∈ p.world.ready ∨ .timerDue id ∈ p.works → p.world.timers.due? id = some p.world.now
  waits : ∀ id tick, p.world.timers.isArmed id = true → p.world.timers.due? id = some tick →
    (tick, .timer id) ∈ p.world.sleeping ∨
      tick = p.world.now ∧ (.timer id ∈ p.world.ready ∨ .timerDue id ∈ p.works)
  dues : ∀ id r window generation, p.world.timers.callback? id = some (.expire r window generation) →
    ∃ tick, (tick, ⟨window, generation⟩) ∈ armings r h ∧
      p.world.timers.due? id = Drive.runtime.due tick window
  arms : ∀ r arming, .arm r arming ∈ p.works → (p.world.now, arming) ∈ armings r h
  asks : ∀ r window generation, .request r (.expire window generation) ∈ p.works →
    ∃ tick, (tick, ⟨window, generation⟩) ∈ armings r h ∧ Drive.runtime.due tick window = some p.world.now

namespace Punctual

variable {h notes : History} {p q : Pool}

theorem initial : Punctual [] (start .runtime) := by
  constructor
  case asleep =>
    intro entry member
    cases member
  case sleepers =>
    intro tick id member
    cases member
  case turns => rintro id (member | member) <;> cases member
  case waits =>
    intro id tick armed
    simp [start, Timers.isArmed, Timers.get?] at armed
  case dues =>
    intro id r window generation found
    simp [start, Timers.callback?, Timers.get?] at found
  case arms =>
    intro r arming member
    cases member
  case asks =>
    intro r window generation member
    cases member

theorem spawn {w : World} {threads : List Thread} {t : Thread} (punctual : Punctual h ⟨w, threads⟩) {ready : List Task}
    (none : ∀ f ∈ t.stack, f.tends = false)
    (kept : ∀ id, .timer id ∈ w.ready ↔ .timer id ∈ ready ∨ .timerDue id ∈ t.stack) :
    Punctual h ⟨{ w with ready }, threads ++ [t]⟩ := by
  have split {f : Work} (member : f ∈ (Pool.mk { w with ready } (threads ++ [t])).works) :
      f ∈ (Pool.mk w threads).works ∨ f ∈ t.stack := by
    simpa [works, List.flatMap_append] using member
  have old {f : Work} (member : f ∈ (Pool.mk { w with ready } (threads ++ [t])).works) (tends : f.tends = true) :
      f ∈ (Pool.mk w threads).works := by
    refine (split member).resolve_right ?_
    intro new
    rw [none f new] at tends
    cases tends
  refine ⟨punctual.asleep, punctual.sleepers, ?_, ?_, punctual.dues, ?_, ?_⟩
  · rintro id (waits | turn)
    · exact punctual.turns id (.inl ((kept id).mpr (.inl waits)))
    · rcases split turn with turn | new
      · exact punctual.turns id (.inr turn)
      · exact punctual.turns id (.inl ((kept id).mpr (.inr new)))
  · intro id tick armed due
    have here {f : Work} (member : f ∈ (Pool.mk w threads).works ∨ f ∈ t.stack) :
        f ∈ (Pool.mk { w with ready } (threads ++ [t])).works := by
      simpa [works, List.flatMap_append] using member
    rcases punctual.waits id tick armed due with sleeps | ⟨same, waits | turn⟩
    · exact .inl sleeps
    · rcases (kept id).mp waits with waits | turn
      · exact .inr ⟨same, .inl waits⟩
      · exact .inr ⟨same, .inr (here (.inr turn))⟩
    · exact .inr ⟨same, .inr (here (.inl turn))⟩
  · intro r arming member
    exact punctual.arms r arming (old member rfl)
  · intro r window generation member
    exact punctual.asks r window generation (old member rfl)

theorem wake {w : World} {threads : List Thread} (punctual : Punctual h ⟨w, threads⟩) {tick : Nat}
    (still : ∀ t ∈ threads, t.stack = []) (idle : w.ready = []) (later : w.now ≤ tick)
    (next : ∀ entry ∈ w.sleeping, tick ≤ entry.1) : Punctual h ⟨w.wakeAt tick, threads⟩ := by
  have none (f : Work) : f ∉ (Pool.mk w threads).works := by
    simp only [works, List.mem_flatMap, not_exists, not_and]
    intro t member
    rw [still t member]
    exact List.not_mem_nil
  have now : (w.wakeAt tick).now = tick := Nat.max_eq_right later
  constructor
  case asleep =>
    intro entry member
    rw [now]
    simpa using (List.mem_filter.mp member).2
  case sleepers =>
    intro due id member
    exact punctual.sleepers due id (List.mem_filter.mp member).1
  case turns =>
    rintro id (waits | turn)
    · simp only [World.wakeAt, idle, List.nil_append, List.mem_map, List.mem_filter] at waits
      obtain ⟨⟨due, task⟩, ⟨sleeps, passed⟩, same⟩ := waits
      cases same
      have reached : due = tick := Nat.le_antisymm (by simpa using passed) (next _ sleeps)
      rw [now, ← reached]
      exact punctual.sleepers due id sleeps
    · exact absurd turn (none _)
  case waits =>
    intro id due armed found
    rcases punctual.waits id due armed found with sleeps | ⟨-, waits | turn⟩
    · by_cases reached : due ≤ tick
      · refine .inr ⟨?_, .inl ?_⟩
        · rw [now]
          exact Nat.le_antisymm reached (next _ sleeps)
        · simp only [World.wakeAt, List.mem_append, List.mem_map, List.mem_filter]
          exact .inr ⟨_, ⟨sleeps, by simpa using reached⟩, rfl⟩
      · exact .inl (List.mem_filter.mpr ⟨sleeps, by simpa using reached⟩)
    · rw [idle] at waits
      cases waits
    · exact absurd turn (none _)
  case dues => exact punctual.dues
  case arms =>
    intro r arming member
    exact absurd member (none _)
  case asks =>
    intro r window generation member
    exact absurd member (none _)

variable {w : World} {before after : List Thread} {t : Thread} {work : Work} {rest : List Work}

private theorem arms_preserves (punctual : Punctual h ⟨w, before ++ t :: after⟩) (stack : t.stack = work :: rest)
    (r : Nat) (arming : Arming)
    (member : .arm r arming ∈ (Pool.mk (step w t).1 (before ++ (step w t).2 :: after)).works) :
    (w.now, arming) ∈ armings r (h ++ work.notes w) := by
  have old (member : .arm r arming ∈ (Pool.mk w (before ++ t :: after)).works) :
      (w.now, arming) ∈ armings r (h ++ work.notes w) := by
    rw [armings_append]
    exact List.mem_append_left _ (punctual.arms r arming member)
  rcases mem_works_run.mp member with other | here
  · exact old (mem_works_run.mpr (.inl other))
  · rcases (step_effect (w := w) stack).inner here rfl with below | left
    · exact old (mem_works_here stack (List.mem_cons_of_mem _ below))
    · obtain ⟨asked, x, grant, asks, found, granted, arms⟩ := left.arm
      rw [armings_append, Work.notes_granted asks found granted, armings_served, arms]
      exact List.mem_append_right _ (List.mem_singleton.mpr rfl)

private theorem asks_preserves (driven : Driven ⟨w, before ++ t :: after⟩)
    (punctual : Punctual h ⟨w, before ++ t :: after⟩) (stack : t.stack = work :: rest) (allowed : Unforced w t)
    (r : Nat) (window : Duration) (generation : Nat)
    (member : .request r (.expire window generation) ∈ (Pool.mk (step w t).1 (before ++ (step w t).2 :: after)).works) :
    ∃ tick, (tick, ⟨window, generation⟩) ∈ armings r (h ++ work.notes w) ∧
      Drive.runtime.due tick window = some w.now := by
  have present {f : Work} (old : f ∈ work :: rest) : f ∈ (Pool.mk w (before ++ t :: after)).works :=
    mem_works_here stack old
  suffices asked : ∃ tick, (tick, ⟨window, generation⟩) ∈ armings r h ∧
      Drive.runtime.due tick window = some w.now by
    obtain ⟨tick, started, due⟩ := asked
    rw [armings_append]
    exact ⟨tick, List.mem_append_left _ started, due⟩
  rcases mem_works_run.mp member with other | here
  · exact punctual.asks r window generation (mem_works_run.mpr (.inl other))
  · rcases (step_effect (w := w) stack).inner here rfl with below | left
    · exact punctual.asks r window generation (present (List.mem_cons_of_mem _ below))
    · obtain ⟨id, callback, fires⟩ := left.expire
      obtain ⟨tick, started, due⟩ := punctual.dues id r window generation callback
      refine ⟨tick, started, ?_⟩
      rw [← due]
      rcases fires with rfl | rfl | ⟨force, rfl⟩
      · exact punctual.turns id (.inr (present (List.mem_cons_self ..)))
      · exact absurd (present (List.mem_cons_self ..)) (driven.scheduled id)
      · unfold Unforced at allowed
        rw [stack] at allowed
        exact allowed.elim

private theorem turn_iff (driven : Driven ⟨w, before ++ t :: after⟩) (stack : t.stack = work :: rest) (id : Nat) :
    (.timerDue id ∈ (Pool.mk (step w t).1 (before ++ (step w t).2 :: after)).works ↔
      .timerDue id ∈ (Pool.mk w (before ++ after)).works) ∧
    (.timerDue id ∈ (Pool.mk w (before ++ t :: after)).works ↔
      .timerDue id ∈ (Pool.mk w (before ++ after)).works ∨ work = .timerDue id) := by
  have alone : .timerDue id ∉ rest := driven.turn_alone stack
  refine ⟨⟨?_, fun other => mem_works_run.mpr (.inl other)⟩, ⟨?_, ?_⟩⟩
  · intro member
    refine (mem_works_run.mp member).resolve_right ?_
    intro here
    exact alone ((step_effect (w := w) stack).keeps_turns here)
  · intro member
    refine (mem_works_run.mp member).imp_right ?_
    intro here
    rw [stack] at here
    exact ((List.mem_cons.mp here).resolve_right alone).symm
  · rintro (other | rfl)
    · exact mem_works_run.mpr (.inl other)
    · exact mem_works_here stack (List.mem_cons_self ..)

private theorem steady_preserves (driven : Driven ⟨w, before ++ t :: after⟩)
    (punctual : Punctual h ⟨w, before ++ t :: after⟩) (stack : t.stack = work :: rest) (allowed : Unforced w t)
    (steady : Steady w (step w t).1) :
    Punctual (h ++ work.notes w) ⟨(step w t).1, before ++ (step w t).2 :: after⟩ := by
  obtain ⟨woken, ready⟩ := steady.ready
  have readies (id : Nat) : .timer id ∈ (step w t).1.ready ↔ .timer id ∈ w.ready := by
    simp [ready]
  constructor
  case asleep =>
    rw [steady.now, steady.sleeping]
    exact punctual.asleep
  case sleepers =>
    intro tick id
    rw [steady.sleeping, steady.dues]
    exact punctual.sleepers tick id
  case turns =>
    intro id turn
    rw [steady.dues, steady.now]
    rcases turn with waits | turn
    · exact punctual.turns id (.inl ((readies id).mp waits))
    · exact punctual.turns id (.inr (mem_works_run.mpr (.inl ((turn_iff driven stack id).1.mp turn))))
  case waits =>
    intro id tick armed due
    rw [steady.dues] at due
    rw [steady.sleeping, steady.now]
    rcases punctual.waits id tick (steady.armed id armed) due with sleeps | ⟨same, waits | turn⟩
    · exact .inl sleeps
    · exact .inr ⟨same, .inl ((readies id).mpr waits)⟩
    · rcases (turn_iff driven stack id).2.mp turn with other | rfl
      · exact .inr ⟨same, .inr ((turn_iff driven stack id).1.mpr other)⟩
      · rw [step_turn stack] at armed
        cases armed
  case dues =>
    intro id r window generation found
    rw [steady.callbacks] at found
    rw [steady.dues]
    obtain ⟨tick, started, due⟩ := punctual.dues id r window generation found
    rw [armings_append]
    exact ⟨tick, List.mem_append_left _ started, due⟩
  case arms =>
    intro r arming member
    rw [steady.now]
    exact arms_preserves punctual stack r arming member
  case asks =>
    intro r window generation member
    rw [steady.now]
    exact asks_preserves driven punctual stack allowed r window generation member

/-- The timer that a step schedules is due by the tick of the step, which for a response's timer is that of
its arming, and a task waits for it from then on. -/
private theorem scheduled_preserves (driven : Driven ⟨w, before ++ t :: after⟩)
    (punctual : Punctual h ⟨w, before ++ t :: after⟩) (stack : t.stack = work :: rest) (allowed : Unforced w t)
    {window : Duration} {callback : Callback} (scheduled : Scheduled w window callback (step w t).1)
    (hands : work.callback? = some callback)
    (expires : ∀ r other generation, callback = .expire r other generation → work = .arm r ⟨window, generation⟩) :
    Punctual (h ++ work.notes w) ⟨(step w t).1, before ++ (step w t).2 :: after⟩ := by
  obtain ⟨sleeping, ready⟩ := scheduled.tasks driven.runtime
  have timers := scheduled.timers
  rw [show w.drive = .runtime from driven.runtime] at sleeping ready timers
  obtain ⟨sleeps, waits⟩ := w.mem_sleepUntil (Drive.runtime.due w.now window) (.timer (w.timers.list.length + 1))
  have sleeps (entry : Nat × Task) : entry ∈ (step w t).1.sleeping ↔ entry ∈ w.sleeping ∨
      ∃ tick, Drive.runtime.due w.now window = some tick ∧ w.now < tick ∧
        entry = (tick, .timer (w.timers.list.length + 1)) := by
    rw [sleeping]
    exact sleeps entry
  have waits (task : Task) : task ∈ (step w t).1.ready ↔ task ∈ w.ready ∨
      ∃ tick, Drive.runtime.due w.now window = some tick ∧ tick ≤ w.now ∧ task = .timer (w.timers.list.length + 1) := by
    rw [ready]
    exact waits task
  have dues (id : Nat) : (step w t).1.timers.due? id =
      if id = w.timers.list.length + 1 then Drive.runtime.due w.now window else w.timers.due? id := by
    rw [timers]
    exact Timers.due?_schedule ..
  have kept {id tick : Nat} (due : w.timers.due? id = some tick) : (step w t).1.timers.due? id = some tick := by
    rw [timers]
    exact Timers.due?_schedule_of_some due
  constructor
  case asleep =>
    intro entry member
    rw [scheduled.now]
    rcases (sleeps entry).mp member with old | ⟨tick, -, later, rfl⟩
    · exact punctual.asleep entry old
    · exact later
  case sleepers =>
    intro tick id member
    rcases (sleeps _).mp member with old | ⟨other, due, -, same⟩
    · exact kept (punctual.sleepers tick id old)
    · cases same
      rw [dues, if_pos rfl]
      exact due
  case turns =>
    intro id turn
    rw [scheduled.now]
    rcases turn with ready | turn
    · rcases (waits _).mp ready with old | ⟨tick, due, reached, same⟩
      · exact kept (punctual.turns id (.inl old))
      · cases same
        have later := (Drive.due_runtime due).1
        rw [dues, if_pos rfl, due, show tick = w.now by omega]
    · exact kept (punctual.turns id (.inr (mem_works_run.mpr (.inl ((turn_iff driven stack id).1.mp turn)))))
  case waits =>
    intro id tick armed due
    rw [scheduled.now]
    rw [dues] at due
    split at due
    next new =>
      have later := (Drive.due_runtime due).1
      by_cases reached : tick ≤ w.now
      · exact .inr ⟨by omega, .inl ((waits _).mpr (.inr ⟨tick, due, reached, by rw [new]⟩))⟩
      · exact .inl ((sleeps _).mpr (.inr ⟨tick, due, by omega, by rw [new]⟩))
    next apart =>
      have armed : w.timers.isArmed id = true := by
        rw [timers, Timers.isArmed_schedule] at armed
        simpa [apart] using armed
      rcases punctual.waits id tick armed due with asleep | ⟨same, ready | turn⟩
      · exact .inl ((sleeps _).mpr (.inl asleep))
      · exact .inr ⟨same, .inl ((waits _).mpr (.inl ready))⟩
      · rcases (turn_iff driven stack id).2.mp turn with other | rfl
        · exact .inr ⟨same, .inr ((turn_iff driven stack id).1.mpr other)⟩
        · cases hands
  case dues =>
    intro id r other generation found
    rw [armings_append]
    rw [timers, Timers.callback?_schedule] at found
    rw [dues]
    split at found
    next new =>
      cases found
      have arm := expires r other generation rfl
      subst arm
      cases hands
      have started := punctual.arms r ⟨window, generation⟩ (mem_works_here stack (List.mem_cons_self ..))
      exact ⟨w.now, List.mem_append_left _ started, by rw [if_pos new]⟩
    next apart =>
      obtain ⟨tick, started, due⟩ := punctual.dues id r other generation found
      exact ⟨tick, List.mem_append_left _ started, by rw [if_neg apart]; exact due⟩
  case arms =>
    intro r arming member
    rw [scheduled.now]
    exact arms_preserves punctual stack r arming member
  case asks =>
    intro r other generation member
    rw [scheduled.now]
    exact asks_preserves driven punctual stack allowed r other generation member

theorem step_preserves (driven : Driven p) (punctual : Punctual h p) (next : Ticking p notes q) :
    Punctual (h ++ notes) q := by
  cases next with
  | run stack allowed =>
    rcases (step_effect stack).steady with steady | ⟨window, callback, scheduled, hands, expires⟩
    · exact steady_preserves driven punctual stack allowed steady
    · exact scheduled_preserves driven punctual stack allowed scheduled hands expires
  | @call w threads t action stack =>
    rw [List.append_nil]
    exact punctual.spawn (by simp [stack, Work.tends]) (by simp [stack])
  | @start w threads task rest ready =>
    rw [List.append_nil]
    apply punctual.spawn
    · cases task <;> simp [Task.thread, Work.tends]
    · intro id
      rw [ready]
      cases task <;> simp [Task.thread, or_comm]
  | wake tick still idle later next =>
    rw [List.append_nil]
    exact punctual.wake still idle later next

theorem of_run (run : Runs Ticking (start .runtime) h p) : Punctual h p := by
  induction run with
  | refl => exact initial
  | step run next punctual =>
    have driven := (driven_of_ticking run).1
    exact punctual.step_preserves driven next

end Punctual
end Pool
end Deferral.Simulation
