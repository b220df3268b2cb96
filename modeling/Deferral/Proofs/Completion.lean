import Deferral.Proofs.VirtualClock
import Deferral.Proofs.WorkRank
import Deferral.Simulation.Scenario

/-! Under a runtime everything comes to an end: a thread that runs alone, the tasks that are ready, and the
clock on its way to a tick. What they come to is the same for all fuel that is enough. -/

namespace Deferral.Simulation

theorem wellFounded_lower : WellFounded Lower := (Prod.lex Nat.lt_wfRel Nat.lt_wfRel).wf

/-- One rank is another, or below it. -/
def AtMost (a b : Nat × Nat) : Prop := a = b ∨ Lower a b

namespace AtMost

variable {a b c : Nat × Nat}

theorem trans_lower (first : AtMost a b) (second : Lower b c) : Lower a c := by
  rcases first with rfl | lower
  · exact second
  · exact lower.trans second

end AtMost

/-- What a world has become when nobody drives it any other way and nothing that was told is forgotten. -/
structure Onward (before after : World) : Prop where
  drive : after.drive = before.drive
  events : before.events.toList <+: after.events.toList

namespace Onward

variable {w w' w'' : World}

theorem refl (w : World) : Onward w w := ⟨rfl, List.prefix_rfl⟩

theorem trans (first : Onward w w') (second : Onward w' w'') : Onward w w'' :=
  ⟨second.drive.trans first.drive, first.events.trans second.events⟩

end Onward

theorem Reaches.ahead {bound : Nat} {w w' : World} {t t' : Thread} {work : Work} {rest : List Work}
    (stack : t.stack = work :: rest) (later : Reaches bound (Simulation.step w t).1 (Simulation.step w t).2 w' t') :
    Reaches (bound + 1) w t w' t' := by
  obtain ⟨n, within, ran⟩ := later
  refine ⟨n + 1, Nat.succ_le_succ within, ?_⟩
  rw [Simulation.runThread, if_neg (by simp [stack])]
  exact ran

theorem exists_end {w : World} {t : Thread} (runtime : w.drive = .runtime) (own : Undisturbed w t.stack) :
    ∃ bound w' t', Reaches bound w t w' t' ∧ t'.stack = [] ∧ Onward w w' ∧ w'.now = w.now ∧
      AtMost (rank w' []) (rank w t.stack) := by
  induction left : rank w t.stack using wellFounded_lower.induction generalizing w t with
  | h left ih =>
    cases stack : t.stack with
    | nil =>
      rw [stack] at left
      exact ⟨0, w, t, .refl, stack, .refl w, rfl, .inl left⟩
    | cons work rest =>
      have spends := step_spends runtime stack own
      obtain ⟨drive, now⟩ := (step_effect (w := w) stack).clock
      rw [stack] at left
      obtain ⟨bound, w', t', reaches, idle, onward, still, less⟩ :=
        ih _ (left ▸ spends.lower) (drive.trans runtime) spends.undisturbed rfl
      have first : Onward w (step w t).1 := ⟨drive, spends.events⟩
      exact ⟨bound + 1, w', t', .ahead stack reaches, idle, first.trans onward, still.trans now,
        .inr (left ▸ less.trans_lower spends.lower)⟩

/-! ### Settling -/

/-- What the ready tasks of a world come to. -/
inductive Settles : World → World → Prop where
  | idle {w} (none : w.ready = []) : Settles w w
  | task {w w' last t task rest bound} (ready : w.ready = task :: rest)
      (reaches : Reaches bound { w with ready := rest } task.thread w' t) (idle : t.stack = []) (later : Settles w' last) :
      Settles w last

theorem Settles.settleUpTo {w w' : World} (settles : Settles w w') :
    ∃ bound, ∀ steps fuel, bound ≤ steps → bound ≤ fuel → w.settleUpTo steps fuel = w' := by
  induction settles with
  | idle none =>
    refine ⟨0, fun steps fuel _ _ => ?_⟩
    cases fuel with
    | zero => rfl
    | succ fuel => rw [World.settleUpTo, none]
  | @task w w' last t task rest bound ready reaches idle later ih =>
    obtain ⟨more, settled⟩ := ih
    refine ⟨bound + more + 1, fun steps fuel enough fueled => ?_⟩
    obtain ⟨fuel, rfl⟩ : ∃ less, fuel = less + 1 := ⟨fuel - 1, by omega⟩
    rw [World.settleUpTo, ready]
    simp only [reaches.runThread idle (by omega : bound ≤ steps)]
    exact settled steps fuel (by omega) (by omega)

theorem Undisturbed.task (w : World) (task : Task) : Undisturbed w task.thread.stack := by
  cases task with
  | waiter id => exact ⟨.inr ⟨id, .inl rfl⟩, by rintro other (same | same) <;> cases same⟩
  | timer | worker => exact .of_none (by simp [Task.thread, Work.waits])

theorem rank_start {w : World} {task : Task} {rest : List Task} (ready : w.ready = task :: rest) :
    Lower (rank { w with ready := rest } task.thread.stack) (rank w []) := by
  have free : costs task.thread.stack = 0 := by
    cases task <;> rfl
  have light : weights w.waiters.length task.thread.stack < 5 := by
    cases task <;> simp [Task.thread, Work.weight]
  refine .of_le (by rw [free]; exact Nat.le_refl _) ?_
  simp only [World.weight, ready, List.length_cons, weights_nil]
  omega

theorem exists_settles {w : World} (runtime : w.drive = .runtime) :
    ∃ w', Settles w w' ∧ w'.ready = [] ∧ Onward w w' ∧ w'.now = w.now ∧ AtMost (rank w' []) (rank w []) := by
  induction left : rank w [] using wellFounded_lower.induction generalizing w with
  | h left ih =>
    cases ready : w.ready with
    | nil => exact ⟨w, .idle ready, ready, .refl w, rfl, .inl left⟩
    | cons task rest =>
      obtain ⟨bound, w', t, reaches, idle, onward, now, less⟩ :=
        exists_end (w := { w with ready := rest }) (t := task.thread) runtime (.task _ task)
      have lower := less.trans_lower (rank_start ready)
      obtain ⟨last, settles, none, later, still, least⟩ := ih _ (left ▸ lower) (onward.drive.trans runtime) rfl
      have first : Onward w w' := ⟨onward.drive, onward.events⟩
      exact ⟨last, .task ready reaches idle settles, none, first.trans later, still.trans now,
        .inr (left ▸ least.trans_lower lower)⟩

theorem exists_settled {w : World} (runtime : w.drive = .runtime) : ∃ bound last,
    (∀ fuel, bound ≤ fuel → w.settle fuel = last) ∧ last.drive = .runtime ∧ last.ready = [] := by
  obtain ⟨last, settles, none, onward, -⟩ := exists_settles runtime
  obtain ⟨bound, settled⟩ := settles.settleUpTo
  exact ⟨bound, last, fun fuel enough => settled fuel fuel enough enough, onward.drive.trans runtime, none⟩

/-! ### Advancing -/

/-- What a world comes to while its clock runs up to a tick. -/
inductive Advances (target : Nat) : World → World → Prop where
  | arrives {w} (none : w.nextWaking target = none) : Advances target w { w with now := max w.now target }
  | wakes {w w' last tick} (next : w.nextWaking target = some tick) (settles : Settles (w.wakeAt tick) w')
      (later : Advances target w' last) : Advances target w last

theorem Advances.advanceRuntime {target : Nat} {w w' : World} (advances : Advances target w w') :
    ∃ bound, ∀ steps fuel, bound ≤ steps → bound ≤ fuel → w.advanceRuntime steps fuel target = w' := by
  induction advances with
  | arrives none =>
    refine ⟨0, fun steps fuel _ _ => ?_⟩
    cases fuel with
    | zero => rfl
    | succ fuel => rw [World.advanceRuntime, none]
  | @wakes w w' last tick next settles later ih =>
    obtain ⟨bound, settled⟩ := settles.settleUpTo
    obtain ⟨more, advanced⟩ := ih
    refine ⟨bound + more + 1, fun steps fuel enough fueled => ?_⟩
    obtain ⟨fuel, rfl⟩ : ∃ less, fuel = less + 1 := ⟨fuel - 1, by omega⟩
    rw [World.advanceRuntime, next]
    simp only [World.settle, settled steps steps (by omega) (by omega)]
    exact advanced steps fuel (by omega) (by omega)

theorem rank_wakeAt {w : World} {target tick : Nat} (next : w.nextWaking target = some tick) :
    Lower (rank (w.wakeAt tick) []) (rank w []) := by
  obtain ⟨-, -, alarm, asleep, due⟩ := World.nextWaking_eq_some_iff.mp next
  let due? : Nat × Task → Bool := fun alarm => decide (alarm.1 ≤ tick)
  have split : (w.sleeping.filter due?).length + (w.sleeping.filter fun alarm => !due? alarm).length = w.sleeping.length := by
    simpa [List.countP_eq_length_filter] using (List.length_eq_countP_add_countP due? (l := w.sleeping)).symm
  have some : 0 < (w.sleeping.filter due?).length :=
    List.length_pos_iff.mpr (List.ne_nil_of_mem (List.mem_filter.mpr ⟨asleep, by simp [due?, due]⟩))
  have awake : (w.wakeAt tick).ready.length = w.ready.length + (w.sleeping.filter due?).length := by
    simp [World.wakeAt, due?]
  have still : (w.wakeAt tick).sleeping.length = (w.sleeping.filter fun alarm => !due? alarm).length := rfl
  refine .of_le (Nat.le_refl _) ?_
  simp only [World.weight, weights_nil, awake, still]
  omega

theorem exists_advances {w : World} (runtime : w.drive = .runtime) (target : Nat) :
    ∃ w', Advances target w w' ∧ (w.ready = [] → w'.ready = []) ∧ Onward w w' ∧ w'.now = max w.now target := by
  induction left : rank w [] using wellFounded_lower.induction generalizing w with
  | h left ih =>
    cases next : w.nextWaking target with
    | none => exact ⟨_, .arrives next, id, ⟨rfl, List.prefix_rfl⟩, rfl⟩
    | some tick =>
      obtain ⟨w', settles, none, onward, now, less⟩ := exists_settles (w := w.wakeAt tick) runtime
      obtain ⟨last, advances, idle, later, arrived⟩ :=
        ih _ (left ▸ less.trans_lower (rank_wakeAt next)) (onward.drive.trans runtime) rfl
      have woken : Onward w w' := ⟨onward.drive, onward.events⟩
      refine ⟨last, .wakes next settles advances, fun _ => idle none, woken.trans later, ?_⟩
      have inside := (World.nextWaking_eq_some_iff.mp next).1
      rw [arrived, now, show (w.wakeAt tick).now = max w.now tick from rfl]
      omega

end Deferral.Simulation
