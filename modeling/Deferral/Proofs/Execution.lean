import Deferral.Proofs.Interleaving
import Deferral.Simulation.Scenario

/-! What the simulation runs is a run of the pool: each call and each task is a thread that starts, goes
on by steps and stands idle afterwards, and the clock moves between threads. -/

namespace Deferral.Simulation
namespace Pool

/-- The rule that allows everything. -/
def Freely : World → Thread → Prop := fun _ _ => True

/-- A thread keeps a rule in each of its next steps. -/
def Obeys (rule : World → Thread → Prop) : Nat → World → Thread → Prop
  | 0, _, _ => True
  | fuel + 1, w, t => t.stack.isEmpty = true ∨ rule w t ∧ Obeys rule fuel (step w t).1 (step w t).2

instance Obeys.decidable {rule : World → Thread → Prop} [∀ w t, Decidable (rule w t)] :
    (fuel : Nat) → (w : World) → (t : Thread) → Decidable (Obeys rule fuel w t)
  | 0, _, _ => .isTrue trivial
  | fuel + 1, w, t =>
    have : Decidable (Obeys rule fuel (step w t).1 (step w t).2) := Obeys.decidable fuel _ _
    inferInstanceAs (Decidable (_ ∨ rule w t ∧ _))

theorem Obeys.freely (fuel : Nat) (w : World) (t : Thread) : Obeys Freely fuel w t := by
  induction fuel generalizing w t with
  | zero => trivial
  | succ fuel ih => exact .inr ⟨trivial, ih _ _⟩

variable {rule : World → Thread → Prop}

theorem Runs.thread (before after : List Thread) {fuel : Nat} {w : World} {t : Thread} (obeys : Obeys rule fuel w t) :
    ∃ h, Run rule ⟨w, before ++ t :: after⟩ h
      ⟨(runThread fuel w t).1, before ++ (runThread fuel w t).2 :: after⟩ := by
  induction fuel generalizing w t with
  | zero => exact ⟨[], .refl⟩
  | succ fuel ih =>
    unfold runThread
    split
    · exact ⟨[], .refl⟩
    next busy =>
      rcases obeys with idle | ⟨allowed, obeys⟩
      · exact absurd idle busy
      · cases stack : t.stack with
        | nil => simp [stack] at busy
        | cons work rest =>
          obtain ⟨h, run⟩ := ih obeys
          have first : Run rule ⟨w, before ++ t :: after⟩ ([] ++ work.notes w) _ := .step .refl (.run stack allowed)
          exact ⟨_, first.trans run⟩

theorem Runs.call {p : Pool} {h : History} {w : World} {threads : List Thread} (run : Run rule p h ⟨w, threads⟩)
    (action : Action) (fuel : Nat) (obeys : Obeys rule fuel w { stack := [.call action] }) :
    ∃ h, Run rule p h ⟨(runThread fuel w { stack := [.call action] }).1,
      threads ++ [(runThread fuel w { stack := [.call action] }).2]⟩ := by
  obtain ⟨notes, ran⟩ := Runs.thread threads [] obeys
  exact ⟨_, (run.step (.spawn (.inl ⟨action, rfl⟩))).trans ran⟩

/-- One world leads to another, whatever threads stand beside those that lead there. -/
def Leads (rule : World → Thread → Prop) (w w' : World) : Prop :=
  ∀ threads, ∃ h more, Run rule ⟨w, threads⟩ h ⟨w', threads ++ more⟩

namespace Leads

variable {w w' w'' : World}

theorem refl : Leads rule w w := fun threads => ⟨[], [], by rw [List.append_nil]; exact .refl⟩

theorem trans (first : Leads rule w w') (second : Leads rule w' w'') : Leads rule w w'' := by
  intro threads
  obtain ⟨h, more, run⟩ := first threads
  obtain ⟨notes, most, later⟩ := second (threads ++ more)
  rw [List.append_assoc] at later
  exact ⟨_, _, run.trans later⟩

theorem wait (now : Nat) (sleeping : List (Nat × Task)) (ready : List Task) :
    Leads rule w { w with now, sleeping, ready } := by
  intro threads
  refine ⟨[] ++ [], [], ?_⟩
  rw [List.append_nil threads]
  exact .step .refl (.wait now sleeping ready)

theorem thread (fuel : Nat) {t : Thread} (fresh : t.Fresh) (obeys : Obeys rule fuel w t) :
    Leads rule w (runThread fuel w t).1 := by
  intro threads
  obtain ⟨h, run⟩ := Runs.thread threads [] obeys
  have first : Run rule ⟨w, threads⟩ ([] ++ []) ⟨w, threads ++ [t]⟩ := .step .refl (.spawn fresh)
  exact ⟨_, _, first.trans run⟩

theorem settleUpTo (steps fuel : Nat) : Leads Freely w (w.settleUpTo steps fuel) := by
  induction fuel generalizing w with
  | zero => exact .refl
  | succ fuel ih =>
    unfold World.settleUpTo
    split
    · exact .refl
    next task rest ready =>
      have taken : Leads Freely w { w with ready := rest } := .wait w.now w.sleeping rest
      have ran := Leads.thread steps (.inr (.inl ⟨task, rfl⟩)) (.freely steps { w with ready := rest } task.thread)
      exact taken.trans (ran.trans ih)

theorem settle (fuel : Nat) : Leads Freely w (w.settle fuel) := settleUpTo fuel fuel

theorem advanceRuntime (steps fuel target : Nat) : Leads Freely w (w.advanceRuntime steps fuel target) := by
  induction fuel generalizing w with
  | zero => exact .wait (max w.now target) w.sleeping w.ready
  | succ fuel ih =>
    unfold World.advanceRuntime
    split
    · exact .wait (max w.now target) w.sleeping w.ready
    next tick waking =>
      have woken : Leads Freely w (w.wakeAt tick) := .wait _ _ _
      exact woken.trans ((Leads.settle steps).trans ih)

theorem advanceManual (steps fuel target : Nat) : Leads Freely w (w.advanceManual steps fuel target) := by
  induction fuel generalizing w with
  | zero => exact .wait (max w.now target) w.sleeping w.ready
  | succ fuel ih =>
    unfold World.advanceManual
    split
    · exact .wait (max w.now target) w.sleeping w.ready
    next tick id next =>
      have moved : Leads Freely w { w with now := max w.now tick } := .wait (max w.now tick) w.sleeping w.ready
      have ran := Leads.thread steps (.inr (.inr ⟨id, rfl⟩))
        (.freely steps { w with now := max w.now tick } { stack := [.fireInline id] })
      exact moved.trans (ran.trans ih)

theorem take (fuel : Nat) (asked : ScenarioStep) : Leads Freely w (w.take fuel asked).world := by
  cases asked with
  | call action =>
    have ran := Leads.thread fuel (.inl ⟨action, rfl⟩) (.freely fuel w { stack := [.call action] })
    exact ran.trans (Leads.settle fuel)
  | advance ticks =>
    have moved : Leads Freely w (w.advance fuel ticks) := by
      unfold World.advance
      split
      · exact .advanceRuntime _ _ _
      · exact .advanceManual _ _ _
    exact moved.trans (Leads.settle fuel)

theorem reports (fuel : Nat) (steps : List ScenarioStep) : Leads Freely w (reports fuel w steps).2 := by
  induction steps generalizing w with
  | nil => exact .refl
  | cons asked rest ih => exact (Leads.take fuel asked).trans ih

end Leads

/-- Every scenario is a run of the pool. -/
theorem run_of_scenario (drive : Drive) (steps : List ScenarioStep) :
    ∃ h threads, Run Freely (start drive) h ⟨(runScenario drive steps).2, threads⟩ := by
  obtain ⟨h, threads, run⟩ := Leads.reports (w := { drive }) (stepBound (ScenarioStep.workAll steps)) steps []
  exact ⟨h, threads, run⟩

end Pool
end Deferral.Simulation
