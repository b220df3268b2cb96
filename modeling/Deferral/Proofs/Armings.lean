import Deferral.Proofs.Interleaving

/-! The clocks that a history tells of. Each start of a response's clock is scheduled at most once, and
everything in flight that names a generation carries the window of the start with that number. -/

namespace Deferral.Simulation
open Response (Arming)

/-- The start of a response's clock that a note tells of, with its tick. -/
def Note.arming? (r : Nat) : Note → Option (Nat × Arming)
  | .served tick s _ (.ok (some arming)) => if s = r then some (tick, arming) else none
  | _ => none

def armings (r : Nat) (h : History) : List (Nat × Arming) := h.filterMap (Note.arming? r)

@[simp] theorem armings_append (r : Nat) (h notes : History) :
    armings r (h ++ notes) = armings r h ++ armings r notes := List.filterMap_append

theorem armings_untold {r : Nat} {notes : History}
    (untold : ∀ tick asked arms, .served tick r asked (.ok arms) ∉ notes) : armings r notes = [] := by
  apply List.filterMap_eq_nil_iff.mpr
  intro note member
  unfold Note.arming?
  split
  · split
    next same => exact absurd (same ▸ member) (untold _ _ _)
    · rfl
  · rfl

theorem armings_served (tick r : Nat) (asked : Request) (arms : Option Arming) :
    armings r [.served tick r asked (.ok arms)] = arms.toList.map (tick, ·) := by
  cases arms <;> simp [armings, Note.arming?]

def Work.arms (r : Nat) (arming : Arming) : Work → Bool
  | .arm s other => s == r && other == arming
  | _ => false

def Callback.expires (r : Nat) (arming : Arming) : Callback → Bool
  | .expire s window generation => s == r && (⟨window, generation⟩ : Arming) == arming
  | _ => false

theorem Work.arms_duty (r : Nat) (arming : Arming) {work : Work} (arms : work.arms r arming = true) :
    work.isDuty = true := by
  cases work <;> first | rfl | cases arms

theorem Request.countP_arms {r s : Nat} {x : Response String Listener} {asked : Request} {g : Grant}
    (granted : asked.grant s x = .ok g) (arming : Arming) :
    (g.work s).countP (·.arms r arming) ≤ if s = r then g.arms.toList.count arming else 0 := by
  have duties := countP_grant granted fun _ => Work.arms_duty r arming
  have disarmed : (g.disarms.toList.map Work.disarm).countP (·.arms r arming) = 0 := by
    cases g.disarms <;> simp [Work.arms]
  have settled : (asked.ending?.toList.map fun ending => Work.settled s ending.1).countP (·.arms r arming) = 0 := by
    cases asked.ending? <;> simp [Work.arms]
  have armed : (g.arms.toList.map (Work.arm s)).countP (·.arms r arming) =
      if s = r then g.arms.toList.count arming else 0 := by
    cases g.arms with
    | none => simp
    | some other => by_cases same : s = r <;> by_cases equal : other = arming <;> simp [Work.arms, same, equal]
  omega

/-- A start of a clock that a step schedules was to be scheduled, and a step leaves one more to be
scheduled only by a start that it notes. -/
theorem Effect.countP_arms {before after : World} {work : Work} {rest stack : List Work}
    (effect : Effect before work rest after stack) (r : Nat) (arming : Arming) :
    stack.countP (·.arms r arming) + after.timers.callbacks.countP (·.expires r arming) ≤
      (work :: rest).countP (·.arms r arming) + before.timers.callbacks.countP (·.expires r arming) +
        ((armings r (work.notes before)).map Prod.snd).count arming := by
  rw [List.countP_cons]
  rcases effect.duties fun _ => Work.arms_duty r arming with
    fewer | ⟨s, asked, x, grant, asks, found, granted, same⟩
  · have scheduled : after.timers.callbacks.countP (·.expires r arming) ≤
        before.timers.callbacks.countP (·.expires r arming) + if work.arms r arming then 1 else 0 := by
      rcases effect.callbacks with same | ⟨callback, asks, same⟩
      · rw [same]; exact Nat.le_add_right _ _
      · rw [same, List.countP_append, List.countP_singleton]
        cases work with
        | arm s other => cases asks; exact Nat.le_refl _
        | call action => cases action <;> cases asks; exact Nat.le_add_right _ _
        | _ => cases asks
    omega
  · have told := Work.notes_granted asks found granted
    have none : after.timers.callbacks = before.timers.callbacks := by
      rcases effect.callbacks with same | ⟨callback, hands, -⟩
      · exact same
      · cases work with
        | call action => cases action <;> first | cases asks; done | cases hands
        | request => cases hands
        | _ => cases asks
    rw [none, same, List.countP_append, told]
    have arms := Request.countP_arms (r := r) granted arming
    by_cases same : s = r
    · subst same
      rw [armings_served]
      rw [if_pos rfl] at arms
      rw [List.map_map, Function.comp_def, List.map_id']
      omega
    · rw [if_neg same] at arms
      omega

namespace Pool

/-- How often a start of a response's clock is in flight: still to be scheduled, or scheduled. -/
def inflight (p : Pool) (r : Nat) (arming : Arming) : Nat :=
  p.works.countP (·.arms r arming) + p.world.timers.callbacks.countP (·.expires r arming)

theorem Step.inflight_le {rule : World → Thread → Prop} {p q : Pool} {notes : History} (step : Step rule p notes q)
    (r : Nat) (arming : Arming) :
    q.inflight r arming ≤ p.inflight r arming + ((armings r notes).map Prod.snd).count arming := by
  cases step with
  | wait => exact Nat.le_add_right _ _
  | @spawn w threads t fresh =>
    have none : t.stack.countP (·.arms r arming) = 0 := by
      rcases fresh with ⟨action, stack⟩ | ⟨task, stack⟩ | ⟨timer, stack⟩
      · simp [stack, Work.arms]
      · cases task <;> simp [stack, Task.thread, Work.arms]
      · simp [stack, Work.arms]
    simp [inflight, works, none]
  | @run w before t after work rest stack allowed =>
    have effect := (step_effect (w := w) stack).countP_arms r arming
    have others : (Pool.mk (step w t).1 (before ++ after)).works = (Pool.mk w (before ++ after)).works := rfl
    simp only [inflight, countP_works_run, stack, others]
    omega

end Pool
end Deferral.Simulation
