import Deferral.Proofs.Interleaving

/-! How a history tells that a response ended, and which calls return as the one that ended it. -/

namespace Deferral.Simulation

/-- How a response ended by the request that a note tells of, with its tick. -/
def Note.ending? (r : Nat) : Note → Option (Nat × Outcome String)
  | .served tick s asked (.ok _) => if s = r then asked.ending?.map fun (_, outcome) => (tick, outcome) else none
  | _ => none

def endings (r : Nat) (h : History) : List (Nat × Outcome String) := h.filterMap (Note.ending? r)

@[simp] theorem endings_append (r : Nat) (h notes : History) :
    endings r (h ++ notes) = endings r h ++ endings r notes := List.filterMap_append

theorem endings_untold {r : Nat} {notes : History}
    (untold : ∀ tick asked arms, .served tick r asked (.ok arms) ∉ notes) : endings r notes = [] := by
  apply List.filterMap_eq_nil_iff.mpr
  intro note member
  unfold Note.ending?
  split
  · split
    next same => exact absurd (same ▸ member) (untold _ _ _)
    · rfl
  · rfl

theorem endings_served (tick r : Nat) (asked : Request) (arms : Option Response.Arming) :
    endings r [.served tick r asked (.ok arms)] = asked.ending?.toList.map fun (_, outcome) => (tick, outcome) := by
  cases ends : asked.ending? <;> simp [endings, Note.ending?, ends]

/-- Whether work is the successful return of a call that ended a response. -/
def Work.settles (r : Nat) : Work → Bool
  | .settled s _ => s == r
  | _ => false

def Note.settles (r : Nat) : Note → Bool
  | .returned s _ => s == r
  | _ => false

theorem Work.settles_duty (r : Nat) {work : Work} (settles : work.settles r = true) : work.isDuty = true := by
  cases work <;> first | rfl | cases settles

theorem Request.countP_settles {r s : Nat} {x : Response String Listener} {asked : Request} {g : Grant}
    (granted : asked.grant s x = .ok g) :
    (g.work s).countP (·.settles r) ≤ if s = r then asked.ending?.toList.length else 0 := by
  have duties := countP_grant granted fun _ => Work.settles_duty r
  have disarmed : (g.disarms.toList.map Work.disarm).countP (·.settles r) = 0 := by
    cases g.disarms <;> simp [Work.settles]
  have armed : (g.arms.toList.map (Work.arm s)).countP (·.settles r) = 0 := by
    cases g.arms <;> simp [Work.settles]
  have settled : (asked.ending?.toList.map fun ending => Work.settled s ending.1).countP (·.settles r) =
      if s = r then asked.ending?.toList.length else 0 := by
    cases asked.ending? <;> by_cases same : s = r <;> simp [Work.settles, same]
  omega

theorem Work.notes_settles (w : World) (work : Work) (r : Nat) :
    (work.notes w).countP (·.settles r) = if work.settles r then 1 else 0 := by
  cases work with
  | settled s operation => exact List.countP_singleton ..
  | _ =>
    apply List.countP_eq_zero.mpr
    intro note member settles
    unfold Work.notes at member
    split at member
    · next same => cases same
    · split at member
      · rw [List.mem_singleton.mp member] at settles
        cases settles
      · cases member
    · cases member

/-- A call returns as one that ended a response only if a step noted that it did. -/
theorem Effect.countP_settles {before after : World} {work : Work} {rest stack : List Work}
    (effect : Effect before work rest after stack) (r : Nat) :
    stack.countP (·.settles r) + (work.notes before).countP (·.settles r) ≤
      (work :: rest).countP (·.settles r) + (endings r (work.notes before)).length := by
  rw [List.countP_cons, Work.notes_settles]
  rcases effect.duties fun _ => Work.settles_duty r with
    fewer | ⟨s, asked, x, grant, asks, found, granted, same⟩
  · omega
  · rw [same, List.countP_append, Work.notes_granted asks found granted]
    have settles := Request.countP_settles (r := r) granted
    by_cases same : s = r
    · subst same
      rw [endings_served, List.length_map]
      rw [if_pos rfl] at settles
      omega
    · rw [if_neg same] at settles
      omega

namespace Pool

theorem Step.settles_le {rule : World → Thread → Prop} {p q : Pool} {notes : History} (step : Step rule p notes q)
    (r : Nat) : q.works.countP (·.settles r) + notes.countP (·.settles r) ≤
      p.works.countP (·.settles r) + (endings r notes).length := by
  cases step with
  | wait => exact Nat.le_add_right _ _
  | @spawn w threads t fresh =>
    have none : t.stack.countP (·.settles r) = 0 := by
      rcases fresh with ⟨action, stack⟩ | ⟨task, stack⟩ | ⟨timer, stack⟩
      · simp [stack, Work.settles]
      · cases task <;> simp [stack, Task.thread, Work.settles]
      · simp [stack, Work.settles]
    simp [works, none]
  | @run w before t after work rest stack allowed =>
    have effect := (step_effect (w := w) stack).countP_settles r
    have others : (Pool.mk (step w t).1 (before ++ after)).works = (Pool.mk w (before ++ after)).works := rfl
    simp only [countP_works_run, stack, others]
    omega

end Pool
end Deferral.Simulation
