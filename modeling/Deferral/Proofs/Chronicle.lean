import Deferral.Proofs.PoolInvariant

/-! Runs told step by step. A chronicle keeps the moment before each step of a thread, so that it can be
said which step came before which and what stood on the stack below it. Work on a stack is done there, and
before what stands below it, unless a panic drops it. -/

namespace Deferral.Simulation

/-- A thread about to go on: its place in the pool, the world, and the thread itself. -/
structure Moment where
  place : Nat
  world : World
  thread : Thread

namespace Pool

/-- One step of a pool, with the moment before it if a thread goes on. -/
inductive Move (rule : World → Thread → Prop) : Pool → List Moment → Pool → Prop where
  | run {w before t after work rest} (stack : t.stack = work :: rest) (allowed : rule w t) :
      Move rule ⟨w, before ++ t :: after⟩ [⟨before.length, w, t⟩]
        ⟨(step w t).1, before ++ (step w t).2 :: after⟩
  | spawn {w threads t} (fresh : t.Fresh) : Move rule ⟨w, threads⟩ [] ⟨w, threads ++ [t]⟩
  | wait {w threads} (now : Nat) (sleeping : List (Nat × Task)) (ready : List Task) :
      Move rule ⟨w, threads⟩ [] ⟨{ w with now, sleeping, ready }, threads⟩

inductive Chronicle (rule : World → Thread → Prop) (p : Pool) : List Moment → Pool → Prop where
  | refl : Chronicle rule p [] p
  | move {m q moments last} (past : Chronicle rule p m q) (next : Move rule q moments last) :
      Chronicle rule p (m ++ moments) last

variable {rule : World → Thread → Prop} {p q last : Pool} {m n moments : List Moment}

theorem Move.step (move : Move rule p moments q) : ∃ notes, Step rule p notes q := by
  cases move with
  | run stack allowed => exact ⟨_, .run stack allowed⟩
  | spawn fresh => exact ⟨_, .spawn fresh⟩
  | wait now sleeping ready => exact ⟨_, .wait now sleeping ready⟩

namespace Chronicle

theorem history (chronicle : Chronicle rule p m q) : ∃ h, Run rule p h q := by
  induction chronicle with
  | refl => exact ⟨[], .refl⟩
  | move past next ih =>
    obtain ⟨h, run⟩ := ih
    obtain ⟨notes, step⟩ := next.step
    exact ⟨h ++ notes, run.step step⟩

theorem of_run {h : History} (run : Run rule p h q) : ∃ m, Chronicle rule p m q := by
  induction run with
  | refl => exact ⟨[], .refl⟩
  | step run next ih =>
    obtain ⟨m, past⟩ := ih
    cases next with
    | run stack allowed => exact ⟨_, past.move (.run stack allowed)⟩
    | spawn fresh => exact ⟨_, past.move (.spawn fresh)⟩
    | wait now sleeping ready => exact ⟨_, past.move (.wait now sleeping ready)⟩

theorem valid {drive : Drive} (chronicle : Chronicle rule (start drive) m p) : ∃ h, Valid h p := by
  obtain ⟨h, run⟩ := chronicle.history
  exact ⟨h, .of_run run⟩

theorem trans (first : Chronicle rule p m q) (second : Chronicle rule q n last) : Chronicle rule p (m ++ n) last := by
  induction second with
  | refl => rw [List.append_nil]; exact first
  | move past next ih => rw [← List.append_assoc]; exact ih.move next

theorem mono {wider : World → Thread → Prop} (wider_of : ∀ w t, rule w t → wider w t) (chronicle : Chronicle rule p m q) :
    Chronicle wider p m q := by
  induction chronicle with
  | refl => exact .refl
  | move past next ih =>
    cases next with
    | run stack allowed => exact ih.move (.run stack (wider_of _ _ allowed))
    | spawn fresh => exact ih.move (.spawn fresh)
    | wait now sleeping ready => exact ih.move (.wait now sleeping ready)

/-- A chronicle cut at a moment: what led to it, the pool that it found, and what came of its step. -/
inductive Cut (rule : World → Thread → Prop) (p : Pool) (m : List Moment) : Moment → List Moment → Pool → Prop where
  | found {w before t after work rest n q} (past : Chronicle rule p m ⟨w, before ++ t :: after⟩)
      (stack : t.stack = work :: rest) (allowed : rule w t)
      (later : Chronicle rule ⟨(Simulation.step w t).1, before ++ (Simulation.step w t).2 :: after⟩ n q) :
      Cut rule p m ⟨before.length, w, t⟩ n q

theorem cut {moment : Moment} (chronicle : Chronicle rule p (m ++ moment :: n) q) : Cut rule p m moment n q := by
  generalize told : m ++ moment :: n = whole at chronicle
  induction chronicle generalizing n with
  | refl => exact absurd told (by simp)
  | @move _ middle moments last past next ih =>
    have silent (empty : moments = []) (ends : Chronicle rule middle [] last) : Cut rule p m moment n last := by
      subst empty
      rw [List.append_nil] at told
      cases ih told with
      | found earlier stack allowed later =>
        have whole := later.trans ends
        rw [List.append_nil] at whole
        exact .found earlier stack allowed whole
    cases next with
    | spawn fresh => exact silent rfl (.move .refl (.spawn fresh))
    | wait now sleeping ready => exact silent rfl (.move .refl (.wait now sleeping ready))
    | run stack allowed =>
      rcases List.eq_nil_or_concat n with rfl | ⟨n, final, rfl⟩
      · obtain ⟨rfl, same⟩ := List.append_inj' told rfl
        cases same
        exact .found past stack allowed .refl
      · rw [List.concat_eq_append] at told ⊢
        rw [← List.cons_append, ← List.append_assoc] at told
        obtain ⟨older, same⟩ := List.append_inj' told rfl
        cases same
        cases ih older with
        | found earlier begun granted later => exact .found earlier begun granted (later.move (.run stack allowed))

end Chronicle
end Pool
end Deferral.Simulation
