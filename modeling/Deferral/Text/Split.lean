/-!
Cutting a text at separators.
-/

namespace Deferral.Text

variable {α : Type} [DecidableEq α]

/-- The parts between separators, at least one. -/
def splitOn (separator : α) : List α → List (List α)
  | [] => [[]]
  | a :: rest =>
    if a = separator then [] :: splitOn separator rest
    else
      match splitOn separator rest with
      | [] => [[a]]
      | part :: parts => (a :: part) :: parts

def cut (separator : α) : List α → List α × List α
  | [] => ([], [])
  | a :: rest =>
    if a = separator then ([], rest)
    else
      let (before, after) := cut separator rest
      (a :: before, after)

variable {separator a : α} {part rest : List α} {parts : List (List α)}

/-- The parts are those of the standard library. -/
theorem splitOn_eq (separator : α) (rest : List α) : splitOn separator rest = rest.splitOn separator := by
  induction rest with
  | nil => rw [splitOn, List.splitOn_nil]
  | cons a rest ih =>
    rw [splitOn, List.splitOn_cons_eq_if_modifyHead, ih]
    split
    next same => rw [if_pos (beq_iff_eq.mpr same)]
    next other =>
      rw [if_neg (mt beq_iff_eq.mp other)]
      cases parts : rest.splitOn separator with
      | nil => exact absurd parts (List.splitOn_ne_nil separator rest)
      | cons first later => rfl

omit [DecidableEq α] in
theorem mem_intercalate (member : a ∈ [separator].intercalate parts) : a = separator ∨ ∃ part ∈ parts, a ∈ part := by
  induction parts with
  | nil => cases member
  | cons part rest ih =>
    cases rest with
    | nil =>
      rw [List.intercalate_singleton] at member
      exact .inr ⟨part, List.mem_cons_self, member⟩
    | cons next rest =>
      rw [List.intercalate_cons_cons, List.mem_append, List.mem_append, List.mem_singleton] at member
      rcases member with (here | same) | later
      · exact .inr ⟨part, List.mem_cons_self, here⟩
      · exact .inl same
      · exact (ih later).imp_right fun ⟨part, inside, here⟩ => ⟨part, List.mem_cons_of_mem _ inside, here⟩

theorem cut_cons_self (separator : α) (rest : List α) : cut separator (separator :: rest) = ([], rest) := by
  rw [cut, if_pos rfl]

theorem cut_append (clear : separator ∉ part) :
    cut separator (part ++ rest) = (part ++ (cut separator rest).1, (cut separator rest).2) := by
  induction part with
  | nil => rfl
  | cons a part ih =>
    obtain ⟨other, clear⟩ := not_or.mp (mt List.mem_cons.mpr clear)
    rw [List.cons_append, cut, if_neg (Ne.symm other), ih clear]
    rfl

theorem cut_of_not_mem (clear : separator ∉ part) : cut separator part = (part, []) := by
  have split := @cut_append _ _ _ _ [] clear
  rwa [List.append_nil, cut, List.append_nil] at split

end Deferral.Text
