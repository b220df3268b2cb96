import Deferral.Config.Decode
import Mathlib.Data.List.Pairwise

/-! The order of a table's entries. The fields of a structure are written apart, so whichever of them is
read first, a table is read as the same structure, or refused. -/

namespace Deferral.Config

theorem bind_ok_iff {ε α β : Type} {x : Except ε α} {f : α → Except ε β} {b : β} :
    x >>= f = .ok b ↔ ∃ a, x = .ok a ∧ f a = .ok b := by
  cases x <;> simp [bind, Except.bind]

section
variable {σ : Type} {fields : List (Field σ)} {start state : σ} {x y x' z : σ × List String}
  {a b entry : String × Value} {entries more : List (String × Value)}

/-- What one field writes, the other leaves. -/
def Field.Apart (a b : Field σ) : Prop :=
  ∀ v w f g, a.update v = .ok f → b.update w = .ok g → ∀ s, f (g s) = g (f s)

instance : Std.Symm (@Field.Apart σ) where
  symm _ _ apart v w f g here there s := (apart w v g f there here s).symm

/-- No two of the fields write to the same place. -/
abbrev Independent (fields : List (Field σ)) : Prop := fields.Pairwise Field.Apart

theorem Field.apart_of_set {α β : Type} {name other : String} {decode : Decoder α} {decode' : Decoder β}
    {set : α → σ → σ} {set' : β → σ → σ} (commute : ∀ a b s, set a (set' b s) = set' b (set a s)) :
    Field.Apart ⟨name, fun v => do let a ← decode v; return set a⟩
      ⟨other, fun v => do let b ← decode' v; return set' b⟩ := by
  intro v w f g here there s
  obtain ⟨a, -, h⟩ := bind_ok_iff.mp here
  obtain ⟨b, -, h'⟩ := bind_ok_iff.mp there
  cases h
  cases h'
  exact commute a b s

/-- What has been read is the same, by the same fields in any order. -/
def Agree (x y : σ × List String) : Prop := x.1 = y.1 ∧ ∀ name, name ∈ x.2 ↔ name ∈ y.2

theorem Agree.refl (x : σ × List String) : Agree x x := ⟨rfl, fun _ => .rfl⟩

theorem Agree.trans (first : Agree x y) (second : Agree y z) : Agree x z :=
  ⟨first.1.trans second.1, fun name => (first.2 name).trans (second.2 name)⟩

theorem readEntry_unknown (unknown : fields.find? (·.name == entry.1) = none) :
    readEntry fields x entry = .ok x := by
  rw [readEntry, unknown]

theorem readEntry_ok_iff {field : Field σ} (known : fields.find? (·.name == entry.1) = some field) :
    readEntry fields x entry = .ok x' ↔
      field.name ∉ x.2 ∧ ∃ update, field.update entry.2 = .ok update ∧ x' = (update x.1, field.name :: x.2) := by
  rw [readEntry, known]
  simp only [List.contains_iff_mem]
  split
  next again => simp [again]
  next fresh =>
    cases field.update entry.2 with
    | error e => simp [bind, Except.bind]
    | ok update => simp [bind, Except.bind, pure, Except.pure, fresh, eq_comm]

theorem readEntry_agree (agree : Agree x y) (done : readEntry fields x entry = .ok x') :
    ∃ y', readEntry fields y entry = .ok y' ∧ Agree x' y' := by
  cases known : fields.find? (·.name == entry.1) with
  | none =>
    rw [readEntry_unknown known] at done ⊢
    cases done
    exact ⟨y, rfl, agree⟩
  | some field =>
    obtain ⟨fresh, update, decoded, rfl⟩ := (readEntry_ok_iff known).mp done
    refine ⟨_, (readEntry_ok_iff known).mpr ⟨mt (agree.2 _).mpr fresh, update, decoded, rfl⟩, ?_, ?_⟩
    · rw [agree.1]
    · simp [agree.2]

theorem foldlM_agree (agree : Agree x y) (done : entries.foldlM (readEntry fields) x = .ok x') :
    ∃ y', entries.foldlM (readEntry fields) y = .ok y' ∧ Agree x' y' := by
  induction entries generalizing x y with
  | nil =>
    cases done
    exact ⟨y, rfl, agree⟩
  | cons entry rest ih =>
    obtain ⟨_, first, done⟩ := bind_ok_iff.mp done
    obtain ⟨_, first, agree⟩ := readEntry_agree agree first
    obtain ⟨y', rest, agree⟩ := ih agree done
    exact ⟨y', bind_ok_iff.mpr ⟨_, first, rest⟩, agree⟩

theorem readEntry_swap (independent : Independent fields) (first : readEntry fields x a = .ok y)
    (second : readEntry fields y b = .ok z) :
    ∃ y' z', readEntry fields x b = .ok y' ∧ readEntry fields y' a = .ok z' ∧ Agree z z' := by
  cases here : fields.find? (·.name == a.1) with
  | none =>
    rw [readEntry_unknown here] at first
    cases first
    exact ⟨z, z, second, readEntry_unknown here, .refl z⟩
  | some f =>
    cases there : fields.find? (·.name == b.1) with
    | none =>
      rw [readEntry_unknown there] at second
      cases second
      exact ⟨x, y, readEntry_unknown there, first, .refl y⟩
    | some g =>
      obtain ⟨newF, updateF, decodedF, rfl⟩ := (readEntry_ok_iff here).mp first
      obtain ⟨newG, updateG, decodedG, rfl⟩ := (readEntry_ok_iff there).mp second
      obtain ⟨apart, newG⟩ := not_or.mp (mt List.mem_cons.mpr newG)
      have commute : updateG (updateF x.1) = updateF (updateG x.1) :=
        independent.forall (List.mem_of_find?_eq_some there) (List.mem_of_find?_eq_some here)
          (fun same => apart (by rw [same])) _ _ _ _ decodedG decodedF x.1
      refine ⟨_, _, (readEntry_ok_iff there).mpr ⟨newG, updateG, decodedG, rfl⟩,
        (readEntry_ok_iff here).mpr ⟨?_, updateF, decodedF, rfl⟩, commute, ?_⟩
      · rw [List.mem_cons, not_or]
        exact ⟨Ne.symm apart, newF⟩
      · intro name
        simp only [List.mem_cons]
        exact or_left_comm

theorem foldlM_perm (independent : Independent fields) (perm : entries.Perm more) (agree : Agree x y)
    (done : entries.foldlM (readEntry fields) x = .ok x') :
    ∃ y', more.foldlM (readEntry fields) y = .ok y' ∧ Agree x' y' := by
  induction perm generalizing x y x' with
  | nil => exact foldlM_agree agree done
  | cons entry _ ih =>
    obtain ⟨_, first, done⟩ := bind_ok_iff.mp done
    obtain ⟨_, first, agree⟩ := readEntry_agree agree first
    obtain ⟨y', rest, agree⟩ := ih agree done
    exact ⟨y', bind_ok_iff.mpr ⟨_, first, rest⟩, agree⟩
  | swap a b rest =>
    obtain ⟨_, first, done⟩ := bind_ok_iff.mp done
    obtain ⟨_, second, done⟩ := bind_ok_iff.mp done
    obtain ⟨_, first, agreeFirst⟩ := readEntry_agree agree first
    obtain ⟨_, second, agreeSecond⟩ := readEntry_agree agreeFirst second
    obtain ⟨_, _, second, first, swapped⟩ := readEntry_swap independent first second
    obtain ⟨y', rest, agree⟩ := foldlM_agree (agreeSecond.trans swapped) done
    exact ⟨y', bind_ok_iff.mpr ⟨_, second, bind_ok_iff.mpr ⟨_, first, rest⟩⟩, agree⟩
  | trans _ _ ih₁ ih₂ =>
    obtain ⟨_, done, agree⟩ := ih₁ agree done
    obtain ⟨y', done, later⟩ := ih₂ (.refl _) done
    exact ⟨y', done, agree.trans later⟩

theorem decodeEntries_ok_iff : decodeEntries fields start entries = .ok state ↔
    ∃ read, entries.foldlM (readEntry fields) (start, []) = .ok read ∧ read.1 = state := by
  rw [decodeEntries]
  cases entries.foldlM (readEntry fields) (start, []) <;> simp [Functor.map, Except.map]

/-- A table is decoded as the same structure in whatever order its entries stand, or in none. -/
theorem decodeEntries_perm (independent : Independent fields) (perm : entries.Perm more) :
    decodeEntries fields start entries = .ok state ↔ decodeEntries fields start more = .ok state := by
  have half {entries more : List (String × Value)} (perm : entries.Perm more)
      (decoded : decodeEntries fields start entries = .ok state) : decodeEntries fields start more = .ok state := by
    obtain ⟨read, done, rfl⟩ := decodeEntries_ok_iff.mp decoded
    obtain ⟨read', done, agree⟩ := foldlM_perm independent perm (.refl _) done
    exact decodeEntries_ok_iff.mpr ⟨read', done, agree.1.symm⟩
  exact ⟨half perm, half perm.symm⟩

end

/-! ### The structures of a configuration -/

theorem listenerFields_independent : Independent listenerFields := List.pairwise_singleton _ _

theorem routeNameField_independent : Independent [routeNameField] := List.pairwise_singleton _ _

theorem timeoutFields_independent : Independent timeoutFields := by
  refine .cons ?_ (.cons nofun .nil)
  simp only [List.forall_mem_cons, List.not_mem_nil, false_imp_iff, implies_true, and_true]
  exact Field.apart_of_set fun _ _ _ => rfl

theorem policyFields_independent (unit : Decoder TimeUnit) : Independent (policyFields unit) := by
  refine .cons ?_ (.cons nofun .nil)
  simp only [List.forall_mem_cons, List.not_mem_nil, false_imp_iff, implies_true, and_true]
  exact Field.apart_of_set fun _ _ _ => rfl

theorem observabilityFields_independent (source : Source) : Independent (observabilityFields source) := by
  refine .cons ?_ (.cons ?_ (.cons ?_ (.cons nofun .nil)))
  all_goals
    simp only [List.forall_mem_cons, List.not_mem_nil, false_imp_iff, implies_true, and_true]
  · exact ⟨Field.apart_of_set fun _ _ _ => rfl, Field.apart_of_set fun _ _ _ => rfl,
      Field.apart_of_set fun _ _ _ => rfl⟩
  · exact ⟨Field.apart_of_set fun _ _ _ => rfl, Field.apart_of_set fun _ _ _ => rfl⟩
  · exact Field.apart_of_set fun _ _ _ => rfl

theorem serviceFields_independent (source : Source) : Independent (serviceFields source) := by
  refine .cons ?_ (.cons ?_ (.cons ?_ (.cons nofun .nil)))
  all_goals
    simp only [List.forall_mem_cons, List.not_mem_nil, false_imp_iff, implies_true, and_true]
  · exact ⟨Field.apart_of_set fun _ _ _ => rfl, Field.apart_of_set fun _ _ _ => rfl,
      Field.apart_of_set fun _ _ _ => rfl⟩
  · exact ⟨Field.apart_of_set fun _ _ _ => rfl, Field.apart_of_set fun _ _ _ => rfl⟩
  · exact Field.apart_of_set fun _ _ _ => rfl

end Deferral.Config
