/-!
The table of unresolved responses, by their indices in the order of registration.
-/

namespace Deferral

structure Registry where
  ids : List Nat := []
  deriving DecidableEq, Repr

namespace Registry

def contains (g : Registry) (r : Nat) : Bool := g.ids.contains r

def size (g : Registry) : Nat := g.ids.length

/-- Adds a response; one that is there already stays where it is. -/
def insert (g : Registry) (r : Nat) : Registry := if g.contains r then g else ⟨g.ids ++ [r]⟩

def remove (g : Registry) (r : Nat) : Registry := ⟨g.ids.filter (· != r)⟩

@[simp] theorem contains_insert (g : Registry) (r s : Nat) :
    (g.insert r).contains s = (s == r || g.contains s) := by
  by_cases h : g.contains r = true
  · by_cases e : s = r
    · subst e; simp [insert, h]
    · simp [insert, h, e]
  · have absent : r ∉ g.ids := by simpa [contains] using h
    rw [Bool.eq_iff_iff]
    simp [insert, contains, absent, or_comm]

@[simp] theorem contains_remove (g : Registry) (r s : Nat) :
    (g.remove r).contains s = (s != r && g.contains s) := by
  rw [Bool.eq_iff_iff]
  simp [remove, contains, and_comm]

end Registry
end Deferral
