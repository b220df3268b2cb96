import Deferral.Proofs.TextBytes
import Mathlib.Data.String.Basic

/-! The order of text and of its bytes. Characters that take more bytes begin with a larger one, and those that
take as many are written with the digits of their codes, so text is ordered by its characters as by its bytes. -/

namespace Deferral.Text

theorem ofNat_cons_lt {n m : Nat} {rest more : List UInt8} (left : n < 256) (right : m < 256) :
    UInt8.ofNat n :: rest < UInt8.ofNat m :: more ↔ n < m ∨ n = m ∧ rest < more := by
  have low : (UInt8.ofNat n).toNat = n := by simp [Nat.mod_eq_of_lt left]
  have high : (UInt8.ofNat m).toNat = m := by simp [Nat.mod_eq_of_lt right]
  rw [List.cons_lt_cons_iff, UInt8.lt_iff_toNat_lt, ← UInt8.toNat_inj, low, high]

/-- Of two characters the one with the smaller code is written with the smaller bytes, whatever follows. -/
theorem utf8EncodeChar_append_lt {a b : Char} (smaller : a < b) (rest more : List UInt8) :
    String.utf8EncodeChar a ++ rest < String.utf8EncodeChar b ++ more := by
  have codes : a.toNat < b.toNat := smaller
  have range : b.toNat < 0x110000 := by
    have valid : b.toNat < 0xD800 ∨ 0xDFFF < b.toNat ∧ b.toNat < 0x110000 := b.valid
    omega
  simp only [String.utf8EncodeChar, Char.toNat_val]
  generalize a.toNat = n at *
  generalize b.toNat = m at *
  -- the digits of a code to the base 64, as the divisions by larger powers give them
  have digits {k : Nat} (inside : k < 0x110000) :
      k / 262144 % 8 = k / 4096 / 64 ∧ k / 4096 = k / 64 / 64 := by omega
  obtain ⟨⟨first, second⟩, first', second'⟩ := And.intro (digits (Nat.lt_trans codes range)) (digits range)
  split_ifs
  all_goals
    simp only [List.cons_append, List.nil_append]
    repeat rw [ofNat_cons_lt (by omega) (by omega)]
    omega

theorem toBytes_cons (c : Char) (cs : List Char) :
    toBytes (String.ofList (c :: cs)) = String.utf8EncodeChar c ++ toBytes (String.ofList cs) := by
  simp only [toBytes, String.toList_ofList, List.flatMap_cons]

theorem toBytes_lt {s t : String} (earlier : s < t) : toBytes s < toBytes t := by
  rw [String.lt_iff_toList_lt] at earlier
  rw [← String.ofList_toList (s := s), ← String.ofList_toList (s := t)]
  generalize s.toList = left at *
  generalize t.toList = right at *
  induction earlier with
  | @nil c cs =>
    rw [toBytes_cons]
    exact (List.lex_nil_or_eq_nil _).resolve_right (by simp)
  | rel smaller =>
    rw [toBytes_cons, toBytes_cons]
    exact utf8EncodeChar_append_lt smaller _ _
  | cons rest ih =>
    rw [toBytes_cons, toBytes_cons]
    exact List.append_left_lt ih

end Deferral.Text
