import Deferral.Text.Utf8
import Mathlib.Algebra.GroupWithZero.Nat
import Mathlib.Data.List.Basic

/-! Text as bytes and back. What was written is read again, character by character, and bytes that are text take as many
bytes to write as were read. -/

namespace Deferral.Text

/-- How many bytes write the character with a code. -/
def width (code : Nat) : Nat := if code ≤ 0x7F then 1 else if code ≤ 0x7FF then 2 else if code ≤ 0xFFFF then 3 else 4

theorem length_utf8EncodeChar (c : Char) : (String.utf8EncodeChar c).length = width c.toNat := by
  simp only [String.utf8EncodeChar, width, Char.toNat_val]
  split_ifs <;> rfl

/-- How many bytes write some characters. -/
def size (cs : List Char) : Nat := (toBytes (String.ofList cs)).length

theorem size_eq (cs : List Char) : size cs = (cs.map fun c => width c.toNat).sum := by
  rw [size, toBytes, String.toList_ofList, List.length_flatMap]
  simp only [length_utf8EncodeChar]

theorem width_pos (code : Nat) : 0 < width code := by
  unfold width
  split_ifs <;> decide

theorem size_cons (c : Char) (cs : List Char) : size (c :: cs) = width c.toNat + size cs := by
  simp only [size_eq, List.map_cons, List.sum_cons]

theorem size_le {xs ys : List Char} (part : xs.Sublist ys) : size xs ≤ size ys := by
  induction part with
  | slnil => exact Nat.le_refl _
  | cons c _ ih =>
    rw [size_cons]
    omega
  | cons_cons c _ ih =>
    rw [size_cons, size_cons]
    omega

/-- What loses no byte loses no character. -/
theorem eq_of_size {xs ys : List Char} (part : xs.Sublist ys) (same : size ys ≤ size xs) : xs = ys := by
  induction part with
  | slnil => rfl
  | cons c part ih =>
    have := size_le part
    have := width_pos c.toNat
    rw [size_cons] at same
    omega
  | cons_cons c part ih =>
    rw [size_cons, size_cons] at same
    rw [ih (by omega)]

section
variable {code low high : Nat} {byte : UInt8} {rest : List UInt8}

theorem readFrom_last (lower : low ≤ byte.toNat) (upper : byte.toNat ≤ high) :
    readFrom (.within code low high 0) (byte :: rest) =
      some (Char.ofNat (code * 64 + (byte.toNat - 0x80))) :: readFrom .between rest := by
  simp only [readFrom, ReadState.feed, if_pos (And.intro lower upper)]
  rfl

theorem readFrom_more {following : Nat} (lower : low ≤ byte.toNat) (upper : byte.toNat ≤ high) :
    readFrom (.within code low high (following + 1)) (byte :: rest) =
      readFrom (.within (code * 64 + (byte.toNat - 0x80)) 0x80 0xBF following) rest := by
  simp only [readFrom, ReadState.feed, if_pos (And.intro lower upper)]
  rfl

theorem readFrom_first {state : ReadState} (first : ReadState.first byte.toNat = (state, [])) :
    readFrom .between (byte :: rest) = readFrom state rest := by
  simp only [readFrom, ReadState.feed, first]
  rfl

end

theorem readFrom_encode (c : Char) (rest : List UInt8) :
    readFrom .between (String.utf8EncodeChar c ++ rest) = some c :: readFrom .between rest := by
  have range : c.toNat < 0xD800 ∨ 0xDFFF < c.toNat ∧ c.toNat < 0x110000 := c.valid
  have same {code : Nat} (eq : code = c.toNat) : some (Char.ofNat code) = some c := by rw [eq, Char.ofNat_toNat]
  have byte {n : Nat} (small : n < 256) : (UInt8.ofNat n).toNat = n := by simp [Nat.mod_eq_of_lt small]
  have tail (n : Nat) : (UInt8.ofNat (n % 64 + 128)).toNat = n % 64 + 128 := byte (by omega)
  simp only [String.utf8EncodeChar, Char.toNat_val]
  split_ifs with one two three
  · have first : ReadState.first (UInt8.ofNat c.toNat).toNat = (.between, [some c]) := by
      rw [byte (by omega), ReadState.first, if_pos (by omega), Char.ofNat_toNat]
    simp only [List.cons_append, List.nil_append, readFrom, ReadState.feed, first]
  · have head : (UInt8.ofNat (c.toNat / 64 % 32 + 192)).toNat = c.toNat / 64 + 192 := (byte (by omega)).trans (by omega)
    have first : ReadState.first (c.toNat / 64 + 192) = (.within (c.toNat / 64) 0x80 0xBF 0, []) := by
      rw [ReadState.first, if_neg (by omega), if_pos (by omega), Nat.add_sub_cancel]
    rw [List.cons_append, readFrom_first (head.symm ▸ first), List.cons_append,
      readFrom_last (by rw [tail]; omega) (by rw [tail]; omega), tail, List.nil_append, same (by omega)]
  · have head : (UInt8.ofNat (c.toNat / 4096 % 16 + 224)).toNat = c.toNat / 4096 + 224 :=
      (byte (by omega)).trans (by omega)
    obtain ⟨low, high, first, lower, upper⟩ : ∃ low high,
        ReadState.first (c.toNat / 4096 + 224) = (.within (c.toNat / 4096) low high 1, []) ∧
          low ≤ c.toNat / 64 % 64 + 128 ∧ c.toNat / 64 % 64 + 128 ≤ high := by
      rw [ReadState.first, if_neg (by omega), if_neg (by omega)]
      split_ifs with lowest surrogates
      · exact ⟨_, _, by rw [show c.toNat / 4096 = 0 by omega], by omega, by omega⟩
      · exact ⟨_, _, by rw [show c.toNat / 4096 = 13 by omega], by omega, by omega⟩
      · exact ⟨_, _, by rw [Nat.add_sub_cancel], by omega, by omega⟩
      all_goals omega
    simp only [List.cons_append, List.nil_append]
    rw [readFrom_first (head.symm ▸ first), readFrom_more (by rw [tail]; exact lower) (by rw [tail]; exact upper),
      readFrom_last (by rw [tail]; omega) (by rw [tail]; omega), tail, tail, same (by omega)]
  · have head : (UInt8.ofNat (c.toNat / 262144 % 8 + 240)).toNat = c.toNat / 262144 + 240 :=
      (byte (by omega)).trans (by omega)
    obtain ⟨low, high, first, lower, upper⟩ : ∃ low high,
        ReadState.first (c.toNat / 262144 + 240) = (.within (c.toNat / 262144) low high 2, []) ∧
          low ≤ c.toNat / 4096 % 64 + 128 ∧ c.toNat / 4096 % 64 + 128 ≤ high := by
      rw [ReadState.first, if_neg (by omega), if_neg (by omega), if_neg (by omega), if_neg (by omega),
        if_neg (by omega)]
      split_ifs with lowest highest
      · exact ⟨_, _, by rw [show c.toNat / 262144 = 0 by omega], by omega, by omega⟩
      · exact ⟨_, _, by rw [show c.toNat / 262144 = 4 by omega], by omega, by omega⟩
      · exact ⟨_, _, by rw [Nat.add_sub_cancel], by omega, by omega⟩
      all_goals omega
    simp only [List.cons_append, List.nil_append]
    rw [readFrom_first (head.symm ▸ first), readFrom_more (by rw [tail]; exact lower) (by rw [tail]; exact upper),
      readFrom_more (by rw [tail]; omega) (by rw [tail]; omega),
      readFrom_last (by rw [tail]; omega) (by rw [tail]; omega), tail, tail, tail, same (by omega)]

theorem readBytes_toBytes (s : String) : readBytes (toBytes s) = s.toList.map some := by
  unfold readBytes toBytes
  induction s.toList with
  | nil => rfl
  | cons c rest ih => rw [List.flatMap_cons, readFrom_encode, ih, List.map_cons]

theorem fromBytes?_toBytes (s : String) : fromBytes? (toBytes s) = some s := by
  have every : (s.toList.map some).mapM id = some s.toList := by
    induction s.toList with
    | nil => rfl
    | cons c rest ih => simp [ih]
  rw [fromBytes?, readBytes_toBytes, every, Option.map_some, String.ofList_toList]

theorem fromBytesLossy_toBytes (s : String) : fromBytesLossy (toBytes s) = s := by
  have every : s.toList.map ((·.getD replacement) ∘ some) = s.toList := List.map_id _
  rw [fromBytesLossy, readBytes_toBytes, List.map_map, every, String.ofList_toList]

/-- A reader that has seen some bytes of a character will read one that takes these and those that follow to write. -/
def Due (seen : Nat) : ReadState → Prop
  | .between => seen = 0
  | .within code low high following => ∀ byte, low ≤ byte → byte ≤ high → ∀ later < 64 ^ following,
      ((code * 64 + (byte - 0x80)) * 64 ^ following + later).isValidChar ∧
        width ((code * 64 + (byte - 0x80)) * 64 ^ following + later) = seen + following + 1

theorem due_between : Due 0 .between := rfl

theorem toNat_ofNat {code : Nat} (valid : code.isValidChar) : (Char.ofNat code).toNat = code := by
  rw [Char.ofNat, dif_pos valid]
  rfl

theorem first_due {byte : Nat} {state : ReadState} {read : List (Option Char)}
    (first : ReadState.first byte = (state, read)) :
    read = [none] ∨ (∃ c, read = [some c] ∧ width c.toNat = 1 ∧ state = .between) ∨ read = [] ∧ Due 1 state := by
  unfold ReadState.first at first
  split_ifs at first with ascii two e0 ed three f0 f4 four
  · obtain ⟨rfl, rfl⟩ := Prod.mk.inj first
    refine .inr (.inl ⟨_, rfl, ?_, rfl⟩)
    rw [toNat_ofNat (.inl (by omega)), width, if_pos (by omega)]
  all_goals obtain ⟨rfl, rfl⟩ := Prod.mk.inj first
  case neg => exact .inl rfl
  all_goals
    refine .inr (.inr ⟨rfl, fun b lower upper later small => ?_⟩)
    simp only [Nat.pow_zero, Nat.pow_one, Nat.reducePow] at small ⊢
    refine ⟨by unfold Nat.isValidChar; omega, ?_⟩
    unfold width
    split_ifs <;> omega

theorem length_read {state : ReadState} {seen : Nat} (due : Due seen state) {bytes : List UInt8} {chars : List Char}
    (read : readFrom state bytes = chars.map some) : (chars.map (width ·.toNat)).sum = seen + bytes.length := by
  induction bytes generalizing state seen chars with
  | nil =>
    cases state with
    | between =>
      cases List.map_eq_nil_iff.mp read.symm
      exact due.symm
    | within => cases chars <;> cases read
  | cons byte rest ih =>
    -- what a first byte leaves, with the bytes of the character before it
    have fresh {state : ReadState} {read : List (Option Char)} (first : ReadState.first byte.toNat = (state, read))
        (text : read ++ readFrom state rest = chars.map some) :
        (chars.map (width ·.toNat)).sum = 1 + rest.length := by
      rcases first_due first with rfl | ⟨c, rfl, one, rfl⟩ | ⟨rfl, due⟩
      · cases chars <;> cases text
      · cases chars with
        | nil => cases text
        | cons d chars =>
          obtain ⟨same, later⟩ := List.cons.inj text
          cases same
          rw [List.map_cons, List.sum_cons, one, ih due_between later, Nat.zero_add]
      · exact ih due text
    cases state with
    | between =>
      obtain rfl : seen = 0 := due
      rw [fresh rfl read, List.length_cons]
      omega
    | within code low high following =>
      by_cases inside : low ≤ byte.toNat ∧ byte.toNat ≤ high
      · obtain ⟨lower, upper⟩ := inside
        have due := due byte.toNat lower upper
        cases following with
        | zero =>
          rw [readFrom_last lower upper] at read
          generalize code * 64 + (byte.toNat - 0x80) = reached at read due
          obtain ⟨valid, wide⟩ := due 0 (Nat.pow_pos (by decide))
          rw [Nat.pow_zero, Nat.mul_one, Nat.add_zero] at valid wide
          cases chars with
          | nil => cases read
          | cons d chars =>
            obtain ⟨same, later⟩ := List.cons.inj read
            obtain rfl := Option.some.inj same
            rw [List.map_cons, List.sum_cons, toNat_ofNat valid, wide, ih due_between later, List.length_cons]
            omega
        | succ following =>
          rw [readFrom_more lower upper] at read
          generalize code * 64 + (byte.toNat - 0x80) = reached at read due
          have further : Due (seen + 1) (.within reached 0x80 0xBF following) := by
            intro b lower upper later small
            have split : (reached * 64 + (b - 0x80)) * 64 ^ following + later =
                reached * 64 ^ (following + 1) + ((b - 0x80) * 64 ^ following + later) := by
              rw [Nat.pow_succ', Nat.add_mul, Nat.mul_assoc, Nat.add_assoc]
            have fits : (b - 0x80) * 64 ^ following + later < 64 ^ (following + 1) := by
              have := Nat.mul_le_mul_right (64 ^ following) (show b - 0x80 ≤ 63 by omega)
              rw [Nat.pow_succ']
              omega
            obtain ⟨valid, wide⟩ := due _ fits
            rw [split]
            exact ⟨valid, wide.trans (by omega)⟩
          rw [ih further read, List.length_cons]
          omega
      · simp only [readFrom, ReadState.feed, if_neg inside] at read
        cases chars <;> cases read

theorem mapM_id_eq_some {α : Type} {entries : List (Option α)} {values : List α}
    (every : entries.mapM id = some values) : entries = values.map some := by
  induction entries generalizing values with
  | nil =>
    cases every
    rfl
  | cons entry rest ih =>
    simp only [List.mapM_cons, id, Option.bind_eq_bind, Option.bind_eq_some_iff] at every
    obtain ⟨value, rfl, values, later, same⟩ := every
    cases same
    rw [List.map_cons, ih later]

theorem length_of_fromBytes? {bytes : List UInt8} {s : String} (text : fromBytes? bytes = some s) :
    (toBytes s).length = bytes.length := by
  obtain ⟨chars, every, rfl⟩ := Option.map_eq_some_iff.mp text
  have read : readFrom .between bytes = chars.map some := mapM_id_eq_some every
  rw [toBytes, String.toList_ofList, List.length_flatMap]
  simp only [length_utf8EncodeChar]
  exact (length_read due_between read).trans (Nat.zero_add _)

theorem mem_utf8EncodeChar {c : Char} {byte : UInt8} (member : byte ∈ String.utf8EncodeChar c) (ascii : byte < 0x80) :
    Char.ofNat byte.toNat = c := by
  have ascii : byte.toNat < 128 := ascii
  have range : c.toNat < 0xD800 ∨ 0xDFFF < c.toNat ∧ c.toNat < 0x110000 := c.valid
  simp only [String.utf8EncodeChar, Char.toNat_val] at member
  split_ifs at member with one
  · rw [List.mem_singleton.mp member, UInt8.toNat_ofNat_of_lt' (show c.toNat < 256 by omega), Char.ofNat_toNat]
  all_goals
    simp only [List.mem_cons, List.not_mem_nil, or_false] at member
    rcases member with rfl | rfl | rfl | rfl
    all_goals
      simp only [UInt8.toNat_ofNat'] at ascii
      omega

theorem mem_toBytes {s : String} {byte : UInt8} (member : byte ∈ toBytes s) (ascii : byte < 0x80) :
    Char.ofNat byte.toNat ∈ s.toList := by
  obtain ⟨c, inside, here⟩ := List.mem_flatMap.mp member
  exact mem_utf8EncodeChar here ascii ▸ inside

end Deferral.Text
