import Deferral.Http.Params
import Deferral.Http.Target
import Deferral.Proofs.TextBytes

/-! Escapes, forms and parameters, written and read again. Escaping some bytes does not change what percent decoding
gives, as long as the signs of an escape stand for themselves. -/

namespace Deferral.Http

theorem forall_byte_iff {p : UInt8 → Prop} : (∀ byte, p byte) ↔ ∀ n < 256, p (UInt8.ofNat n) := by
  refine ⟨fun every n _ => every _, fun each byte => ?_⟩
  have := each byte.toNat byte.toNat_lt
  rwa [UInt8.ofNat_toNat] at this

namespace Percent

variable {a b high low : UInt8} {bytes rest : List UInt8} {special : UInt8 → Bool}

theorem decode_cons_of_ne (plain : a ≠ percent) : decode (a :: rest) = a :: decode rest := by
  match rest with
  | [] | [_] => rfl
  | _ :: _ :: _ => rw [decode, if_neg plain]

theorem decode_pair (escape : byte? high low = some b) : decode (percent :: high :: low :: rest) = b :: decode rest := by
  rw [decode, if_pos rfl, escape]

theorem byte?_digits (b : UInt8) : byte? (digit (b / 16)) (digit (b % 16)) = some b := by
  revert b
  rw [forall_byte_iff]
  decide +kernel

theorem decode_escape (b : UInt8) (rest : List UInt8) : decode (escape b ++ rest) = b :: decode rest :=
  decode_pair (byte?_digits b)

theorem encode_cons (special : UInt8 → Bool) (b : UInt8) (bytes : List UInt8) :
    encode special (b :: bytes) = (if special b then escape b else [b]) ++ encode special bytes := List.flatMap_cons

theorem decode_encode_all (escaped : special percent = true) (bytes : List UInt8) :
    decode (encode special bytes) = bytes := by
  induction bytes with
  | nil => rfl
  | cons b bytes ih =>
    rw [encode_cons]
    split
    · rw [decode_escape, ih]
    next plain =>
      have ordinary : b ≠ percent := fun same => plain (same ▸ escaped)
      rw [List.singleton_append, decode_cons_of_ne ordinary, ih]

/-- Some bytes start with an escape. -/
def Escaped (a : UInt8) (rest : List UInt8) : Prop :=
  a = percent ∧ ∃ high low more b, rest = high :: low :: more ∧ byte? high low = some b

theorem decode_cons_of_not_escaped (plain : ¬Escaped a rest) : decode (a :: rest) = a :: decode rest := by
  by_cases sign : a = percent
  · subst sign
    match rest with
    | [] | [_] => rfl
    | high :: low :: more =>
      rw [decode, if_pos rfl]
      split
      next b escape => exact absurd ⟨rfl, high, low, more, b, rfl, escape⟩ plain
      · rfl
  · exact decode_cons_of_ne sign

theorem length_decode_le (bytes : List UInt8) : (decode bytes).length ≤ bytes.length := by
  fun_induction decode bytes with
  | case1 | case2 | case3 => exact Nat.le_refl _
  | case4 high low rest b escape ih =>
    simp only [List.length_cons]
    omega
  | case5 _ _ _ _ ih | case6 _ _ _ _ _ ih => exact Nat.succ_le_succ ih

theorem decode_eq_of_length {bytes : List UInt8} (same : (decode bytes).length = bytes.length) : decode bytes = bytes := by
  induction bytes with
  | nil => rfl
  | cons a rest ih =>
    by_cases escaped : Escaped a rest
    · obtain ⟨rfl, high, low, more, b, rfl, escape⟩ := escaped
      have := length_decode_le more
      rw [decode_pair escape] at same
      simp only [List.length_cons] at same
      omega
    · rw [decode_cons_of_not_escaped escaped] at same ⊢
      rw [ih (Nat.succ.inj same)]

theorem encode_digit {more : List UInt8} (digit : (digitValue? a).isSome = true) (written : encode special bytes = a :: more) :
    ∃ rest, bytes = a :: rest ∧ encode special rest = more := by
  cases bytes with
  | nil => cases written
  | cons b rest =>
    rw [encode_cons] at written
    split at written
    · have sign : percent = a := (List.cons.inj written).1
      subst sign
      exact absurd digit (by decide)
    · obtain ⟨rfl, rest_written⟩ := List.cons.inj written
      exact ⟨rest, rfl, rest_written⟩

theorem byte?_isSome {b : UInt8} (escape : byte? high low = some b) :
    (digitValue? high).isSome = true ∧ (digitValue? low).isSome = true := by
  simp only [byte?, Option.bind_eq_bind, Option.bind_eq_some_iff] at escape
  obtain ⟨h, upper, l, lower, _⟩ := escape
  simp [upper, lower]

theorem decode_encode (signs : ∀ b, b = percent ∨ (digitValue? b).isSome = true → special b = false) :
    ∀ bytes, decode (encode special bytes) = decode bytes
  | [] => rfl
  | a :: rest => by
    rw [encode_cons]
    by_cases escaped : Escaped a rest
    · obtain ⟨rfl, high, low, more, b, rfl, escape⟩ := escaped
      obtain ⟨upper, lower⟩ := byte?_isSome escape
      have := decode_encode signs more
      rw [encode_cons, encode_cons, signs percent (.inl rfl), signs high (.inr upper), signs low (.inr lower)]
      exact (decode_pair escape).trans ((congrArg (b :: ·) this).trans (decode_pair escape).symm)
    · have ih := decode_encode signs rest
      rw [decode_cons_of_not_escaped escaped]
      split
      · rw [decode_escape, ih]
      · have stays : ¬Escaped a (encode special rest) := by
          rintro ⟨rfl, high, low, more, b, written, escape⟩
          obtain ⟨upper, lower⟩ := byte?_isSome escape
          obtain ⟨_, rfl, later⟩ := encode_digit upper written
          obtain ⟨rest, rfl, _⟩ := encode_digit lower later
          exact escaped ⟨rfl, high, low, rest, b, rfl, escape⟩
        rw [List.singleton_append, decode_cons_of_not_escaped stays, ih]

end Percent

namespace Form

theorem decodeText_encodeText (s : String) : decodeText (encodeText s) = s := by
  -- a form is percent encoding with the space written as a plus sign
  let special (b : UInt8) : Bool := !isPlain b && b ≠ space
  have spaced (bytes : List UInt8) : (bytes.flatMap fun byte =>
      if isPlain byte then [byte] else if byte = space then [plus] else Percent.escape byte).map
        (fun byte => if byte = plus then space else byte) = Percent.encode special bytes := by
    have each : ∀ byte : UInt8,
        (if isPlain byte then [byte] else if byte = space then [plus] else Percent.escape byte).map
          (fun byte => if byte = plus then space else byte) =
            if special byte then Percent.escape byte else [byte] := by
      rw [forall_byte_iff]
      decide +kernel
    rw [List.map_flatMap, Percent.encode]
    exact congrArg (List.flatMap · bytes) (funext each)
  rw [decodeText, encodeText, spaced, Percent.decode_encode_all (by decide), Text.fromBytesLossy_toBytes]

/-- What a form may hold inside a name or a value. -/
def inField (b : UInt8) : Bool := isQueryByte b && isVisible b && b ≠ ampersand && b ≠ equals

theorem encodeText_inField (s : String) : ∀ b ∈ encodeText s, inField b = true := by
  have each : ∀ byte : UInt8, (if isPlain byte then [byte] else if byte = space then [plus] else
      Percent.escape byte).all inField = true := by
    rw [forall_byte_iff]
    decide +kernel
  intro b member
  obtain ⟨byte, _, here⟩ := List.mem_flatMap.mp member
  exact List.all_eq_true.mp (each byte) b here

theorem encode_bytes (pairs : List (String × String)) : ∀ b ∈ encode pairs, (isQueryByte b && isVisible b) = true := by
  intro b member
  rcases Text.mem_intercalate member with rfl | ⟨part, inside, here⟩
  · decide
  · obtain ⟨pair, _, rfl⟩ := List.mem_map.mp inside
    have field {s : String} (inside : b ∈ encodeText s) : (isQueryByte b && isVisible b) = true := by
      have := encodeText_inField s b inside
      simp only [inField, Bool.and_eq_true] at this
      exact Bool.and_eq_true_iff.mpr this.1.1
    rw [List.mem_append, List.mem_append, List.mem_singleton] at here
    rcases here with (name | rfl) | value
    · exact field name
    · decide
    · exact field value

theorem decode_encode (pairs : List (String × String)) : decode (encode pairs) = pairs := by
  have outside {separator : UInt8} (out : inField separator = false) (s : String) : separator ∉ encodeText s :=
    fun member => Bool.false_ne_true (out.symm.trans (encodeText_inField s separator member))
  let written (pair : String × String) := encodeText pair.1 ++ [equals] ++ encodeText pair.2
  have part (pair : String × String) : Text.cut equals (written pair) = (encodeText pair.1, encodeText pair.2) := by
    rw [show written pair = encodeText pair.1 ++ equals :: encodeText pair.2 from List.append_assoc ..]
    rw [Text.cut_append (outside (by decide) pair.1), Text.cut_cons_self, List.append_nil]
  have clear (pair : String × String) : ampersand ∉ written pair := by
    simp [written, outside (show inField ampersand = false by decide), show ampersand ≠ equals by decide]
  cases pairs with
  | nil => rfl
  | cons first rest =>
    have parts : Text.splitOn ampersand (encode (first :: rest)) = (first :: rest).map written := by
      rw [Text.splitOn_eq]
      refine List.splitOn_intercalate _ (fun part member => ?_) (List.cons_ne_nil _ _)
      obtain ⟨pair, _, rfl⟩ := List.mem_map.mp member
      exact clear pair
    have full : ((first :: rest).map written).filter (!·.isEmpty) = (first :: rest).map written := by
      refine List.filter_eq_self.mpr fun part member => ?_
      obtain ⟨pair, _, rfl⟩ := List.mem_map.mp member
      simp [written]
    rw [decode, parts, full, List.map_map]
    refine (List.map_congr_left fun pair _ => ?_).trans (List.map_id _)
    simp only [Function.comp, part, decodeText_encodeText, id]

end Form

namespace Params

theorem le_ofDigitChars (digits : List Char) (start : Nat) : start ≤ Nat.ofDigitChars 10 digits start := by
  rw [Nat.ofDigitChars_eq_foldl]
  induction digits generalizing start with
  | nil => exact Nat.le_refl _
  | cons c rest ih => exact Nat.le_trans (by dsimp only; omega) (ih _)

/-- One more digit of a number that must stay below a limit. -/
def addDigit (limit n : Nat) (c : Char) : Except Text.NumberError Nat :=
  if Text.isDigit c then
    let next := n * 10 + (c.toNat - '0'.toNat)
    if next < limit then .ok next else .error .tooLarge
  else .error .invalidDigit

theorem foldlM_addDigit {limit : Nat} {digits : List Char} (all : ∀ c ∈ digits, Text.isDigit c = true) (start : Nat)
    (small : Nat.ofDigitChars 10 digits start < limit) :
    digits.foldlM (addDigit limit) start = .ok (Nat.ofDigitChars 10 digits start) := by
  induction digits generalizing start with
  | nil => rfl
  | cons c rest ih =>
    obtain ⟨here, all⟩ := List.forall_mem_cons.mp all
    have value : Nat.ofDigitChars 10 (c :: rest) start =
        Nat.ofDigitChars 10 rest (start * 10 + (c.toNat - '0'.toNat)) := by
      rw [Nat.ofDigitChars_eq_foldl, Nat.ofDigitChars_eq_foldl, List.foldl_cons, Nat.mul_comm 10 start]
    rw [value] at small ⊢
    have next : addDigit limit start c = .ok (start * 10 + (c.toNat - '0'.toNat)) := by
      simp only [addDigit, here, if_true, if_pos (Nat.lt_of_le_of_lt (le_ofDigitChars rest _) small)]
    rw [List.foldlM_cons, next]
    exact ih all _ small

theorem word_toString {n : Nat} (small : n < 2 ^ 64) : Text.word (toString n) = .ok n := by
  have digits : (toString n).toList = Nat.toDigits 10 n := by rw [Nat.toString_eq_repr, Nat.toList_repr]
  have all (c : Char) (member : c ∈ Nat.toDigits 10 n) : Text.isDigit c = true := by
    have digit := Nat.isDigit_of_mem_toDigits (by decide) (by decide) member
    simpa [Text.isDigit, Char.isDigit, Char.le_def] using digit
  have read := foldlM_addDigit all 0 (by rwa [Nat.ofDigitChars_ten_toDigits])
  rw [Nat.ofDigitChars_ten_toDigits] at read
  rw [Text.word, Text.number, digits]
  cases written : Nat.toDigits 10 n with
  | nil => exact absurd written Nat.toDigits_ne_nil
  | cons c rest =>
    have unsigned : c ≠ '+' := by
      rintro rfl
      exact absurd (all '+' (written ▸ List.mem_cons_self)) (by decide)
    rw [written] at read
    split
    next none => cases none
    next same => exact absurd (List.cons.inj same).1 unsigned
    next same => exact absurd (List.cons.inj same).1 unsigned
    next => exact read

theorem ofName?_name (field : Field) : Field.ofName? field.name = some field := by
  cases field <;> decide +kernel

theorem decodeFrom_step {params next : Params} {seen : List Field} {field : Field} {value : String}
    {rest : List (String × String)} (fresh : seen.contains field = false) (set : params.set field value = .ok next) :
    decodeFrom params seen ((field.name, value) :: rest) = decodeFrom next (field :: seen) rest := by
  simp only [decodeFrom, ofName?_name, fresh, set]
  rfl

theorem decode_encode {params : Params} (delay : params.delayMs < 2 ^ 64)
    (window : ∀ ms, params.timeoutMs = some ms → ms < 2 ^ 64) : decode params.encode = .ok params := by
  have number (field : Field) {n : Nat} (small : n < 2 ^ 64) : readNumber field (toString n) = .ok n := by
    rw [readNumber, word_toString small]
    rfl
  obtain ⟨delayMs, value, fail, timeoutMs⟩ := params
  have delayed : set {} .delayMs (toString delayMs) = .ok { delayMs } := by
    simp only [set, number .delayMs delay]
    rfl
  have failed (params : Params) : params.set .fail "true" = .ok { params with fail := true } := rfl
  have valued (params : Params) (text : String) :
      params.set .value text = .ok { params with value := some text } := rfl
  have timed (params : Params) {ms : Nat} (small : ms < 2 ^ 64) :
      params.set .timeoutMs (toString ms) = .ok { params with timeoutMs := some ms } := by
    simp only [set, number .timeoutMs small]
    rfl
  rw [decode, encode, List.append_assoc, List.append_assoc, List.singleton_append, decodeFrom_step rfl delayed]
  match value, fail, timeoutMs with
  | none, false, none => rfl
  | none, false, some ms => exact decodeFrom_step rfl (timed _ (window ms rfl))
  | none, true, none => exact decodeFrom_step rfl (failed _)
  | none, true, some ms =>
    exact (decodeFrom_step rfl (failed _)).trans (decodeFrom_step rfl (timed _ (window ms rfl)))
  | some text, false, none => exact decodeFrom_step rfl (valued _ text)
  | some text, false, some ms =>
    exact (decodeFrom_step rfl (valued _ text)).trans (decodeFrom_step rfl (timed _ (window ms rfl)))
  | some text, true, none =>
    exact (decodeFrom_step rfl (valued _ text)).trans (decodeFrom_step rfl (failed _))
  | some text, true, some ms =>
    exact (decodeFrom_step rfl (valued _ text)).trans
      ((decodeFrom_step rfl (failed _)).trans (decodeFrom_step rfl (timed _ (window ms rfl))))

end Params
end Deferral.Http
