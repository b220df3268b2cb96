import Deferral.Policy

/-! Conversion of declared amounts. Seven units go through three kinds of arithmetic: a division with its
remainder below the second, the seconds as they are, and a product that stops at the largest word above.
Through its total each of them is the same minimum, from which the rest follows. -/

namespace Deferral

namespace Duration

/-- Spans are compared by their seconds, and by the nanoseconds of the last second where these agree. -/
instance : LE Duration := ⟨fun d e => d.secs < e.secs ∨ d.secs = e.secs ∧ d.nanos ≤ e.nanos⟩

variable {d e : Duration}

theorem le_iff : d ≤ e ↔ d.secs < e.secs ∨ d.secs = e.secs ∧ d.nanos ≤ e.nanos := .rfl

theorem le_iff_totalNanos (left : d.WellFormed) (right : e.WellFormed) : d ≤ e ↔ d.totalNanos ≤ e.totalNanos := by
  obtain ⟨-, left⟩ := left
  obtain ⟨-, right⟩ := right
  simp only [le_iff, totalNanos, nanosPerSecond] at *
  omega

theorem eq_of_totalNanos (left : d.WellFormed) (right : e.WellFormed) (same : d.totalNanos = e.totalNanos) : d = e := by
  obtain ⟨secs, nanos⟩ := d
  obtain ⟨secs', nanos'⟩ := e
  simp only [WellFormed, totalNanos, nanosPerSecond] at left right same
  obtain ⟨rfl, rfl⟩ : secs = secs' ∧ nanos = nanos' := by omega
  rfl

theorem wellFormed_parts {n : Nat} (parts scale : Nat) (word : n ≤ wordMax) (whole : parts * scale = nanosPerSecond) :
    WellFormed ⟨n / parts, n % parts * scale⟩ := by
  have some : 0 < parts * scale := whole ▸ by decide
  have below : n % parts < parts := Nat.mod_lt _ (Nat.pos_of_mul_pos_right some)
  refine ⟨Nat.le_trans (Nat.div_le_self ..) word, ?_⟩
  rw [← whole]
  exact Nat.mul_lt_mul_of_pos_right below (Nat.pos_of_mul_pos_left some)

theorem wellFormed_ofSecs {n : Nat} (word : n ≤ wordMax) : (ofSecs n).WellFormed := ⟨word, Nat.zero_lt_succ _⟩

end Duration

open Duration (wordMax nanosPerSecond)

namespace TimeUnit

variable {unit : TimeUnit} {amount : Nat}

theorem nanos_pos (unit : TimeUnit) : 0 < unit.nanos := by
  cases unit <;> decide

theorem wellFormed_toDuration (unit : TimeUnit) (word : amount ≤ wordMax) : (unit.toDuration amount).WellFormed := by
  have stopped (n : Nat) : (Duration.ofSecs (min n wordMax)).WellFormed := Duration.wellFormed_ofSecs (Nat.min_le_right ..)
  cases unit with
  | nanoseconds =>
    have formed := Duration.wellFormed_parts nanosPerSecond 1 word rfl
    rwa [Nat.mul_one] at formed
  | microseconds => exact Duration.wellFormed_parts 1000000 1000 word rfl
  | milliseconds => exact Duration.wellFormed_parts 1000 1000000 word rfl
  | seconds => exact Duration.wellFormed_ofSecs word
  | minutes | hours | days => exact stopped _

theorem toDuration_le {other : TimeUnit} {more : Nat} (word : amount ≤ wordMax) (words : more ≤ wordMax)
    (shorter : amount * unit.nanos ≤ more * other.nanos) : unit.toDuration amount ≤ other.toDuration more := by
  rw [Duration.le_iff_totalNanos (wellFormed_toDuration unit word) (wellFormed_toDuration other words),
    totalNanos_toDuration unit word, totalNanos_toDuration other words]
  omega

theorem all_ascending : all.Pairwise fun a b => a.nanos ≤ b.nanos := by decide

end TimeUnit

/-- What an amount of some unit comes to. -/
structure Converts (unit : TimeUnit) (amount : Nat) (span : Duration) : Prop where
  wellFormed : span.secs ≤ wordMax ∧ span.nanos < nanosPerSecond
  exact : amount * unit.nanos ≤ wordMax * nanosPerSecond → span.totalNanos = amount * unit.nanos
  saturated : wordMax * nanosPerSecond < amount * unit.nanos → span = ⟨wordMax, 0⟩
  zero : span = .zero ↔ amount = 0

theorem TimeUnit.converts_toDuration (unit : TimeUnit) {amount : Nat} (word : amount ≤ wordMax) :
    Converts unit amount (unit.toDuration amount) := by
  have formed := unit.wellFormed_toDuration word
  have total := unit.totalNanos_toDuration word
  refine ⟨formed, fun fits => ?_, fun beyond => ?_, ?_⟩
  · rw [total, Nat.min_eq_left fits]
  · refine Duration.eq_of_totalNanos formed ⟨Nat.le_refl _, by decide⟩ ?_
    rw [total, Nat.min_eq_right (Nat.le_of_lt beyond)]
    rfl
  · have none : unit.toDuration amount = .zero ↔ (unit.toDuration amount).totalNanos = 0 :=
      ⟨fun same => by rw [same, Duration.totalNanos_zero],
        fun same => Duration.eq_of_totalNanos formed (by decide) (same.trans Duration.totalNanos_zero.symm)⟩
    have longest : 0 < wordMax * nanosPerSecond := by decide
    rw [none, total, Nat.min_eq_zero_iff, Nat.mul_eq_zero]
    have positive := unit.nanos_pos
    omega

/-- A conversion is exact until it stops at the largest number of seconds, and neither a larger amount nor a
longer unit gives a shorter span. -/
theorem TimeUnit.converts_monotonically {amount : Nat} (word : amount ≤ wordMax) :
    (∀ unit : TimeUnit, Converts unit amount (unit.toDuration amount)) ∧
      (∀ unit : TimeUnit, ∀ less ≤ amount, unit.toDuration less ≤ unit.toDuration amount) ∧
      (all.map (·.toDuration amount)).Pairwise (· ≤ ·) := by
  refine ⟨fun unit => unit.converts_toDuration word, fun unit less smaller => ?_, ?_⟩
  · exact toDuration_le (Nat.le_trans smaller word) word (Nat.mul_le_mul_right _ smaller)
  · exact List.pairwise_map.mpr (all_ascending.imp fun longer => toDuration_le word word (Nat.mul_le_mul_left _ longer))

/-- The first number of minutes that is too long for the seconds of a word stops there, and is no shorter than
the last one that is not. -/
theorem TimeUnit.converts_monotonically_saturated :
    TimeUnit.minutes.toDuration 307445734561825861 = ⟨wordMax, 0⟩ ∧
      (TimeUnit.minutes.toDuration 307445734561825860).totalNanos = 307445734561825860 * TimeUnit.minutes.nanos ∧
      TimeUnit.minutes.toDuration 307445734561825860 ≤ TimeUnit.minutes.toDuration 307445734561825861 := by
  obtain ⟨converts, ascends, -⟩ := converts_monotonically (show 307445734561825861 ≤ wordMax by decide)
  obtain ⟨fits, -, -⟩ := converts_monotonically (show 307445734561825860 ≤ wordMax by decide)
  exact ⟨(converts .minutes).saturated (by decide), (fits .minutes).exact (by decide), ascends .minutes _ (by decide)⟩

end Deferral
