/-!
Spans of time, as whole seconds and the nanoseconds of the last second. A span is compared, rounded
and printed through its total in nanoseconds.
-/

namespace Deferral

/-- A span of time. Well formed when the nanoseconds stay below one second and the seconds fit a
64-bit word. -/
structure Duration where
  secs : Nat
  nanos : Nat
  deriving DecidableEq, Repr, Inhabited

namespace Duration

def wordMax : Nat := 0xFFFFFFFFFFFFFFFF

def nanosPerSecond : Nat := 1000000000

def WellFormed (d : Duration) : Prop := d.secs ≤ wordMax ∧ d.nanos < nanosPerSecond

instance (d : Duration) : Decidable d.WellFormed := inferInstanceAs (Decidable (_ ∧ _))

def zero : Duration := ⟨0, 0⟩

def ofNanos (n : Nat) : Duration := ⟨n / nanosPerSecond, n % nanosPerSecond⟩

def ofMicros (n : Nat) : Duration := ⟨n / 1000000, n % 1000000 * 1000⟩

def ofMillis (n : Nat) : Duration := ⟨n / 1000, n % 1000 * 1000000⟩

def ofSecs (n : Nat) : Duration := ⟨n, 0⟩

def isZero (d : Duration) : Bool := d.secs == 0 && d.nanos == 0

def totalNanos (d : Duration) : Nat := d.secs * nanosPerSecond + d.nanos

/-- Whole milliseconds, rounded down. -/
def millis (d : Duration) : Nat := d.secs * 1000 + d.nanos / 1000000

/-- Whole milliseconds cut to the low 64 bits, as log fields carry them. -/
def millisWord (d : Duration) : Nat := d.millis % 0x10000000000000000

/-- How many ticks of `tick` nanoseconds cover the span: rounded up, so that a timer never runs
early. -/
def ticks (tick : Nat) (d : Duration) : Nat := (d.totalNanos + (tick - 1)) / tick

/-- The digits of `value` as a fraction of `scale` places, without trailing zeros. -/
private def fraction (places value : Nat) : String :=
  let digits := (Nat.toDigits 10 value)
  let padded := List.replicate (places - digits.length) '0' ++ digits
  String.ofList (padded.reverse.dropWhile (· == '0')).reverse

private def scaled (whole part places : Nat) (unit : String) : String :=
  if part == 0 then s!"{whole}{unit}" else s!"{whole}.{fraction places part}{unit}"

/-- Written in the largest unit of s, ms, µs and ns that gives a whole part, with as many decimal
places as are needed: `1.5s`, `20ms`, `0ns`. -/
def shortText (d : Duration) : String :=
  if d.secs > 0 then scaled d.secs d.nanos 9 "s"
  else if d.nanos ≥ 1000000 then scaled (d.nanos / 1000000) (d.nanos % 1000000) 6 "ms"
  else if d.nanos ≥ 1000 then scaled (d.nanos / 1000) (d.nanos % 1000) 3 "µs"
  else s!"{d.nanos}ns"

@[simp] theorem totalNanos_zero : zero.totalNanos = 0 := rfl

theorem totalNanos_ofNanos (n : Nat) : (ofNanos n).totalNanos = n := by
  simp only [totalNanos, ofNanos, nanosPerSecond]
  omega

theorem totalNanos_ofMicros (n : Nat) : (ofMicros n).totalNanos = n * 1000 := by
  simp only [totalNanos, ofMicros, nanosPerSecond]
  omega

theorem totalNanos_ofMillis (n : Nat) : (ofMillis n).totalNanos = n * 1000000 := by
  simp only [totalNanos, ofMillis, nanosPerSecond]
  omega

theorem totalNanos_ofSecs (n : Nat) : (ofSecs n).totalNanos = n * nanosPerSecond := by
  simp only [totalNanos, ofSecs, Nat.add_zero]

theorem millis_eq (d : Duration) : d.millis = d.totalNanos / 1000000 := by
  simp only [millis, totalNanos, nanosPerSecond]
  omega

/-- A whole number of milliseconds is covered by as many ticks of one. -/
@[simp] theorem ticks_ofMillis (n : Nat) : (ofMillis n).ticks 1000000 = n := by
  rw [ticks, totalNanos_ofMillis]
  omega

theorem isZero_iff (d : Duration) : d.isZero = true ↔ d.totalNanos = 0 := by
  simp only [isZero, totalNanos, nanosPerSecond, Bool.and_eq_true, beq_iff_eq]
  omega

end Duration
end Deferral
