import Deferral.Duration

/-!
Declared timeouts: an amount and a unit. Amounts are 64-bit numbers; minutes, hours and days that
would need more seconds than a word holds stop at the largest one.
-/

namespace Deferral

inductive TimeUnit where
  | nanoseconds | microseconds | milliseconds | seconds | minutes | hours | days
  deriving DecidableEq, Repr, Inhabited

namespace TimeUnit

def all : List TimeUnit :=
  [.nanoseconds, .microseconds, .milliseconds, .seconds, .minutes, .hours, .days]

def name : TimeUnit → String
  | .nanoseconds => "nanoseconds"
  | .microseconds => "microseconds"
  | .milliseconds => "milliseconds"
  | .seconds => "seconds"
  | .minutes => "minutes"
  | .hours => "hours"
  | .days => "days"

def ofName? (s : String) : Option TimeUnit := all.find? (·.name == s)

def nanos : TimeUnit → Nat
  | .nanoseconds => 1
  | .microseconds => 1000
  | .milliseconds => 1000000
  | .seconds => 1000000000
  | .minutes => 60 * 1000000000
  | .hours => 3600 * 1000000000
  | .days => 86400 * 1000000000

private def saturating (n : Nat) : Duration := .ofSecs (min n Duration.wordMax)

/-- The span of `amount` units, at most the largest whole number of seconds. -/
def toDuration (unit : TimeUnit) (amount : Nat) : Duration :=
  match unit with
  | .nanoseconds => .ofNanos amount
  | .microseconds => .ofMicros amount
  | .milliseconds => .ofMillis amount
  | .seconds => .ofSecs amount
  | .minutes => saturating (amount * 60)
  | .hours => saturating (amount * 3600)
  | .days => saturating (amount * 86400)

/-- The span is exact up to the largest whole number of seconds. -/
theorem totalNanos_toDuration (unit : TimeUnit) {amount : Nat} (word : amount ≤ Duration.wordMax) :
    (unit.toDuration amount).totalNanos = min (amount * unit.nanos) (Duration.wordMax * Duration.nanosPerSecond) := by
  have stopped (n : Nat) : (saturating n).totalNanos =
      min (n * Duration.nanosPerSecond) (Duration.wordMax * Duration.nanosPerSecond) := by
    rw [saturating, Duration.totalNanos_ofSecs, Nat.mul_min_mul_right]
  have exact {nanos : Nat} (below : nanos ≤ Duration.nanosPerSecond) :
      amount * nanos = min (amount * nanos) (Duration.wordMax * Duration.nanosPerSecond) :=
    (Nat.min_eq_left (Nat.mul_le_mul word below)).symm
  cases unit with
  | nanoseconds =>
    exact (Duration.totalNanos_ofNanos amount).trans ((Nat.mul_one amount).symm.trans (exact (by decide)))
  | microseconds => exact (Duration.totalNanos_ofMicros amount).trans (exact (by decide))
  | milliseconds => exact (Duration.totalNanos_ofMillis amount).trans (exact (by decide))
  | seconds => exact (Duration.totalNanos_ofSecs amount).trans (exact (Nat.le_refl _))
  | minutes | hours | days => exact (stopped _).trans (by rw [Nat.mul_assoc]; rfl)

@[simp] theorem ofName?_name (unit : TimeUnit) : ofName? unit.name = some unit := by
  cases unit <;> decide +kernel

end TimeUnit

structure SuspendPolicy where
  timeout : Nat
  unit : TimeUnit
  deriving DecidableEq, Repr, Inhabited

def SuspendPolicy.duration (p : SuspendPolicy) : Duration := p.unit.toDuration p.timeout

end Deferral
