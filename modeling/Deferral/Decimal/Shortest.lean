/-!
The shortest decimal of a binary floating-point number: the fewest digits that read back as the same
number, and of those the nearest to it.
-/

namespace Deferral.Decimal

/-- A finite number above zero as `significand · 2 ^ exponent`. -/
structure Binary where
  significand : Nat
  exponent : Int
  /-- The gap to the next smaller number is half the gap to the next larger one. -/
  narrowBelow : Bool
  deriving DecidableEq, Repr

inductive Class where
  | nan
  | infinite (negative : Bool)
  | zero (negative : Bool)
  | finite (negative : Bool) (value : Binary)
  deriving DecidableEq, Repr

def classify (bits : UInt64) : Class :=
  let n := bits.toNat
  let negative := n / 0x8000000000000000 % 2 == 1
  let biased : Nat := n / 0x10000000000000 % 0x800
  let low : Nat := n % 0x10000000000000
  if biased = 2047 then (if low = 0 then .infinite negative else .nan)
  else if biased = 0 then
    if low = 0 then .zero negative
    else .finite negative ⟨low, -1074, false⟩
  else .finite negative ⟨low + 0x10000000000000, Int.ofNat biased - 1075, low == 0 && biased > 1⟩

/-- A decimal `digits · 10 ^ exponent`. -/
structure Scaled where
  digits : Nat
  exponent : Int
  deriving DecidableEq, Repr

/-- The rounding interval of a number over a common denominator: its ends, the number itself, and
whether the ends belong to it. -/
private structure Interval where
  low : Nat
  value : Nat
  high : Nat
  den : Nat
  closed : Bool

private def interval (b : Binary) : Interval :=
  let q := b.exponent - 2
  let up := if q ≥ 0 then Nat.pow 2 q.toNat else 1
  let den := if q ≥ 0 then 1 else Nat.pow 2 (-q).toNat
  let m := 4 * b.significand
  ⟨(m - (if b.narrowBelow then 1 else 2)) * up, m * up, (m + 2) * up, den, b.significand % 2 == 0⟩

private def Interval.contains (i : Interval) (num : Nat) : Bool :=
  if i.closed then i.low ≤ num && num ≤ i.high else i.low < num && num < i.high

/-- The point of the grid of multiples of `10 ^ p` that lies in the interval and is the nearest to
the number, if one of the number's two neighbours does. -/
private def Interval.onGrid (i : Interval) (p : Int) : Option Scaled :=
  let num := if p ≥ 0 then 1 else Nat.pow 10 (-p).toNat
  let grid := (if p ≥ 0 then Nat.pow 10 p.toNat else 1) * i.den
  let scaled : Interval := ⟨i.low * num, i.value * num, i.high * num, 1, i.closed⟩
  let k := scaled.value / grid
  let below := if k > 0 && scaled.contains (k * grid) then some k else none
  let above := if scaled.contains ((k + 1) * grid) then some (k + 1) else none
  match below, above with
  | some a, some b =>
    let down := scaled.value - a * grid
    let excess := b * grid - scaled.value
    some ⟨if down < excess || (down == excess && a % 2 == 0) then a else b, p⟩
  | some a, none => some ⟨a, p⟩
  | none, some b => some ⟨b, p⟩
  | none, none => none

private def Interval.firstGrid (i : Interval) : Nat → Int → Scaled
  | 0, p => (i.onGrid p).getD ⟨0, 0⟩
  | fuel + 1, p =>
    match i.onGrid p with
    | some s => s
    | none => firstGrid i fuel (p - 1)

/-- The shortest decimal. All numbers lie below `10 ^ 309`, and seventeen digits always suffice. -/
def shortest (b : Binary) : Scaled := (interval b).firstGrid 650 309

/-- All digits in positional notation with at least one place after the point. -/
def positional (s : Scaled) : String :=
  let ds := Nat.toDigits 10 s.digits
  if s.exponent ≥ 0 then
    String.ofList (ds ++ List.replicate s.exponent.toNat '0') ++ ".0"
  else
    let places := (-s.exponent).toNat
    let padded := List.replicate (places + 1 - ds.length) '0' ++ ds
    let whole := padded.take (padded.length - places)
    let part := padded.drop (padded.length - places)
    String.ofList whole ++ "." ++ String.ofList part

/-- One digit before the point, the others after it, and the exponent with its sign. -/
def scientific (s : Scaled) : String :=
  let ds := Nat.toDigits 10 s.digits
  let exponent := s.exponent + (Int.ofNat ds.length - 1)
  let fraction := if ds.length = 1 then "" else "." ++ String.ofList (ds.drop 1)
  String.ofList (ds.take 1) ++ fraction ++ "e" ++ (if exponent < 0 then "" else "+") ++ toString exponent

/-- Positional from `10 ^ -5` up to below `10 ^ 16`, and scientific beyond. -/
def compact (s : Scaled) : String :=
  let exponent := s.exponent + (Int.ofNat (Nat.toDigits 10 s.digits).length - 1)
  if -5 ≤ exponent ∧ exponent ≤ 15 then positional s else scientific s

def text (write : Scaled → String) (bits : UInt64) : String :=
  match classify bits with
  | .nan => "NaN"
  | .infinite negative => if negative then "-inf" else "inf"
  | .zero negative => if negative then "-0.0" else "0.0"
  | .finite negative b => (if negative then "-" else "") ++ write (shortest b)

end Deferral.Decimal
