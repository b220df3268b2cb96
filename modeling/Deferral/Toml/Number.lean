import Deferral.Config.Value
import Deferral.Toml.Lexical

/-!
Numbers: integers in four radices within 64 bits, and floating-point numbers. Underscores may stand
between digits.
-/

namespace Deferral.Toml

open Config (Value)

private def isDecimal (c : Char) : Bool := '0' ≤ c && c ≤ '9'

private def radixDigit (radix : Nat) (c : Char) : Option Nat :=
  let n :=
    if isDecimal c then c.toNat - '0'.toNat
    else if 'a' ≤ c ∧ c ≤ 'f' then c.toNat - 'a'.toNat + 10
    else if 'A' ≤ c ∧ c ≤ 'F' then c.toNat - 'A'.toNat + 10
    else radix
  if n < radix then some n else none

/-- Digits with underscores between them. An underscore without a digit after it is an error, not
the end of the number. -/
private def digitRun (isDigit : Char → Bool) : List Char → Option (List Char × List Char)
  | [] => some ([], [])
  | '_' :: d :: rest => do
    guard (isDigit d)
    let (more, rest) ← digitRun isDigit rest
    return (d :: more, rest)
  | c :: rest =>
    if c = '_' then none
    else if isDigit c then do
      let (more, rest) ← digitRun isDigit rest
      return (c :: more, rest)
    else some ([], c :: rest)

/-- At least one digit; zeros may lead. -/
private def digits (isDigit : Char → Bool) : Reader (List Char)
  | [] => none
  | c :: rest => if isDigit c then digitRun isDigit (c :: rest) else none

private def sign : List Char → Bool × List Char
  | '-' :: rest => (true, rest)
  | '+' :: rest => (false, rest)
  | cs => (false, cs)

/-- A zero, or digits that do not begin with one. -/
private def wholePart : Reader (List Char)
  | '0' :: rest => some (['0'], rest)
  | cs => digits isDecimal cs

private def valueOf (radix : Nat) (ds : List Char) : Nat :=
  ds.foldl (fun n c => n * radix + (radixDigit radix c).getD 0) 0

def radixInteger (radix : Nat) : Reader Value := fun cs => do
  let (ds, rest) ← digits (fun c => (radixDigit radix c).isSome) cs
  let n := valueOf radix ds
  guard (n < 0x8000000000000000)
  return (.integer n, rest)

def integer : Reader Value
  | '0' :: 'x' :: rest => radixInteger 16 rest
  | '0' :: 'o' :: rest => radixInteger 8 rest
  | '0' :: 'b' :: rest => radixInteger 2 rest
  | cs => do
    let (negative, cs) := sign cs
    let (ds, rest) ← wholePart cs
    let n := valueOf 10 ds
    guard (n < 0x8000000000000000 ∨ negative ∧ n = 0x8000000000000000)
    return (.integer (if negative then -(n : Int) else n), rest)

private def exponent : Reader Int
  | 'e' :: rest | 'E' :: rest => do
    let (negative, rest) := sign rest
    let (ds, rest) ← digits isDecimal rest
    let n := valueOf 10 ds
    return (if negative then -(n : Int) else n, rest)
  | _ => none

/-- The double nearest to `mantissa · 10 ^ exponent`. Beyond the ends of the range no digit of the
mantissa matters. -/
private def nearest (mantissa : Nat) (exponent : Int) : Float :=
  let magnitude : Int := (Nat.toDigits 10 mantissa).length + exponent
  if mantissa = 0 ∨ magnitude < -400 then 0.0
  else if magnitude > 400 then 1.0 / 0.0
  else if exponent ≥ 0 then Float.ofScientific mantissa false exponent.toNat
  else Float.ofScientific mantissa true (-exponent).toNat

private def infinity : Float := 1.0 / 0.0

private def signed (negative : Bool) (x : Float) : UInt64 := (if negative then -x else x).toBits

/-- The digits after a point, if there is one. -/
private def fractionPart : Reader (List Char)
  | '.' :: rest => digits isDecimal rest
  | cs => some ([], cs)

/-- The exponent of a number, which one without a fraction must have. -/
private def powerPart (required : Bool) : Reader Int := fun cs =>
  match cs with
  | 'e' :: _ | 'E' :: _ => exponent cs
  | _ => if required then none else some (0, cs)

def fractional : Reader Value := fun cs => do
  let (negative, cs) := sign cs
  let (whole, cs) ← wholePart cs
  let (fraction, cs) ← fractionPart cs
  let (power, rest) ← powerPart fraction.isEmpty cs
  let x := nearest (valueOf 10 (whole ++ fraction)) (power - fraction.length)
  guard (negative ∨ x < infinity)
  return (.float (signed negative x), rest)

def special : Reader Value := fun cs =>
  let (negative, cs) := sign cs
  match cs with
  | 'i' :: 'n' :: 'f' :: rest => some (.float (signed negative infinity), rest)
  | 'n' :: 'a' :: 'n' :: rest => some (.float (0.0 / 0.0 : Float).toBits, rest)
  | _ => none

/-- A number with a fraction or an exponent, an infinity, or the value that is no number. A number
too large for its type is refused; one too small, with a minus sign, is not. -/
def float : Reader Value := fun cs => fractional cs <|> special cs

end Deferral.Toml
