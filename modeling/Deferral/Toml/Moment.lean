import Deferral.Config.Value
import Deferral.Toml.Lexical

/-!
Dates and times. Only dates that exist are read; a minute may have a leap second.
-/

namespace Deferral.Toml

open Config (Value)

private def fixed (places low high : Nat) : Reader Nat := fun cs => do
  let ds := cs.take places
  guard (ds.length = places ∧ ds.all fun c => '0' ≤ c && c ≤ '9')
  let n := ds.foldl (fun n c => n * 10 + (c.toNat - '0'.toNat)) 0
  guard (low ≤ n ∧ n ≤ high)
  return (n, cs.drop places)

def daysInMonth (year month : Nat) : Nat :=
  if month = 2 then
    if year % 4 = 0 ∧ (year % 100 ≠ 0 ∨ year % 400 = 0) then 29 else 28
  else if month = 4 ∨ month = 6 ∨ month = 9 ∨ month = 11 then 30
  else 31

private def date : Reader Unit := fun cs => do
  let (year, cs) ← fixed 4 0 9999 cs
  let (_, cs) ← exactly "-" cs
  let (month, cs) ← fixed 2 1 12 cs
  let (_, cs) ← exactly "-" cs
  let (_, cs) ← fixed 2 1 (daysInMonth year month) cs
  return ((), cs)

private def secondFraction : Reader Unit
  | '.' :: rest =>
    let ds := rest.takeWhile fun c => '0' ≤ c && c ≤ '9'
    if ds.isEmpty then none else some ((), rest.drop ds.length)
  | _ => none

private def time : Reader Unit := fun cs => do
  let (_, cs) ← fixed 2 0 23 cs
  let (_, cs) ← exactly ":" cs
  let (_, cs) ← fixed 2 0 59 cs
  let (_, cs) ← exactly ":" cs
  let (_, cs) ← fixed 2 0 60 cs
  return (secondFraction cs).getD ((), cs)

private def offset : Reader Unit
  | 'Z' :: rest | 'z' :: rest => some ((), rest)
  | '+' :: rest | '-' :: rest => do
    let (_, rest) ← fixed 2 0 23 rest
    let (_, rest) ← exactly ":" rest
    let (_, rest) ← fixed 2 0 59 rest
    return ((), rest)
  | _ => none

/-- The time of a date, after the letter T or a space, with or without an offset. -/
private def timeOfDate : Reader Unit
  | c :: rest =>
    if c = 'T' ∨ c = 't' ∨ c = ' ' then do
      let (_, rest) ← time rest
      return (offset rest).getD ((), rest)
    else none
  | [] => none

def moment : Reader Value := fun cs => do
  let (_, rest) ←
    match date cs with
    | some (_, rest) => some ((timeOfDate rest).getD ((), rest))
    | none => time cs
  return (.moment (String.ofList (cs.take (cs.length - rest.length))), rest)

end Deferral.Toml
