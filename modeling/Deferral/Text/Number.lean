/-!
Decimal numbers written by hand in requests and on command lines: 64-bit, with leading zeros and one
plus sign allowed.
-/

namespace Deferral.Text

def isDigit (c : Char) : Bool := '0' ≤ c && c ≤ '9'

inductive NumberError where
  | empty | invalidDigit | tooLarge
  deriving DecidableEq, Repr

def NumberError.message : NumberError → String
  | .empty => "cannot parse integer from empty string"
  | .invalidDigit => "invalid digit found in string"
  | .tooLarge => "number too large to fit in target type"

/-- Reads a number below `limit`. A plus sign alone is an invalid digit. Of two faults the one
further left is reported. -/
def number (limit : Nat) (s : String) : Except NumberError Nat :=
  let read (ds : List Char) : Except NumberError Nat :=
    ds.foldlM (fun n c =>
      if isDigit c then
        let next := n * 10 + (c.toNat - '0'.toNat)
        if next < limit then .ok next else .error .tooLarge
      else .error .invalidDigit) 0
  match s.toList with
  | [] => .error .empty
  | ['+'] => .error .invalidDigit
  | '+' :: ds => read ds
  | ds => read ds

def word (s : String) : Except NumberError Nat := number 0x10000000000000000 s

end Deferral.Text
