import Deferral.Text.Utf8

/-!
Percent encoding. A byte is written as `%` and two hexadecimal digits where it cannot stand for
itself; a percent sign that no two digits follow stands for itself.
-/

namespace Deferral.Http.Percent

def percent : UInt8 := 0x25

def digitValue? (byte : UInt8) : Option UInt8 :=
  if 0x30 ≤ byte && byte ≤ 0x39 then some (byte - 0x30)
  else if 0x41 ≤ byte && byte ≤ 0x46 then some (byte - 0x37)
  else if 0x61 ≤ byte && byte ≤ 0x66 then some (byte - 0x57)
  else none

def digit (value : UInt8) : UInt8 := if value < 10 then value + 0x30 else value + 0x37

def byte? (high low : UInt8) : Option UInt8 := do
  return (← digitValue? high) * 16 + (← digitValue? low)

def decode : List UInt8 → List UInt8
  | [] => []
  | [a] => [a]
  | [a, b] => [a, b]
  | a :: b :: c :: rest =>
    if a = percent then
      match byte? b c with
      | some byte => byte :: decode rest
      | none => a :: decode (b :: c :: rest)
    else a :: decode (b :: c :: rest)

def escape (byte : UInt8) : List UInt8 := [percent, digit (byte / 16), digit (byte % 16)]

def encode (special : UInt8 → Bool) (bytes : List UInt8) : List UInt8 :=
  bytes.flatMap fun byte => if special byte then escape byte else [byte]

end Deferral.Http.Percent
