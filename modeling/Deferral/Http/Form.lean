import Deferral.Http.Percent
import Deferral.Text.Split

/-!
Forms in queries: pairs of a name and a value, joined by `&`, each written `name=value`, with `+` for
a space and percent escapes. Everything can be read as a form.
-/

namespace Deferral.Http.Form

open Text (splitOn cut)

def ampersand : UInt8 := 0x26

def equals : UInt8 := 0x3D

def plus : UInt8 := 0x2B

def space : UInt8 := 0x20

def decodeText (bytes : List UInt8) : String :=
  Text.fromBytesLossy (Percent.decode (bytes.map fun byte => if byte = plus then space else byte))

/-- Reads a form; empty parts are no pairs. -/
def decode (bytes : List UInt8) : List (String × String) :=
  ((splitOn ampersand bytes).filter (!·.isEmpty)).map fun part =>
    let (name, value) := cut equals part
    (decodeText name, decodeText value)

/-- The bytes that stand for themselves: letters, digits and `*-._`. -/
def isPlain (byte : UInt8) : Bool :=
  (0x30 ≤ byte && byte ≤ 0x39) || (0x41 ≤ byte && byte ≤ 0x5A) || (0x61 ≤ byte && byte ≤ 0x7A) ||
    byte = 0x2A || byte = 0x2D || byte = 0x2E || byte = 0x5F

def encodeText (s : String) : List UInt8 :=
  (Text.toBytes s).flatMap fun byte =>
    if isPlain byte then [byte] else if byte = space then [plus] else Percent.escape byte

def encode (pairs : List (String × String)) : List UInt8 :=
  [ampersand].intercalate (pairs.map fun (name, value) => encodeText name ++ [equals] ++ encodeText value)

end Deferral.Http.Form
