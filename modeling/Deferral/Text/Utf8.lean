/-!
Bytes of text. Bytes from outside may be no text at all, so reading them gives one entry per
character and an empty one for each stretch that cannot be part of a character.
-/

namespace Deferral.Text

def toBytes (s : String) : List UInt8 := s.toList.flatMap String.utf8EncodeChar

/-- Where a reader stands: between characters, or within one, with the part of its code read so far,
the range the next byte must be in and how many bytes follow that one. -/
inductive ReadState where
  | between
  | within (code low high following : Nat)
  deriving DecidableEq, Repr

namespace ReadState

/-- The first byte of a character. No character starts with a byte of the continuation range, and
the ranges leave out codes that a shorter form writes, surrogates and codes beyond the last one. -/
def first (byte : Nat) : ReadState × List (Option Char) :=
  if byte < 0x80 then (.between, [some (Char.ofNat byte)])
  else if 0xC2 ≤ byte ∧ byte ≤ 0xDF then (.within (byte - 0xC0) 0x80 0xBF 0, [])
  else if byte = 0xE0 then (.within 0 0xA0 0xBF 1, [])
  else if byte = 0xED then (.within 0xD 0x80 0x9F 1, [])
  else if 0xE1 ≤ byte ∧ byte ≤ 0xEF then (.within (byte - 0xE0) 0x80 0xBF 1, [])
  else if byte = 0xF0 then (.within 0 0x90 0xBF 2, [])
  else if byte = 0xF4 then (.within 4 0x80 0x8F 2, [])
  else if 0xF1 ≤ byte ∧ byte ≤ 0xF3 then (.within (byte - 0xF0) 0x80 0xBF 2, [])
  else (.between, [none])

/-- One byte. A byte that cannot continue a character ends it as a fault and starts afresh. -/
def feed (state : ReadState) (byte : Nat) : ReadState × List (Option Char) :=
  match state with
  | .between => first byte
  | .within code low high following =>
    if low ≤ byte ∧ byte ≤ high then
      let code := code * 64 + (byte - 0x80)
      match following with
      | 0 => (.between, [some (Char.ofNat code)])
      | following + 1 => (.within code 0x80 0xBF following, [])
    else
      let (next, read) := first byte
      (next, none :: read)

end ReadState

def readFrom (state : ReadState) : List UInt8 → List (Option Char)
  | [] =>
    match state with
    | .between => []
    | .within .. => [none]
  | byte :: rest =>
    let (state, read) := state.feed byte.toNat
    read ++ readFrom state rest

/-- The characters of some bytes, with an empty entry for each fault. -/
def readBytes (bytes : List UInt8) : List (Option Char) := readFrom .between bytes

def fromBytes? (bytes : List UInt8) : Option String :=
  ((readBytes bytes).mapM id).map String.ofList

def replacement : Char := '\uFFFD'

def fromBytesLossy (bytes : List UInt8) : String :=
  String.ofList ((readBytes bytes).map (·.getD replacement))

end Deferral.Text
