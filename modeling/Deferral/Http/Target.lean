import Deferral.Text.Split

/-!
Request targets. A target is a path with a query, a whole address, of which only the path and the query
count, or a bare authority, which has neither.
-/

namespace Deferral.Http

def slash : UInt8 := 0x2F

def questionMark : UInt8 := 0x3F

def numberSign : UInt8 := 0x23

def colon : UInt8 := 0x3A

structure Target where
  path : List UInt8
  query : List UInt8
  deriving DecidableEq, Repr

inductive TargetError where
  | malformed | tooLong
  deriving DecidableEq, Repr

def targetLimit : Nat := 65534

/-- No control and no blank, so that the byte can stand in the first line of a request. -/
def isVisible (b : UInt8) : Bool := 0x21 ≤ b && b ≠ 0x7F

/-- Paths may hold quotation marks and braces, but no angle brackets and no backticks. -/
def isPathByte (b : UInt8) : Bool :=
  (0x21 ≤ b && b ≤ 0x22) || (0x24 ≤ b && b ≤ 0x3B) || b = 0x3D || (0x40 ≤ b && b ≤ 0x5F) || 0x61 ≤ b

/-- Queries may hold question marks and backticks, but no angle brackets and no quotation marks. -/
def isQueryByte (b : UInt8) : Bool :=
  b = 0x21 || (0x24 ≤ b && b ≤ 0x3B) || b = 0x3D || 0x3F ≤ b

/-- The path and the query at the end of a target; a fragment is no part of either. -/
def Target.ofPath? (bytes : List UInt8) : Option Target :=
  let (path, query) := Text.cut questionMark (Text.cut numberSign bytes).1
  if path.all isPathByte && query.all isQueryByte then some ⟨path, query⟩ else none

private def isLetterOrDigit (b : UInt8) : Bool :=
  (0x30 ≤ b && b ≤ 0x39) || (0x41 ≤ b && b ≤ 0x5A) || (0x61 ≤ b && b ≤ 0x7A)

/-- What an authority may hold beside colons, brackets, at signs and percent signs: letters, digits and
`!$&'()*+,-.;=_~`. -/
private def isAuthorityByte (b : UInt8) : Bool :=
  isLetterOrDigit b || b = 0x21 || b = 0x24 || (0x26 ≤ b && b ≤ 0x2E) || b = 0x3B || b = 0x3D ||
    b = 0x5F || b = 0x7E

/-- What was seen of an authority. Colons and percent signs are forgotten at an at sign, where a user ends,
and at a closing bracket, where a numeric address ends. -/
private structure AuthorityReading where
  colons : Nat := 0
  percent : Bool := false
  opened : Bool := false
  closed : Bool := false

private def AuthorityReading.feed (seen : AuthorityReading) (b : UInt8) : Option AuthorityReading :=
  if b = colon then if seen.colons < 8 then some { seen with colons := seen.colons + 1 } else none
  else if b = 0x5B then if seen.percent || seen.opened then none else some { seen with opened := true }
  else if b = 0x5D then
    if !seen.opened || seen.closed then none
    else some { seen with closed := true, colons := 0, percent := false }
  else if b = 0x40 then some { seen with colons := 0, percent := false }
  else if b = 0x25 then some { seen with percent := true }
  else if isAuthorityByte b then some seen
  else none

def isAuthority (bytes : List UInt8) : Bool :=
  match bytes.foldlM AuthorityReading.feed {} with
  | none => false
  | some seen =>
    !bytes.isEmpty && seen.opened == seen.closed && seen.colons ≤ 1 && !seen.percent &&
      bytes.getLast? ≠ some 0x40

private def isSchemeByte (b : UInt8) : Bool :=
  isLetterOrDigit b || b = 0x2B || b = 0x2D || b = 0x2E || b = 0x7E

private def schemeLength? (bytes : List UInt8) : Option Nat :=
  let scheme := bytes.takeWhile isSchemeByte
  if [colon, slash, slash].isPrefixOf (bytes.drop scheme.length) then some scheme.length else none

/-- Reads a target. A whole address has a scheme of at most 64 letters and an authority. -/
def Target.parse (bytes : List UInt8) : Except TargetError Target :=
  let known (target : Option Target) : Except TargetError Target :=
    match target with
    | some target => .ok target
    | none => .error .malformed
  if bytes.isEmpty || !bytes.all isVisible then .error .malformed
  else if bytes.length > targetLimit then .error .tooLong
  else if bytes.head? = some slash then known (ofPath? bytes)
  else
    match schemeLength? bytes with
    | none => known (if isAuthority bytes then some ⟨[], []⟩ else none)
    | some length =>
      let rest := bytes.drop (length + 3)
      let authority := rest.takeWhile fun b => b ≠ slash && b ≠ questionMark && b ≠ numberSign
      if length > 64 || !isAuthority authority then .error .malformed
      else known (ofPath? (rest.drop authority.length))

end Deferral.Http
