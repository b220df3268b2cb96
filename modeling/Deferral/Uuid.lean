/-!
Identifiers of 128 bits. They are written in lower case in five groups, and read in that form,
without hyphens, in braces or after `urn:uuid:`, in any case.
-/

namespace Deferral

structure Uuid where
  value : Nat
  deriving DecidableEq, Repr, Inhabited

namespace Uuid

def groupLengths : List Nat := [8, 4, 4, 4, 12]

def nil : Uuid := ⟨0⟩

/-- The `index`-th of the identifiers that a simulation hands out; they count up from a fixed one. -/
def ofIndex (index : Nat) : Uuid := ⟨0x7d3a51c8f09b4e6282d4000000000000 + index⟩

theorem ofIndex_inj (i j : Nat) : ofIndex i = ofIndex j ↔ i = j := by
  simp [ofIndex]

private def hexDigits (id : Uuid) : List Char :=
  let ds := Nat.toDigits 16 (id.value % 0x100000000000000000000000000000000)
  List.replicate (32 - ds.length) '0' ++ ds

def simple (id : Uuid) : String := String.ofList id.hexDigits

private def splitGroups : List Nat → List Char → List (List Char)
  | [], _ => []
  | n :: ns, cs => cs.take n :: splitGroups ns (cs.drop n)

def hyphenated (id : Uuid) : String :=
  "-".intercalate ((splitGroups groupLengths id.hexDigits).map String.ofList)

inductive ParseError where
  /-- A character that is neither a digit nor a hyphen, with its offset in bytes. -/
  | invalidCharacter (c : Char) (offset : Nat)
  | groupCount (found : Nat)
  | groupLength (group expected found : Nat)
  | length (found : Nat)
  deriving DecidableEq, Repr

def ParseError.message : ParseError → String
  | .invalidCharacter c offset =>
    "invalid character: found \x60" ++ c.toString ++ s!"\x60 at {offset}"
  | .groupCount found => s!"invalid group count: expected 5, found {found}"
  | .groupLength group expected found =>
    s!"invalid group length in group {group}: expected {expected}, found {found}"
  | .length found => s!"invalid length: found {found}"

private def hexValue (c : Char) : Option Nat :=
  if '0' ≤ c ∧ c ≤ '9' then some (c.toNat - '0'.toNat)
  else if 'a' ≤ c ∧ c ≤ 'f' then some (c.toNat - 'a'.toNat + 10)
  else if 'A' ≤ c ∧ c ≤ 'F' then some (c.toNat - 'A'.toNat + 10)
  else none

/-- The offset in bytes of the first character that cannot stand in an identifier. -/
private def firstInvalid (offset : Nat) : List Char → Option (Char × Nat)
  | [] => none
  | c :: rest =>
    if c = '-' ∨ (hexValue c).isSome then firstInvalid (offset + c.utf8Size) rest
    else some (c, offset)

private def parts : List Char → List (List Char)
  | [] => [[]]
  | '-' :: rest => [] :: parts rest
  | c :: rest =>
    match parts rest with
    | [] => [[c]]
    | p :: ps => (c :: p) :: ps

/-- The first group of the wrong length, in a text of `size` bytes. Of the last group the length told
is all that lies beyond the other four, the wrapping included. -/
private def firstUneven (size group : Nat) : List Nat → List (List Char) → Option ParseError
  | [n], [p] => if p.length = n then none else some (.groupLength group n (size - 24))
  | n :: ns, p :: ps =>
    if p.length = n then firstUneven size (group + 1) ns ps else some (.groupLength group n p.length)
  | _, _ => none

/-- The longest text that is looked into, in bytes: a wrapped identifier after `urn:uuid:`. -/
def sizeLimit : Nat := 45

/-- The text without its wrapping, the length of what stood before it, and whether there was one. -/
private def unwrap (s : String) : List Char × Nat × Bool :=
  let cs := s.toList
  if "urn:uuid:".toList.isPrefixOf (cs.map Char.toLower) then (cs.drop 9, 9, true)
  else
    match cs with
    | '\x7b' :: rest => if rest.getLast? = some '\x7d' then (rest.dropLast, 1, true) else (cs, 0, false)
    | _ => (cs, 0, false)

/-- Reads an identifier. Of several faults the size of an overlong text comes first, then a wrong
character, then the number of groups, then the length of the first uneven group. -/
def parse (s : String) : Except ParseError Uuid :=
  let size := s.utf8ByteSize
  let (cs, offset, wrapped) := unwrap s
  let groups := parts cs
  let value : Uuid := ⟨groups.flatten.foldl (fun n c => n * 16 + (hexValue c).getD 0) 0⟩
  if size > sizeLimit then .error (.length size)
  else match firstInvalid offset cs with
  | some (c, at_) => .error (.invalidCharacter c at_)
  | none =>
    if groups.length = 1 ∧ !wrapped then
      if cs.length = 32 then .ok value else .error (.length cs.length)
    else if groups.length ≠ 5 then .error (.groupCount groups.length)
    else
      match firstUneven size 0 groupLengths groups with
      | some e => .error e
      | none => .ok value

end Uuid
end Deferral
