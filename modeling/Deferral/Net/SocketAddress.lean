/-!
Socket addresses: `a.b.c.d:n`, `[v6]:n` and `[v6%scope]:n`. Readers take a list of characters and
return what they read with the rest, or `none`.
-/

namespace Deferral.Net

inductive SocketAddress where
  | v4 (octets : List Nat) (socket : Nat)
  | v6 (groups : List Nat) (scope : Nat) (socket : Nat)
  deriving DecidableEq, Repr

private abbrev Reader (α : Type) := List Char → Option (α × List Char)

private def digit (radix : Nat) (c : Char) : Option Nat :=
  let n :=
    if '0' ≤ c ∧ c ≤ '9' then c.toNat - '0'.toNat
    else if 'a' ≤ c ∧ c ≤ 'z' then c.toNat - 'a'.toNat + 10
    else if 'A' ≤ c ∧ c ≤ 'Z' then c.toNat - 'A'.toNat + 10
    else radix
  if n < radix then some n else none

/-- A number below `limit`, of at most `places` digits where that is given. All digits that follow
belong to it. -/
private def readNumber (radix limit : Nat) (places : Option Nat) (leadingZeros : Bool) : Reader Nat :=
  fun cs =>
    let digits := cs.takeWhile fun c => (digit radix c).isSome
    let value := digits.foldl (fun n c => n * radix + (digit radix c).getD 0) 0
    if digits.isEmpty || places.any (digits.length > ·) || value ≥ limit ||
        (!leadingZeros && digits.head? == some '0' && digits.length > 1) then none
    else some (value, cs.drop digits.length)

private def char (c : Char) : Reader Unit
  | d :: rest => if d = c then some ((), rest) else none
  | [] => none

private def separated {α : Type} (c : Char) (index : Nat) (read : Reader α) : Reader α := fun cs =>
  if index = 0 then read cs else do
    let (_, rest) ← char c cs
    read rest

private def octet : Reader Nat := readNumber 10 256 (some 3) false

private def ipv4 : Reader (List Nat) := fun cs => do
  let (a, cs) ← octet cs
  let (b, cs) ← separated '.' 1 octet cs
  let (c, cs) ← separated '.' 2 octet cs
  let (d, cs) ← separated '.' 3 octet cs
  return ([a, b, c, d], cs)

/-- Up to `limit` groups from the group at `index` on, the last two of which may be written as an
IPv4 address. Returns the groups, whether they end in such an address, and the rest. -/
private def groups (index : Nat) : Nat → List Char → List Nat × Bool × List Char
  | 0, cs => ([], false, cs)
  | limit + 1, cs =>
    match if limit > 0 then separated ':' index ipv4 cs else none with
    | some ([a, b, c, d], rest) => ([a * 256 + b, c * 256 + d], true, rest)
    | _ =>
      match separated ':' index (readNumber 16 65536 (some 4) true) cs with
      | none => ([], false, cs)
      | some (group, rest) =>
        let (more, mapped, rest) := groups (index + 1) limit rest
        (group :: more, mapped, rest)

/-- Eight groups; one run of zero groups may be left out. -/
private def ipv6 : Reader (List Nat) := fun cs =>
  let (head, mapped, rest) := groups 0 8 cs
  if head.length = 8 then some (head, rest)
  else if mapped then none
  else do
    let (_, rest) ← char ':' rest
    let (_, rest) ← char ':' rest
    let (tail, _, rest) := groups 0 (7 - head.length) rest
    return (head ++ List.replicate (8 - head.length - tail.length) 0 ++ tail, rest)

private def readSocketNumber : Reader Nat := fun cs => do
  let (_, cs) ← char ':' cs
  readNumber 10 65536 none true cs

private def scope : Reader Nat := fun cs =>
  match char '%' cs with
  | some (_, rest) => readNumber 10 0x100000000 none true rest
  | none => some (0, cs)

private def socketV4 : Reader SocketAddress := fun cs => do
  let (octets, cs) ← ipv4 cs
  let (socket, cs) ← readSocketNumber cs
  return (.v4 octets socket, cs)

private def socketV6 : Reader SocketAddress := fun cs => do
  let (_, cs) ← char '[' cs
  let (groups, cs) ← ipv6 cs
  let (scope, cs) ← scope cs
  let (_, cs) ← char ']' cs
  let (socket, cs) ← readSocketNumber cs
  return (.v6 groups scope socket, cs)

namespace SocketAddress

/-- The longest run of zero groups, if longer than one group: its start and its length. Of equally
long ones it is the first. -/
private def zeroRun (groups : List Nat) : Option (Nat × Nat) :=
  let length (start : Nat) : Nat := ((groups.drop start).takeWhile (· == 0)).length
  (List.range groups.length).foldl (fun best start =>
    if length start > 1 ∧ length start > (best.map Prod.snd).getD 0 then some (start, length start)
    else best) none

private def groupsText (groups : List Nat) : String :=
  ":".intercalate (groups.map fun g => String.ofList (Nat.toDigits 16 g))

private def octetsText (octets : List Nat) : String := ".".intercalate (octets.map toString)

private def v6Text (groups : List Nat) : String :=
  match groups with
  | [0, 0, 0, 0, 0, 0xffff, a, b] => "::ffff:" ++ octetsText [a / 256, a % 256, b / 256, b % 256]
  | _ =>
    match zeroRun groups with
    | some (start, length) =>
      groupsText (groups.take start) ++ "::" ++ groupsText (groups.drop (start + length))
    | none => groupsText groups

def socket : SocketAddress → Nat
  | .v4 _ socket | .v6 _ _ socket => socket

def text : SocketAddress → String
  | .v4 octets socket => octetsText octets ++ ":" ++ toString socket
  | .v6 groups scope socket =>
    "[" ++ v6Text groups ++ (if scope = 0 then "" else "%" ++ toString scope) ++ "]:" ++ toString socket

/-- Someone who listens at the address can be reached at `target`: it is the same address, or the
address stands for all the machine's addresses. -/
def answersTo (address target : SocketAddress) : Bool :=
  address == target || (address.socket == target.socket &&
    match address with
    | .v4 octets _ => octets.all (· == 0)
    | .v6 groups _ _ => groups.all (· == 0))

def isLocal : SocketAddress → Bool
  | .v4 octets _ => octets.head? == some 127 || octets.all (· == 0)
  | .v6 groups _ _ => groups.dropLast.all (· == 0) && groups.getLast?.any (· ≤ 1)

def parse? (s : String) : Option SocketAddress :=
  let cs := s.toList
  match socketV4 cs <|> socketV6 cs with
  | some (address, []) => some address
  | _ => none

end SocketAddress
end Deferral.Net
