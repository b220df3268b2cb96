import Deferral.Toml.Moment
import Deferral.Toml.Node
import Deferral.Toml.Number
import Deferral.Toml.Text

/-!
Documents. `parse?` reads a whole text as the table it describes; a text that breaks any rule of the
format is no document.
-/

namespace Deferral.Toml

open Config (Value)

/-- Arrays and inline tables may be nested this deep, and a dotted key may have this many parts. -/
def nestingLimit : Nat := 79

private def isBareKey (c : Char) : Bool :=
  ('a' ≤ c && c ≤ 'z') || ('A' ≤ c && c ≤ 'Z') || ('0' ≤ c && c ≤ '9') || c == '_' || c == '-'

private def simpleKey : Reader String := fun cs =>
  match cs with
  | '"' :: _ | '\'' :: _ => shortText cs
  | _ =>
    let bare := cs.takeWhile isBareKey
    if bare.isEmpty then none else some (String.ofList bare, cs.drop bare.length)

/-- The parts of a key, with blanks around each; at most `fuel` of them after the first. -/
private def keyParts : Nat → Reader (List String)
  | 0, _ => none
  | fuel + 1, cs => do
    let (part, rest) ← simpleKey (skipBlanks cs)
    match skipBlanks rest with
    | '.' :: rest => do
      let (parts, rest) ← keyParts fuel rest
      return (part :: parts, rest)
    | rest => return ([part], rest)

private def key : Reader (List String × String) := fun cs => do
  let (parts, rest) ← keyParts nestingLimit cs
  let last ← parts.getLast?
  return ((parts.dropLast, last), rest)

def keyValue (value : Reader Value) : Reader (List String × String × Value) := fun cs => do
  let ((path, last), rest) ← key cs
  let (_, rest) ← exactly "=" rest
  let (v, rest) ← value (skipBlanks rest)
  return ((path, last, v), rest)

/-- The elements of an array after its bracket. A comma may follow the last one. -/
def arrayItems (value : Reader Value) : Nat → Reader (List Value)
  | 0, _ => none
  | fuel + 1, cs =>
    match skipLines cs with
    | ']' :: rest => some ([], rest)
    | cs => do
      let (v, rest) ← value cs
      match skipLines rest with
      | ']' :: rest => return ([v], rest)
      | ',' :: rest =>
        let (more, rest) ← arrayItems value fuel rest
        return (v :: more, rest)
      | _ => none

/-- The pairs of an inline table after its brace, put into `entries` as they come. -/
def inlinePairs (value : Reader Value) : Nat → Entries → Reader Entries
  | 0, _, _ => none
  | fuel + 1, entries, cs => do
    let ((path, last, v), rest) ← keyValue value cs
    let entries ← entries.insert path last v
    match skipBlanks rest with
    | '}' :: rest => return (entries, rest)
    | ',' :: rest => inlinePairs value fuel entries rest
    | _ => none

def inlineTable (value : Reader Value) : Reader Value := fun cs =>
  match skipBlanks cs with
  | '}' :: rest => some (.table [], rest)
  | cs => do
    let (entries, rest) ← inlinePairs value (cs.length + 1) [] cs
    return (.table (entriesToValue entries), rest)

/-- A value in which arrays and inline tables nest at most `depth` deep. -/
def value : Nat → Reader Value
  | depth, cs =>
    match cs with
    | '"' :: _ | '\'' :: _ => do let (s, rest) ← text cs; return (.text s, rest)
    | '[' :: rest =>
      match depth with
      | 0 => none
      | depth + 1 => do
        let (items, rest) ← arrayItems (value depth) (rest.length + 1) rest
        return (.sequence items, rest)
    | '{' :: rest =>
      match depth with
      | 0 => none
      | depth + 1 => inlineTable (value depth) rest
    | 't' :: 'r' :: 'u' :: 'e' :: rest => some (.boolean true, rest)
    | 'f' :: 'a' :: 'l' :: 's' :: 'e' :: rest => some (.boolean false, rest)
    | _ => moment cs <|> float cs <|> integer cs

/-- What the lines so far amount to: the finished tables and the one being filled. -/
structure Draft where
  root : Entries := []
  path : List String := []
  /-- The name of the table being filled; the document itself has none. -/
  name : Option String := none
  element : Bool := false
  current : Entries := []

def Draft.finish (d : Draft) : Option Entries :=
  match d.name with
  | none => some d.current
  | some name =>
    if d.element then d.root.pushTable d.path name d.current
    else d.root.putTable d.path name d.current

def Draft.openTable (d : Draft) (path : List String) (name : String) : Option Draft := do
  let (current, root) ← (← d.finish).takeTable path name
  return { root, path, name := some name, current }

def Draft.openElement (d : Draft) (path : List String) (name : String) : Option Draft := do
  let root ← (← d.finish).openTables path name
  return { root, path, name := some name, element := true }

def line (d : Draft) (cs : List Char) : Option (Draft × List Char) :=
  match skipBlanks cs with
  | [] => some (d, [])
  | '#' :: rest => do return (d, ← lineEnd ('#' :: rest))
  | '\n' :: rest => some (d, rest)
  | '\r' :: rest => do return (d, ← newline ('\r' :: rest))
  | '[' :: '[' :: rest => do
    let ((path, name), rest) ← key rest
    let (_, rest) ← exactly "]]" rest
    return (← d.openElement path name, ← lineEnd rest)
  | '[' :: rest => do
    let ((path, name), rest) ← key rest
    let (_, rest) ← exactly "]" rest
    return (← d.openTable path name, ← lineEnd rest)
  | cs => do
    let ((path, last, v), rest) ← keyValue (value nestingLimit) cs
    return ({ d with current := ← d.current.insert path last v }, ← lineEnd rest)

def lines : Nat → Draft → List Char → Option Draft
  | _, d, [] => some d
  | 0, _, _ => none
  | fuel + 1, d, cs => do
    let (d, rest) ← line d cs
    lines fuel d rest

/-- The table that a document describes. A byte order mark may stand first. -/
def parse? (document : String) : Option Value := do
  let cs := match document.toList with
    | '\ufeff' :: rest => rest
    | cs => cs
  let entries ← (← lines cs.length {} cs).finish
  return .table (entriesToValue entries)

end Deferral.Toml
