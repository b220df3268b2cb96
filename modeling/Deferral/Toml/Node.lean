import Deferral.Config.Value

/-!
Tables under construction. A table may be opened by a header, by a longer header below it, or by
dotted keys; which of these it was decides what may still be added to it.
-/

namespace Deferral.Toml

open Config (Value)

inductive Opened where
  | explicitly
  | implicitly
  | dotted
  deriving DecidableEq, Repr

inductive Node where
  | leaf (value : Value)
  | table (opened : Opened) (entries : List (String × Node))
  /-- A list of tables; the last one is the open one. -/
  | tables (elements : List (List (String × Node)))

abbrev Entries := List (String × Node)

namespace Entries

/-- The node of a key, which an entry may replace. -/
def replace (key : String) (node : Node) : Entries → Entries
  | [] => []
  | (k, n) :: rest => if k = key then (k, node) :: rest else (k, n) :: replace key node rest

/-- Changes the table at a path with `change`, which is told how that table was opened. Tables that
are missing on the way are opened. A dotted key does not reach into tables opened by a header. -/
def updateAt (dotted : Bool) (change : Opened → Entries → Option Entries) :
    List String → Opened → Entries → Option Entries
  | [], opened, entries => change opened entries
  | key :: path, _, entries =>
    match entries.lookup key with
    | none => do
      let opened := if dotted then .dotted else .implicitly
      let sub ← updateAt dotted change path opened []
      return entries ++ [(key, .table opened sub)]
    | some (.leaf _) => none
    | some (.tables elements) => do
      let sub ← updateAt dotted change path .explicitly (← elements.getLast?)
      return replace key (.tables (elements.dropLast ++ [sub])) entries
    | some (.table opened sub) => do
      guard (!(dotted && opened == .explicitly))
      let sub ← updateAt dotted change path opened sub
      return replace key (.table opened sub) entries

def insert (entries : Entries) (path : List String) (key : String) (value : Value) : Option Entries :=
  updateAt (!path.isEmpty) (fun opened entries => do
    guard ((opened == .dotted) == !path.isEmpty)
    guard (entries.lookup key).isNone
    return entries ++ [(key, .leaf value)]) path .explicitly entries

/-- Takes the table of a header out of its parent: its entries so far, if a header below it has
opened it, and the parent without it. A table that is there for any other reason cannot be opened
again. -/
def takeTable (entries : Entries) (path : List String) (key : String) : Option (Entries × Entries) := do
  match find? path entries with
  | none => return ([], ← updateAt false (fun _ es => some es) path .explicitly entries)
  | some (.table .implicitly sub) =>
    let rest ← updateAt false (fun _ es => some (es.filter (·.1 != key))) path .explicitly entries
    return (sub, rest)
  | some _ => none
where
  find? : List String → Entries → Option Node
    | [], entries => entries.lookup key
    | k :: path, entries =>
      match entries.lookup k with
      | some (.table _ sub) => find? path sub
      | some (.tables elements) => elements.getLast?.bind (find? path)
      | _ => none

def putTable (entries : Entries) (path : List String) (key : String) (table : Entries) : Option Entries :=
  updateAt false (fun _ es => do
    guard (es.lookup key).isNone
    return es ++ [(key, .table .explicitly table)]) path .explicitly entries

def openTables (entries : Entries) (path : List String) (key : String) : Option Entries :=
  updateAt false (fun _ es =>
    match es.lookup key with
    | none => some (es ++ [(key, .tables [])])
    | some (.tables _) => some es
    | some _ => none) path .explicitly entries

def pushTable (entries : Entries) (path : List String) (key : String) (table : Entries) : Option Entries :=
  updateAt false (fun _ es =>
    match es.lookup key with
    | some (.tables elements) => some (replace key (.tables (elements ++ [table])) es)
    | _ => none) path .explicitly entries

end Entries

mutual

def Node.toValue : Node → Value
  | .leaf v => v
  | .table _ entries => .table (entriesToValue entries)
  | .tables elements => .tables (elementsToValue elements)

def entriesToValue : List (String × Node) → List (String × Value)
  | [] => []
  | (key, node) :: rest => (key, node.toValue) :: entriesToValue rest

def elementsToValue : List (List (String × Node)) → List Value
  | [] => []
  | entries :: rest => .table (entriesToValue entries) :: elementsToValue rest

end

end Deferral.Toml
