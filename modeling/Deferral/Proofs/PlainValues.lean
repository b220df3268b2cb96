import Deferral.Toml.Document
import Mathlib.Data.Option.Basic

/-!
Trees that a document can hold. No text of the file format stands for `null`, and its integers have
64 bits with a sign, so the tree of a document has nothing else at any depth.
-/

namespace Deferral.Config

inductive Value.Plain : Value → Prop where
  | boolean (b : Bool) : Plain (.boolean b)
  | integer {n : Int} (low : -0x8000000000000000 ≤ n) (high : n < 0x8000000000000000) : Plain (.integer n)
  | float (bits : UInt64) : Plain (.float bits)
  | text (s : String) : Plain (.text s)
  | moment (s : String) : Plain (.moment s)
  | sequence {items : List Value} (plain : ∀ item ∈ items, Plain item) : Plain (.sequence items)
  | tables {items : List Value} (plain : ∀ item ∈ items, Plain item) : Plain (.tables items)
  | table {entries : List (String × Value)} (plain : ∀ entry ∈ entries, Plain entry.2) :
    Plain (.table entries)

end Deferral.Config

namespace Deferral.Toml

open Config (Value)

inductive Node.Plain : Node → Prop where
  | leaf {v : Value} (plain : v.Plain) : Plain (.leaf v)
  | table {opened : Opened} {entries : Entries} (plain : ∀ entry ∈ entries, Plain entry.2) :
    Plain (.table opened entries)
  | tables {elements : List Entries} (plain : ∀ entries ∈ elements, ∀ entry ∈ entries, Plain entry.2) :
    Plain (.tables elements)

theorem entriesToValue_eq_map (entries : Entries) :
    entriesToValue entries = entries.map fun entry => (entry.1, entry.2.toValue) := by
  induction entries with
  | nil => rfl
  | cons entry rest ih => simp [entriesToValue, ih]

theorem elementsToValue_eq_map (elements : List Entries) :
    elementsToValue elements = elements.map fun entries => .table (entriesToValue entries) := by
  induction elements with
  | nil => rfl
  | cons entries rest ih => simp [elementsToValue, ih]

theorem Node.Plain.toValue {node : Node} (plain : node.Plain) : node.toValue.Plain := by
  induction plain with
  | leaf plain => exact plain
  | table _ ih =>
    refine .table ?_
    rw [entriesToValue_eq_map, List.forall_mem_map]
    exact ih
  | tables _ ih =>
    refine .tables ?_
    rw [elementsToValue_eq_map, List.forall_mem_map]
    intro entries held
    refine .table ?_
    rw [entriesToValue_eq_map, List.forall_mem_map]
    exact ih entries held

namespace Entries

def Plain (entries : Entries) : Prop := ∀ entry ∈ entries, entry.2.Plain

variable {entries out : Entries} {key : String} {node : Node} {path : List String}

theorem Plain.nil : Plain [] := by simp [Plain]

theorem Plain.append {more : Entries} (first : Plain entries) (second : Plain more) :
    Plain (entries ++ more) := by
  intro entry held
  exact (List.mem_append.mp held).elim (first entry) (second entry)

theorem Plain.single (plain : node.Plain) : Plain [(key, node)] := by
  simpa [Plain] using plain

theorem Plain.lookup (plain : Plain entries) (found : entries.lookup key = some node) : node.Plain := by
  induction entries with
  | nil => simp at found
  | cons entry rest ih =>
    rw [List.lookup_cons] at found
    split at found
    · cases found
      exact plain entry List.mem_cons_self
    · exact ih (fun e held => plain e (List.mem_cons_of_mem _ held)) found

theorem Plain.replace (plain : Plain entries) (node_plain : node.Plain) :
    Plain (replace key node entries) := by
  induction entries with
  | nil => exact plain
  | cons entry rest ih =>
    have below : Plain rest := fun e held => plain e (List.mem_cons_of_mem _ held)
    rw [Entries.replace]
    split
    · exact List.forall_mem_cons.mpr ⟨node_plain, below⟩
    · exact List.forall_mem_cons.mpr ⟨plain entry List.mem_cons_self, ih below⟩

theorem Plain.toValue (plain : Plain entries) : (Value.table (entriesToValue entries)).Plain :=
  (show (Node.table .explicitly entries).Plain from .table plain).toValue

/-- A change that leaves the table at a path plain leaves the whole plain. -/
theorem Plain.updateAt {dotted : Bool} {change : Opened → Entries → Option Entries}
    (keeps : ∀ opened es es', Plain es → change opened es = some es' → Plain es')
    {opened : Opened} (plain : Plain entries)
    (changed : updateAt dotted change path opened entries = some out) : Plain out := by
  induction path generalizing opened entries out with
  | nil => exact keeps _ _ _ plain changed
  | cons key path ih =>
    rw [Entries.updateAt] at changed
    cases found : entries.lookup key with
    | none =>
      rw [found] at changed
      obtain ⟨sub, below, h⟩ := Option.bind_eq_some_iff.mp changed
      cases h
      exact plain.append (.single (.table (ih .nil below)))
    | some node =>
      rw [found] at changed
      cases plain.lookup found with
      | leaf => cases changed
      | tables inner =>
        obtain ⟨last, held, changed⟩ := Option.bind_eq_some_iff.mp changed
        obtain ⟨sub, below, h⟩ := Option.bind_eq_some_iff.mp changed
        cases h
        refine plain.replace (.tables ?_)
        intro es placed
        rcases List.mem_append.mp placed with early | final
        · exact inner es (List.dropLast_subset _ early)
        · obtain rfl := List.mem_singleton.mp final
          exact ih (inner last (List.mem_of_getLast? held)) below
      | table inner =>
        obtain ⟨-, -, changed⟩ := Option.bind_eq_some_iff.mp changed
        obtain ⟨sub, below, h⟩ := Option.bind_eq_some_iff.mp changed
        cases h
        exact plain.replace (.table (ih inner below))

theorem Plain.insert {v : Value} (plain : Plain entries) (value_plain : v.Plain)
    (inserted : entries.insert path key v = some out) : Plain out := by
  refine plain.updateAt ?_ inserted
  rintro opened es es' kept changed
  obtain ⟨-, -, changed⟩ := Option.bind_eq_some_iff.mp changed
  obtain ⟨-, -, h⟩ := Option.bind_eq_some_iff.mp changed
  cases h
  exact kept.append (.single (.leaf value_plain))

theorem Plain.found (plain : Plain entries) (found : takeTable.find? key path entries = some node) :
    node.Plain := by
  induction path generalizing entries with
  | nil => exact plain.lookup found
  | cons k path ih =>
    rw [takeTable.find?] at found
    split at found
    case h_1 held =>
      cases plain.lookup held with
      | table inner => exact ih inner found
    case h_2 held =>
      cases plain.lookup held with
      | tables inner =>
        obtain ⟨last, there, found⟩ := Option.bind_eq_some_iff.mp found
        exact ih (inner last (List.mem_of_getLast? there)) found
    case h_3 => cases found

theorem Plain.takeTable {taken rest : Entries} (plain : Plain entries)
    (took : entries.takeTable path key = some (taken, rest)) : Plain taken ∧ Plain rest := by
  rw [Entries.takeTable] at took
  split at took
  case h_1 =>
    obtain ⟨there, rfl⟩ := by simpa [Option.bind_eq_some_iff] using took
    refine ⟨.nil, plain.updateAt ?_ there⟩
    rintro opened es es' kept changed
    cases changed
    exact kept
  case h_2 sub held =>
    obtain ⟨there, rfl⟩ := by simpa [Option.bind_eq_some_iff] using took
    cases plain.found held with
    | table inner =>
      refine ⟨inner, plain.updateAt ?_ there⟩
      rintro opened es es' kept changed
      cases changed
      exact fun entry among => kept entry ((List.mem_filter.mp among).1)
  case h_3 => cases took

theorem Plain.putTable {table : Entries} (plain : Plain entries) (table_plain : Plain table)
    (put : entries.putTable path key table = some out) : Plain out := by
  refine plain.updateAt ?_ put
  rintro opened es es' kept changed
  obtain ⟨-, -, h⟩ := Option.bind_eq_some_iff.mp changed
  cases h
  exact kept.append (.single (.table table_plain))

theorem Plain.openTables (plain : Plain entries) (opens : entries.openTables path key = some out) :
    Plain out := by
  refine plain.updateAt ?_ opens
  rintro opened es es' kept changed
  split at changed
  case h_1 =>
    cases changed
    exact kept.append (.single (.tables (by simp)))
  case h_2 =>
    cases changed
    exact kept
  case h_3 => cases changed

theorem Plain.pushTable {table : Entries} (plain : Plain entries) (table_plain : Plain table)
    (pushed : entries.pushTable path key table = some out) : Plain out := by
  refine plain.updateAt ?_ pushed
  rintro opened es es' kept changed
  split at changed
  case h_1 elements held =>
    cases changed
    cases kept.lookup held with
    | tables inner =>
      refine kept.replace (.tables ?_)
      intro es placed
      rcases List.mem_append.mp placed with early | final
      · exact inner es early
      · obtain rfl := List.mem_singleton.mp final
        exact table_plain
  case h_2 => cases changed

end Entries

/-- A reader of values that reads nothing but such trees. -/
def Reader.Plain (read : Reader Value) : Prop :=
  ∀ cs v rest, read cs = some (v, rest) → v.Plain

theorem of_guard_eq_some {p : Prop} [Decidable p] {u : Unit} (passed : (guard p : Option Unit) = some u) : p := by
  rw [guard] at passed
  split at passed
  · assumption
  · cases passed

theorem radixInteger_plain (radix : Nat) : Reader.Plain (radixInteger radix) := by
  intro cs v rest found
  unfold radixInteger at found
  obtain ⟨_, -, found⟩ := Option.bind_eq_some_iff.mp found
  obtain ⟨_, bounded, h⟩ := Option.bind_eq_some_iff.mp found
  cases h
  have bounded := of_guard_eq_some bounded
  exact .integer (by omega) (by omega)

theorem signed_plain {negative : Bool} {n : Nat}
    (bounded : n < 0x8000000000000000 ∨ negative = true ∧ n = 0x8000000000000000) :
    (Value.integer (if negative = true then -(n : Int) else n)).Plain := by
  rcases bounded with small | ⟨rfl, rfl⟩
  · split
    · exact .integer (by omega) (by omega)
    · exact .integer (by omega) (by omega)
  · exact .integer (by decide) (by decide)

theorem integer_plain : Reader.Plain integer := by
  intro cs v rest found
  rw [integer.eq_def] at found
  split at found
  case h_1 | h_2 | h_3 => exact radixInteger_plain _ _ _ _ found
  case h_4 =>
    obtain ⟨_, -, found⟩ := Option.bind_eq_some_iff.mp found
    obtain ⟨_, bounded, h⟩ := Option.bind_eq_some_iff.mp found
    cases h
    exact signed_plain (of_guard_eq_some bounded)

theorem fractional_plain : Reader.Plain fractional := by
  intro cs v rest found
  unfold fractional at found
  obtain ⟨_, -, found⟩ := Option.bind_eq_some_iff.mp found
  obtain ⟨_, -, found⟩ := Option.bind_eq_some_iff.mp found
  obtain ⟨_, -, found⟩ := Option.bind_eq_some_iff.mp found
  obtain ⟨_, -, h⟩ := Option.bind_eq_some_iff.mp found
  cases h
  exact .float _

theorem special_plain : Reader.Plain special := by
  intro cs v rest found
  simp only [special] at found
  split at found
  case h_1 | h_2 =>
    cases found
    exact .float _
  case h_3 => cases found

theorem Reader.Plain.orElse {first second : Reader Value} (one : Reader.Plain first) (other : Reader.Plain second) :
    Reader.Plain fun cs => first cs <|> second cs := by
  intro cs v rest found
  rcases Option.or_eq_some_iff.mp (Option.orElse_eq_or.symm.trans found) with found | ⟨-, found⟩
  · exact one cs v rest found
  · exact other cs v rest found

theorem float_plain : Reader.Plain float := fractional_plain.orElse special_plain

theorem moment_plain : Reader.Plain moment := by
  intro cs v rest found
  simp only [moment] at found
  split at found
  all_goals
    obtain ⟨_, -, h⟩ := Option.bind_eq_some_iff.mp found
    cases h
    exact .moment _

section
variable {read : Reader Value} (plain : Reader.Plain read)
include plain

theorem Reader.Plain.keyValue {cs rest : List Char} {path : List String} {last : String} {v : Value}
    (found : keyValue read cs = some ((path, last, v), rest)) : v.Plain := by
  simp only [Toml.keyValue, Option.bind_eq_bind, Option.bind_eq_some_iff] at found
  obtain ⟨_, -, _, -, ⟨v, rest⟩, there, h⟩ := found
  cases h
  exact plain _ _ _ there

theorem Reader.Plain.arrayItems {fuel : Nat} {cs rest : List Char} {items : List Value}
    (found : arrayItems read fuel cs = some (items, rest)) : ∀ item ∈ items, item.Plain := by
  induction fuel generalizing cs items with
  | zero => cases found
  | succ fuel ih =>
    rw [Toml.arrayItems] at found
    split at found
    case h_1 =>
      cases found
      simp
    case h_2 =>
      simp only [Option.bind_eq_bind, Option.bind_eq_some_iff] at found
      obtain ⟨⟨v, rest⟩, there, found⟩ := found
      have first : v.Plain := plain _ _ _ there
      split at found
      case h_1 =>
        cases found
        simpa using first
      case h_2 =>
        obtain ⟨⟨more, rest⟩, further, h⟩ := Option.bind_eq_some_iff.mp found
        cases h
        exact List.forall_mem_cons.mpr ⟨first, ih further⟩
      case h_3 => cases found

theorem Reader.Plain.inlinePairs {fuel : Nat} {entries out : Entries} {cs rest : List Char}
    (kept : Entries.Plain entries) (found : inlinePairs read fuel entries cs = some (out, rest)) :
    Entries.Plain out := by
  induction fuel generalizing entries cs with
  | zero => cases found
  | succ fuel ih =>
    simp only [Toml.inlinePairs, Option.bind_eq_bind, Option.bind_eq_some_iff] at found
    obtain ⟨⟨⟨path, last, v⟩, rest⟩, there, more, inserted, found⟩ := found
    have held := kept.insert (plain.keyValue there) inserted
    split at found
    case h_1 =>
      cases found
      exact held
    case h_2 => exact ih held found
    case h_3 => cases found

theorem Reader.Plain.inlineTable : Reader.Plain (inlineTable read) := by
  intro cs v rest found
  rw [Toml.inlineTable] at found
  split at found
  case h_1 =>
    cases found
    exact .table (by simp)
  case h_2 =>
    simp only [Option.bind_eq_bind, Option.bind_eq_some_iff] at found
    obtain ⟨⟨entries, rest⟩, there, h⟩ := found
    cases h
    exact (plain.inlinePairs .nil there).toValue

end

theorem value_plain (depth : Nat) : Reader.Plain (value depth) := by
  intro cs
  induction depth using Nat.strongRecOn generalizing cs with
  | ind depth ih =>
    intro v rest found
    rw [value.eq_def] at found
    simp only at found
    split at found
    case h_1 | h_2 =>
      obtain ⟨_, -, h⟩ := Option.bind_eq_some_iff.mp found
      cases h
      exact .text _
    case h_3 =>
      cases depth with
      | zero => cases found
      | succ depth =>
        obtain ⟨_, there, h⟩ := Option.bind_eq_some_iff.mp found
        cases h
        exact .sequence (Reader.Plain.arrayItems (ih depth depth.lt_succ_self) there)
    case h_4 =>
      cases depth with
      | zero => cases found
      | succ depth => exact Reader.Plain.inlineTable (ih depth depth.lt_succ_self) _ _ _ found
    case h_5 | h_6 =>
      cases found
      exact .boolean _
    case h_7 => exact moment_plain.orElse (float_plain.orElse integer_plain) _ _ _ found

structure Draft.Plain (d : Draft) : Prop where
  root : Entries.Plain d.root
  current : Entries.Plain d.current

namespace Draft.Plain

variable {d next : Draft} (plain : d.Plain)
include plain

theorem finish {entries : Entries} (finished : d.finish = some entries) : Entries.Plain entries := by
  rw [Draft.finish] at finished
  split at finished
  case h_1 =>
    cases finished
    exact plain.current
  case h_2 =>
    split at finished
    · exact plain.root.pushTable plain.current finished
    · exact plain.root.putTable plain.current finished

theorem openTable {path : List String} {name : String} (opened : d.openTable path name = some next) :
    next.Plain := by
  simp only [Draft.openTable, Option.bind_eq_bind] at opened
  obtain ⟨entries, finished, opened⟩ := Option.bind_eq_some_iff.mp opened
  obtain ⟨⟨current, root⟩, took, h⟩ := Option.bind_eq_some_iff.mp opened
  cases h
  obtain ⟨taken, rest⟩ := (plain.finish finished).takeTable took
  exact ⟨rest, taken⟩

theorem openElement {path : List String} {name : String} (opened : d.openElement path name = some next) :
    next.Plain := by
  simp only [Draft.openElement, Option.bind_eq_bind] at opened
  obtain ⟨entries, finished, opened⟩ := Option.bind_eq_some_iff.mp opened
  obtain ⟨root, opens, h⟩ := Option.bind_eq_some_iff.mp opened
  cases h
  exact ⟨(plain.finish finished).openTables opens, .nil⟩

theorem line {cs rest : List Char} (read : Toml.line d cs = some (next, rest)) : next.Plain := by
  rw [Toml.line] at read
  split at read
  case h_1 | h_3 =>
    cases read
    exact plain
  case h_2 | h_4 =>
    obtain ⟨_, -, h⟩ := Option.bind_eq_some_iff.mp read
    cases h
    exact plain
  case h_5 =>
    obtain ⟨_, -, read⟩ := Option.bind_eq_some_iff.mp read
    obtain ⟨_, -, read⟩ := Option.bind_eq_some_iff.mp read
    obtain ⟨_, opened, read⟩ := Option.bind_eq_some_iff.mp read
    obtain ⟨_, -, h⟩ := Option.bind_eq_some_iff.mp read
    cases h
    exact plain.openElement opened
  case h_6 =>
    obtain ⟨_, -, read⟩ := Option.bind_eq_some_iff.mp read
    obtain ⟨_, -, read⟩ := Option.bind_eq_some_iff.mp read
    obtain ⟨_, opened, read⟩ := Option.bind_eq_some_iff.mp read
    obtain ⟨_, -, h⟩ := Option.bind_eq_some_iff.mp read
    cases h
    exact plain.openTable opened
  case h_7 =>
    obtain ⟨⟨⟨path, last, v⟩, rest⟩, pair, read⟩ := Option.bind_eq_some_iff.mp read
    obtain ⟨current, inserted, read⟩ := Option.bind_eq_some_iff.mp read
    obtain ⟨_, -, h⟩ := Option.bind_eq_some_iff.mp read
    cases h
    exact ⟨plain.root, plain.current.insert ((value_plain _).keyValue pair) inserted⟩

theorem lines {fuel : Nat} {cs : List Char} (read : Toml.lines fuel d cs = some next) : next.Plain := by
  induction fuel generalizing d cs with
  | zero =>
    cases cs with
    | nil =>
      cases read
      exact plain
    | cons => cases read
  | succ fuel ih =>
    cases cs with
    | nil =>
      cases read
      exact plain
    | cons =>
      obtain ⟨⟨d, rest⟩, first, further⟩ := Option.bind_eq_some_iff.mp read
      exact ih (plain.line first) further

end Draft.Plain

/-- The tree of a document is plain. -/
theorem parse_plain {document : String} {tree : Value} (found : parse? document = some tree) :
    tree.Plain := by
  simp only [parse?, Option.bind_eq_bind] at found
  obtain ⟨draft, read, found⟩ := Option.bind_eq_some_iff.mp found
  obtain ⟨entries, finished, h⟩ := Option.bind_eq_some_iff.mp found
  cases h
  have start : Draft.Plain {} := ⟨.nil, .nil⟩
  exact ((start.lines read).finish finished).toValue

end Deferral.Toml
