import Deferral.Config.Basic
import Deferral.Config.Value

/-!
Reading a configuration from a value tree. A structure is a table of named fields, checked in the
order of the document, or (routes apart) the sequence of its fields. Unknown fields are ignored and
missing ones take their defaults; what has none is reported last, in the order of declaration.
-/

namespace Deferral.Config

inductive DecodeError where
  | missingField (name : String)
  | duplicateField (name : String)
  | invalidType (found : Value) (expected : String)
  | invalidValue (found : Value) (expected : String)
  | unknownVariant (name : String) (known : List String)
  | invalidLength (length : Nat) (expected : String)
  | notStringOrTable
  | noElement
  | manyElements
  | notEmpty (kind : String)
  | notTable (kind : String)

private def ticked (s : String) : String := "\x60" ++ s ++ "\x60"

def DecodeError.message (source : Source) : DecodeError → String
  | .missingField name => s!"missing field {ticked name}"
  | .duplicateField name => s!"duplicate field {ticked name}"
  | .invalidType found expected => s!"invalid type: {found.describe source}, expected {expected}"
  | .invalidValue found expected => s!"invalid value: {found.describe source}, expected {expected}"
  | .unknownVariant name [a, b] =>
    s!"unknown variant {ticked name}, expected {ticked a} or {ticked b}"
  | .unknownVariant name known =>
    s!"unknown variant {ticked name}, expected one of " ++ ", ".intercalate (known.map ticked)
  | .invalidLength length expected => s!"invalid length {length}, expected {expected}"
  | .notStringOrTable => "wanted string or table"
  | .noElement => "wanted exactly 1 element, found 0 elements"
  | .manyElements => "wanted exactly 1 element, more than 1 element"
  | .notEmpty kind => s!"expected empty {kind}"
  | .notTable kind => s!"expected table, found {kind}"

abbrev Decoder (α : Type) := Value → Except DecodeError α

def decodeWord : Decoder Nat
  | .integer n =>
    if n < 0 ∨ n ≥ 0x10000000000000000 then .error (.invalidValue (.integer n) "u64") else .ok n.toNat
  | v => .error (.invalidType v "u64")

def decodeText : Decoder String
  | .text s => .ok s
  | v => .error (.invalidType v "a string")

def decodeFlag : Decoder Bool
  | .boolean b => .ok b
  | v => .error (.invalidType v "a boolean")

def decodeOptional {α : Type} (decode : Decoder α) : Decoder (Option α)
  | .null => .ok none
  | v => some <$> decode v

def decodeSequence {α : Type} (decode : Decoder α) : Decoder (List α)
  | .sequence items | .tables items => items.mapM decode
  | v => .error (.invalidType v "a sequence")

def decodeVariant {α : Type} (known : List String) (ofName? : String → Option α) (name : String) :
    Except DecodeError α :=
  match ofName? name with
  | some a => .ok a
  | none => .error (.unknownVariant name known)

/-- A variant by its name, or as a table from its name to no content. `content` accepts what stands
for no content. -/
def decodeChoice {α : Type} (known : List String) (ofName? : String → Option α)
    (content : Decoder Unit) : Decoder α
  | .text name => decodeVariant known ofName? name
  | .table [(name, v)] => do
    let a ← decodeVariant known ofName? name
    content v
    return a
  | .table entries => .error (.invalidValue (.table entries) "map with a single key")
  | .moment _ => .error (.unknownVariant "$__toml_private_datetime" known)
  | v => .error (.invalidType v "string or map")

/-- No content in an interchange document. -/
def decodeUnit : Decoder Unit
  | .null => .ok ()
  | v => .error (.invalidType v "unit")

/-- No content once a value has been set aside for later, as the policy fields of a route are. -/
def decodeBufferedUnit : Decoder Unit
  | .null | .table [] => .ok ()
  | v => .error (.invalidType v "unit")

def decodeEmpty : Decoder Unit
  | .table [] | .sequence [] | .tables [] => .ok ()
  | .table _ | .sequence _ => .error (.notEmpty "table")
  | .tables _ => .error (.notEmpty "array")
  | v => .error (.notTable v.kindName)

def decodeFileChoice {α : Type} (known : List String) (ofName? : String → Option α) : Decoder α
  | .text name => decodeVariant known ofName? name
  | .table [] => .error .noElement
  | .table [(name, v)] => do
    let a ← decodeVariant known ofName? name
    decodeEmpty v
    return a
  | .table _ => .error .manyElements
  | _ => .error .notStringOrTable

def timeUnitNames : List String := TimeUnit.all.map TimeUnit.name

def decodeTimeUnit : Decoder TimeUnit := decodeChoice timeUnitNames TimeUnit.ofName? decodeUnit

def decodeBufferedTimeUnit : Decoder TimeUnit :=
  decodeChoice timeUnitNames TimeUnit.ofName? decodeBufferedUnit

def logFormatNames : List String := LogFormat.all.map LogFormat.name

def decodeLogFormat : Source → Decoder LogFormat
  | .interchange => decodeChoice logFormatNames LogFormat.ofName? decodeUnit
  | .file => decodeFileChoice logFormatNames LogFormat.ofName?

/-- A named field of a structure under construction: its value decodes to an update. -/
structure Field (σ : Type) where
  name : String
  update : Decoder (σ → σ)

def readEntry {σ : Type} (fields : List (Field σ)) (read : σ × List String)
    (entry : String × Value) : Except DecodeError (σ × List String) :=
  match fields.find? (·.name == entry.1) with
  | none => .ok read
  | some field =>
    if read.2.contains field.name then .error (.duplicateField field.name)
    else do
      let update ← field.update entry.2
      return (update read.1, field.name :: read.2)

def decodeEntries {σ : Type} (fields : List (Field σ)) (start : σ) (entries : List (String × Value)) :
    Except DecodeError σ :=
  Prod.fst <$> entries.foldlM (readEntry fields) (start, [])

/-- Reads a sequence of fields in the order of declaration; returns the fields not given and the
surplus elements too. -/
def decodeItems {σ : Type} : List (Field σ) → σ → List Value →
    Except DecodeError (σ × List (Field σ) × List Value)
  | field :: fields, state, item :: items => do
    let update ← field.update item
    decodeItems fields (update state) items
  | fields, state, items => .ok (state, fields, items)

/-- Refuses a sequence with elements left over, where the source does. -/
def checkSurplus (source : Source) (length : Nat) (surplus : List Value) :
    Except DecodeError Unit :=
  if source = .interchange ∧ surplus ≠ [] then .error (.invalidLength length "fewer elements in array")
  else .ok ()

def decodeStructure {σ : Type} (source : Source) (name : String) (fields : List (Field σ)) (start : σ) :
    Decoder σ
  | .table entries => decodeEntries fields start entries
  | .sequence items | .tables items => do
    let (state, _, surplus) ← decodeItems fields start items
    checkSurplus source items.length surplus
    return state
  | .moment _ => .ok start
  | v => .error (.invalidType v s!"struct {name}")

structure PolicyFields where
  timeout : Option Nat := none
  unit : Option TimeUnit := none

/-- The amount is required; the unit is milliseconds unless given. -/
def PolicyFields.build (p : PolicyFields) : Except DecodeError SuspendPolicy :=
  match p.timeout with
  | some timeout => .ok ⟨timeout, p.unit.getD .milliseconds⟩
  | none => .error (.missingField "timeout")

def policyFields (unit : Decoder TimeUnit) : List (Field PolicyFields) := [
  ⟨"timeout", fun v => do let n ← decodeWord v; return fun p => { p with timeout := some n }⟩,
  ⟨"unit", fun v => do let u ← unit v; return fun p => { p with unit := some u }⟩]

/-- A policy on its own. As a sequence it has one or two elements. -/
def decodePolicy : Decoder SuspendPolicy
  | .table entries => do (← decodeEntries (policyFields decodeTimeUnit) {} entries).build
  | .sequence [] | .tables [] => .error (.invalidLength 0 "struct SuspendPolicy with 2 elements")
  | .sequence items | .tables items => do
    let (p, _, surplus) ← decodeItems (policyFields decodeTimeUnit) {} items
    checkSurplus .interchange items.length surplus
    p.build
  | v => .error (.invalidType v "struct SuspendPolicy")

def routeNameField : Field (Option String) :=
  ⟨"name", fun v => do let s ← decodeText v; return fun _ => some s⟩

/-- A route: its name is read first and the fields of its policy, which stand beside it, after. -/
def decodeRoute : Decoder RoutePolicy
  | .table entries => do
    let some name ← decodeEntries [routeNameField] none entries
      | .error (.missingField "name")
    let policy ← decodeEntries (policyFields decodeBufferedTimeUnit) {} entries
    return ⟨name, ← policy.build⟩
  | .moment _ => .error (.missingField "name")
  | v => .error (.invalidType v "struct RoutePolicy")

def listenerFields : List (Field ListenerConfig) := [
  ⟨"bind_address", fun v => do let s ← decodeText v; return fun c => { c with bindAddress := s }⟩]

def timeoutFields : List (Field TimeoutConfig) := [
  ⟨"default_secs", fun v => do
    let n ← decodeOptional decodeWord v; return fun c => { c with defaultSecs := n }⟩,
  ⟨"shutdown_grace_ms", fun v => do
    let n ← decodeWord v; return fun c => { c with shutdownGraceMs := n }⟩]

def observabilityFields (source : Source) : List (Field ObservabilityConfig) := [
  ⟨"log_level", fun v => do let s ← decodeText v; return fun c => { c with logLevel := s }⟩,
  ⟨"log_format", fun v => do
    let f ← decodeLogFormat source v; return fun c => { c with logFormat := f }⟩,
  ⟨"metrics_enabled", fun v => do
    let b ← decodeFlag v; return fun c => { c with metricsEnabled := b }⟩,
  ⟨"metrics_address", fun v => do
    let s ← decodeText v; return fun c => { c with metricsAddress := s }⟩]

def serviceFields (source : Source) : List (Field ServiceConfig) := [
  ⟨"listener", fun v => do
    let l ← decodeStructure source "ListenerConfig" listenerFields {} v
    return fun c => { c with listener := l }⟩,
  ⟨"timeouts", fun v => do
    let t ← decodeStructure source "TimeoutConfig" timeoutFields {} v
    return fun c => { c with timeouts := t }⟩,
  ⟨"routes", fun v => do
    let rs ← decodeSequence decodeRoute v; return fun c => { c with routes := rs }⟩,
  ⟨"observability", fun v => do
    let o ← decodeStructure source "ObservabilityConfig" (observabilityFields source) {} v
    return fun c => { c with observability := o }⟩]

def decodeService (source : Source) : Decoder ServiceConfig :=
  decodeStructure source "ServiceConfig" (serviceFields source) {}

end Deferral.Config
