import Deferral.Log
import Deferral.Text.Blank
import Deferral.Text.Number
import Deferral.Text.Split

/-!
The directives of a log filter. A directive sets a level for events of some targets, in some spans or
with some fields, and is written `target[span{field=value}]=level`, where each part may be missing.
-/

namespace Deferral.Service

structure FieldCondition where
  name : String
  value : Option String
  deriving DecidableEq, Repr

structure Directive where
  /-- What a target has to start with; empty for all targets. -/
  target : String := ""
  span : Option String := none
  field : Option FieldCondition := none
  /-- Events are written from this level on, or not at all. -/
  level : Option LogLevel
  deriving DecidableEq, Repr

/-- A level by its number or by its name in any case; `off` is none. -/
def level? (s : String) : Option (Option LogLevel) :=
  match Text.word s with
  | .ok number => [none, some .error, some .warn, some .info, some .debug, some .trace][number]?
  | .error _ =>
    let name := Text.asciiLower s
    if name = "off" then some none else (LogLevel.all.find? (·.name == name)).map some

def FieldCondition.ofText (text : String) : FieldCondition :=
  match Text.splitOn '=' text.toList with
  | name :: value :: _ => ⟨String.ofList name, some (String.ofList value)⟩
  | _ => ⟨text, none⟩

namespace Directive

private def slice (cs : List Char) (first last : Nat) : String :=
  String.ofList ((cs.drop first).take (last - first))

private def seek (cs : List Char) (first : Nat) (wanted : List Char) : Option Nat :=
  ((cs.drop first).findIdx? wanted.contains).map (first + ·)

/-- The level that stands from an offset on. None stands for the most talkative one. -/
private def levelFrom (cs : List Char) (first : Nat) : Option (Option LogLevel) :=
  match cs.drop first with
  | [] => some (some .trace)
  | rest => level? (String.ofList rest)

private def afterSpan (whole scanned : List Char) (first : Nat) (directive : Directive) :
    Option Directive :=
  match scanned.drop first with
  | [] => some directive
  | '=' :: _ => (levelFrom whole (first + 1)).map fun level => { directive with level }
  | _ => none

private def spanFrom (whole scanned : List Char) (first : Nat) (target : String) : Option Directive := do
  let stop ← seek scanned first [']', '\x7b']
  let name := slice whole first stop
  if scanned[stop]? = some ']' then
    afterSpan whole scanned (stop + 1) { target, span := some name, level := some .trace }
  else
    let last ← seek scanned (stop + 1) ['\x7d']
    let text := slice whole (stop + 1) last
    guard (!text.isEmpty && scanned[last + 1]? == some ']')
    afterSpan whole scanned (last + 2) {
      target
      span := if name.isEmpty then none else some name
      field := some (.ofText text)
      level := some .trace }

private def startsTarget (c : Char) : Bool :=
  c.isAlphanum || c = '_' || c = ':' || c = '-' || c.val ≥ 0x80

/-- Reads a directive. What is no level is a target, and a target without a level is written at every
level. The blanks around a directive are not looked at, but its parts are cut out of the whole text at
the offsets found without them, so that a level after a blank names a target. -/
def parse? (s : String) : Option Directive :=
  let whole := s.toList
  let scanned := ((whole.dropWhile Text.isBlankChar).reverse.dropWhile Text.isBlankChar).reverse
  match scanned with
  | [] => none
  | '[' :: _ => spanFrom whole scanned 1 ""
  | c :: _ =>
    if !startsTarget c then none
    else
      match seek scanned 0 ['=', '['] with
      | none =>
        match level? s with
        | some level => some { level }
        | none => some { target := s, level := some .trace }
      | some stop =>
        let target := slice whole 0 stop
        if scanned[stop]? = some '=' then
          (levelFrom whole (stop + 1)).map fun level => { target, level }
        else spanFrom whole scanned (stop + 1) target

end Directive
end Deferral.Service
