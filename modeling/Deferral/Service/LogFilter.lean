import Deferral.Service.Directive

/-!
Which log events are written. Of the directives that apply to an event the most specific one decides.
Directives that ask for a span, or for a field that the span of a request has, apply to all events in
that span too, whatever else is decided for them.
-/

namespace Deferral.Service

/-- A stretch of work in which events happen. It belongs to none of the parts of the service. -/
structure Span where
  name : String
  level : LogLevel
  fields : List (String × String)
  deriving DecidableEq, Repr

def Span.ofRequest (method uri : String) : Span where
  name := "request"
  level := .debug
  fields := [("method", method), ("uri", uri), ("version", "HTTP/1.1")]

/-- How much a limit lets through: nothing below `error`, and more with each level. -/
def reach (limit : Option LogLevel) : Nat :=
  match limit with
  | none => 0
  | some level => level.verbosity + 1

def reaches (limit : Option LogLevel) (level : LogLevel) : Bool := level.verbosity < reach limit

namespace Directive

def isPlain (d : Directive) : Bool := d.span.isNone && d.field.all (·.value.isNone)

def isScoped (d : Directive) : Bool := d.span.isSome || d.field.isSome

def hasValue (d : Directive) : Bool := d.field.any (·.value.isSome)

def appliesTo (d : Directive) (event : LogEvent) : Bool :=
  d.target.toList.isPrefixOf event.target.toList && d.field.all (event.fieldNames.contains ·.name)

/-- A value is asked for letter by letter, where a dot stands for any letter. -/
def fitsValue : List Char → List Char → Bool
  | [], [] => true
  | p :: pattern, c :: text => (p = '.' || p = c) && fitsValue pattern text
  | _, _ => false

/-- The directive is about spans like this one. One with a target is about parts of the service alone. -/
def concerns (d : Directive) (span : Span) : Bool :=
  d.isScoped && d.target.isEmpty && d.span.all (· == span.name) &&
    d.field.all fun field => (span.fields.lookup field.name).isSome

def holdsIn (d : Directive) (span : Span) : Bool :=
  d.field.all fun field => field.value.all fun value =>
    (span.fields.lookup field.name).any fun text => fitsValue value.toList text.toList

/-- Whether a later directive goes before an earlier one: longer targets go first, then directives with
a field, then fields with the greater name, and of equal ones the later. -/
def supersedes (later earlier : Directive) : Bool :=
  if later.target.utf8ByteSize ≠ earlier.target.utf8ByteSize then
    earlier.target.utf8ByteSize < later.target.utf8ByteSize
  else
    match later.field, earlier.field with
    | some a, some b => decide (b.name ≤ a.name)
    | none, some _ => false
    | _, none => true

end Directive

structure LogFilter where
  directives : List Directive
  deriving DecidableEq, Repr

namespace LogFilter

/-- Reads directives between commas. Without any, errors are written. -/
def parse? (s : String) : Option LogFilter :=
  let parts := ((Text.splitOn ',' s.toList).filter (!·.isEmpty)).map String.ofList
  if parts.isEmpty then some ⟨[{ level := some .error }]⟩
  else (parts.mapM Directive.parse?).map LogFilter.mk

def ofLevel (level : String) : LogFilter :=
  ⟨[{ target := "deferred_response", level := (level? level).getD (some .trace) }]⟩

def deciding (filter : LogFilter) (event : LogEvent) : Option Directive :=
  (filter.directives.filter fun d => d.isPlain && d.appliesTo event).foldl (fun best d =>
    if best.all (d.supersedes ·) then some d else best) none

/-- Spans are opened if some directive reaches their level; asking for values opens all. -/
def opens (filter : LogFilter) (span : Span) : Bool :=
  filter.directives.any fun d => d.hasValue || reaches d.level span.level

def spanReach (filter : LogFilter) (span : Span) : Nat :=
  if filter.opens span then
    ((filter.directives.filter fun d => d.concerns span && d.holdsIn span).map (reach ·.level)).foldl max 0
  else 0

def allows (filter : LogFilter) (span : Option Span) (event : LogEvent) : Bool :=
  span.any (event.level.verbosity < filter.spanReach ·) ||
    (filter.deciding event).any (reaches ·.level event.level)

end LogFilter
end Deferral.Service
