import Deferral.Decimal.Shortest
import Deferral.Text.Quoted

/-!
Value trees, as a configuration is read from and written to. Tables keep their entries in the order
of the document.
-/

namespace Deferral.Config

/-- Where a tree comes from. Trees of interchange documents may hold `null` and must not give a
structure too many elements; trees of configuration files have no `null`, and surplus elements are
ignored. -/
inductive Source where
  | interchange | file
  deriving DecidableEq, Repr

def Source.writeNumber : Source → Decimal.Scaled → String
  | .interchange => Decimal.compact
  | .file => Decimal.positional

inductive Value where
  | null
  | boolean (b : Bool)
  | integer (n : Int)
  /-- A floating-point number by its bit pattern. -/
  | float (bits : UInt64)
  | text (s : String)
  | moment (s : String)
  | sequence (items : List Value)
  | tables (items : List Value)
  | table (entries : List (String × Value))
  deriving Repr, Inhabited

namespace Value

/-- The value as an error text names it. Dates and times pass for tables. -/
def describe (source : Source) : Value → String
  | .null => "null"
  | .boolean true => "boolean \x60true\x60"
  | .boolean false => "boolean \x60false\x60"
  | .integer n => s!"integer \x60{n}\x60"
  | .float bits => s!"floating point \x60{Decimal.text source.writeNumber bits}\x60"
  | .text s => s!"string {Text.quoted s}"
  | .moment _ => "map"
  | .sequence _ | .tables _ => "sequence"
  | .table _ => "map"

def kindName : Value → String
  | .null => "none"
  | .boolean _ => "boolean"
  | .integer _ => "integer"
  | .float _ => "float"
  | .text _ => "string"
  | .moment _ => "datetime"
  | .sequence _ => "array"
  | .tables _ => "array of tables"
  | .table _ => "table"

end Value
end Deferral.Config
