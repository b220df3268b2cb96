import Deferral.Log
import Deferral.Text.Json
import Deferral.Uuid

/-!
Log lines for people and for programs.
-/

namespace Deferral.Service

def fieldText (id : Nat → Uuid) : LogField → String
  | .number value => toString value
  | .flag value => toString value
  | .shown text => text
  | .quoted text => "\"" ++ text ++ "\""
  | .response r => (id r).hyphenated

def prettyLine (id : Nat → Uuid) (event : LogEvent) : String :=
  " ".intercalate ([event.level.label, event.target ++ ":", event.message] ++
    event.fields.map fun (name, field) => name ++ "=" ++ fieldText id field)

private def fieldJson (id : Nat → Uuid) : LogField → String
  | .number value => toString value
  | .flag value => toString value
  | .shown text | .quoted text => Text.jsonText text
  | .response r => Text.jsonText (id r).hyphenated

def jsonLine (id : Nat → Uuid) (event : LogEvent) : String :=
  let member (name value : String) : String := Text.jsonText name ++ ":" ++ value
  let object (members : List String) : String := "\x7b" ++ ",".intercalate members ++ "\x7d"
  object [
    member "level" (Text.jsonText event.level.label),
    member "fields" (object (member "message" (Text.jsonText event.message) ::
      event.fields.map fun (name, field) => member name (fieldJson id field))),
    member "target" (Text.jsonText event.target)]

end Deferral.Service
