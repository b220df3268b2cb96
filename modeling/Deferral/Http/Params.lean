import Deferral.Http.Form
import Deferral.Text.Number

/-!
The parameters of a deferred request, which its query gives as a form.
-/

namespace Deferral.Http

open Text (NumberError)

inductive Field where
  | delayMs | value | fail | timeoutMs
  deriving DecidableEq, Repr

namespace Field

def name : Field → String
  | .delayMs => "delay_ms"
  | .value => "value"
  | .fail => "fail"
  | .timeoutMs => "timeout_ms"

def ofName? (name : String) : Option Field :=
  [Field.delayMs, .value, .fail, .timeoutMs].find? (·.name == name)

end Field

/-- What a worker is asked to do, and the window that the request asks for. -/
structure Params where
  delayMs : Nat := 0
  value : Option String := none
  fail : Bool := false
  timeoutMs : Option Nat := none
  deriving DecidableEq, Repr

inductive QueryError where
  | duplicate (field : Field)
  | number (field : Field) (error : NumberError)
  | boolean (field : Field)
  deriving DecidableEq, Repr

def QueryError.message (e : QueryError) : String :=
  "Failed to deserialize query string: " ++ match e with
    | .duplicate field => "duplicate field \x60" ++ field.name ++ "\x60"
    | .number field error => field.name ++ ": " ++ error.message
    | .boolean field => field.name ++ ": provided string was not \x60true\x60 or \x60false\x60"

namespace Params

def readNumber (field : Field) (value : String) : Except QueryError Nat :=
  (Text.word value).mapError (.number field)

def readBoolean (field : Field) (value : String) : Except QueryError Bool :=
  match value with
  | "true" => .ok true
  | "false" => .ok false
  | _ => .error (.boolean field)

def set (params : Params) (field : Field) (value : String) : Except QueryError Params :=
  match field with
  | .delayMs => do return { params with delayMs := ← readNumber field value }
  | .value => .ok { params with value := some value }
  | .fail => do return { params with fail := ← readBoolean field value }
  | .timeoutMs => do return { params with timeoutMs := some (← readNumber field value) }

def decodeFrom (params : Params) (seen : List Field) :
    List (String × String) → Except QueryError Params
  | [] => .ok params
  | (name, value) :: rest =>
    match Field.ofName? name with
    | none => decodeFrom params seen rest
    | some field =>
      if seen.contains field then .error (.duplicate field)
      else do decodeFrom (← params.set field value) (field :: seen) rest

/-- Reads the pairs in order, up to the first fault; unknown names are passed over. -/
def decode (pairs : List (String × String)) : Except QueryError Params := decodeFrom {} [] pairs

def encode (params : Params) : List (String × String) :=
  [(Field.delayMs.name, toString params.delayMs)] ++
    (params.value.map (Field.value.name, ·)).toList ++
    (if params.fail then [(Field.fail.name, "true")] else []) ++
    (params.timeoutMs.map fun ms => (Field.timeoutMs.name, toString ms)).toList

end Params
end Deferral.Http
