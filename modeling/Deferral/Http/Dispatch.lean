import Deferral.Http.Params
import Deferral.Http.Reply
import Deferral.Http.Route

/-!
Dispatch. A request either reaches a handler, with its arguments decoded, or is answered at once.
-/

namespace Deferral.Http

inductive Dispatch where
  | deferred (route : String) (params : Params)
  | cancel (id : Uuid)
  | status
  | answered (reply : Reply)
  deriving DecidableEq, Repr

def invalidPath (what : String) : Reply := .text 400 ("Invalid URL: " ++ what)

def pathText (name : String) (bytes : List UInt8) : Except Reply String :=
  match Text.fromBytes? (Percent.decode bytes) with
  | some text => .ok text
  | none => .error (invalidPath ("Invalid UTF-8 in \x60" ++ name ++ "\x60"))

def deferredArguments (route query : List UInt8) : Except Reply (String × Params) := do
  let route ← pathText "route" route
  let params ← (Params.decode (Form.decode query)).mapError fun e => .text 400 e.message
  return (route, params)

def cancelArgument (id : List UInt8) : Except Reply Uuid := do
  let text ← pathText "id" id
  (Uuid.parse text).mapError fun e =>
    invalidPath ("Cannot parse \x60id\x60 with value \x60" ++ text ++ "\x60: UUID parsing failed: " ++ e.message)

def Target.dispatch (target : Target) (method : Method) : Dispatch :=
  match Endpoint.ofPath? target.path with
  | none => .answered { status := 404 }
  | some endpoint =>
    if !endpoint.methods.contains method then
      .answered { status := 405, headers := [("allow", endpoint.allow)] }
    else
      match endpoint with
      | .deferred route =>
        match deferredArguments route target.query with
        | .ok (route, params) => .deferred route params
        | .error reply => .answered reply
      | .cancel id =>
        match cancelArgument id with
        | .ok id => .cancel id
        | .error reply => .answered reply
      | .status => .status

/-- Where a request goes. What is no request at all is refused without a word. -/
def Request.dispatch (request : Request) : Dispatch :=
  match request.method, Target.parse request.target with
  | .malformed, _ | _, .error .malformed => .answered { status := 400 }
  | _, .error .tooLong => .answered { status := 414 }
  | method, .ok target => target.dispatch method

end Deferral.Http
