import Deferral.Http.Target
import Deferral.Text.Utf8

/-!
Routing. A path is matched segment by segment as it is written; what a placeholder matched is decoded
later.
-/

namespace Deferral.Http

/-- A request's method; all that is known of others is that no path takes them. -/
inductive Method where
  | get | head | post | other
  | malformed
  deriving DecidableEq, Repr

def isMethodChar (c : Char) : Bool := c.isAlphanum || "!#$%&'*+-.^_\x60|~".toList.contains c

def Method.ofName (name : String) : Method :=
  match name with
  | "GET" => .get
  | "HEAD" => .head
  | "POST" => .post
  | _ => if !name.isEmpty && name.toList.all isMethodChar then .other else .malformed

structure Request where
  method : Method
  target : List UInt8
  deriving DecidableEq, Repr

/-- What a path leads to, with the bytes that its placeholder matched. -/
inductive Endpoint where
  | deferred (route : List UInt8)
  | cancel (id : List UInt8)
  | status
  deriving DecidableEq, Repr

/-- Where a path leads. A route must not be empty; of an empty identifier the reply tells that it is
none. -/
def Endpoint.ofPath? (path : List UInt8) : Option Endpoint :=
  match Text.splitOn slash path with
  | [[], first] => if first = Text.toBytes "status" then some .status else none
  | [[], first, second] =>
    if first = Text.toBytes "deferred" ∧ second ≠ [] then some (.deferred second) else none
  | [[], first, second, third] =>
    if first = Text.toBytes "deferred" ∧ third = Text.toBytes "cancel" then some (.cancel second) else none
  | _ => none

def Endpoint.methods : Endpoint → List Method
  | .deferred _ | .status => [.get, .head]
  | .cancel _ => [.post]

def Endpoint.allow : Endpoint → String
  | .deferred _ | .status => "GET,HEAD"
  | .cancel _ => "POST"

end Deferral.Http
