import Deferral.Response.Outcome
import Deferral.Uuid

/-!
What clients are answered.
-/

namespace Deferral.Http

/-- A reply: its status, the headers that matter to clients, sorted by name, and its body. -/
structure Reply where
  status : Nat
  headers : List (String × String) := []
  body : String := ""
  deriving DecidableEq, Repr

def reason (status : Nat) : String :=
  match status with
  | 200 => "OK"
  | 202 => "Accepted"
  | 400 => "Bad Request"
  | 404 => "Not Found"
  | 405 => "Method Not Allowed"
  | 409 => "Conflict"
  | 414 => "URI Too Long"
  | 500 => "Internal Server Error"
  | 503 => "Service Unavailable"
  | _ => ""

def plainText : String × String := ("content-type", "text/plain; charset=utf-8")

def Reply.text (status : Nat) (body : String) : Reply := { status, headers := [plainText], body }

def timedOutBody : String := "request timed out"

def cancelledBody : String := "request cancelled"

def Reply.ofOutcome (id : Uuid) (outcome : Outcome String) : Reply :=
  let (status, body) := match outcome with
    | .completed value => (200, value)
    | .failed failure => (500, failure.message)
    | .timedOut _ => (503, timedOutBody)
    | .cancelled => (503, cancelledBody)
  { status, body, headers := [("cache-control", "no-store"), plainText, ("x-request-id", id.hyphenated)] }

def Reply.ofRejection (error : TransitionError) : Reply := .text 409 error.message

end Deferral.Http
