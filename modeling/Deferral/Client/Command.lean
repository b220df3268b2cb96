import Deferral.Client.Url
import Deferral.CommandLine.Arguments
import Deferral.Http.Params
import Deferral.Http.StatusText

/-!
The client: what it is asked on its command line, the request it makes, and what it prints.
-/

namespace Deferral.Client

open CommandLine (Grammar Stop)

inductive Command where
  | get (route : String) (params : Http.Params)
  | cancel (id : String)
  | status
  deriving DecidableEq, Repr

structure Invocation where
  url : String
  command : Command
  deriving DecidableEq, Repr

namespace Invocation

def defaultUrl : String := "http://localhost:8080"

private def outer : Grammar where
  options := [{ long := "url", short := some 'u' }]
  maxWords := 1
  stopsAtWord := true

private def getGrammar : Grammar where
  options := [{ long := "delay-ms", kind := .number }, { long := "value" }, { long := "fail", kind := .switch },
    { long := "timeout-ms", kind := .number }]
  maxWords := 1

private def words (maxWords : Nat) : Grammar where
  options := []
  maxWords := maxWords

private def parseCommand (name : String) (arguments : List String) : Except Stop Command := do
  match name with
  | "get" =>
    let reading ← CommandLine.read getGrammar arguments
    match reading.words with
    | [route] => return .get route {
        delayMs := (reading.number? "delay-ms").getD 0
        value := reading.value? "value"
        fail := reading.has "fail"
        timeoutMs := reading.number? "timeout-ms" }
    | _ => .error .usage
  | "cancel" =>
    match (← CommandLine.read (words 1) arguments).words with
    | [id] => return .cancel id
    | _ => .error .usage
  | "status" =>
    let _ ← CommandLine.read (words 0) arguments
    return .status
  | "help" =>
    match arguments with
    | [] | ["get"] | ["cancel"] | ["status"] | ["help"] => .error .help
    | _ => .error .usage
  | _ => .error .usage

/-- Reads a command line. The address stands before the command. -/
def parse (arguments : List String) : Except Stop Invocation := do
  let reading ← CommandLine.read outer arguments
  match reading.words with
  | [name] => return ⟨(reading.value? "url").getD defaultUrl, ← parseCommand name reading.rest⟩
  | _ => .error .usage

def target? (invocation : Invocation) : Option Url :=
  match invocation.command with
  | .get route params =>
    (Url.parse? (invocation.url ++ "/deferred/" ++ route)).map (·.addQuery params.encode)
  | .cancel id => Url.parse? (invocation.url ++ "/deferred/" ++ id ++ "/cancel")
  | .status => Url.parse? (invocation.url ++ "/status")

def method (invocation : Invocation) : Http.Method :=
  match invocation.command with
  | .get .. | .status => .get
  | .cancel _ => .post

/-- The request that is made, and where it goes. -/
def request? (invocation : Invocation) : Option (String × Http.Request) :=
  (invocation.target?.filter (·.fits)).map fun url => (url.authority, ⟨invocation.method, url.target⟩)

end Invocation

structure Exit where
  code : Nat
  output : String := ""
  errors : String := ""
  deriving DecidableEq, Repr

namespace Exit

def ofStop : Stop → Exit
  | .usage => { code := 2, errors := "usage" }
  | .help => { code := 0 }

/-- The server cannot be reached, or its answer not be read. -/
def failed : Exit := { code := 1, errors := "Error: reqwest" }

private def statusLine (status : Nat) : String := s!"{status} {Http.reason status}"

private def ofReply (command : Command) (reply : Http.Reply) : Exit :=
  match command with
  | .get .. =>
    let id := (reply.headers.lookup "x-request-id").getD "unknown"
    { code := 0, output := s!"{id} {statusLine reply.status} {reply.body}\n" }
  | .cancel id =>
    if 200 ≤ reply.status ∧ reply.status < 300 then { code := 0, output := s!"cancelled {id}\n" }
    else { code := 0, errors := s!"Error: server returned status {statusLine reply.status}: {reply.body}\n" }
  | .status =>
    if 200 ≤ reply.status ∧ reply.status < 300 then failed
    else { code := 0, errors :=
      s!"Error: server returned status {statusLine reply.status}\nResponse: {reply.body}\n" }

def ofAnswer (command : Command) (answer : Http.Answer) : Exit :=
  match answer, command with
  | .refused, _ => failed
  | .reply reply, _ => ofReply command reply
  | .status status, .status => { code := 0, output := status.pretty ++ "\n" }
  | .status status, _ => ofReply command { status := 200, headers := [Http.jsonType], body := status.compact }

end Exit
end Deferral.Client
