import Deferral.Config.PolicyTable
import Deferral.Http.Dispatch
import Deferral.Simulation.Scenario
import Deferral.Text.Quoted

/-!
The server. A deferred request makes a response, waits for its outcome and leaves the rest to a
worker; other requests are answered at once. Handlers and workers are tasks of the simulated world,
whose clock counts milliseconds.
-/

namespace Deferral.Http

open Simulation

def version : String := "0.1.0"

structure Status where
  version : String := Http.version
  inFlight : Nat
  /-- The unresolved responses, in the order of their requests. -/
  pending : List Uuid
  routes : List String
  deriving DecidableEq, Repr

def jsonType : String × String := ("content-type", "application/json")

inductive Answer where
  | reply (reply : Reply)
  | status (status : Status)
  | refused
  deriving DecidableEq, Repr

/-- To `HEAD` the same is answered without the body. -/
def Answer.to (answer : Answer) (method : Method) : Answer :=
  match method, answer with
  | .head, .reply full => .reply { full with body := "" }
  | .head, .status _ => .reply { status := 200, headers := [jsonType] }
  | _, answer => answer

inductive Progress where
  | waiting
  | answered
  | gone
  deriving DecidableEq, Repr

/-- A deferred request. The exchange and its response have the same index. -/
structure Exchange where
  request : Nat
  method : Method
  route : String
  handler : Nat
  progress : Progress := .waiting
  deriving DecidableEq, Repr

structure Server where
  world : World := { drive := .runtime }
  table : PolicyTable := {}
  running : Bool := true
  requests : Nat := 0
  exchanges : List Exchange := []

namespace Server

def start (address : String) (config : ServiceConfig) : Server where
  world := World.record { drive := .runtime } (.serverStarting address)
  table := .ofConfig config

/-- Enough for everything that the exchanges so far and one more can do. -/
def fuel (s : Server) : Nat := stepBound (s.exchanges.length + 1)

def run (s : Server) (action : Action) : Server × Result :=
  let (world, result) := s.world.run s.fuel action
  ({ s with world }, result)

def record (s : Server) (event : LogEvent) : Server := { s with world := s.world.record event }

def countRequest (s : Server) (route : String) (status : Nat) : Server :=
  { s with world := { s.world with metrics := s.world.metrics.countRequest route status } }

def addExchange (s : Server) (exchange : Exchange) : Server :=
  { s with exchanges := s.exchanges ++ [exchange] }

def idOf (s : Server) (r : Nat) : Uuid := .ofIndex ((s.exchanges[r]?.map (·.request)).getD 0)

def responseOf (s : Server) (id : Uuid) : Option Nat :=
  s.exchanges.findIdx? fun exchange => Uuid.ofIndex exchange.request == id

/-- The responses that the registry holds, in the order of their requests. -/
def inFlight (s : Server) : List Nat := s.world.registry.ids.mergeSort (fun a b => decide (a ≤ b))

def pending (s : Server) : List Nat :=
  s.inFlight.filterMap fun r => s.exchanges[r]?.map (·.request)

def status (s : Server) : Status where
  inFlight := s.world.registry.size
  pending := s.inFlight.map s.idOf
  routes := s.table.routeNames

/-- Cancels a response whose handler is dropped before it has an outcome. -/
def abandon (s : Server) (r : Nat) : Server :=
  if s.world.responses[r]?.all (·.isDone) then s
  else
    match s.run (.cancel r) with
    | (s, .done) => s.record (.clientWentAway r)
    | (s, _) => s

/-- Suspends a fresh response: with the window that the request asks for, or else with the route's
policy, or else without a window. -/
def suspend (s : Server) (r : Nat) (route : String) (params : Params) : Server × Result :=
  match params.timeoutMs, s.table.resolve route with
  | some ms, _ => s.run (.setTimeout r (.ofMillis ms))
  | none, some policy =>
    match s.run (.applyPolicy r policy.timeout (.ok policy.unit)) with
    | (s, .done) => s.run (.suspend r)
    | refused => refused
  | none, none => s.run (.suspend r)

/-- What a worker resumes its response with. -/
def workerResult (params : Params) : Except Failure String :=
  if params.fail then .error (.text (params.value.getD "worker failed"))
  else .ok (params.value.getD "ok")

def startWorker (w : World) (r : Nat) (params : Params) : World :=
  let due := w.drive.due w.now (.ofMillis params.delayMs)
  let id := w.waiters.length
  let w := w.startWaiter r (.worker due (workerResult params))
  if due.any (· ≤ w.now) then w else w.sleepUntil due (.worker id)

/-- Handles a deferred request up to where its handler waits. -/
def handleDeferred (s : Server) (request : Nat) (method : Method) (route : String) (params : Params) :
    Server × List (Nat × Answer) :=
  let r := s.exchanges.length
  let (s, _) := s.run (.create 1 .log)
  let (s, _) := s.run (.register r)
  match s.suspend r route params with
  | (s, .rejected error) =>
    let s := s.record (.suspendRefused r error)
    let reply := Reply.ofRejection error
    let s := (s.countRequest route reply.status).addExchange {
      request, method, route, handler := 0, progress := .answered }
    (s.abandon r, [(request, (Answer.reply reply).to method)])
  | (s, _) =>
    let window := s.world.responses[r]?.bind (·.window)
    let s := s.record (.requestSuspended r route window params.delayMs)
    let world := startWorker s.world r params
    let handler := world.waiters.length
    let world := world.addWaiter r .handler
    let (world, _) := runThread s.fuel world (Task.waiter handler).thread
    (Server.addExchange { s with world } { request, method, route, handler }, [])

def handleCancel (s : Server) (id : Uuid) : Server × Reply :=
  let unknown := Reply.text 404 "unknown or resolved response"
  match s.responseOf id with
  | none => (s, unknown)
  | some r =>
    match s.run (.cancelTracked (some r)) with
    | (s, .done) => (s.record (.responseCancelled r), { status := 202 })
    | (s, .rejected error) => (s, .ofRejection error)
    | (s, _) => (s, unknown)

/-- Takes a request; it returns what is answered at once. -/
def handle (s : Server) (request : Request) : Server × List (Nat × Answer) :=
  let number := s.requests
  let s := { s with requests := number + 1 }
  let answer (answer : Answer) : List (Nat × Answer) := [(number, answer.to request.method)]
  if !s.running then (s, [(number, .refused)])
  else
    match request.dispatch with
    | .answered reply => (s, answer (.reply reply))
    | .status => (s, answer (.status s.status))
    | .cancel id =>
      let (s, reply) := s.handleCancel id
      (s, answer (.reply reply))
    | .deferred route params => s.handleDeferred number request.method route params

/-- A handler has its outcome: it replies, unless its client went away. -/
def deliver (s : Server) (r : Nat) (outcome : Outcome String) : Server × List (Nat × Answer) :=
  match s.exchanges[r]? with
  | some exchange =>
    if exchange.progress = .waiting then
      let reply := Reply.ofOutcome (s.idOf r) outcome
      let s := { s with exchanges := s.exchanges.set r { exchange with progress := .answered } }
      (s.countRequest exchange.route reply.status,
        [(exchange.request, (Answer.reply reply).to exchange.method)])
    else (s, [])
  | none => (s, [])

def deliverAll (s : Server) : List Stamped → Server × List (Nat × Answer)
  | [] => (s, [])
  | ⟨_, .answered r outcome⟩ :: rest =>
    let (s, answers) := s.deliver r outcome
    let (s, more) := s.deliverAll rest
    (s, answers ++ more)
  | _ :: rest => s.deliverAll rest

def disconnect (s : Server) (request : Nat) : Server :=
  match s.exchanges.findIdx? fun e => e.request == request && e.progress == .waiting with
  | none => s
  | some r =>
    let handler := (s.exchanges[r]?.map (·.handler)).getD 0
    let s := { s with
      world := s.world.setStage handler .finished
      exchanges := s.exchanges.modify r fun e => { e with progress := .gone } }
    s.abandon r

def reload (s : Server) (config : ServiceConfig) : Server :=
  let table := PolicyTable.ofConfig config
  { s.record (.policiesReloaded (Text.quotedList table.routeNames)) with table }

def settle (s : Server) : Server := { s with world := s.world.settle s.fuel }

/-- Stops the server: everything in flight is cancelled and answered. Returns how many receivers the
signal reached. -/
def stop (s : Server) : Server × Nat :=
  if s.running then
    let s := s.record (.shutdownTriggered 1)
    let s := s.record (.shutdownReceived s.world.registry.size)
    let (s, _) := s.run .cancelAll
    ({ s.settle.record .serverStopped with running := false }, 1)
  else (s.record (.shutdownTriggered 0), 0)

inductive Step where
  | request (request : Request)
  | advance (ms : Nat)
  | disconnect (request : Nat)
  | reload (config : ServiceConfig)
  | shutdown

inductive StepResult where
  | number (n : Nat)
  | done
  | reloaded
  deriving DecidableEq, Repr

structure StepReport where
  result : StepResult
  answers : List (Nat × Answer)
  pending : List Nat
  inFlight : Nat
  stopped : Bool

def perform (s : Server) : Step → Server × StepResult × List (Nat × Answer)
  | .request request =>
    let number := s.requests
    let (s, answers) := s.handle request
    (s, .number number, answers)
  | .advance ms => ({ s with world := s.world.advance s.fuel ms }, .done, [])
  | .disconnect request => (s.disconnect request, .done, [])
  | .reload config => (s.reload config, .reloaded, [])
  | .shutdown =>
    let (s, notified) := s.stop
    (s, .number notified, [])

/-- Makes one step and lets everything run that became ready. -/
def step (s : Server) (step : Step) : Server × StepReport :=
  let wasRunning := s.running
  let seen := s.world.events.size
  let (s, result, immediate) := s.perform step
  let s := s.settle
  let (s, delivered) := s.deliverAll (s.world.events.toList.drop seen)
  (s, {
    result
    answers := (immediate ++ delivered).mergeSort (fun a b => decide (a.1 ≤ b.1))
    pending := s.pending
    inFlight := s.world.registry.size
    stopped := wasRunning && !s.running })

def steps (s : Server) : List Step → Server × List StepReport
  | [] => (s, [])
  | step :: rest =>
    let (s, report) := s.step step
    let (s, reports) := s.steps rest
    (s, report :: reports)

end Server
end Deferral.Http
