import Deferral.Http.Server
import Deferral.Service.Environment
import Deferral.Service.Exposition
import Deferral.Service.LogFilter
import Deferral.Service.LogText

/-!
The service as a program: it is started with a command line, serves clients while its configuration
file is watched, and ends with a signal. Clients wait for their answers by letting time pass.
-/

namespace Deferral.Service

open Client (Command Exit Invocation)
open Net (SocketAddress)
open Watch (PathName)

structure Logging where
  filter : LogFilter
  format : LogFormat

namespace Logging

/-- A filter from outside goes before the configured level, if it is well-formed. -/
def ofConfig (config : ObservabilityConfig) (filter : Option String) : Logging where
  filter := (filter.bind LogFilter.parse?).getD (.ofLevel config.logLevel)
  format := config.logFormat

def lines (logging : Logging) (id : Nat → Uuid) (events : List (Option Span × LogEvent)) : List String :=
  (events.filter fun (span, event) => logging.filter.allows span event).map fun (_, event) =>
    match logging.format with
    | .pretty => prettyLine id event
    | .json => jsonLine id event

end Logging

structure Ended where
  exit : Exit
  format : LogFormat := .pretty
  log : List String := []

structure Background where
  step : Nat
  command : Command
  request : Except Exit Nat

/-- The handling of a request, by the places in the log of its first event and of the first event after
it. What the request leaves to others is no part of it. -/
structure Handling where
  request : Http.Request
  first : Nat
  next : Nat

def Handling.span (h : Handling) : Span :=
  let method := match h.request.method with
    | .get => "GET"
    | .head => "HEAD"
    | .post => "POST"
    | .other | .malformed => ""
  .ofRequest method (Text.fromBytesLossy h.request.target)

structure Session where
  server : Http.Server
  logging : Logging
  address : SocketAddress
  watch : Option Watch.WatchedDirectory := none
  handled : List Handling := []
  steps : Nat := 0
  background : List Background := []
  answers : List (Nat × Http.Answer) := []

namespace Session

private def failure (dump : String) : Exit := { code := 1, errors := "Error: " ++ dump }

/-- A configuration was not loaded. Of a malformed document only the kind of the error is told. -/
def configFailure (error : Config.ConfigError) : Exit :=
  match error with
  | .notDocument | .shape _ => failure error.dump
  | .file _ | .invalid _ => failure (error.dump ++ "\n")

def opening (config : ServiceConfig) (path : Option PathName) : List LogEvent :=
  let metrics := if config.observability.metricsEnabled then
      SocketAddress.parse? config.observability.metricsAddress
    else none
  [.starting Http.version,
    .configurationLoaded config.listener.bindAddress config.timeouts.defaultSecs config.routes.length] ++
  (metrics.map fun address => LogEvent.metricsListening address.text).toList ++
  (path.map fun p => LogEvent.watcherStarted (Text.quoted p.text) (Text.quoted p.directory.text)).toList

def launch (environment : Environment) (path : Option PathName) (config : ServiceConfig) :
    Except Ended Session := do
  let logging := Logging.ofConfig config.observability environment.logFilter
  let opened := opening config path
  let stop (dump : String) : Ended := {
    exit := failure dump
    format := logging.format
    log := logging.lines Uuid.ofIndex (opened.map (none, ·)) }
  match SocketAddress.parse? config.listener.bindAddress with
  | none => .error (stop "invalid socket address\n")
  | some address =>
    (environment.bind address).mapError fun error => stop (error.dump ++ "\n")
    let server := Http.Server.start address.text config
    let log := opened ++ [.listening address.text] ++ server.world.log.toList
    return {
      server := { server with world := { server.world with log := log.toArray } }
      logging, address
      watch := path.map environment.files.watch }

/-- Starts the program: with the configuration file that the command line names, or else with the
defaults. Nothing is logged before the configuration is loaded. -/
def start (environment : Environment) : Except Ended Session := do
  let path ← (configPath environment.arguments).mapError fun stop => { exit := .ofStop stop }
  let config ← match path with
    | some path =>
      (Config.load (environment.files.read path)).mapError fun error => { exit := configFailure error }
    | none => .ok {}
  launch environment path config

def serve (s : Session) (step : Http.Server.Step) : Session :=
  let (server, report) := s.server.step step
  let handled := match step with
    | .request request => s.handled ++
        [⟨request, s.server.world.log.size, (s.server.perform step).1.world.log.size⟩]
    | _ => s.handled
  { s with server, handled, answers := s.answers ++ report.answers }

def spannedLog (s : Session) : List (Option Span × LogEvent) :=
  s.server.world.log.toList.zipIdx.map fun (event, place) =>
    ((s.handled.find? fun h => h.first ≤ place && place < h.next).map Handling.span, event)

def send (s : Session) (invocation : Invocation) : Session × Except Exit Nat :=
  match invocation.request? with
  | none => (s, .error .failed)
  | some (authority, request) =>
    if (SocketAddress.parse? authority).any s.address.answersTo then
      (s.serve (.request request), .ok s.server.requests)
    else (s, .error .failed)

/-- Lets time pass until a request is answered, waking at most `fuel` times. -/
def waitUpTo : Nat → Session → Nat → Session
  | 0, s, _ => s
  | fuel + 1, s, request =>
    if (s.answers.lookup request).isSome then s
    else
      match s.server.world.nextWaking Duration.wordMax with
      | none => s
      | some tick => waitUpTo fuel (s.serve (.advance (tick - s.server.world.now))) request

def exitOf (s : Session) (command : Command) : Except Exit Nat → Exit
  | .error exit => exit
  | .ok request =>
    match s.answers.lookup request with
    | some answer => .ofAnswer command answer
    | none => .failed

def runClient (s : Session) (arguments : List String) : Session × Exit :=
  match Invocation.parse arguments with
  | .error stop => (s, .ofStop stop)
  | .ok invocation =>
    let (s, request) := s.send invocation
    let s := match request with
      | .ok number => waitUpTo (s.server.world.sleeping.length + 1) s number
      | .error _ => s
    (s, s.exitOf invocation.command request)

def startClient (s : Session) (arguments : List String) : Session :=
  match Invocation.parse arguments with
  | .error stop => { s with background := s.background ++ [⟨s.steps, .status, .error (.ofStop stop)⟩] }
  | .ok invocation =>
    let (s, request) := s.send invocation
    { s with background := s.background ++ [⟨s.steps, invocation.command, request⟩] }

def saveFile (s : Session) (name content : String) : Session :=
  match s.watch with
  | none => s
  | some watch =>
    let (next, reload) := watch.step (.replace name content)
    let s := { s with watch := some next }
    match reload with
    | none => s
    | some reload =>
      let s := { s with server := s.server.record (reload.log watch.watcher) }
      match reload.published? with
      | some config => s.serve (.reload config)
      | none => s

inductive Step where
  | client (arguments : List String)
  | background (arguments : List String)
  | scrape
  | save (name content : String)

inductive StepResult where
  | exit (exit : Exit)
  | started
  | lines (lines : List String)
  | saved

private def perform (s : Session) : Step → Session × StepResult
  | .client arguments =>
    let (s, exit) := s.runClient arguments
    (s, .exit exit)
  | .background arguments => (s.startClient arguments, .started)
  | .scrape => (s, .lines (exposition s.server.world.metrics))
  | .save name content => (s.saveFile name content, .saved)

def step (s : Session) (step : Step) : Session × StepResult :=
  let (s, result) := s.perform step
  ({ s with steps := s.steps + 1 }, result)

inductive Signal where
  | terminate | interrupt
  deriving DecidableEq, Repr

def Signal.name : Signal → String
  | .terminate => "SIGTERM"
  | .interrupt => "SIGINT"

/-- Ends the program. Also tells how the clients in the background end, by the steps that started
them. -/
def finish (s : Session) (signal : Signal) : Ended × List (Nat × Exit) :=
  let s := { s with server := s.server.record (.signalReceived signal.name) }
  let s := s.serve .shutdown
  let log := s.spannedLog ++ [(none, .shutdownComplete)]
  ({ exit := { code := 0 }, format := s.logging.format, log := s.logging.lines s.server.idOf log },
    s.background.map fun b => (b.step, s.exitOf b.command b.request))

end Session
end Deferral.Service
