import Deferral.Response.Outcome

/-!
The log. An event is a value; its level, its target, its message and its named fields are read off
it, in the order in which they are written.
-/

namespace Deferral

inductive LogLevel where
  | trace | debug | info | warn | error
  deriving DecidableEq, Repr, Inhabited

namespace LogLevel

def all : List LogLevel := [.trace, .debug, .info, .warn, .error]

def name : LogLevel → String
  | .trace => "trace"
  | .debug => "debug"
  | .info => "info"
  | .warn => "warn"
  | .error => "error"

def label : LogLevel → String
  | .trace => "TRACE"
  | .debug => "DEBUG"
  | .info => "INFO"
  | .warn => "WARN"
  | .error => "ERROR"

/-- Zero for `error`, and one more for each more talkative level. -/
def verbosity : LogLevel → Nat
  | .error => 0
  | .warn => 1
  | .info => 2
  | .debug => 3
  | .trace => 4

end LogLevel

/-- A field's value. Text is either shown bare or, in lines for people, in quotes. -/
inductive LogField where
  | number (value : Nat)
  | flag (value : Bool)
  | shown (text : String)
  | quoted (text : String)
  | response (index : Nat)
  deriving DecidableEq, Repr

inductive LogEvent where
  | created (r : Nat)
  | suspended (r : Nat) (timeoutMs : Option Nat)
  | timeoutSet (r : Nat) (timeoutMs : Nat) (rescheduled : Bool)
  | rejected (r : Nat) (operation : Operation) (state : ResponseState)
  | resolved (r : Nat) (kind : OutcomeKind) (listeners : Nat)
  | firedLate (r : Nat) (error : TransitionError)
  | listenerFailed (r : Nat) (index : Nat) (message : String)
  | cancelledInFlight (count : Nat)
  | timerFired (timer : Nat)
  | timerCancelled (timer : Nat)
  | shutdownTriggered (subscribers : Nat)
  | serverStarting (address : String)
  | suspendRefused (r : Nat) (error : TransitionError)
  | requestSuspended (r : Nat) (route : String) (window : Option Duration) (delayMs : Nat)
  | workerStoppedEarly (r : Nat) (kind : OutcomeKind)
  | clientWentAway (r : Nat)
  | responseCancelled (r : Nat)
  | policiesReloaded (routes : String)
  | shutdownReceived (inFlight : Nat)
  | serverStopped
  | starting (version : String)
  | configurationLoaded (bindAddress : String) (defaultSecs : Option Nat) (routes : Nat)
  | listening (address : String)
  | shutdownComplete
  | signalReceived (name : String)
  | watcherStarted (path dir : String)
  | configReloaded (path routes : String)
  | configRejected (path error : String)
  | watchFailed (path error : String)
  | metricsListening (address : String)
  deriving DecidableEq, Repr

namespace LogEvent

def level : LogEvent → LogLevel
  | .created _ | .firedLate .. | .timerFired _ | .timerCancelled _ | .workerStoppedEarly .. => .trace
  | .suspended .. | .timeoutSet .. | .rejected .. | .resolved .. | .requestSuspended ..
  | .clientWentAway _ => .debug
  | .cancelledInFlight _ | .shutdownTriggered _ | .serverStarting _ | .responseCancelled _
  | .policiesReloaded _ | .shutdownReceived _ | .serverStopped | .starting _
  | .configurationLoaded .. | .listening _ | .shutdownComplete | .signalReceived _
  | .watcherStarted .. | .configReloaded .. | .metricsListening _ => .info
  | .suspendRefused .. | .configRejected .. | .watchFailed .. => .warn
  | .listenerFailed .. => .error

def target : LogEvent → String
  | .created _ | .suspended .. | .timeoutSet .. | .rejected .. | .resolved .. | .firedLate .. =>
    "deferred_response::deferred::response"
  | .listenerFailed .. => "deferred_response::deferred::listener"
  | .cancelledInFlight _ => "deferred_response::deferred::registry"
  | .timerFired _ | .timerCancelled _ => "deferred_response::timer::scheduler"
  | .shutdownTriggered _ => "deferred_response::lifecycle::shutdown"
  | .signalReceived _ => "deferred_response::lifecycle::signals"
  | .serverStarting _ | .suspendRefused .. | .requestSuspended .. | .workerStoppedEarly .. | .clientWentAway _
  | .responseCancelled _ | .policiesReloaded _ | .shutdownReceived _ | .serverStopped =>
    "deferred_response::http::server"
  | .watcherStarted .. | .configReloaded .. | .configRejected .. | .watchFailed .. =>
    "deferred_response::config::watcher"
  | .metricsListening _ => "deferred_response::observability::metrics"
  | .starting _ | .configurationLoaded .. | .listening _ | .shutdownComplete =>
    "deferred_response"

def message : LogEvent → String
  | .created _ => "Deferred response created"
  | .suspended .. => "Deferred response suspended"
  | .timeoutSet .. => "Timeout set"
  | .rejected .. => "Rejected state transition"
  | .resolved .. => "Deferred response resolved"
  | .firedLate .. => "Timer fired late"
  | .listenerFailed .. => "Resolution listener failed"
  | .cancelledInFlight _ => "Cancelled in-flight responses"
  | .timerFired _ => "Timer fired"
  | .timerCancelled _ => "Timer cancelled"
  | .shutdownTriggered _ => "Shutdown triggered"
  | .serverStarting _ => "HTTP server starting"
  | .suspendRefused .. => "Failed to suspend response"
  | .requestSuspended .. => "Request suspended"
  | .workerStoppedEarly .. => "Worker stopped early"
  | .clientWentAway _ => "Client went away, response cancelled"
  | .responseCancelled _ => "Response cancelled"
  | .policiesReloaded _ => "Route policies reloaded"
  | .shutdownReceived _ => "Shutdown signal received"
  | .serverStopped => "HTTP server stopped"
  | .starting version => s!"deferred-response v{version} starting"
  | .configurationLoaded .. => "Configuration loaded"
  | .listening _ => "Listening for connections"
  | .shutdownComplete => "Shutdown complete"
  | .signalReceived name => s!"{name} received"
  | .watcherStarted .. => "Config watcher started"
  | .configReloaded .. => "Config reloaded"
  | .configRejected .. => "Config reload rejected, keeping current route policies"
  | .watchFailed .. => "Config watch error"
  | .metricsListening _ => "Metrics exporter listening"

private def optional (value : Option String) : String :=
  match value with
  | some text => s!"Some({text})"
  | none => "None"

def fields : LogEvent → List (String × LogField)
  | .created r => [("response_id", .response r)]
  | .suspended r (some ms) => [("response_id", .response r), ("timeout_ms", .number ms)]
  | .suspended r none => [("response_id", .response r)]
  | .timeoutSet r ms rescheduled =>
    [("response_id", .response r), ("timeout_ms", .number ms), ("rescheduled", .flag rescheduled)]
  | .rejected r op state =>
    [("response_id", .response r), ("operation", .shown op.name), ("state", .shown state.name)]
  | .resolved r kind listeners =>
    [("response_id", .response r), ("outcome", .quoted kind.name), ("listeners", .number listeners)]
  | .firedLate r error | .suspendRefused r error => [("response_id", .response r), ("error", .shown error.message)]
  | .listenerFailed r index text =>
    [("response_id", .response r), ("listener", .number index), ("error", .shown text)]
  | .cancelledInFlight count => [("cancelled", .number count)]
  | .timerFired timer | .timerCancelled timer => [("timer_id", .number timer)]
  | .shutdownTriggered subscribers => [("subscribers", .number subscribers)]
  | .serverStarting address | .listening address | .metricsListening address =>
    [("address", .shown address)]
  | .requestSuspended r route window delayMs =>
    [("response_id", .response r), ("route", .shown route),
      ("timeout", .shown (optional (window.map Duration.shortText))), ("delay_ms", .number delayMs)]
  | .workerStoppedEarly r kind => [("response_id", .response r), ("outcome", .quoted kind.name)]
  | .clientWentAway r | .responseCancelled r => [("response_id", .response r)]
  | .policiesReloaded routes => [("routes", .shown routes)]
  | .shutdownReceived inFlight => [("in_flight", .number inFlight)]
  | .configurationLoaded bindAddress defaultSecs routes =>
    [("bind_address", .shown bindAddress),
      ("default_timeout_secs", .shown (optional (defaultSecs.map toString))), ("routes", .number routes)]
  | .watcherStarted path dir => [("path", .shown path), ("dir", .shown dir)]
  | .configReloaded path routes => [("path", .shown path), ("routes", .shown routes)]
  | .configRejected path error | .watchFailed path error => [("path", .shown path), ("error", .shown error)]
  | .serverStopped | .starting _ | .shutdownComplete | .signalReceived _ => []

/-- The names of all fields that events of a kind are declared with: the message, and also fields left
empty or out of the lines. -/
def fieldNames (event : LogEvent) : List String :=
  "message" :: match event with
  | .suspended .. => ["response_id", "timeout_ms"]
  | .resolved .. => ["response_id", "outcome", "elapsed_ms", "listeners"]
  | event => event.fields.map Prod.fst

end LogEvent
end Deferral
