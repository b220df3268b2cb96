import Deferral.Policy
import Deferral.Log

/-!
The configuration of the service, with its defaults.
-/

namespace Deferral

structure ListenerConfig where
  bindAddress : String := "0.0.0.0:8080"
  deriving DecidableEq, Repr, Inhabited

structure TimeoutConfig where
  /-- The window of routes without a policy, in seconds; none suspends without a deadline. -/
  defaultSecs : Option Nat := some 30
  /-- How long shutdown waits for cancelled requests to drain, in milliseconds. -/
  shutdownGraceMs : Nat := 500
  deriving DecidableEq, Repr, Inhabited

structure RoutePolicy where
  name : String
  policy : SuspendPolicy
  deriving DecidableEq, Repr, Inhabited

inductive LogFormat where
  | pretty | json
  deriving DecidableEq, Repr, Inhabited

namespace LogFormat

def all : List LogFormat := [.pretty, .json]

def name : LogFormat → String
  | .pretty => "pretty"
  | .json => "json"

def ofName? (s : String) : Option LogFormat := all.find? (·.name == s)

@[simp] theorem ofName?_name (f : LogFormat) : ofName? f.name = some f := by
  cases f <;> decide +kernel

end LogFormat

structure ObservabilityConfig where
  logLevel : String := "info"
  logFormat : LogFormat := .pretty
  metricsEnabled : Bool := false
  metricsAddress : String := "0.0.0.0:9090"
  deriving DecidableEq, Repr, Inhabited

structure ServiceConfig where
  listener : ListenerConfig := {}
  timeouts : TimeoutConfig := {}
  routes : List RoutePolicy := []
  observability : ObservabilityConfig := {}
  deriving DecidableEq, Repr, Inhabited

end Deferral
