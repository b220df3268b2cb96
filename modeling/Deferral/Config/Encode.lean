import Deferral.Config.Decode

/-!
Writing a configuration as a value tree: every field under its name, a route's policy beside its
name, variants by their names. A window that is not there is `null` in an interchange document and
left out of a configuration file.
-/

namespace Deferral.Config

def encodeWord (n : Nat) : Value := .integer n

def encodeTimeouts (source : Source) (t : TimeoutConfig) : Value :=
  let grace := ("shutdown_grace_ms", encodeWord t.shutdownGraceMs)
  .table (match t.defaultSecs, source with
    | some secs, _ => [("default_secs", encodeWord secs), grace]
    | none, .interchange => [("default_secs", .null), grace]
    | none, .file => [grace])

def encodeRoute (r : RoutePolicy) : Value :=
  .table [("name", .text r.name), ("timeout", encodeWord r.policy.timeout),
    ("unit", .text r.policy.unit.name)]

def encodeObservability (o : ObservabilityConfig) : Value :=
  .table [("log_level", .text o.logLevel), ("log_format", .text o.logFormat.name),
    ("metrics_enabled", .boolean o.metricsEnabled), ("metrics_address", .text o.metricsAddress)]

def encodeService (source : Source) (c : ServiceConfig) : Value :=
  .table [("listener", .table [("bind_address", .text c.listener.bindAddress)]),
    ("timeouts", encodeTimeouts source c.timeouts),
    ("routes", .sequence (c.routes.map encodeRoute)),
    ("observability", encodeObservability c.observability)]

end Deferral.Config
