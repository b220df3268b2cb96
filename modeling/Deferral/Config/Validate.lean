import Deferral.Config.Basic
import Deferral.Net.SocketAddress
import Deferral.Text.Blank
import Deferral.Text.Quoted

/-!
What a well-formed configuration has to satisfy beyond its shape. All faults are reported, not only
the first.
-/

namespace Deferral.Config

inductive ValidationError where
  | invalidAddress (field value : String)
  | emptyRouteName
  | duplicateRoute (name : String)
  | zeroRouteTimeout (name : String)
  | zeroDefaultTimeout
  | unknownLogLevel (level : String)
  deriving DecidableEq, Repr

namespace ValidationError

def name : ValidationError → String
  | .invalidAddress .. => "InvalidAddress"
  | .emptyRouteName => "EmptyRouteName"
  | .duplicateRoute _ => "DuplicateRoute"
  | .zeroRouteTimeout _ => "ZeroRouteTimeout"
  | .zeroDefaultTimeout => "ZeroDefaultTimeout"
  | .unknownLogLevel _ => "UnknownLogLevel"

def message : ValidationError → String
  | .invalidAddress field value => s!"invalid {field} address: {value}"
  | .emptyRouteName => "route name must not be empty"
  | .duplicateRoute name => s!"duplicate route: {name}"
  | .zeroRouteTimeout name => s!"route {name} has a zero timeout"
  | .zeroDefaultTimeout => "timeouts.default_secs must be greater than zero"
  | .unknownLogLevel level => s!"unknown log level: {level}"

def dump (e : ValidationError) : String :=
  match e with
  | .invalidAddress field value =>
    e.name ++ " \x7b field: " ++ Text.quoted field ++ ", value: " ++ Text.quoted value ++ " \x7d"
  | .emptyRouteName | .zeroDefaultTimeout => e.name
  | .duplicateRoute text | .zeroRouteTimeout text | .unknownLogLevel text =>
    e.name ++ "(" ++ Text.quoted text ++ ")"

end ValidationError

def isAddress (s : String) : Bool := (Net.SocketAddress.parse? s).isSome

/-- The faults of routes, given the names of the routes before them. A blank name is reported alone. -/
def routeErrors (seen : List String) : List RoutePolicy → List ValidationError
  | [] => []
  | route :: rest =>
    if Text.isBlank route.name then .emptyRouteName :: routeErrors seen rest
    else
      (if seen.contains route.name then [.duplicateRoute route.name] else []) ++
      (if route.policy.duration.isZero then [.zeroRouteTimeout route.name] else []) ++
      routeErrors (route.name :: seen) rest

def isLogLevel (s : String) : Bool := LogLevel.all.any (·.name == Text.asciiLower s)

def validate (c : ServiceConfig) : List ValidationError :=
  (if isAddress c.listener.bindAddress then []
    else [.invalidAddress "listener.bind_address" c.listener.bindAddress]) ++
  (if c.timeouts.defaultSecs = some 0 then [.zeroDefaultTimeout] else []) ++
  routeErrors [] c.routes ++
  (if isLogLevel c.observability.logLevel then [] else [.unknownLogLevel c.observability.logLevel]) ++
  (if c.observability.metricsEnabled && !isAddress c.observability.metricsAddress then
      [.invalidAddress "observability.metrics_address" c.observability.metricsAddress]
    else [])

end Deferral.Config
