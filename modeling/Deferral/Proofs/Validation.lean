import Deferral.Config.Validate

/-! What a validation reports. A configuration without faults is accepted, and of any other every fault is
told once; the faults of routes are told in one pass, so more routes only add to them. -/

namespace Deferral.Config

variable {c : ServiceConfig} {seen : List String} {routes : List RoutePolicy} {name : String}

structure Sound (c : ServiceConfig) : Prop where
  listener : ∃ address, Net.SocketAddress.parse? c.listener.bindAddress = some address
  window : c.timeouts.defaultSecs ≠ some 0
  named : ∀ route ∈ c.routes, Text.isBlank route.name = false
  distinct : c.routes.Pairwise fun a b => a.name ≠ b.name
  running : ∀ route ∈ c.routes, 0 < route.policy.duration.totalNanos
  level : Text.asciiLower c.observability.logLevel ∈ ["trace", "debug", "info", "warn", "error"]
  metrics : c.observability.metricsEnabled = true →
    ∃ address, Net.SocketAddress.parse? c.observability.metricsAddress = some address

/-- How often an error is due. A blank name is a fault of its own and is not compared with others. -/
def faults (c : ServiceConfig) : ValidationError → Nat
  | .emptyRouteName => c.routes.countP fun route => Text.isBlank route.name
  | .duplicateRoute name => if Text.isBlank name then 0 else (c.routes.map (·.name)).count name - 1
  | .zeroRouteTimeout name => if Text.isBlank name then 0 else
      c.routes.countP fun route => route.name == name && route.policy.duration.isZero
  | .zeroDefaultTimeout => if c.timeouts.defaultSecs = some 0 then 1 else 0
  | .unknownLogLevel level =>
    if level = c.observability.logLevel ∧ isLogLevel level = false then 1 else 0
  | .invalidAddress field value =>
    if isAddress value then 0
    else if field = "listener.bind_address" ∧ value = c.listener.bindAddress then 1
    else if field = "observability.metrics_address" ∧ value = c.observability.metricsAddress ∧
        c.observability.metricsEnabled then 1
    else 0

def ValidationError.ofRoute : ValidationError → Bool
  | .emptyRouteName | .duplicateRoute _ | .zeroRouteTimeout _ => true
  | _ => false

/-! ### One pass over the routes -/

theorem routeErrors_blank {route : RoutePolicy} (blank : Text.isBlank route.name = true) :
    routeErrors seen (route :: routes) = .emptyRouteName :: routeErrors seen routes := by
  rw [routeErrors, if_pos blank]

theorem routeErrors_named {route : RoutePolicy} (named : Text.isBlank route.name = false) :
    routeErrors seen (route :: routes) =
      (if route.name ∈ seen then [.duplicateRoute route.name] else []) ++
        (if route.policy.duration.isZero then [.zeroRouteTimeout route.name] else []) ++
        routeErrors (route.name :: seen) routes := by
  simp [routeErrors, named]

theorem routeErrors_ofRoute : ∀ e ∈ routeErrors seen routes, e.ofRoute = true := by
  induction routes generalizing seen with
  | nil => simp [routeErrors]
  | cons route rest ih =>
    intro e member
    cases blank : Text.isBlank route.name with
    | true =>
      rw [routeErrors_blank blank, List.mem_cons] at member
      rcases member with rfl | later
      · rfl
      · exact ih e later
    | false =>
      rw [routeErrors_named blank, List.mem_append, List.mem_append, List.mem_ite_nil_right,
        List.mem_ite_nil_right, List.mem_singleton, List.mem_singleton] at member
      rcases member with (⟨-, rfl⟩ | ⟨-, rfl⟩) | later
      · rfl
      · rfl
      · exact ih e later

/-- Routes that come later add to the errors and change none. -/
theorem routeErrors_prefix (more : List RoutePolicy) :
    routeErrors seen routes <+: routeErrors seen (routes ++ more) := by
  induction routes generalizing seen with
  | nil => exact List.nil_prefix
  | cons route rest ih =>
    rw [List.cons_append]
    cases blank : Text.isBlank route.name with
    | true =>
      rw [routeErrors_blank blank, routeErrors_blank blank]
      exact List.cons_prefix_cons.mpr ⟨rfl, ih⟩
    | false =>
      rw [routeErrors_named blank, routeErrors_named blank]
      exact (List.prefix_append_right_inj _).mpr ih

theorem routeErrors_eq_nil_iff {seen : List String} {routes : List RoutePolicy} :
    routeErrors seen routes = [] ↔
      (∀ r ∈ routes, Text.isBlank r.name = false ∧ r.name ∉ seen ∧ r.policy.duration.isZero = false) ∧
        (routes.map (·.name)).Nodup := by
  induction routes generalizing seen with
  | nil => simp [routeErrors]
  | cons r rest ih =>
    cases blank : Text.isBlank r.name
    case true => simp [routeErrors, blank]
    case false =>
      have tail := @ih (r.name :: seen)
      simp only [routeErrors, blank, Bool.false_eq_true, if_false, List.append_eq_nil_iff, List.contains_iff_mem,
        ite_eq_right_iff, tail, List.mem_cons, not_or, List.map_cons, List.nodup_cons, List.mem_map]
      grind

theorem count_emptyRouteName :
    (routeErrors seen routes).count .emptyRouteName = routes.countP fun route => Text.isBlank route.name := by
  induction routes generalizing seen with
  | nil => rfl
  | cons route rest ih =>
    cases blank : Text.isBlank route.name with
    | true => rw [routeErrors_blank blank, List.count_cons_self, ih, List.countP_cons, if_pos blank]
    | false =>
      rw [routeErrors_named blank, List.count_append, List.count_append, ih, List.countP_cons_of_neg (by simp [blank])]
      split <;> split <;> simp

/-- The first route of a name is reported if the name was seen before, and each later one is. -/
theorem count_duplicateRoute (named : Text.isBlank name = false) :
    (routeErrors seen routes).count (.duplicateRoute name) =
      (routes.map (·.name)).count name - if name ∈ seen then 0 else 1 := by
  induction routes generalizing seen with
  | nil => simp [routeErrors]
  | cons route rest ih =>
    cases blank : Text.isBlank route.name with
    | true =>
      have other : route.name ≠ name := by
        rintro rfl
        rw [named] at blank
        cases blank
      rw [routeErrors_blank blank, List.count_cons_of_ne (by simp), ih, List.map_cons, List.count_cons_of_ne other]
    | false =>
      have zero : (if route.policy.duration.isZero then [ValidationError.zeroRouteTimeout route.name] else []).count
          (.duplicateRoute name) = 0 := by
        split <;> simp
      rw [routeErrors_named blank, List.count_append, List.count_append, ih, zero, List.map_cons]
      by_cases same : route.name = name
      · subst same
        by_cases again : route.name ∈ seen
        · simp [again, Nat.add_comm]
        · simp [again]
      · have apart : ¬name = route.name := Ne.symm same
        by_cases again : route.name ∈ seen <;> simp [again, same, apart]

theorem count_zeroRouteTimeout (named : Text.isBlank name = false) :
    (routeErrors seen routes).count (.zeroRouteTimeout name) =
      routes.countP fun route => route.name == name && route.policy.duration.isZero := by
  induction routes generalizing seen with
  | nil => rfl
  | cons route rest ih =>
    cases blank : Text.isBlank route.name with
    | true =>
      have other : (route.name == name) = false := by
        rw [beq_eq_false_iff_ne]
        rintro rfl
        rw [named] at blank
        cases blank
      rw [routeErrors_blank blank, List.count_cons_of_ne (by simp), ih, List.countP_cons_of_neg (by simp [other])]
    | false =>
      have again : (if route.name ∈ seen then [ValidationError.duplicateRoute route.name] else []).count
          (.zeroRouteTimeout name) = 0 := by
        split <;> simp
      rw [routeErrors_named blank, List.count_append, List.count_append, ih, again, List.countP_cons]
      by_cases same : route.name = name
      · cases zero : route.policy.duration.isZero <;> simp [same, Nat.add_comm]
      · cases zero : route.policy.duration.isZero <;> simp [same]

theorem count_blank {e : ValidationError} (blank : Text.isBlank name = true)
    (told : e = .duplicateRoute name ∨ e = .zeroRouteTimeout name) : (routeErrors seen routes).count e = 0 := by
  induction routes generalizing seen with
  | nil => rfl
  | cons route rest ih =>
    cases named : Text.isBlank route.name with
    | true =>
      rw [routeErrors_blank named, List.count_cons_of_ne (by rcases told with rfl | rfl <;> simp), ih]
    | false =>
      have other : route.name ≠ name := by
        rintro rfl
        rw [named] at blank
        cases blank
      rw [routeErrors_named named, List.count_append, List.count_append, ih]
      rcases told with rfl | rfl <;> split <;> split <;> simp [other]

/-! ### The whole validation -/

theorem validate_filter_ofRoute : (validate c).filter (·.ofRoute) = routeErrors [] c.routes := by
  have routes : (routeErrors [] c.routes).filter (·.ofRoute) = routeErrors [] c.routes :=
    List.filter_eq_self.mpr routeErrors_ofRoute
  have address (p : Prop) [Decidable p] (field value : String) :
      (if p then [] else [ValidationError.invalidAddress field value]).filter (·.ofRoute) = [] := by
    split <;> rfl
  have metrics (p : Prop) [Decidable p] (field value : String) :
      (if p then [ValidationError.invalidAddress field value] else []).filter (·.ofRoute) = [] := by
    split <;> rfl
  have window (p : Prop) [Decidable p] :
      (if p then [ValidationError.zeroDefaultTimeout] else []).filter (·.ofRoute) = [] := by
    split <;> rfl
  have level (p : Prop) [Decidable p] (level : String) :
      (if p then [] else [ValidationError.unknownLogLevel level]).filter (·.ofRoute) = [] := by
    split <;> rfl
  simp only [validate, List.filter_append, routes, address, metrics, window, level, List.nil_append, List.append_nil]

theorem isLogLevel_iff (s : String) :
    isLogLevel s = true ↔ Text.asciiLower s ∈ ["trace", "debug", "info", "warn", "error"] := by
  have all : LogLevel.all.map (·.name) = ["trace", "debug", "info", "warn", "error"] := rfl
  rw [isLogLevel, ← all, List.any_eq_true, List.mem_map]
  exact exists_congr fun level => and_congr_right fun _ => beq_iff_eq

theorem isAddress_iff (s : String) : isAddress s = true ↔ ∃ address, Net.SocketAddress.parse? s = some address := by
  rw [isAddress, Option.isSome_iff_exists]

theorem validate_eq_nil_iff : validate c = [] ↔ Sound c := by
  have default : (if c.timeouts.defaultSecs = some 0 then [ValidationError.zeroDefaultTimeout] else []) = [] ↔
      c.timeouts.defaultSecs ≠ some 0 := by
    split <;> simp_all
  have address {s field : String} :
      (if isAddress s then [] else [ValidationError.invalidAddress field s]) = [] ↔
        ∃ address, Net.SocketAddress.parse? s = some address := by
    rw [← isAddress_iff]
    split <;> simp_all
  have level : (if isLogLevel c.observability.logLevel then [] else
      [ValidationError.unknownLogLevel c.observability.logLevel]) = [] ↔
        Text.asciiLower c.observability.logLevel ∈ ["trace", "debug", "info", "warn", "error"] := by
    rw [← isLogLevel_iff]
    split <;> simp_all
  have metrics : (if c.observability.metricsEnabled && !isAddress c.observability.metricsAddress then
      [ValidationError.invalidAddress "observability.metrics_address" c.observability.metricsAddress] else []) = [] ↔
        (c.observability.metricsEnabled = true →
          ∃ address, Net.SocketAddress.parse? c.observability.metricsAddress = some address) := by
    rw [← isAddress_iff]
    cases c.observability.metricsEnabled <;> cases isAddress c.observability.metricsAddress <;> simp
  have positive (d : Duration) : d.isZero = false ↔ 0 < d.totalNanos := by
    rw [Bool.eq_false_iff, ne_eq, Duration.isZero_iff]
    omega
  simp only [validate, List.append_eq_nil_iff, default, address, level, metrics, routeErrors_eq_nil_iff, positive]
  constructor
  · rintro ⟨⟨⟨⟨listener, window⟩, each, distinct⟩, level⟩, metrics⟩
    exact ⟨listener, window, fun route held => (each route held).1, List.pairwise_map.mp distinct,
      fun route held => (each route held).2.2, level, metrics⟩
  · rintro ⟨listener, window, named, distinct, running, level, metrics⟩
    exact ⟨⟨⟨⟨listener, window⟩, fun route held => ⟨named route held, by simp, running route held⟩,
      List.pairwise_map.mpr distinct⟩, level⟩, metrics⟩

theorem count_validate (e : ValidationError) : (validate c).count e = faults c e := by
  have routes (other : e.ofRoute = false) : (routeErrors [] c.routes).count e = 0 := by
    refine List.count_eq_zero.mpr fun member => ?_
    rw [routeErrors_ofRoute e member] at other
    cases other
  have ofRoute (own : e.ofRoute = true) : (validate c).count e = (routeErrors [] c.routes).count e := by
    rw [← validate_filter_ofRoute, List.count_filter own]
  cases e with
  | emptyRouteName => rw [ofRoute rfl, count_emptyRouteName, faults]
  | duplicateRoute name =>
    rw [ofRoute rfl, faults]
    split
    next blank => exact count_blank blank (.inl rfl)
    next named => simpa using @count_duplicateRoute [] c.routes name (by simpa using named)
  | zeroRouteTimeout name =>
    rw [ofRoute rfl, faults]
    split
    next blank => exact count_blank blank (.inr rfl)
    next named => exact count_zeroRouteTimeout (by simpa using named)
  | zeroDefaultTimeout =>
    simp only [validate, List.count_append, routes rfl, faults]
    grind
  | unknownLogLevel level =>
    simp only [validate, List.count_append, routes rfl, faults]
    grind
  | invalidAddress field value =>
    have apart : "listener.bind_address" ≠ "observability.metrics_address" := by decide
    have once (name address : String) : [ValidationError.invalidAddress name address].count (.invalidAddress field value) =
        if field = name ∧ value = address then 1 else 0 := by
      rw [List.count_singleton]
      grind
    have window : (if c.timeouts.defaultSecs = some 0 then [ValidationError.zeroDefaultTimeout] else []).count
        (.invalidAddress field value) = 0 := by
      split <;> simp
    have level : (if isLogLevel c.observability.logLevel then [] else
        [ValidationError.unknownLogLevel c.observability.logLevel]).count (.invalidAddress field value) = 0 := by
      split <;> simp
    simp only [validate, List.count_append, routes rfl, faults, window, level, apply_ite (List.count _), once,
      List.count_nil]
    grind

/-- A validation reports nothing just when the configuration is sound; of any other it reports each fault as
often as it is due and nothing else. The errors of routes begin with those of the first routes. -/
theorem faults_reported (c : ServiceConfig) :
    (validate c = [] ↔ Sound c) ∧ (∀ e, (validate c).count e = faults c e) ∧
      ∀ first second : List RoutePolicy, (validate { c with routes := first }).filter (·.ofRoute) <+:
        (validate { c with routes := first ++ second }).filter (·.ofRoute) := by
  refine ⟨validate_eq_nil_iff, count_validate, fun first second => ?_⟩
  rw [validate_filter_ofRoute, validate_filter_ofRoute]
  exact routeErrors_prefix second

/-- The faults of one route are told side by side, and a blank name is told alone. The level may be written in
capitals. -/
theorem faults_reported_together :
    let faulty : ServiceConfig := {
      routes := [⟨"slow", ⟨0, .seconds⟩⟩, ⟨" ", ⟨0, .seconds⟩⟩, ⟨"slow", ⟨0, .minutes⟩⟩, ⟨" ", ⟨0, .seconds⟩⟩]
      observability := { logLevel := "verbose" } }
    let upper : ServiceConfig := { routes := [⟨"slow", ⟨1, .seconds⟩⟩], observability := { logLevel := "INFO" } }
    (validate faulty).count .emptyRouteName = 2 ∧ (validate faulty).count (.duplicateRoute "slow") = 1 ∧
      (validate faulty).count (.zeroRouteTimeout "slow") = 2 ∧ (validate faulty).count (.duplicateRoute " ") = 0 ∧
      (validate faulty).count (.zeroRouteTimeout " ") = 0 ∧ (validate faulty).count (.unknownLogLevel "verbose") = 1 ∧
      ¬Sound faulty ∧ validate upper = [] ∧ Sound upper := by
  intro faulty upper
  obtain ⟨sound, counts, -⟩ := faults_reported faulty
  have accepted : validate upper = [] := by decide +kernel
  have refused : validate faulty ≠ [] := by decide +kernel
  have unsound : ¬Sound faulty := fun holds => refused (sound.mpr holds)
  refine ⟨?_, ?_, ?_, ?_, ?_, ?_, unsound, accepted, (faults_reported upper).1.mp accepted⟩
  all_goals
    rw [counts]
    decide +kernel

end Deferral.Config
