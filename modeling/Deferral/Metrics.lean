import Deferral.Response.Outcome

/-!
Counters and gauges. A metric appears once it has been touched; duration histograms are kept as
their numbers of samples.
-/

namespace Deferral

inductive Metric where
  | transitions (kind : OutcomeKind)
  /-- Samples of the time from creation to resolution. -/
  | resolveDurations (kind : OutcomeKind)
  | rejections (operation : Operation)
  | listenerFailures
  | inFlight
  | requests (route : String) (status : Nat)
  | requestDurations (route : String)
  deriving DecidableEq, Repr

def Metric.labels : Metric → String × List (String × String)
  | .transitions kind => ("deferred_transitions_total", [("outcome", kind.name)])
  | .resolveDurations kind => ("deferred_resolve_duration_seconds", [("outcome", kind.name)])
  | .rejections op => ("deferred_rejections_total", [("operation", op.name)])
  | .listenerFailures => ("deferred_listener_failures_total", [])
  | .inFlight => ("deferred_in_flight", [])
  | .requests route status =>
    ("deferred_http_requests_total", [("route", route), ("status", toString status)])
  | .requestDurations route => ("deferred_http_request_duration_seconds", [("route", route)])

def Metric.key (m : Metric) : String :=
  match m.labels with
  | (name, []) => name
  | (name, labels) =>
    name ++ "\x7b" ++ ",".intercalate (labels.map fun (label, value) => label ++ "=" ++ value) ++ "\x7d"

/-- The metrics touched so far, one entry each, in the order of their first touch. -/
structure Metrics where
  entries : List (Metric × Nat) := []
  deriving Repr

namespace Metrics

def value? (ms : Metrics) (m : Metric) : Option Nat := ms.entries.lookup m

def count (ms : Metrics) (m : Metric) : Nat := (ms.value? m).getD 0

def put (m : Metric) (f : Nat → Nat) : List (Metric × Nat) → List (Metric × Nat)
  | [] => [(m, f 0)]
  | (k, v) :: rest => if k = m then (k, f v) :: rest else (k, v) :: put m f rest

def set (ms : Metrics) (m : Metric) (value : Nat) : Metrics := ⟨put m (fun _ => value) ms.entries⟩

def increment (ms : Metrics) (m : Metric) : Metrics := ⟨put m (· + 1) ms.entries⟩

def countRejection (ms : Metrics) (operation : Operation) : Metrics :=
  ms.increment (.rejections operation)

/-- A terminal transition counts under its outcome and adds a sample of its duration. -/
def countTransition (ms : Metrics) (kind : OutcomeKind) : Metrics :=
  (ms.increment (.transitions kind)).increment (.resolveDurations kind)

def countRequest (ms : Metrics) (route : String) (status : Nat) : Metrics :=
  (ms.increment (.requests route status)).increment (.requestDurations route)

private theorem lookup_put (m k : Metric) (f : Nat → Nat) (es : List (Metric × Nat)) :
    ((put m f es).lookup k).getD 0 = if k = m then f ((es.lookup m).getD 0) else (es.lookup k).getD 0 := by
  induction es with
  | nil =>
    by_cases h : k = m
    · simp [put, h]
    · simp [put, h, List.lookup_cons, beq_false_of_ne h]
  | cons e rest ih =>
    obtain ⟨n, v⟩ := e
    by_cases h : n = m
    · subst h
      by_cases hk : k = n
      · subst hk; simp [put]
      · simp [put, List.lookup_cons, hk, beq_false_of_ne hk]
    · by_cases hk : k = n
      · subst hk; simp [put, h]
      · have hm : (m == n) = false := by simpa using fun e => h e.symm
        simp only [put, h, if_false, List.lookup_cons, beq_false_of_ne hk, ih, hm]

theorem count_increment (ms : Metrics) (m k : Metric) :
    (ms.increment m).count k = if k = m then ms.count m + 1 else ms.count k :=
  lookup_put m k _ ms.entries

theorem count_set (ms : Metrics) (m k : Metric) (value : Nat) :
    (ms.set m value).count k = if k = m then value else ms.count k :=
  lookup_put m k _ ms.entries

end Metrics
end Deferral
