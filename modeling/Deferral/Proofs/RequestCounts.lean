import Mathlib.Algebra.GroupWithZero.Nat
import Deferral.Metrics

/-! How many replies the metrics count, over all routes and statuses. -/

namespace Deferral

def Metric.countsRequests : Metric → Bool
  | .requests .. => true
  | _ => false

namespace Metrics

/-- How many replies were counted, whatever the route and the status. -/
def requestTotal (ms : Metrics) : Nat :=
  (ms.entries.map fun (m, v) => if m.countsRequests then v else 0).sum

private theorem total_put (m : Metric) (f : Nat → Nat) (es : List (Metric × Nat)) (more : Nat)
    (adds : m.countsRequests = true → ∀ n, f n = n + more) :
    ((put m f es).map fun (m, v) => if m.countsRequests then v else 0).sum =
      (es.map fun (m, v) => if m.countsRequests then v else 0).sum + if m.countsRequests then more else 0 := by
  induction es with
  | nil => cases counts : m.countsRequests <;> simp_all [put]
  | cons e rest ih =>
    obtain ⟨n, v⟩ := e
    by_cases same : n = m
    · subst same
      cases counts : n.countsRequests with
      | false => simp [put, counts]
      | true =>
        have added := adds counts v
        simp only [put, if_true, List.map_cons, List.sum_cons, counts, added]
        omega
    · simp only [put, same, if_false, List.map_cons, List.sum_cons, ih]
      omega

theorem requestTotal_increment (ms : Metrics) (m : Metric) :
    (ms.increment m).requestTotal = ms.requestTotal + if m.countsRequests then 1 else 0 :=
  total_put m (· + 1) ms.entries 1 fun _ _ => rfl

theorem requestTotal_set (ms : Metrics) {m : Metric} (value : Nat) (other : m.countsRequests = false) :
    (ms.set m value).requestTotal = ms.requestTotal := by
  have total := total_put m (fun _ => value) ms.entries 0 fun counts => by rw [other] at counts; cases counts
  rw [other] at total
  exact total

@[simp] theorem requestTotal_countTransition (ms : Metrics) (kind : OutcomeKind) :
    (ms.countTransition kind).requestTotal = ms.requestTotal := by
  simp [countTransition, requestTotal_increment, Metric.countsRequests]

@[simp] theorem requestTotal_countRequest (ms : Metrics) (route : String) (status : Nat) :
    (ms.countRequest route status).requestTotal = ms.requestTotal + 1 := by
  simp [countRequest, requestTotal_increment, Metric.countsRequests]

end Metrics
end Deferral
