import Deferral.Proofs.PolicyTables
import Deferral.Proofs.TextOrder

/-! Policy tables of any list of routes, sound or not. A route that is appended changes the table at its own
name and nowhere else, so the table shows the list by the last route of each name; its names are listed once
each, in the order of their bytes. -/

namespace Deferral

def ServiceConfig.withRoute (c : ServiceConfig) (name : String) (policy : SuspendPolicy) : ServiceConfig :=
  { c with routes := c.routes ++ [⟨name, policy⟩] }

namespace PolicyTable

variable {table : List (String × SuspendPolicy)} {c : ServiceConfig} {name : String} {policy : SuspendPolicy}

theorem nodup_declare (distinct : (table.map Prod.fst).Nodup) : ((declare table name policy).map Prod.fst).Nodup := by
  rw [names_declare]
  split
  · exact distinct
  next new =>
    refine List.nodup_append.mpr ⟨distinct, List.nodup_singleton _, fun listed member last here => ?_⟩
    rw [List.mem_singleton.mp here]
    rintro rfl
    exact new member

theorem nodup_declared (routes : List RoutePolicy) (distinct : (table.map Prod.fst).Nodup) :
    ((routes.foldl (fun table r => declare table r.name r.policy) table).map Prod.fst).Nodup := by
  induction routes generalizing table with
  | nil => exact distinct
  | cons r rest ih => exact ih (nodup_declare distinct)

theorem isSome_lookup_iff : (table.lookup name).isSome = true ↔ name ∈ table.map Prod.fst := by
  simp [List.lookup_isSome_iff]

theorem mem_routeNames {t : PolicyTable} : name ∈ t.routeNames ↔ (t.policy? name).isSome = true := by
  rw [policy?, isSome_lookup_iff, routeNames]
  exact (List.mergeSort_perm _ _).mem_iff

theorem routeNames_ascending (c : ServiceConfig) : (ofConfig c).routeNames.Pairwise (· < ·) := by
  have distinct : (ofConfig c).routeNames.Nodup :=
    (List.mergeSort_perm _ _).nodup_iff.mpr (nodup_declared c.routes List.nodup_nil)
  have sorted : (ofConfig c).routeNames.Pairwise fun a b => decide (a ≤ b) = true :=
    List.pairwise_mergeSort (fun a b c => by simpa using String.le_trans) (fun a b => by simpa using String.le_total a b) _
  refine (sorted.and distinct).imp fun ⟨before, apart⟩ => ?_
  exact lt_of_le_of_ne (of_decide_eq_true before) apart

theorem policy?_eq_some_iff : (ofConfig c).policy? name = some policy ↔
    ∃ earlier later, c.routes = earlier ++ ⟨name, policy⟩ :: later ∧ ∀ route ∈ later, route.name ≠ name := by
  rw [policy?_ofConfig, Option.map_eq_some_iff]
  simp only [List.find?_eq_some_iff_append, beq_iff_eq, Bool.not_eq_true', beq_eq_false_iff_ne]
  constructor
  · rintro ⟨⟨_, _⟩, ⟨rfl, after, before, reversed, others⟩, rfl⟩
    refine ⟨before.reverse, after.reverse, ?_, by simpa using others⟩
    rw [← List.reverse_reverse c.routes, reversed]
    simp
  · rintro ⟨earlier, later, listed, others⟩
    refine ⟨⟨name, policy⟩, ⟨rfl, later.reverse, earlier.reverse, ?_, by simpa using others⟩, rfl⟩
    rw [listed]
    simp

theorem policy?_eq_none_iff : (ofConfig c).policy? name = none ↔ ∀ route ∈ c.routes, route.name ≠ name := by
  rw [policy?_ofConfig, Option.map_eq_none_iff, List.find?_eq_none]
  simp

theorem policy?_withRoute (other : String) :
    (ofConfig (c.withRoute name policy)).policy? other = if other = name then some policy else (ofConfig c).policy? other := by
  simp only [policy?, ofConfig, ServiceConfig.withRoute, List.foldl_append, List.foldl_cons, List.foldl_nil, lookup_declare]

/-- A table that shows the routes of a configuration by the last one of each name. -/
structure LastWins (c : ServiceConfig) (t : PolicyTable) : Prop where
  declared : ∀ name policy, t.policy? name = some policy ↔
    ∃ earlier later, c.routes = earlier ++ ⟨name, policy⟩ :: later ∧ ∀ route ∈ later, route.name ≠ name
  undeclared : ∀ name, t.policy? name = none ↔ ∀ route ∈ c.routes, route.name ≠ name
  ordered : (t.routeNames.map Text.toBytes).Pairwise (· < ·)
  listed : ∀ name, name ∈ t.routeNames ↔ (t.policy? name).isSome = true
  resolved : ∀ name, t.resolve name = (t.policy? name).or (c.timeouts.defaultSecs.map (⟨·, .seconds⟩))

/-- A table that differs from another at one name, where it has a policy. -/
structure ChangedAt (name : String) (policy : SuspendPolicy) (before after : PolicyTable) : Prop where
  declared : after.policy? name = some policy
  resolved : after.resolve name = some policy
  elsewhere : ∀ other, other ≠ name → after.policy? other = before.policy? other ∧ after.resolve other = before.resolve other
  listed : ∀ other, other ∈ after.routeNames ↔ other = name ∨ other ∈ before.routeNames
  default : after.default = before.default

theorem lastWins_ofConfig (c : ServiceConfig) : LastWins c (ofConfig c) where
  declared _ _ := policy?_eq_some_iff
  undeclared _ := policy?_eq_none_iff
  ordered := List.pairwise_map.mpr ((routeNames_ascending c).imp Text.toBytes_lt)
  listed _ := mem_routeNames
  resolved name := by
    cases found : (ofConfig c).policy? name with
    | none => exact resolve_ofConfig_undeclared found
    | some policy => simp [resolve, found]

/-- The table of any configuration shows its routes by the last one of each name, and one more route changes
it at that route's name alone. -/
theorem last_route_counts (c : ServiceConfig) : LastWins c (ofConfig c) ∧
    ∀ name policy, ChangedAt name policy (ofConfig c) (ofConfig (c.withRoute name policy)) := by
  refine ⟨lastWins_ofConfig c, fun name policy => ?_⟩
  have here : (ofConfig (c.withRoute name policy)).policy? name = some policy := by rw [policy?_withRoute, if_pos rfl]
  have elsewhere (other : String) (apart : other ≠ name) :
      (ofConfig (c.withRoute name policy)).policy? other = (ofConfig c).policy? other := by
    rw [policy?_withRoute, if_neg apart]
  refine ⟨here, by rw [resolve, here]; rfl, fun other apart => ⟨elsewhere other apart, ?_⟩, fun other => ?_, rfl⟩
  · rw [resolve, resolve, elsewhere other apart]
    rfl
  · rw [mem_routeNames, mem_routeNames, policy?_withRoute]
    by_cases same : other = name <;> simp [same]

end PolicyTable
end Deferral
