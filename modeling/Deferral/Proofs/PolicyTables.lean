import Deferral.Config.PolicyTable
import Mathlib.Data.List.Nodup

/-!
Policy tables as views of the declared routes: of the routes with one name the last one counts, and
every name is listed once.
-/

namespace Deferral.PolicyTable

variable {table : List (String × SuspendPolicy)} {routes : List RoutePolicy} {c : ServiceConfig} {name : String}
  {policy : SuspendPolicy}

theorem lookup_entry (n other : String) (p : SuspendPolicy) (rest : List (String × SuspendPolicy)) :
    ((n, p) :: rest).lookup other = if other = n then some p else rest.lookup other := by
  rw [List.lookup_cons]
  by_cases same : other = n
  · simp [same]
  · rw [beq_false_of_ne same, if_neg same]

theorem lookup_declare (other : String) :
    (declare table name policy).lookup other = if other = name then some policy else table.lookup other := by
  induction table with
  | nil => exact lookup_entry name other policy []
  | cons entry rest ih =>
    obtain ⟨n, p⟩ := entry
    rw [declare]
    split
    case isTrue same =>
      subst same
      rw [lookup_entry, lookup_entry]
      split <;> rfl
    case isFalse apart =>
      rw [lookup_entry, lookup_entry, ih]
      grind

theorem names_declare :
    (declare table name policy).map Prod.fst =
      if name ∈ table.map Prod.fst then table.map Prod.fst else table.map Prod.fst ++ [name] := by
  induction table with
  | nil => rfl
  | cons entry rest ih =>
    obtain ⟨n, p⟩ := entry
    by_cases same : n = name
    · simp [declare, same]
    · have other : name ≠ n := Ne.symm same
      rw [declare, if_neg same, List.map_cons, ih]
      by_cases listed : name ∈ rest.map Prod.fst <;> simp [listed, other]

/-- The last declaration of a name, and what the table had for it where there is none. -/
theorem lookup_declared (name : String) :
    (routes.foldl (fun table r => declare table r.name r.policy) table).lookup name =
      ((routes.reverse.find? (·.name == name)).map (·.policy) <|> table.lookup name) := by
  induction routes generalizing table with
  | nil => simp
  | cons r rest ih =>
    rw [List.foldl_cons, ih, lookup_declare, List.reverse_cons, List.find?_append]
    cases List.find? (·.name == name) rest.reverse with
    | some last => simp
    | none =>
      by_cases same : r.name = name
      · simp [same]
      · simp [same, Ne.symm same]

theorem policy?_ofConfig (name : String) :
    (ofConfig c).policy? name = (c.routes.reverse.find? (·.name == name)).map (·.policy) := by
  rw [policy?, ofConfig, lookup_declared]
  simp

theorem resolve_ofConfig_undeclared (undeclared : (ofConfig c).policy? name = none) :
    (ofConfig c).resolve name = c.timeouts.defaultSecs.map (⟨·, .seconds⟩) := by
  rw [resolve, undeclared]
  rfl

theorem policy?_declared (found : (ofConfig c).policy? name = some policy) :
    ∃ route ∈ c.routes, route.policy = policy := by
  rw [policy?_ofConfig, Option.map_eq_some_iff] at found
  obtain ⟨route, last, same⟩ := found
  exact ⟨route, List.mem_reverse.mp (List.mem_of_find?_eq_some last), same⟩

/-- Names that are new to the table and to each other are all added, in their order. -/
theorem names_declared (new : ∀ r ∈ routes, r.name ∉ table.map Prod.fst) (distinct : (routes.map (·.name)).Nodup) :
    (routes.foldl (fun table r => declare table r.name r.policy) table).map Prod.fst =
      table.map Prod.fst ++ routes.map (·.name) := by
  induction routes generalizing table with
  | nil => simp
  | cons r rest ih =>
    obtain ⟨apart, distinct⟩ := List.nodup_cons.mp distinct
    have grown : (declare table r.name r.policy).map Prod.fst = table.map Prod.fst ++ [r.name] := by
      rw [names_declare, if_neg (new r List.mem_cons_self)]
    rw [List.foldl_cons, ih ?_ distinct, grown, List.map_cons, List.append_assoc, List.singleton_append]
    intro other held
    rw [grown, List.mem_append, List.mem_singleton]
    rintro (old | same)
    · exact new other (List.mem_cons_of_mem _ held) old
    · exact apart (List.mem_map.mpr ⟨other, held, same⟩)

section
variable (distinct : (c.routes.map (·.name)).Nodup)
include distinct

theorem policy?_of_mem {route : RoutePolicy} (held : route ∈ c.routes) :
    (ofConfig c).policy? route.name = some route.policy := by
  rw [policy?_ofConfig]
  cases found : c.routes.reverse.find? (·.name == route.name) with
  | none =>
    have absent := List.find?_eq_none.mp found route (List.mem_reverse.mpr held)
    simp at absent
  | some other =>
    have there : other ∈ c.routes := List.mem_reverse.mp (List.mem_of_find?_eq_some found)
    have named : other.name = route.name := by simpa using List.find?_some found
    rw [List.inj_on_of_nodup_map distinct there held named]
    rfl

theorem routeNames_perm : (ofConfig c).routeNames.Perm (c.routes.map (·.name)) := by
  have names : (ofConfig c).routes.map Prod.fst = c.routes.map (·.name) := by
    simpa [ofConfig] using @names_declared [] c.routes (by simp) distinct
  rw [routeNames, names]
  exact List.mergeSort_perm _ _

end
end Deferral.PolicyTable
