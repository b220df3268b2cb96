import Deferral.Config.Basic

/-!
The policies a server looks up: one per route name, the last declaration winning, and a default.
-/

namespace Deferral

structure PolicyTable where
  /-- One entry per name. -/
  routes : List (String × SuspendPolicy) := []
  default : Option SuspendPolicy := none
  deriving DecidableEq, Repr, Inhabited

namespace PolicyTable

def declare (routes : List (String × SuspendPolicy)) (name : String) (policy : SuspendPolicy) :
    List (String × SuspendPolicy) :=
  match routes with
  | [] => [(name, policy)]
  | (n, p) :: rest => if n = name then (n, policy) :: rest else (n, p) :: declare rest name policy

def ofConfig (c : ServiceConfig) : PolicyTable where
  routes := c.routes.foldl (fun routes r => declare routes r.name r.policy) []
  default := c.timeouts.defaultSecs.map (⟨·, .seconds⟩)

def policy? (t : PolicyTable) (route : String) : Option SuspendPolicy := t.routes.lookup route

def resolve (t : PolicyTable) (route : String) : Option SuspendPolicy :=
  t.policy? route <|> t.default

/-- The declared names in order; comparing code points orders them as their UTF-8 bytes. -/
def routeNames (t : PolicyTable) : List String :=
  (t.routes.map Prod.fst).mergeSort (fun a b => decide (a ≤ b))

end PolicyTable
end Deferral
