import Deferral.Proofs.Chronicle
import Deferral.Proofs.Deliveries
import Deferral.Proofs.TerminalTransition

/-! Where the listeners of a response are. Each one that was registered is still kept by the response, or
stands on the stack of some call that has to run it, or was run; and a sink was told of a panic just where
the listener that panicked was run. -/

namespace Deferral

namespace Response

variable {α ℓ : Type} {x : Response α ℓ}

theorem subscribe_resolved {outcome : Outcome α} (resolved : x.outcome = some outcome) (listener : ℓ) :
    x.subscribe listener = ({ x with nextListener := x.nextListener + 1 }, x.nextListener, some outcome) := by
  simp only [subscribe, resolved]

theorem subscribe_unresolved (unresolved : x.outcome = none) (listener : ℓ) :
    x.subscribe listener = ({ x with
      nextListener := x.nextListener + 1
      listeners := x.listeners ++ [(x.nextListener, listener)] }, x.nextListener, none) := by
  simp only [subscribe, unresolved]

end Response

namespace Simulation

/-- The listener that a request registers on a response, with its number. -/
def Request.joins? (x : Response String Listener) : Request → Option (Nat × Listener)
  | .subscribe listener => some (x.nextListener, listener)
  | _ => none

namespace Work

def joins? (w : World) (r : Nat) (work : Work) : Option (Nat × Listener) :=
  match work.request? with
  | some (s, asked) => if s = r then w.responses[r]?.bind (asked.joins? ·) else none
  | none => none

/-- The listener of a response that some work runs. -/
def hears? (r : Nat) : Work → Option (Nat × Listener)
  | .listen s index listener _ => if s = r then some (index, listener) else none
  | _ => none

def listens (r : Nat) (counted : Nat × Listener → Bool) (work : Work) : Bool := (work.hears? r).any counted

/-- Whether some work is where the panics of a response's listener stop. -/
def guards (r index : Nat) : Work → Bool
  | .guardListener s i => s == r && i == index
  | _ => false

end Work

/-- The panic of a response's listener that a stack begins with: the listener's number and the text. -/
def failure? (r : Nat) : List Work → Option (Nat × String)
  | .call (.panic message) :: rest =>
    match rest.dropWhile (!·.isGuard) with
    | .guardListener s index :: _ => if s = r then some (index, message.getD "listener panicked") else none
    | _ => none
  | _ => none

namespace Moment

def registers? (r : Nat) (moment : Moment) : Option (Nat × Listener) :=
  moment.thread.stack.head?.bind (·.joins? moment.world r)

def hears? (r : Nat) (moment : Moment) : Option (Nat × Listener) := moment.thread.stack.head?.bind (·.hears? r)

def fails? (r : Nat) (moment : Moment) : Option (Nat × String) := failure? r moment.thread.stack

end Moment

/-- The listeners that were registered on a response, in this order, with their numbers. -/
def registered (r : Nat) (m : List Moment) : List (Nat × Listener) := m.filterMap (Moment.registers? r)

/-- The listeners of a response that began to run, in this order. -/
def heard (r : Nat) (m : List Moment) : List (Nat × Listener) := m.filterMap (Moment.hears? r)

/-- The panics of a response's listeners, in this order. -/
def failed (r : Nat) (m : List Moment) : List (Nat × String) := m.filterMap (Moment.fails? r)

/-- Work that is no panic, or the panic of a listener: above the guard of that listener stands only what is
left of scripts. -/
def Caught (work : Work) (rest : List Work) : Prop :=
  ∀ message, work = .call (.panic message) →
    ∃ above r index below, rest = above ++ .guardListener r index :: below ∧ ∀ f ∈ above, f.isScripted = true

def Thread.catches (t : Thread) : Bool :=
  match t.stack with
  | .call (.panic _) :: rest => (rest.dropWhile (·.isScripted)).head?.any (·.isGuard)
  | _ => true

/-- The rule that only listeners panic. -/
def Pool.Contained (_ : World) (t : Thread) : Prop := t.catches = true

instance (w : World) (t : Thread) : Decidable (Pool.Contained w t) := inferInstanceAs (Decidable (_ = true))

theorem Pool.Contained.caught {w : World} {t : Thread} {work : Work} {rest : List Work} (contained : Contained w t)
    (stack : t.stack = work :: rest) : Caught work rest := by
  rintro message rfl
  unfold Contained Thread.catches at contained
  rw [stack] at contained
  dsimp only at contained
  clear stack
  induction rest with
  | nil => cases contained
  | cons f rest ih =>
    by_cases scripted : f.isScripted = true
    · rw [List.dropWhile_cons_of_pos scripted] at contained
      obtain ⟨above, r, index, below, rfl, all⟩ := ih contained
      refine ⟨f :: above, r, index, below, rfl, fun g member => ?_⟩
      rcases List.mem_cons.mp member with rfl | later
      · exact scripted
      · exact all g later
    · rw [List.dropWhile_cons_of_neg scripted] at contained
      cases f with
      | guardListener r index => exact ⟨[], r, index, rest, rfl, by simp⟩
      | _ => cases contained

/-- How a response's table of listeners changes while one listener joins it, or none: the response numbers
its listeners from zero, keeps them in order until it has an outcome, and keeps none after that. -/
structure Joins (before after : Response String Listener) (joined : Option (Nat × Listener)) : Prop where
  next : after.nextListener = before.nextListener + joined.toList.length
  number : ∀ listener, joined = some listener → listener.1 = before.nextListener
  kept : after.outcome = none → after.listeners = before.listeners ++ joined.toList
  released : after.outcome.isSome = true → after.listeners = []

section Stacks

variable {r : Nat} {f : Work} {stack above below : List Work}

theorem Work.attends_of_listens {counted : Nat × Listener → Bool} (listens : f.listens r counted = true) :
    f.attends = true := by
  cases f <;> first | rfl | cases listens

theorem Work.attends_of_guards {index : Nat} (guards : f.guards r index = true) : f.attends = true := by
  cases f <;> first | rfl | cases guards

theorem Work.not_attends_of_scripted (scripted : f.isScripted = true) : f.attends = false := by
  cases f <;> first | rfl | cases scripted

theorem Work.not_guard_of_scripted (scripted : f.isScripted = true) : f.isGuard = false := by
  cases f <;> first | rfl | cases scripted

theorem countP_unattended {counted : Work → Bool} (attending : ∀ f, counted f = true → f.attends = true)
    (none : ∀ f ∈ stack, f.attends = false) : stack.countP counted = 0 := by
  apply List.countP_eq_zero.mpr
  intro f member counts
  have attends := attending f counts
  rw [none f member] at attends
  cases attends

theorem dropWhile_guard {s index : Nat} (scripted : ∀ f ∈ above, f.isScripted = true) :
    (above ++ .guardListener s index :: below).dropWhile (!·.isGuard) = .guardListener s index :: below := by
  induction above with
  | nil => rfl
  | cons f above ih =>
    have open_ := Work.not_guard_of_scripted (scripted f (List.mem_cons_self ..))
    rw [List.cons_append, List.dropWhile_cons_of_pos (by simp [open_])]
    exact ih fun g member => scripted g (List.mem_cons_of_mem _ member)

theorem failure?_none {rest : List Work} (calm : ∀ message, f ≠ .call (.panic message)) : failure? r (f :: rest) = none := by
  unfold failure?
  split
  next message rest same =>
    cases same
    exact absurd rfl (calm message)
  · rfl

theorem failure?_guard {s index : Nat} (message : Option String) (scripted : ∀ f ∈ above, f.isScripted = true) :
    failure? r (.call (.panic message) :: (above ++ .guardListener s index :: below)) =
      if s = r then some (index, message.getD "listener panicked") else none := by
  simp only [failure?, dropWhile_guard scripted]

end Stacks

namespace Request

variable {r : Nat} {x : Response String Listener} {g : Grant} {asked : Request}

theorem joins?_of_ending {ending : Operation × Outcome String} (ends : asked.ending? = some ending) :
    asked.joins? x = none := by
  cases asked <;> first | rfl | cases ends

theorem joins?_of_starts {window : Duration} (starts : asked.starts? x = some window) : asked.joins? x = none := by
  cases asked <;> first | rfl | cases starts

theorem grant_subscribe {outcome : Outcome String} (ended : x.outcome = some outcome) (listener : Listener) :
    (Request.subscribe listener).grant r x = .ok {
      response := { x with nextListener := x.nextListener + 1 }
      tells := [.listen r x.nextListener listener outcome] } := by
  simp [grant, Response.subscribe_resolved ended]

theorem grant_attends (granted : asked.grant r x = .ok g) {f : Work} (member : f ∈ g.work r) (attends : f.attends = true) :
    ∃ index listener outcome, f = .listen r index listener outcome ∧ g.response.outcome = some outcome := by
  have told : f ∈ g.tells ∨ f ∈ g.returns := by
    simp only [Grant.work, List.mem_append, List.mem_map] at member
    rcases member with ((⟨id, -, rfl⟩ | tells) | ⟨arming, -, rfl⟩) | returns
    · cases attends
    · exact .inl tells
    · cases attends
    · exact .inr returns
  have concluded {operation : Operation} {outcome : Outcome String} {generation : Option Nat}
      (granted : conclude r x operation outcome generation = .ok g) :
      ∃ index listener outcome, f = .listen r index listener outcome ∧ g.response.outcome = some outcome := by
    unfold conclude Response.resolve at granted
    split at granted <;> cases granted
    rcases told with tells | returns
    · simp only [List.mem_append, List.mem_cons, List.not_mem_nil, or_false, List.mem_map] at tells
      rcases tells with (rfl | rfl) | ⟨⟨index, listener⟩, -, rfl⟩
      · cases attends
      · cases attends
      · exact ⟨index, listener, outcome, rfl, rfl⟩
    · rw [List.mem_singleton.mp returns] at attends
      cases attends
  have answered {result : Result} (returns : f ∈ [Work.answer result]) : False := by
    rw [List.mem_singleton.mp returns] at attends
    cases attends
  cases asked with
  | declare window =>
    simp only [grant, Response.applyPolicy] at granted
    split at granted <;> cases granted
    rcases told with none | returns
    · cases none
    · exact (answered returns).elim
  | suspend =>
    simp only [grant, Response.suspend] at granted
    split at granted
    · split at granted <;> cases granted
      all_goals
        rcases told with tells | returns
        · rw [List.mem_singleton.mp tells] at attends
          cases attends
        · exact (answered returns).elim
    · cases granted
  | setTimeout window =>
    simp only [grant, Response.setTimeout] at granted
    split at granted <;> cases granted
    rcases told with tells | returns
    · rw [List.mem_singleton.mp tells] at attends
      cases attends
    · exact (answered returns).elim
  | produce result => exact concluded granted
  | cancel => exact concluded granted
  | expire window generation => exact concluded granted
  | subscribe listener =>
    cases granted
    rcases told with tells | returns
    · obtain ⟨outcome, resolved, rfl⟩ := List.mem_map.mp tells
      refine ⟨_, listener, outcome, rfl, ?_⟩
      cases found : x.outcome with
      | none => simp [found] at resolved
      | some published =>
        have same : outcome = published := by simpa [found] using resolved
        rw [same]
    · exact (answered returns).elim
  | keepTimer timer generation =>
    simp only [grant] at granted
    split at granted <;> cases granted <;> rcases told with none | none <;> cases none

end Request

namespace Grants

variable {r : Nat} {x : Response String Listener} {g : Grant} {asked : Request}

theorem sink (grants : Grants r x asked g) : g.response.sink = x.sink := by
  cases grants with
  | subscribe =>
    unfold Response.subscribe
    split <;> rfl
  | declare | suspend | start | finish | store | stale => rfl

theorem joins (grants : Grants r x asked g) (released : x.outcome.isSome = true → x.listeners = []) :
    Joins x g.response (asked.joins? x) := by
  have same (none : asked.joins? x = none) {y : Response String Listener} (next : y.nextListener = x.nextListener)
      (outcome : y.outcome = x.outcome) (listeners : y.listeners = x.listeners) : Joins x y (asked.joins? x) := by
    rw [none]
    refine ⟨next, by simp, by simp [listeners], ?_⟩
    rw [outcome, listeners]
    exact released
  cases grants with
  | @subscribe listener =>
    have number (joined : Nat × Listener) (joins : (Request.subscribe listener).joins? x = some joined) :
        joined.1 = x.nextListener := by
      cases joins
      rfl
    cases found : x.outcome with
    | none =>
      rw [Response.subscribe_unresolved found]
      exact ⟨rfl, number, fun _ => rfl, fun resolved => by simp [found] at resolved⟩
    | some outcome =>
      rw [Response.subscribe_resolved found]
      exact ⟨rfl, number, fun none => by simp [found] at none, fun _ => released (by rw [found]; rfl)⟩
  | finish ends =>
    rw [Request.joins?_of_ending ends]
    exact ⟨rfl, by simp, fun none => by simp [Response.resolved] at none, fun _ => rfl⟩
  | start starts => exact same (Request.joins?_of_starts starts) rfl rfl rfl
  | declare | suspend | store | stale => exact same rfl rfl rfl rfl

private theorem countP_runs (outcome : Outcome String) (counted : Nat × Listener → Bool) (listeners : List (Nat × Listener)) :
    (listeners.map fun (index, listener) => Work.listen r index listener outcome).countP (·.listens r counted) =
      listeners.countP counted := by
  rw [List.countP_map]
  congr 1
  funext listener
  simp [Work.listens, Work.hears?]

/-- A grant keeps or leaves to run every listener that it takes from the response or lets in. -/
theorem countP_listens (grants : Grants r x asked g) (counted : Nat × Listener → Bool) :
    x.listeners.countP counted + (asked.joins? x).toList.countP counted =
      g.response.listeners.countP counted + (g.work r).countP (·.listens r counted) := by
  have disarms (timer : Option Nat) : (timer.toList.map Work.disarm).countP (·.listens r counted) = 0 := by
    cases timer <;> simp [Work.listens, Work.hears?]
  cases grants with
  | @subscribe listener =>
    cases found : x.outcome with
    | none =>
      rw [Response.subscribe_unresolved found]
      simp [Request.joins?, Grant.work, Work.listens, Work.hears?]
    | some outcome =>
      rw [Response.subscribe_resolved found]
      by_cases counts : counted (x.nextListener, listener) = true
      · simp [Request.joins?, Grant.work, Work.listens, Work.hears?, counts]
      · simp [Request.joins?, Grant.work, Work.listens, Work.hears?, counts]
  | @finish _ operation outcome ends =>
    simp only [Request.joins?_of_ending ends, Response.resolved, Grant.work, List.countP_append, disarms, countP_runs]
    simp [Work.listens, Work.hears?]
  | start starts =>
    simp only [Request.joins?_of_starts starts, Response.started, Grant.work, List.countP_append, disarms]
    simp [Work.listens, Work.hears?]
  | declare | suspend | store | stale =>
    simp only [Request.joins?, Grant.work, List.countP_append, disarms]
    simp [Work.listens, Work.hears?]

end Grants

theorem Work.joins?_request {w : World} {work : Work} {r s : Nat} {x : Response String Listener} {asked : Request}
    (asks : work.request? = some (s, asked)) (found : w.responses[s]? = some x) :
    work.joins? w r = if s = r then asked.joins? x else none := by
  unfold joins?
  rw [asks]
  dsimp only
  split
  next same => rw [← same, found]; rfl
  · rfl

theorem Work.joins?_none {w : World} {work : Work} (r : Nat)
    (unserved : ∀ s listener, work.request? = some (s, .subscribe listener) → w.responses[s]? = none) :
    work.joins? w r = none := by
  unfold joins?
  split
  next s asked asks =>
    split
    next same =>
      cases asked with
      | subscribe listener => rw [← same, unserved s listener asks]; rfl
      | _ => cases w.responses[r]? <;> rfl
    · rfl
  · rfl

namespace Delivery

variable {w w' : World} {work : Work} {rest stack : List Work}

theorem granted_elsewhere {r s : Nat} {g : Grant} (responses : w'.responses = w.responses.set s g.response) (other : s ≠ r) :
    w'.response r = w.response r := by
  simp only [World.response, responses, List.getElem?_set_ne other]

theorem granted_here {s : Nat} {x : Response String Listener} {g : Grant} (found : w.responses[s]? = some x)
    (responses : w'.responses = w.responses.set s g.response) : w'.response s = g.response := by
  obtain ⟨inside, -⟩ := List.getElem?_eq_some_iff.mp found
  simp [World.response, responses, inside]

theorem joins (delivery : Delivery w work rest w' stack) (sound : ∀ r, Sound (w.response r)) {r : Nat}
    (released : (w.response r).outcome.isSome = true → (w.response r).listeners = []) :
    Joins (w.response r) (w'.response r) (work.joins? w r) := by
  have unchanged (none : work.joins? w r = none)
      (same : w'.response r = { w.response r with sink := (w'.response r).sink }) :
      Joins (w.response r) (w'.response r) (work.joins? w r) := by
    rw [same, none]
    exact ⟨rfl, by simp, by simp, released⟩
  cases delivery with
  | @granted _ _ _ s asked x g asks found granted responses =>
    by_cases here : s = r
    · subst here
      have before := World.response_found found
      rw [Work.joins?_request asks found, if_pos rfl, granted_here found responses, before]
      rw [before] at released
      exact (Request.grant_cases (before ▸ sound s) granted).joins released
    · have same := granted_elsewhere responses here
      refine unchanged ?_ (by rw [same])
      rw [Work.joins?_request asks found, if_neg here]
  | listened kept | returned kept | untracked kept | registered kept | panicked kept | misreported kept =>
    exact unchanged rfl (kept.response r)
  | passed pushed other unserved none kept => exact unchanged (Work.joins?_none r unserved) (kept.response r)

/-- A listener that was let in or stood on the stack is kept, or still stands there, or begins to run. -/
theorem countP_listens (delivery : Delivery w work rest w' stack) (sound : ∀ r, Sound (w.response r)) (r : Nat)
    (caught : Caught work rest)
    (counted : Nat × Listener → Bool) :
    (w.response r).listeners.countP counted + (work.joins? w r).toList.countP counted +
        rest.countP (·.listens r counted) =
      (w'.response r).listeners.countP counted + stack.countP (·.listens r counted) := by
  have unchanged (none : work.joins? w r = none)
      (same : w'.response r = { w.response r with sink := (w'.response r).sink })
      (stays : stack.countP (·.listens r counted) = rest.countP (·.listens r counted)) :
      (w.response r).listeners.countP counted + (work.joins? w r).toList.countP counted +
          rest.countP (·.listens r counted) =
        (w'.response r).listeners.countP counted + stack.countP (·.listens r counted) := by
    rw [same, none, stays]
    simp
  cases delivery with
  | @granted _ _ _ s asked x g asks found granted responses =>
    have before := World.response_found found
    have grants := Request.grant_cases (before ▸ sound s) granted
    rw [Work.joins?_request asks found, List.countP_append]
    by_cases here : s = r
    · subst here
      have counts := grants.countP_listens counted
      rw [if_pos rfl, granted_here found responses, before]
      omega
    · have none : (g.work s).countP (·.listens r counted) = 0 := by
        apply List.countP_eq_zero.mpr
        intro f member listens
        obtain ⟨index, listener, outcome, rfl, -⟩ := Request.grant_attends granted member (Work.attends_of_listens listens)
        simp [Work.listens, Work.hears?, here] at listens
      rw [if_neg here, granted_elsewhere responses here, none]
      simp
  | @listened s index listener outcome rest after kept =>
    refine unchanged rfl (kept.response r) ?_
    cases listener <;> simp [Listener.work, Work.listens, Work.hears?]
  | returned kept => exact unchanged rfl (kept.response r) rfl
  | untracked kept | registered kept => exact unchanged rfl (kept.response r) (by simp [Work.listens, Work.hears?])
  | misreported kept => exact unchanged rfl (kept.response r) rfl
  | panicked kept =>
    refine unchanged rfl (kept.response r) ?_
    obtain ⟨above, s, index, below, rfl, scripted⟩ := caught _ rfl
    have dropped : above.countP (·.listens r counted) = 0 :=
      countP_unattended (fun _ => Work.attends_of_listens) fun f member => Work.not_attends_of_scripted (scripted f member)
    rw [dropWhile_guard scripted, List.countP_append, dropped]
    simp [Work.listens, Work.hears?]
  | passed pushed other unserved none kept =>
    refine unchanged (Work.joins?_none r unserved) (kept.response r) ?_
    rw [List.countP_append, countP_unattended (fun _ => Work.attends_of_listens) none, Nat.zero_add]

theorem guards (delivery : Delivery w work rest w' stack) (caught : Caught work rest) (r i : Nat) :
    stack.countP (·.guards r i) + ((failure? r (work :: rest)).toList.map Prod.fst).count i ≤
      (work :: rest).countP (·.guards r i) + ((work.hears? r).toList.map Prod.fst).count i := by
  have calm (none : failure? r (work :: rest) = none) (fewer : stack.countP (·.guards r i) ≤
      (work :: rest).countP (·.guards r i) + ((work.hears? r).toList.map Prod.fst).count i) :
      stack.countP (·.guards r i) + ((failure? r (work :: rest)).toList.map Prod.fst).count i ≤
        (work :: rest).countP (·.guards r i) + ((work.hears? r).toList.map Prod.fst).count i := by
    rw [none]
    exact fewer
  have pushes (pushed : List Work) (none : ∀ f ∈ pushed, f.guards r i = false) :
      (pushed ++ rest).countP (·.guards r i) ≤
        (work :: rest).countP (·.guards r i) + ((work.hears? r).toList.map Prod.fst).count i := by
    have zero : pushed.countP (·.guards r i) = 0 := List.countP_eq_zero.mpr fun f member => by simp [none f member]
    rw [List.countP_append, List.countP_cons, zero]
    omega
  cases delivery with
  | @granted _ _ _ s asked x g asks found granted responses =>
    refine calm (failure?_none fun message same => ?_) (pushes _ fun f member => ?_)
    · rw [same] at asks
      cases asks
    · cases guards : f.guards r i with
      | false => rfl
      | true =>
        obtain ⟨index, listener, outcome, rfl, -⟩ := Request.grant_attends granted member (Work.attends_of_guards guards)
        cases guards
  | @listened s index listener outcome rest after kept =>
    refine calm rfl ?_
    have script : (listener.work s).guards r i = false := by cases listener <;> rfl
    have guard : (Work.guardListener s index).guards r i = (s == r && index == i) := rfl
    simp only [List.countP_cons, script, guard]
    by_cases here : s = r
    · by_cases same : index = i <;> simp [Work.guards, Work.hears?, here, same]
    · simp [Work.guards, Work.hears?, here]
  | returned kept => exact calm rfl (pushes [] (by simp))
  | untracked kept => exact calm rfl (pushes [_] (by simp [Work.guards]))
  | registered kept => exact calm rfl (pushes [_, _, _] (by simp [Work.guards]))
  | misreported kept => exact calm rfl (pushes [] (by simp))
  | @panicked message _ _ kept =>
    obtain ⟨above, s, index, below, rfl, scripted⟩ := caught _ rfl
    have dropped : above.countP (·.guards r i) = 0 :=
      countP_unattended (fun _ => Work.attends_of_guards) fun f member => Work.not_attends_of_scripted (scripted f member)
    rw [failure?_guard message scripted, dropWhile_guard scripted]
    simp only [List.tail_cons, List.countP_cons, List.countP_append, dropped]
    by_cases here : s = r
    · by_cases same : index = i <;> simp [Work.guards, Work.hears?, here, same]
    · simp [Work.guards, Work.hears?, here]
  | passed pushed other unserved none kept =>
    refine calm (failure?_none fun message same => ?_) (pushes _ fun f member => ?_)
    · rw [same] at other
      cases other
    · cases guards : f.guards r i with
      | false => rfl
      | true =>
        have attends := none f member
        rw [Work.attends_of_guards guards] at attends
        cases attends

theorem tells (delivery : Delivery w work rest w' stack)
    (caught : Caught work rest)
    (faithful : ∀ r index text, work ≠ .record (.listenerFailed r index text)) (sink : FailureSink) (r : Nat) :
    w'.told sink r = w.told sink r ++ if sink = (w.response r).sink then (failure? r (work :: rest)).toList else [] := by
  have calm (none : failure? r (work :: rest) = none) (told : w'.told = w.told) :
      w'.told sink r = w.told sink r ++ if sink = (w.response r).sink then (failure? r (work :: rest)).toList else [] := by
    rw [none, told]
    simp
  cases delivery with
  | granted asks found granted responses registry told =>
    refine calm (failure?_none fun message same => ?_) told
    rw [same] at asks
    cases asks
  | listened kept registry told | returned kept registry told | untracked kept registry told
  | registered kept registry told => exact calm rfl told
  | misreported => exact absurd rfl (faithful _ _ _)
  | passed pushed other unserved none kept registry told =>
    refine calm (failure?_none fun message same => ?_) told
    rw [same] at other
    cases other
  | @panicked message _ _ kept registry told =>
    obtain ⟨above, s, index, below, rfl, scripted⟩ := caught _ rfl
    rw [told above s index below rfl (fun f member => Work.not_guard_of_scripted (scripted f member)) sink r,
      failure?_guard message scripted]
    by_cases here : s = r
    · subst here
      by_cases same : sink = (w.response s).sink <;> simp [same]
    · simp [here, Ne.symm here]

theorem sinks (delivery : Delivery w work rest w' stack) (sound : ∀ r, Sound (w.response r)) {r : Nat}
    {x : Response String Listener} (found : w.responses[r]? = some x) :
    ∃ x', w'.responses[r]? = some x' ∧ x'.sink = x.sink := by
  cases delivery with
  | @granted _ _ _ s asked y g asks given granted responses =>
    by_cases here : s = r
    · subst here
      rw [found] at given
      cases given
      have before := World.response_found found
      obtain ⟨inside, -⟩ := List.getElem?_eq_some_iff.mp found
      exact ⟨g.response, by simp [responses, inside], (Request.grant_cases (before ▸ sound s) granted).sink⟩
    · exact ⟨x, by rw [responses, List.getElem?_set_ne here, found], rfl⟩
  | listened kept | returned kept | untracked kept | registered kept | panicked kept | misreported kept
  | passed _ _ _ _ kept => exact ⟨x, kept.found r x found, rfl⟩

/-- Work that attends to listeners and that some work leaves. -/
inductive Leaves (w' : World) : Work → Work → Prop where
  | listen {work r asked index listener outcome} (asks : work.request? = some (r, asked))
      (published : (w'.response r).outcome = some outcome) : Leaves w' work (.listen r index listener outcome)
  | guardListener {r index listener outcome} : Leaves w' (.listen r index listener outcome) (.guardListener r index)
  | untrack {r index outcome} : Leaves w' (.listen r index .untrack outcome) (.untrack r)
  | subscribe {r} : Leaves w' (.call (.register r)) (.request r (.subscribe .untrack))

theorem leaves (delivery : Delivery w work rest w' stack) {f : Work} (member : f ∈ stack) (attends : f.attends = true) :
    f ∈ rest ∨ Leaves w' work f := by
  cases delivery with
  | @granted _ _ _ s asked x g asks found granted responses =>
    rcases List.mem_append.mp member with left | old
    · obtain ⟨index, listener, outcome, rfl, published⟩ := Request.grant_attends granted left attends
      rw [← granted_here found responses] at published
      exact .inr (.listen asks published)
    · exact .inl old
  | @listened r index listener outcome =>
    simp only [List.mem_cons] at member
    rcases member with rfl | rfl | old
    · cases listener with
      | script label body => cases attends
      | untrack => exact .inr .untrack
    · exact .inr .guardListener
    · exact .inl old
  | returned | misreported => exact .inl member
  | untracked =>
    rcases List.mem_cons.mp member with rfl | old
    · cases attends
    · exact .inl old
  | registered =>
    simp only [List.mem_cons] at member
    rcases member with rfl | rfl | rfl | old
    · cases attends
    · exact .inr .subscribe
    · cases attends
    · exact .inl old
  | panicked => exact .inl ((List.dropWhile_sublist _).subset (List.mem_of_mem_tail member))
  | passed pushed other unserved none =>
    rcases List.mem_append.mp member with new | old
    · rw [none f new] at attends
      cases attends
    · exact .inl old

end Delivery

theorem Thread.Fresh.unattended {t : Thread} (fresh : t.Fresh) : ∀ f ∈ t.stack, f.attends = false := by
  intro f member
  rcases fresh.of_mem member with ⟨action, rfl⟩ | ⟨id, rfl | rfl | rfl | rfl | rfl⟩ <;> rfl

namespace Pool

theorem old_or_left {w w' : World} {before after : List Thread} {t thread : Thread} {work f : Work} {rest : List Work}
    (delivery : Delivery w work rest w' thread.stack) (stack : t.stack = work :: rest)
    (member : f ∈ (Pool.mk w' (before ++ thread :: after)).works) (attends : f.attends = true) :
    f ∈ (Pool.mk w (before ++ t :: after)).works ∨ Delivery.Leaves w' work f := by
  rcases mem_works_run.mp member with other | here
  · exact .inl (mem_works_run.mpr (.inl other))
  · exact (delivery.leaves here attends).imp_left fun rested => mem_works_here stack (List.mem_cons_of_mem _ rested)

theorem unresolved_before {w w' : World} {r : Nat}
    (frozen : (w.response r).outcome.isSome = true → (w'.response r).outcome = (w.response r).outcome)
    (later : (w'.response r).outcome = none) : (w.response r).outcome = none := by
  cases found : (w.response r).outcome with
  | none => rfl
  | some outcome =>
    rw [frozen (by rw [found]; rfl), found] at later
    cases later

/-- Where the listeners of a response are at the end of a chronicle. -/
structure Attended (m : List Moment) (p : Pool) (r : Nat) : Prop where
  numbered : (registered r m).map Prod.fst = List.range (p.world.response r).nextListener
  accounted : ∀ counted, (registered r m).countP counted = (p.world.response r).listeners.countP counted +
    p.works.countP (·.listens r counted) + (heard r m).countP counted
  kept : (p.world.response r).outcome = none → (p.world.response r).listeners = registered r m
  released : (p.world.response r).outcome.isSome = true → (p.world.response r).listeners = []
  published : ∀ index listener outcome, .listen r index listener outcome ∈ p.works →
    (p.world.response r).outcome = some outcome
  guarded : ∀ index, p.works.countP (·.guards r index) + ((failed r m).map Prod.fst).count index ≤
    ((heard r m).map Prod.fst).count index
  faithful : ∀ s index text, .record (.listenerFailed s index text) ∉ p.works
  told : ∀ sink, p.world.told sink r = if sink = (p.world.response r).sink then failed r m else []

theorem failed_nil {m : List Moment} {p : Pool} {r : Nat} (none : registered r m = [])
    (accounted : ∀ counted, (registered r m).countP counted = (p.world.response r).listeners.countP counted +
      p.works.countP (·.listens r counted) + (heard r m).countP counted)
    (guarded : ∀ index, p.works.countP (·.guards r index) + ((failed r m).map Prod.fst).count index ≤
      ((heard r m).map Prod.fst).count index) : failed r m = [] := by
  have unheard : heard r m = [] := by
    have counts := accounted fun _ => true
    rw [none, List.countP_nil, List.countP_true] at counts
    exact List.length_eq_zero_iff.mp (by omega)
  refine List.eq_nil_iff_forall_not_mem.mpr fun failure member => ?_
  have counted := guarded failure.1
  have positive : 0 < ((failed r m).map Prod.fst).count failure.1 :=
    List.count_pos_iff.mpr (List.mem_map.mpr ⟨failure, member, rfl⟩)
  rw [unheard, List.map_nil, List.count_nil] at counted
  omega

theorem registered_snoc {w : World} {t : Thread} {work : Work} {rest : List Work} (stack : t.stack = work :: rest)
    (place r : Nat) (m : List Moment) :
    registered r (m ++ [⟨place, w, t⟩]) = registered r m ++ (work.joins? w r).toList := by
  cases joins : work.joins? w r <;> simp [registered, Moment.registers?, stack, joins]

namespace Attended

variable {p q : Pool} {m moments : List Moment} {r : Nat}

theorem initial (drive : Drive) (r : Nat) : Attended [] (start drive) r := by
  have response : (start drive).world.response r = {} := rfl
  have works : (start drive).works = [] := rfl
  constructor
  case numbered => simp [registered, response]
  case accounted => simp [registered, heard, response, works]
  case kept => simp [registered, response]
  case released => simp [response]
  case published => simp [works]
  case guarded => simp [works, failed]
  case faithful => simp [works]
  case told =>
    intro sink
    cases sink <;> rfl

theorem spawn {w : World} {threads : List Thread} {t : Thread} (attended : Attended m ⟨w, threads⟩ r) (fresh : t.Fresh) :
    Attended m ⟨w, threads ++ [t]⟩ r := by
  have works : (Pool.mk w (threads ++ [t])).works = (Pool.mk w threads).works ++ t.stack := by simp [Pool.works]
  have none := fresh.unattended
  have kept {counted : Work → Bool} (attending : ∀ f, counted f = true → f.attends = true) :
      (Pool.mk w (threads ++ [t])).works.countP counted = (Pool.mk w threads).works.countP counted := by
    rw [works, List.countP_append, countP_unattended attending none, Nat.add_zero]
  have old {f : Work} (member : f ∈ (Pool.mk w (threads ++ [t])).works) (attends : f.attends = true) :
      f ∈ (Pool.mk w threads).works := by
    rw [works, List.mem_append] at member
    rcases member with old | new
    · exact old
    · rw [none f new] at attends
      cases attends
  obtain ⟨numbered, accounted, listeners, released, published, guarded, faithful, told⟩ := attended
  refine ⟨numbered, fun counted => ?_, listeners, released, fun index listener outcome member => ?_, fun index => ?_,
    fun s index text member => ?_, told⟩
  · rw [kept fun _ => Work.attends_of_listens]
    exact accounted counted
  · exact published index listener outcome (old member rfl)
  · rw [kept fun _ => Work.attends_of_guards]
    exact guarded index
  · exact faithful s index text (old member rfl)

theorem run {w : World} {before after : List Thread} {t : Thread} {work : Work} {rest : List Work}
    (attended : Attended m ⟨w, before ++ t :: after⟩ r) (stack : t.stack = work :: rest) (allowed : Contained w t)
    (sound : ∀ s, Sound (w.response s))
    (frozen : (w.response r).outcome.isSome = true → ((step w t).1.response r).outcome = (w.response r).outcome) :
    Attended (m ++ [⟨before.length, w, t⟩]) ⟨(step w t).1, before ++ (step w t).2 :: after⟩ r := by
  have delivery := step_delivery (w := w) stack
  have caught := allowed.caught stack
  have registers := registered_snoc (w := w) stack before.length r m
  have hears : heard r (m ++ [⟨before.length, w, t⟩]) = heard r m ++ (work.hears? r).toList := by
    cases hears : work.hears? r <;> simp [heard, Moment.hears?, stack, hears]
  have fails : failed r (m ++ [⟨before.length, w, t⟩]) = failed r m ++ (failure? r (work :: rest)).toList := by
    cases fails : failure? r (work :: rest) <;> simp [failed, Moment.fails?, stack, fails]
  generalize (step w t).2 = thread at delivery ⊢
  generalize (step w t).1 = w' at delivery frozen ⊢
  obtain ⟨numbered, accounted, kept, released, published, guarded, faithful, told⟩ := attended
  have joins := delivery.joins sound released
  have others : (Pool.mk w' (before ++ after)).works = (Pool.mk w (before ++ after)).works := rfl
  have counts (counted : Nat × Listener → Bool) : (registered r (m ++ [⟨before.length, w, t⟩])).countP counted =
      (w'.response r).listeners.countP counted +
        (Pool.mk w' (before ++ thread :: after)).works.countP (·.listens r counted) +
        (heard r (m ++ [⟨before.length, w, t⟩])).countP counted := by
    have listens := delivery.countP_listens sound r caught counted
    have whole := accounted counted
    have here : (work.hears? r).toList.countP counted = if work.listens r counted then 1 else 0 := by
      cases hears : work.hears? r <;> simp [Work.listens, hears]
    rw [registers, hears, List.countP_append, List.countP_append, countP_works_run, others, here]
    rw [countP_works_run, stack, List.countP_cons] at whole
    dsimp only at whole
    omega
  have guards (index : Nat) : (Pool.mk w' (before ++ thread :: after)).works.countP (·.guards r index) +
      ((failed r (m ++ [⟨before.length, w, t⟩])).map Prod.fst).count index ≤
        ((heard r (m ++ [⟨before.length, w, t⟩])).map Prod.fst).count index := by
    have guards := delivery.guards caught r index
    have fewer := guarded index
    rw [fails, hears, List.map_append, List.map_append, List.count_append, List.count_append, countP_works_run, others]
    rw [countP_works_run, stack] at fewer
    omega
  constructor
  case numbered =>
    rw [registers, List.map_append, numbered, joins.next]
    cases joined : work.joins? w r with
    | none => simp
    | some listener => simp [List.range_succ, joins.number listener joined]
  case accounted => exact counts
  case kept =>
    intro none
    rw [joins.kept none, registers, kept (unresolved_before frozen none)]
  case released => exact joins.released
  case published =>
    intro index listener outcome member
    rcases old_or_left delivery stack member rfl with before | left
    · have same := published index listener outcome before
      rw [frozen (by rw [same]; rfl)]
      exact same
    · cases left with
      | listen asks published => exact published
  case guarded => exact guards
  case faithful =>
    intro s index text member
    rcases old_or_left delivery stack member rfl with before | left
    · exact faithful s index text before
    · cases left
  case told =>
    intro sink
    have tells := delivery.tells caught
      (fun s index text same => faithful s index text (mem_works_here stack (by simp [same]))) sink r
    cases found : w.responses[r]? with
    | some x =>
      obtain ⟨x', found', sinks⟩ := delivery.sinks sound found
      rw [World.response_found found] at told tells
      rw [tells, told, fails, World.response_found found', sinks]
      split <;> rfl
    | none =>
      -- no listener of a response that is not made yet can have failed
      have unjoined : work.joins? w r = none := by
        unfold Work.joins?
        rw [found]
        split
        · split <;> rfl
        · rfl
      have none : registered r (m ++ [⟨before.length, w, t⟩]) = [] := by
        rw [registers, unjoined, List.map_eq_nil_iff.mp (numbered.trans (by simp [World.response, found]))]
        rfl
      have silent := failed_nil none counts guards
      rw [fails, List.append_eq_nil_iff] at silent
      rw [tells, told, fails, silent.1, silent.2]
      simp

theorem of_chronicle {drive : Drive} (chronicle : Chronicle Contained (start drive) m p) (r : Nat) : Attended m p r := by
  induction chronicle with
  | refl => exact initial drive r
  | move past next ih =>
    obtain ⟨h, valid⟩ := past.valid
    obtain ⟨notes, step⟩ := next.step
    cases next with
    | run stack allowed =>
      exact ih.run stack allowed valid.sound fun resolved => valid.outcome_frozen step resolved
    | spawn fresh =>
      rw [List.append_nil]
      exact ih.spawn fresh
    | wait now sleeping ready =>
      rw [List.append_nil]
      obtain ⟨numbered, accounted, kept, released, published, guarded, faithful, told⟩ := ih
      exact ⟨numbered, accounted, kept, released, published, guarded, faithful, told⟩

end Attended
end Pool
end Simulation
end Deferral
