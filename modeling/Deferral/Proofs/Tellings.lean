import Deferral.Proofs.Attendance
import Deferral.Proofs.Bookkeeping

/-! What one step leaves to be logged. A call that ends a response, suspends it or starts its clock has an entry
of the log to make when its scheduler is done; no other step adds such work, and only a panic drops some. -/

namespace Deferral.Simulation

/-- How some work ends a response: the response, the kind of its outcome, and the number of its listeners. -/
def Work.ending? (w : World) (work : Work) : Option (Nat × OutcomeKind × Nat) :=
  match work.request? with
  | some (r, asked) =>
    match w.responses[r]?.map fun x => (x, asked.grant r x) with
    | some (x, .ok _) => asked.ending?.map fun (_, outcome) => (r, outcome.kind, x.listeners.length)
    | _ => none
  | none => none

namespace Work

variable {w : World} {work : Work}

theorem ending?_granted {r : Nat} {asked : Request} {x : Response String Listener} {g : Grant}
    (asks : work.request? = some (r, asked)) (found : w.responses[r]? = some x) (granted : asked.grant r x = .ok g) :
    work.ending? w = asked.ending?.map fun (_, outcome) => (r, outcome.kind, x.listeners.length) := by
  simp only [ending?, asks, found, Option.map_some, granted]

theorem ending?_ungranted (ungranted : ∀ r asked x g, work.request? = some (r, asked) → w.responses[r]? = some x →
    asked.grant r x ≠ .ok g) : work.ending? w = none := by
  unfold ending?
  split
  next r asked asks =>
    cases found : w.responses[r]? with
    | none => rfl
    | some x =>
      cases answered : asked.grant r x with
      | error error => simp only [Option.map_some, answered]
      | ok g => exact absurd answered (ungranted r asked x g asks found)
  · rfl

theorem ending?_eq_some {ending : Nat × OutcomeKind × Nat} (ends : work.ending? w = some ending) :
    ∃ asked x g operation outcome, work.request? = some (ending.1, asked) ∧ w.responses[ending.1]? = some x ∧
      asked.grant ending.1 x = .ok g ∧ asked.ending? = some (operation, outcome) ∧ outcome.kind = ending.2.1 ∧
      x.listeners.length = ending.2.2 := by
  unfold ending? at ends
  split at ends
  next r asked asks =>
    cases found : w.responses[r]? with
    | none => simp only [found, Option.map_none, reduceCtorEq] at ends
    | some x =>
      cases answered : asked.grant r x with
      | error error => simp only [found, Option.map_some, answered, reduceCtorEq] at ends
      | ok g =>
        simp only [found, Option.map_some, answered] at ends
        obtain ⟨⟨operation, outcome⟩, brings, rfl⟩ := Option.map_eq_some_iff.mp ends
        exact ⟨asked, x, g, operation, outcome, asks, found, answered, brings, rfl, rfl⟩
  · cases ends

end Work

private theorem countP_listeners_close {r : Nat} (outcome : Outcome String) (listeners : List (Nat × Listener))
    (closing : Nat × OutcomeKind × Nat) :
    (listeners.map fun (index, listener) => Work.listen r index listener outcome).countP (·.closes closing) = 0 := by
  simp [List.countP_eq_zero, Work.closes, Work.closing?]

theorem Grants.countP_closes {r : Nat} {x : Response String Listener} {asked : Request} {g : Grant}
    (grants : Grants r x asked g) (closing : Nat × OutcomeKind × Nat) : (g.work r).countP (·.closes closing) =
      (asked.ending?.map fun ending => (r, ending.2.kind, x.listeners.length)).toList.count closing := by
  have disarms (timer : Option Nat) : (timer.toList.map Work.disarm).countP (·.closes closing) = 0 := by
    cases timer <;> simp [Work.closes, Work.closing?]
  cases grants with
  | finish ends current unresolved =>
    simp only [ends, Grant.work, List.countP_append, disarms, countP_listeners_close, Option.map_some,
      Option.toList_some]
    simp [Work.closes, Work.closing?, List.count_singleton, List.countP_cons]
  | start starts =>
    have none : asked.ending? = none := by
      cases asked <;> first | rfl | cases starts
    simp only [none, Grant.work, List.countP_append, disarms]
    simp [Work.closes, Work.closing?]
  | @subscribe listener =>
    cases found : x.outcome <;>
      simp [Request.ending?, Grant.work, Response.subscribe, found, Work.closes, Work.closing?]
  | declare | suspend | store | stale =>
    simp only [Request.ending?, Grant.work, List.countP_append, disarms]
    simp [Work.closes, Work.closing?]

def World.resolved (w : World) (kind : OutcomeKind) : Nat := w.responses.countP (·.outcome.any (·.kind == kind))

theorem Effect.resolved {before after : World} {work : Work} {rest stack : List Work}
    (effect : Effect before work rest after stack) (ungranted : ∀ r asked x g, work.request? = some (r, asked) →
      before.responses[r]? = some x → asked.grant r x ≠ .ok g) (kind : OutcomeKind) :
    after.resolved kind = before.resolved kind := by
  have same (responses : after.responses = before.responses) : after.resolved kind = before.resolved kind := by
    rw [World.resolved, responses, World.resolved]
  cases effect with
  | granted asks found granted => exact absurd granted (ungranted _ _ _ _ asks found)
  | created responses => simp [World.resolved, responses, List.countP_replicate]
  | armed _ scheduled | scheduled _ scheduled => exact same scheduled.responses
  | refused _ _ _ responses | disarmed _ _ responses | fired _ _ _ responses | unwound responses
  | quiet _ _ _ _ _ responses => exact same responses

structure Endless (before : World) (work : Work) (after : World) : Prop where
  ungranted : ∀ r asked x g, work.request? = some (r, asked) → before.responses[r]? = some x → asked.grant r x ≠ .ok g
  unended : work.ending? before = none
  kept : Kept before after
  resolved : ∀ kind, after.resolved kind = before.resolved kind

/-- How a step changes what is still to be told. Only a grant adds to it. -/
inductive Telling (before : World) (work : Work) (rest : List Work) (after : World) : List Work → Prop where
  | granted {r asked x g} (asks : work.request? = some (r, asked)) (found : before.responses[r]? = some x)
      (granted : asked.grant r x = .ok g) (responses : after.responses = before.responses.set r g.response) :
      Telling before work rest after (g.work r ++ rest)
  | pushed (pushed : List Work) (untold : ∀ f ∈ pushed, f.isTelling = false) (endless : Endless before work after) :
      Telling before work rest after (pushed ++ rest)
  | unwound {message} (panics : work = .call (.panic message)) (endless : Endless before work after) :
      Telling before work rest after (rest.dropWhile (!·.isGuard)).tail

theorem Hooked.untold {before : World} {extra : List Work} (hooked : Hooked before extra) :
    ∀ f ∈ extra, f.isTelling = false := by
  intro f member
  rcases hooked.1 f member with ⟨speaker, body, rfl⟩ | ⟨result, rfl⟩ | ⟨id, rfl⟩ <;> rfl

theorem Effect.telling {before after : World} {work : Work} {rest stack : List Work}
    (effect : Effect before work rest after stack) : Telling before work rest after stack := by
  have other (ungranted : ∀ r asked x g, work.request? = some (r, asked) → before.responses[r]? = some x →
      asked.grant r x ≠ .ok g) : Endless before work after :=
    ⟨ungranted, Work.ending?_ungranted ungranted, effect.kept ungranted, effect.resolved ungranted⟩
  have untold {extra : List Work} {f : Work} (hooks : Hooked before extra) (own : f.isTelling = false) :
      ∀ g ∈ extra ++ [f], g.isTelling = false := by
    intro g member
    rcases List.mem_append.mp member with hook | last
    · exact hooks.untold g hook
    · rw [List.mem_singleton.mp last]
      exact own
  cases effect with
  | granted asks found granted responses => exact .granted asks found granted responses
  | refused asks found refused =>
    have endless := other fun r asked x g asks' found' granted => by
      cases asks.symm.trans asks'
      cases found.symm.trans found'
      cases refused.symm.trans granted
    exact .pushed [] (by simp) endless
  | created =>
    have endless := other fun r asked x g asks => by cases asks
    exact .pushed [] (by simp) endless
  | armed hooks =>
    have endless := other fun r asked x g asks => by cases asks
    rw [List.append_cons]
    exact .pushed _ (untold hooks rfl) endless
  | scheduled hooks =>
    have endless := other fun r asked x g asks => by cases asks
    rw [List.append_cons]
    exact .pushed _ (untold hooks rfl) endless
  | disarmed asks hooks =>
    have endless := other fun r asked x g asked' => by rcases asks with rfl | rfl <;> cases asked'
    exact .pushed _ hooks.untold endless
  | @fired _ id timer _ _ returns asks found returned =>
    have endless := other fun r asked x g asked' => by
      rcases asks with ⟨rfl | rfl, -⟩ | ⟨force, rfl⟩ <;> cases asked'
    refine .pushed _ (fun f member => ?_) endless
    rcases List.mem_append.mp member with runs | back
    · rcases Callback.mem_work runs with ⟨r, window, generation, -, rfl | rfl⟩ | ⟨body, -, rfl⟩ <;> rfl
    · obtain ⟨result, rfl⟩ := returned f back
      rfl
  | unwound =>
    have endless := other fun r asked x g asks => by cases asks
    exact .unwound rfl endless
  | quiet pushed absent _ outer =>
    have endless := other fun r asked x g asks found => by
      cases (absent r asked asks).symm.trans found
    exact .pushed pushed (fun f member => (outer f member).2) endless

/-- The work that a thread which is about to panic drops. -/
def Thread.drops (t : Thread) : List Work :=
  match t.stack with
  | .call (.panic _) :: rest => rest.takeWhile (!·.isGuard)
  | _ => []

/-- The rule that no panic drops the log entry of an ending. -/
def Pool.Reported (_ : World) (t : Thread) : Prop := ∀ f ∈ t.drops, f.closing? = none

instance (w : World) (t : Thread) : Decidable (Pool.Reported w t) :=
  inferInstanceAs (Decidable (∀ f ∈ t.drops, f.closing? = none))

theorem countP_unwound (counted : Work → Bool) (guards : ∀ f, f.isGuard = true → counted f = false) (rest : List Work) :
    (rest.dropWhile (!·.isGuard)).tail.countP counted + (rest.takeWhile (!·.isGuard)).countP counted =
      rest.countP counted := by
  have whole := congrArg (List.countP counted) (List.takeWhile_append_dropWhile (p := (!·.isGuard)) (l := rest))
  rw [List.countP_append] at whole
  have guard : (rest.dropWhile (!·.isGuard)).countP counted = (rest.dropWhile (!·.isGuard)).tail.countP counted := by
    cases left : rest.dropWhile (!·.isGuard) with
    | nil => rfl
    | cons f below =>
      have guarded : f.isGuard = true := by
        have stops := List.head?_dropWhile_not (fun f : Work => !f.isGuard) rest
        simpa [left] using stops
      rw [List.countP_cons_of_neg (by simp [guards f guarded]), List.tail_cons]
  omega

namespace Telling

variable {before after : World} {work : Work} {rest stack : List Work}

/-- An ending that is granted is left to log, and what was to be logged stays so. -/
theorem countP_closes (telling : Telling before work rest after stack) (sound : ∀ r, Sound (before.response r))
    {t : Thread} (top : t.stack = work :: rest) (reported : Pool.Reported before t) (closing : Nat × OutcomeKind × Nat) :
    stack.countP (·.closes closing) =
      rest.countP (·.closes closing) + (work.ending? before).toList.count closing := by
  cases telling with
  | @granted r asked x g asks found granted =>
    have grants := Request.grant_cases (World.response_found found ▸ sound r) granted
    rw [List.countP_append, grants.countP_closes, Work.ending?_granted asks found granted, Nat.add_comm]
  | pushed pushed untold endless =>
    have none : pushed.countP (·.closes closing) = 0 := by
      refine List.countP_eq_zero.mpr fun f member closes => ?_
      cases (untold f member).symm.trans (Work.telling_of_closes closes)
    rw [List.countP_append, none, endless.unended]
    simp
  | unwound panics endless =>
    subst panics
    have none : (rest.takeWhile (!·.isGuard)).countP (·.closes closing) = 0 := by
      refine List.countP_eq_zero.mpr fun f dropped => ?_
      simp [Work.closes, reported f (by simpa [Thread.drops, top] using dropped)]
    have unwound := countP_unwound (·.closes closing) (fun f guarded => by
      cases f <;> first | rfl | cases guarded) rest
    rw [endless.unended, Option.toList_none, List.count_nil]
    omega

private theorem countP_toList {α : Type} (o : Option α) (counted : α → Bool) :
    o.toList.countP counted = if o.any counted then 1 else 0 := by
  cases o <;> simp [List.countP_cons]

theorem resolved (telling : Telling before work rest after stack) (sound : ∀ r, Sound (before.response r))
    (kind : OutcomeKind) :
    after.resolved kind = before.resolved kind + (work.ending? before).toList.countP (·.2.1 == kind) := by
  cases telling with
  | @granted r asked x g asks found granted responses =>
    have outcome := (Request.grant_cases (World.response_found found ▸ sound r) granted).outcome
      (World.response_found found ▸ sound r)
    have counts := congrArg (List.countP (·.kind == kind)) outcome
    obtain ⟨inside, here⟩ := List.getElem?_eq_some_iff.mp found
    have among := List.boole_getElem_le_countP (p := fun y : Response String Listener => y.outcome.any (·.kind == kind)) inside
    rw [List.countP_append, countP_toList, countP_toList] at counts
    rw [World.resolved, responses, List.countP_set inside, Work.ending?_granted asks found granted]
    rw [here] at among ⊢
    have ends : (asked.ending?.map fun ending => (r, ending.2.kind, x.listeners.length)).toList.countP (·.2.1 == kind) =
        (asked.ending?.toList.map Prod.snd).countP (·.kind == kind) := by
      cases asked.ending? <;> simp [List.countP_cons]
    rw [ends]
    simp only [World.resolved]
    omega
  | pushed _ _ endless | unwound _ endless =>
    rw [endless.resolved, endless.unended]
    rfl

theorem outcome (telling : Telling before work rest after stack) (sound : ∀ r, Sound (before.response r)) (r : Nat) :
    (after.response r).outcome.toList.map Outcome.kind = (before.response r).outcome.toList.map Outcome.kind ++
      ((work.ending? before).toList.filter (·.1 == r)).map (·.2.1) := by
  cases telling with
  | @granted s asked x g asks found granted responses =>
    rw [Work.ending?_granted asks found granted]
    by_cases same : s = r
    · subst same
      have outcome := (Request.grant_cases (World.response_found found ▸ sound s) granted).outcome
        (World.response_found found ▸ sound s)
      rw [Delivery.granted_here found responses, World.response_found found, outcome]
      cases asked.ending? <;> simp
    · rw [Delivery.granted_elsewhere responses same]
      cases asked.ending? <;> simp [same]
  | pushed _ _ endless | unwound _ endless =>
    rw [endless.kept.response r, endless.unended]
    simp

end Telling

private theorem first_record {entry event : LogEvent} {rest above below : List Work} (last : .record event ∉ rest)
    (work : .record entry :: rest = above ++ .record event :: below) : above = [] ∧ event = entry := by
  cases above with
  | nil =>
    cases work
    exact ⟨rfl, rfl⟩
  | cons _ above =>
    obtain ⟨-, rfl⟩ := List.cons.inj work
    simp at last

/-- The work of a granted call logs, by itself, that its response was suspended or its clock started; this
is done first, or after one timer was cancelled. -/
theorem Request.grant_records {r : Nat} {x : Response String Listener} {asked : Request} {g : Grant} {event : LogEvent}
    {above below : List Work} (granted : asked.grant r x = .ok g) (work : g.work r = above ++ .record event :: below) :
    x.state.isTerminal = false ∧ g.response.outcome = x.outcome ∧
      ((∃ timeout, event = .suspended r timeout ∧ above = []) ∨
      ∃ ms replaced, event = .timeoutSet r ms replaced ∧ (above = [] ∨ ∃ id, above = [.disarm id])) := by
  have member : .record event ∈ g.work r := by simp [work]
  have concluded {operation : Operation} {outcome : Outcome String} {generation : Option Nat}
      (granted : conclude r x operation outcome generation = .ok g) : False := by
    unfold conclude Response.resolve at granted
    split at granted <;> cases granted
    simp [Grant.work] at member
  cases asked with
  | declare window =>
    simp only [grant, Response.applyPolicy] at granted
    split at granted <;> cases granted
    simp [Grant.work] at member
  | suspend =>
    simp only [grant, Response.suspend] at granted
    split at granted
    · next pending =>
      split at granted
      all_goals
        cases granted
        obtain ⟨first, same⟩ := first_record (by simp) work
        exact ⟨by rw [pending]; rfl, rfl, .inl ⟨_, same, first⟩⟩
    · cases granted
  | setTimeout window =>
    simp only [grant, Response.setTimeout] at granted
    split at granted <;> cases granted
    next unresolved =>
    refine ⟨by simpa using unresolved, rfl, .inr ?_⟩
    cases timer : x.timer with
    | none =>
      simp only [Grant.work, timer] at work
      obtain ⟨first, same⟩ := first_record (by simp) work
      exact ⟨_, _, same, .inl first⟩
    | some id =>
      simp only [Grant.work, timer] at work
      cases above with
      | nil => cases work
      | cons top above =>
        obtain ⟨rfl, later⟩ := List.cons.inj work
        obtain ⟨rfl, same⟩ := first_record (by simp) later
        exact ⟨_, _, same, .inr ⟨id, rfl⟩⟩
  | produce result => exact (concluded granted).elim
  | cancel => exact (concluded granted).elim
  | expire window generation => exact (concluded granted).elim
  | subscribe listener =>
    cases granted
    simp [Grant.work] at member
  | keepTimer timer generation =>
    simp only [grant] at granted
    split at granted <;> cases granted <;> simp [Grant.work] at member

theorem Telling.faithful {before after : World} {work : Work} {rest stack : List Work}
    (telling : Telling before work rest after stack)
    (old : ∀ event, .record event ∈ rest → event.opening?.isSome = true) (event : LogEvent) (member : .record event ∈ stack) :
    event.opening?.isSome = true := by
  cases telling with
  | granted asks found granted =>
    rcases List.mem_append.mp member with left | inside
    · obtain ⟨above, below, work⟩ := List.append_of_mem left
      obtain ⟨-, -, ⟨timeout, rfl, -⟩ | ⟨ms, replaced, rfl, -⟩⟩ := Request.grant_records granted work <;> rfl
    · exact old event inside
  | pushed pushed untold =>
    rcases List.mem_append.mp member with new | inside
    · cases untold _ new
    · exact old event inside
  | unwound => exact old event ((List.dropWhile_sublist _).subset (List.mem_of_mem_tail member))

end Deferral.Simulation
