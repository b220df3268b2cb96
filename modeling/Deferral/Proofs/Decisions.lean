import Deferral.Proofs.ServerSteps

/-! Worker against timeout. A request that nobody cancels is answered when the first of its two delays is over,
whatever else the server does. -/

namespace Deferral.Http
open Simulation

namespace Server

/-- A step that may end a request before its delays do. -/
def Step.harms (step : Step) (number : Nat) : Prop :=
  match step with
  | .request asked => asked.dispatch = .cancel (.ofIndex number)
  | .disconnect other => other = number
  | .shutdown => True
  | .advance _ | .reload _ => False

/-- As long as a request is not answered, no step harms it. -/
def Spares (s : Server) (number : Nat) (steps : List Step) : Prop :=
  ∀ done step rest, steps = done ++ step :: rest → answersTo number ((s.steps done).2.flatMap (·.answers)) = [] →
    ¬ step.harms number

theorem Step.harms_iff {step : Step} {ticket : Ticket} :
    step.harms ticket.number ↔ step.cancels ticket ∨ step.leaves ticket = true := by
  cases step <;> simp [harms, cancels, leaves, Ticket.id]

theorem steps_cons (s : Server) (step : Step) (rest : List Step) :
    s.steps (step :: rest) = (((s.step step).1.steps rest).1, (s.step step).2 :: ((s.step step).1.steps rest).2) := rfl

end Server

def Ticket.Decided (ticket : Ticket) (now : Nat) (told : List (Nat × Answer)) : Standing → Prop
  | .waiting _ => told = []
  | .answered tick outcome => ticket.verdict = (some tick, outcome) ∧ tick ≤ now ∧ told = [ticket.answer outcome]
  | _ => False

section Runs

variable {s : Server} {tickets : List Ticket} {i : Nat} {ticket : Ticket} {before : Standing} {told : List (Nat × Answer)}

theorem Kept.steps (kept : Kept s tickets) (steps : List Server.Step) : ∃ more, Kept (s.steps steps).1 (tickets ++ more) := by
  induction steps generalizing s tickets with
  | nil => exact ⟨[], by rw [List.append_nil]; exact kept⟩
  | cons step rest ih =>
    obtain ⟨more, kept⟩ := ih (kept.step step).kept
    rw [List.append_assoc] at kept
    exact ⟨_, kept⟩

theorem Ticket.Decided.step {next : Standing} {step : Server.Step} (decided : ticket.Decided s.world.now told before)
    (fares : Fares s step i ticket before next) (forward : s.world.now ≤ (s.step step).1.world.now)
    (spared : told = [] → ¬ step.harms ticket.number) :
    ticket.Decided (s.step step).1.world.now (told ++ Server.answersTo ticket.number (s.step step).2.answers) next := by
  rw [fares.told]
  cases fares.fate with
  | cancelled fresh cancels => exact absurd (Server.Step.harms_iff.mpr (.inl cancels)) (spared decided)
  | left fresh leaves => exact absurd (Server.Step.harms_iff.mpr (.inr leaves)) (spared decided)
  | decided fresh cancels leaves ends =>
    obtain ⟨verdict, first, last⟩ := ends
    have silent : told = [] := decided
    rw [silent]
    exact ⟨verdict, last, rfl⟩
  | waits =>
    have silent : told = [] := decided
    rw [silent]
    rfl
  | answered tick outcome =>
    obtain ⟨verdict, past, once⟩ := decided
    exact ⟨verdict, Nat.le_trans past forward, by rw [once]; rfl⟩
  | dropped => exact decided.elim

theorem Kept.decided (kept : Kept s tickets) (given : tickets[i]? = some ticket) (desk : Desk s.world i ticket before)
    (decided : ticket.Decided s.world.now told before) (steps : List Server.Step)
    (spared : ∀ done step rest, steps = done ++ step :: rest →
      told ++ Server.answersTo ticket.number ((s.steps done).2.flatMap (·.answers)) = [] → ¬ step.harms ticket.number) :
    ∃ tickets' after, Kept (s.steps steps).1 tickets' ∧ tickets'[i]? = some ticket ∧
      Desk (s.steps steps).1.world i ticket after ∧
      (s.steps steps).1.world.now = s.world.now + (steps.map Server.Step.elapses).sum ∧
      ticket.Decided (s.steps steps).1.world.now
        (told ++ Server.answersTo ticket.number ((s.steps steps).2.flatMap (·.answers))) after := by
  induction steps generalizing s tickets before told with
  | nil => exact ⟨tickets, before, kept, given, desk, rfl, by simpa [Server.steps, Server.answersTo] using decided⟩
  | cons step rest ih =>
    have stepped := kept.step step
    obtain ⟨next, fares⟩ := stepped.older i ticket before given desk
    have moves := decided.step fares (by rw [stepped.now]; exact Nat.le_add_right ..)
      fun silent => spared [] step rest rfl (by rw [silent]; rfl)
    obtain ⟨tickets', after, kept', given', desk', now, decided'⟩ := ih stepped.kept
      ((List.getElem?_append_left (List.getElem?_eq_some_iff.mp given).1).trans given) fares.desk moves (by
        intro done later rest' split silent
        refine spared (step :: done) later rest' (congrArg (step :: ·) split) ?_
        rw [Server.steps_cons, List.flatMap_cons, Server.answersTo_append, ← List.append_assoc]
        exact silent)
    refine ⟨tickets', after, kept', given', desk', ?_, ?_⟩
    · rw [Server.steps_cons, now, stepped.now, List.map_cons, List.sum_cons, Nat.add_assoc]
    · rw [Server.steps_cons, List.flatMap_cons, Server.answersTo_append, ← List.append_assoc]
      exact decided'

theorem Ticket.Decided.concludes {standing : Standing} (decided : ticket.Decided s.world.now told standing) (kept : Kept s tickets)
    (given : tickets[i]? = some ticket) (desk : Desk s.world i ticket standing) :
    told = (if ticket.decision.due ≤ s.world.now ∧ ticket.decision.due ≤ Duration.wordMax then
      [ticket.replied ticket.decision.status ticket.decision.body] else []) ∧
    (ticket.decision.due ≤ s.world.now ∧ ticket.decision.due ≤ Duration.wordMax → ∃ r outcome, s.idOf r = ticket.id ∧
      ticket.answer outcome = ticket.replied ticket.decision.status ticket.decision.body ∧
      ⟨some ticket.decision.due, .answered r outcome⟩ ∈ s.world.events) := by
  obtain ⟨due, reply⟩ := ticket.verdict_eq
  cases standing with
  | closing | dropped => exact decided.elim
  | waiting fresh =>
    obtain ⟨x, waits⟩ := desk
    have early : ¬ (ticket.decision.due ≤ s.world.now ∧ ticket.decision.due ≤ Duration.wordMax) := by
      rintro ⟨past, inside⟩
      rw [if_pos inside] at due
      have later := waits.verdict_later kept.quiet due
      omega
    rw [if_neg early]
    exact ⟨decided, fun reached => absurd reached early⟩
  | answered tick outcome =>
    obtain ⟨verdict, past, once⟩ := decided
    rw [verdict] at due reply
    obtain ⟨inside, same⟩ : ticket.decision.due ≤ Duration.wordMax ∧ ticket.decision.due = tick := by
      split at due
      · exact ⟨‹_›, (Option.some.inj due).symm⟩
      · cases due
    rw [same] at inside ⊢
    refine ⟨by rw [if_pos ⟨past, inside⟩, once, reply], fun _ => ⟨i, outcome, ?_, reply, ?_⟩⟩
    · obtain ⟨_, -, exchange, -⟩ := kept.exchange given
      exact Server.idOf_eq exchange
    · have recorded : (⟨some tick, .answered i outcome⟩ : Stamped) ∈ answersOf s.world i := by
        rw [desk.2]
        exact List.mem_singleton_self _
      exact Array.mem_toList_iff.mp (List.mem_filter.mp recorded).1

theorem Kept.decides (kept : Kept s tickets) {first : Server.Step}
    (brings : s.brought first = [ticket]) (after : List Server.Step)
    (spared : s.Spares ticket.number (first :: after)) :
    ∃ tickets' i standing, Kept (s.steps (first :: after)).1 tickets' ∧ tickets'[i]? = some ticket ∧
      Desk (s.steps (first :: after)).1.world i ticket standing ∧
      (s.steps (first :: after)).1.world.now = s.world.now + ((first :: after).map Server.Step.elapses).sum ∧
      ticket.Decided (s.steps (first :: after)).1.world.now
        (Server.answersTo ticket.number ((s.steps (first :: after)).2.flatMap (·.answers))) standing := by
  have stepped := kept.step first
  obtain ⟨next, fares⟩ := stepped.newer ticket (by rw [brings]; exact List.mem_singleton_self ticket)
  have waits : ticket.Decided s.world.now [] (.waiting true) := rfl
  have begun := waits.step fares (by rw [stepped.now]; exact Nat.le_add_right ..) fun silent => spared [] first after rfl silent
  have given : (tickets ++ s.brought first)[tickets.length]? = some ticket := by
    rw [brings]
    exact List.getElem?_concat_length
  obtain ⟨tickets', standing, kept', given', desk, now, decided⟩ := stepped.kept.decided given fares.desk begun after (by
    intro done step rest split silent
    refine spared (first :: done) step rest (congrArg (first :: ·) split) ?_
    rw [Server.steps_cons, List.flatMap_cons, Server.answersTo_append]
    exact silent)
  refine ⟨tickets', tickets.length, standing, kept', given', desk, ?_, ?_⟩
  · rw [Server.steps_cons, now, stepped.now, List.map_cons, List.sum_cons, Nat.add_assoc]
  · rw [Server.steps_cons, List.flatMap_cons, Server.answersTo_append]
    exact decided

end Runs

/-- Worker against timeout is decided by the two delays alone: of a request that is spared, whatever else is in
flight, the answer is given at the millisecond of the decision, and not before. -/
theorem Server.decided_by_delays (address : String) (config : ServiceConfig) (before after : List Server.Step) (request : Request)
    (route : String) (params : Params) (running : ((Server.start address config).steps before).1.running = true)
    (dispatch : request.dispatch = .deferred route params)
    (spared : ((Server.start address config).steps before).1.Spares ((Server.start address config).steps before).1.requests
      (.request request :: after)) :
    let s := ((Server.start address config).steps before).1
    let ticket : Ticket := {
      number := s.requests
      method := request.method
      route
      params
      window := params.timeoutMs.map Duration.ofMillis <|> (s.table.policy? route).map SuspendPolicy.duration <|>
        s.table.default.map SuspendPolicy.duration
      arrival := s.world.now }
    let run := s.steps (.request request :: after)
    let elapsed := ticket.decision.due ≤ s.world.now + (after.map Server.Step.elapses).sum ∧
      ticket.decision.due ≤ Duration.wordMax
    Server.answersTo s.requests (run.2.flatMap (·.answers)) =
        (if elapsed then [ticket.replied ticket.decision.status ticket.decision.body] else []) ∧
      (elapsed → ∃ r outcome, run.1.idOf r = ticket.id ∧
        ticket.answer outcome = ticket.replied ticket.decision.status ticket.decision.body ∧
        ⟨some ticket.decision.due, .answered r outcome⟩ ∈ run.1.world.events) := by
  intro s ticket run elapsed
  obtain ⟨tickets, kept⟩ := (Kept.start address config).steps before
  have brings : s.brought (.request request) = [ticket] := by
    have running : s.running = true := running
    simp only [Server.brought, Server.Step.brings, running, dispatch, windowOf_eq]
    rfl
  obtain ⟨tickets', i, standing, kept', given, desk, now, decided⟩ := kept.decides brings after spared
  have concludes := decided.concludes kept' given desk
  have clock : (s.steps (.request request :: after)).1.world.now = s.world.now + (after.map Server.Step.elapses).sum := by
    rw [now, List.map_cons, List.sum_cons]
    exact congrArg (s.world.now + ·) (Nat.zero_add _)
  rw [clock] at concludes
  exact concludes

/-- A worker and a timeout that are due together, beside a slower request: the timeout is first. -/
theorem Server.decided_by_delays_tied :
    let s := ((Server.start "127.0.0.1:8080" {}).steps [.request ⟨.get, "/deferred/slow?delay_ms=9".toUTF8.toList⟩]).1
    let request : Request := ⟨.get, "/deferred/tied?delay_ms=3&timeout_ms=3".toUTF8.toList⟩
    s.running = true ∧ request.dispatch = .deferred "tied" { delayMs := 3, timeoutMs := some 3 } ∧
      s.Spares s.requests [.request request, .advance 3] ∧
      Server.answersTo s.requests ((s.steps [.request request, .advance 3]).2.flatMap (·.answers)) =
        [(1, .reply {
          status := 503
          headers := [("cache-control", "no-store"), plainText, ("x-request-id", "7d3a51c8-f09b-4e62-82d4-000000000001")]
          body := "request timed out" })] := by
  intro s request
  have running : s.running = true := by decide +kernel
  have dispatch : request.dispatch = .deferred "tied" { delayMs := 3, timeoutMs := some 3 } := by decide +kernel
  have spared : s.Spares s.requests [.request request, .advance 3] := by
    intro done step rest split _ harms
    rcases done with _ | ⟨first, _ | ⟨second, more⟩⟩
    · obtain ⟨rfl, -⟩ := List.cons.inj split
      have cancels : request.dispatch = .cancel (.ofIndex s.requests) := harms
      rw [dispatch] at cancels
      cases cancels
    · obtain ⟨rfl, -⟩ := List.cons.inj (List.cons.inj split).2
      exact harms
    · simp at split
  have decided := Server.decided_by_delays "127.0.0.1:8080" {} [.request ⟨.get, "/deferred/slow?delay_ms=9".toUTF8.toList⟩]
    [.advance 3] request "tied" { delayMs := 3, timeoutMs := some 3 } running dispatch spared
  exact ⟨running, dispatch, spared, decided.1.trans (by decide +kernel)⟩

end Deferral.Http
