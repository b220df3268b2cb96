import Deferral.Proofs.Decisions

/-! Requests in flight and reloads. What becomes of a request follows from its ticket, made out when it arrived, and
from the steps that come after; a reload is none that counts. So two runs that differ in reloads alone show the same
of it. -/

namespace Deferral.Http
open Simulation

namespace Server

def Step.isReload : Step → Bool
  | .reload _ => true
  | _ => false

theorem Step.elapses_reload {step : Step} (reload : step.isReload = true) : step.elapses = 0 := by
  cases step with
  | request | advance | disconnect | shutdown => cases reload
  | reload => rfl

theorem elapses_filter (steps : List Step) :
    ((steps.filter (!·.isReload)).map Step.elapses).sum = (steps.map Step.elapses).sum := by
  induction steps with
  | nil => rfl
  | cons step rest ih =>
    by_cases reload : step.isReload = true
    · rw [List.filter_cons_of_neg (by simpa using reload), List.map_cons, List.sum_cons, Step.elapses_reload reload, ih,
        Nat.zero_add]
    · rw [List.filter_cons_of_pos (by simpa using reload), List.map_cons, List.map_cons, List.sum_cons, List.sum_cons, ih]

instance (step : Step) (ticket : Ticket) : Decidable (step.cancels ticket) :=
  match step with
  | .request asked => inferInstanceAs (Decidable (asked.dispatch = .cancel ticket.id))
  | .shutdown => isTrue trivial
  | .advance _ | .disconnect _ | .reload _ => isFalse id

end Server

/-- Where a request stands after a step that begins at the tick `now`. -/
def Ticket.standingAfter (ticket : Ticket) (now : Nat) (standing : Standing) (step : Server.Step) : Standing :=
  match standing with
  | .waiting _ =>
    if step.cancels ticket then .answered now .cancelled
    else if step.leaves ticket then .dropped
    else
      match ticket.verdict with
      | (some tick, outcome) => if now < tick ∧ tick ≤ now + step.elapses then .answered tick outcome else .waiting false
      | (none, _) => .waiting false
  | standing => standing

def Ticket.standingAt (ticket : Ticket) : Nat → Standing → List Server.Step → Standing
  | _, standing, [] => standing
  | now, standing, step :: rest =>
    ticket.standingAt (now + step.elapses) (ticket.standingAfter now standing step) rest

/-- The tick at which the timer of a response goes off, if it has one that the clock reaches. -/
def deadline? (w : World) (r : Nat) : Option Nat :=
  (w.responses[r]?.bind (·.timer)).bind fun id => (w.sleeping.find? (·.2 == .timer id)).map Prod.fst

section Deadlines

variable {w : World} {i : Nat} {ticket : Ticket} {fresh : Bool} {x : Response String Listener}

theorem Waits.deadline (waits : Waits w i ticket fresh x) (ready : w.ready = []) : deadline? w i = ticket.timeoutDue := by
  obtain ⟨-, alarms, -, -⟩ := waits.quiet ready
  rw [deadline?, waits.found, Option.bind_some]
  cases timer : x.timer with
  | none => simp [Ticket.timeoutDue, waits.untimed timer]
  | some id =>
    obtain ⟨window, -, callback⟩ := waits.timed id timer
    have own : exchangeOf w.timers (.timer id) = some i := by
      simp [exchangeOf, callback]
    have listed : w.sleeping.find? (·.2 == .timer id) = (alarmsOf w i).find? (·.2 == .timer id) := by
      rw [alarmsOf, List.find?_filter]
      congr 1
      funext alarm
      by_cases same : alarm.2 = .timer id
      · simp [same, own]
      · simp [same]
    rw [Option.bind_some, listed, alarms, Ticket.timeoutAlarm, Ticket.workAlarm, timer]
    cases ticket.timeoutDue <;> cases ticket.workDue <;> simp

end Deadlines

section Standings

variable {s : Server} {tickets : List Ticket} {i : Nat} {ticket : Ticket} {before next : Standing} {step : Server.Step}

theorem Fares.follows (fares : Fares s step i ticket before next) (stepped : Stepped s step tickets) (kept : Kept s tickets)
    (desk : Desk s.world i ticket before) : next = ticket.standingAfter s.world.now before step := by
  have quiet := stepped.kept.quiet
  have desk' := fares.desk
  cases fares.fate with
  | cancelled fresh cancels => simp [Ticket.standingAfter, cancels]
  | left fresh leaves =>
    have spared : ¬ step.cancels ticket := by
      intro cancels
      rw [Server.Step.cancels_stays cancels] at leaves
      cases leaves
    simp [Ticket.standingAfter, spared, leaves]
  | @decided fresh tick outcome cancels leaves ends =>
    obtain ⟨verdict, -, last⟩ := ends
    rw [stepped.now] at last
    obtain ⟨x, waits⟩ := desk
    have later := waits.verdict_later kept.quiet (by rw [verdict])
    simp [Ticket.standingAfter, cancels, leaves, verdict, later, last]
  | waits fresh fresh' cancels leaves =>
    obtain ⟨x, waits⟩ := desk'
    obtain ⟨rfl, -, -, -⟩ := waits.quiet quiet
    rcases due : ticket.verdict with ⟨_ | tick, outcome⟩
    · simp [Ticket.standingAfter, cancels, leaves, due]
    · have later := waits.verdict_later quiet (by rw [due])
      rw [stepped.now] at later
      simp only [Ticket.standingAfter, cancels, leaves, due]
      rw [if_neg id, if_neg (by simp), if_neg (by omega)]
  | answered tick outcome => rfl
  | dropped => rfl

end Standings

namespace Ticket

variable {ticket : Ticket} {now : Nat} {before : Standing} {steps : List Server.Step}

theorem standingAt_closed (closed : ∀ fresh, before ≠ .waiting fresh) : ticket.standingAt now before steps = before := by
  induction steps generalizing now with
  | nil => rfl
  | cons step rest ih =>
    have still : ticket.standingAfter now before step = before := by
      cases before with
      | waiting fresh => exact absurd rfl (closed fresh)
      | closing | answered | dropped => rfl
    rw [standingAt, still]
    exact ih

theorem standingAfter_parked (step : Server.Step) (parked : before ≠ .waiting true) :
    ticket.standingAfter now before step ≠ .waiting true := by
  cases before with
  | closing | answered | dropped => exact parked
  | waiting fresh =>
    simp only [standingAfter]
    split
    · nofun
    · split
      · nofun
      · split
        · split <;> simp
        · simp

theorem standingAfter_reload {step : Server.Step} (reload : step.isReload = true) (parked : before ≠ .waiting true) :
    ticket.standingAfter now before step = before := by
  cases before with
  | closing | answered | dropped => rfl
  | waiting fresh =>
    cases step with
    | request | advance | disconnect | shutdown => cases reload
    | reload config =>
      obtain rfl : fresh = false := by simpa using parked
      have never (tick : Nat) : ¬ (now < tick ∧ tick ≤ now + Server.Step.elapses (.reload config)) := by
        rw [Server.Step.elapses_reload reload]
        omega
      have spared : ¬ (Server.Step.reload config).cancels ticket := fun cancels => cancels
      simp only [standingAfter]
      rw [if_neg spared, if_neg (by simp [Server.Step.leaves])]
      split
      · rw [if_neg (never _)]
      · rfl

theorem standingAt_filter (parked : before ≠ .waiting true) :
    ticket.standingAt now before (steps.filter (!·.isReload)) = ticket.standingAt now before steps := by
  induction steps generalizing now before with
  | nil => rfl
  | cons step rest ih =>
    by_cases reload : step.isReload = true
    · rw [List.filter_cons_of_neg (by simpa using reload), standingAt, Server.Step.elapses_reload reload,
        standingAfter_reload reload parked]
      exact ih parked
    · rw [List.filter_cons_of_pos (by simpa using reload), standingAt, standingAt]
      exact ih (standingAfter_parked step parked)

theorem leaves_of_dropped (dropped : ticket.standingAt now before steps = .dropped) (there : before ≠ .dropped) :
    .disconnect ticket.number ∈ steps := by
  induction steps generalizing now before with
  | nil => exact absurd dropped there
  | cons step rest ih =>
    by_cases here : ticket.standingAfter now before step = .dropped
    · have leaves : step.leaves ticket = true := by
        cases before with
        | closing | answered | dropped => exact absurd here there
        | waiting fresh =>
          simp only [standingAfter] at here
          split at here
          · cases here
          · split at here
            · assumption
            · split at here
              · split at here <;> cases here
              · cases here
      cases step with
      | disconnect number =>
        obtain rfl : number = ticket.number := by simpa [Server.Step.leaves] using leaves
        exact List.mem_cons_self
      | request | advance | reload | shutdown => cases leaves
    · exact List.mem_cons_of_mem _ (ih dropped here)

theorem told_through (step : Server.Step) :
    before.told ticket (ticket.standingAfter now before step) ++
        (ticket.standingAfter now before step).told ticket (ticket.standingAt now before (step :: steps)) =
      before.told ticket (ticket.standingAt now before (step :: steps)) := by
  rw [standingAt]
  cases before with
  | closing | answered | dropped => rfl
  | waiting fresh =>
    cases next : ticket.standingAfter now (.waiting fresh) step with
    | waiting fresh' => cases ticket.standingAt (now + step.elapses) (.waiting fresh') steps <;> rfl
    | closing | answered | dropped =>
      rw [standingAt_closed]
      · exact List.append_nil _
      · simp

end Ticket

section Runs

variable {s : Server} {tickets : List Ticket} {i : Nat} {ticket : Ticket} {before : Standing}

theorem Kept.standsAt (kept : Kept s tickets) (given : tickets[i]? = some ticket) (desk : Desk s.world i ticket before)
    (steps : List Server.Step) :
    ∃ tickets', Kept (s.steps steps).1 tickets' ∧
      Desk (s.steps steps).1.world i ticket (ticket.standingAt s.world.now before steps) ∧
      (s.steps steps).1.world.now = s.world.now + (steps.map Server.Step.elapses).sum ∧
      Server.answersTo ticket.number ((s.steps steps).2.flatMap (·.answers)) =
        before.told ticket (ticket.standingAt s.world.now before steps) := by
  induction steps generalizing s tickets before with
  | nil => exact ⟨tickets, kept, desk, rfl, by cases before <;> rfl⟩
  | cons step rest ih =>
    have stepped := kept.step step
    obtain ⟨next, fares⟩ := stepped.older i ticket before given desk
    obtain rfl := fares.follows stepped kept desk
    obtain ⟨tickets', kept', desk', now, told⟩ := ih stepped.kept
      ((List.getElem?_append_left (List.getElem?_eq_some_iff.mp given).1).trans given) fares.desk
    rw [stepped.now] at desk' now told
    refine ⟨tickets', kept', desk', ?_, ?_⟩
    · rw [Server.steps_cons, now, List.map_cons, List.sum_cons, Nat.add_assoc]
    · rw [Server.steps_cons, List.flatMap_cons, Server.answersTo_append, fares.told, told]
      exact Ticket.told_through step

end Runs

/-- What a run shows of a request: its answer with the tick, or its window and its deadline as long as it waits, or
that its client went away. -/
inductive Seen where
  | answered (tick : Nat) (answer : Nat × Answer)
  | pending (window : Option Duration) (deadline : Option Nat)
  | left

/-- What is seen of the request that has this number and this response when a run has come to a server, with these
reports on the way. -/
def Server.Shows (s : Server) (reports : List StepReport) (r number : Nat) : Seen → Prop
  | .answered tick answer =>
    r ∉ s.world.registry.ids ∧ answersTo number (reports.flatMap (·.answers)) = [answer] ∧
      ∃ outcome, answersOf s.world r = [⟨some tick, .answered r outcome⟩]
  | .pending window deadline =>
    r ∈ s.world.registry.ids ∧ answersTo number (reports.flatMap (·.answers)) = [] ∧
      s.world.responses[r]?.bind (·.window) = window ∧ deadline? s.world r = deadline
  | .left =>
    r ∉ s.world.registry.ids ∧ answersTo number (reports.flatMap (·.answers)) = [] ∧ answersOf s.world r = []

def Standing.seen (ticket : Ticket) : Standing → Seen
  | .answered tick outcome => .answered tick (ticket.answer outcome)
  | .waiting _ | .closing _ _ => .pending ticket.window ticket.timeoutDue
  | .dropped => .left

theorem Kept.shows {s : Server} {tickets : List Ticket} {i : Nat} {ticket : Ticket} {standing : Standing}
    {reports : List Server.StepReport} {fresh : Bool} (kept : Kept s tickets) (desk : Desk s.world i ticket standing)
    (told : Server.answersTo ticket.number (reports.flatMap (·.answers)) = (Standing.waiting fresh).told ticket standing) :
    s.Shows reports i ticket.number (standing.seen ticket) := by
  cases standing with
  | waiting fresh' =>
    obtain ⟨x, waits⟩ := desk
    refine ⟨waits.tracked kept.staffed.orderly, told, ?_, waits.deadline kept.quiet⟩
    rw [waits.found, Option.bind_some, waits.window]
  | closing tick outcome =>
    have calls := desk.2.1.calls
    simp [queueOf, kept.quiet] at calls
  | answered tick outcome => exact ⟨desk.1.untracked kept.staffed.orderly, told, outcome, desk.2⟩
  | dropped =>
    obtain ⟨⟨outcome, closed⟩, silent⟩ := desk
    exact ⟨closed.untracked kept.staffed.orderly, told, silent⟩

/-- Two runs from one server that differ in their reloads alone show the same of every request that is in flight at
their start, and come to the same time: it has been given the same answer at the same tick, or waits with the same
window and the same deadline, or its client went away in both. -/
theorem Server.unmoved_by_reloads (address : String) (config : ServiceConfig) (before first second : List Server.Step)
    (r : Nat) (exchange : Exchange) (found : ((Server.start address config).steps before).1.exchanges[r]? = some exchange)
    (waiting : r ∈ ((Server.start address config).steps before).1.world.registry.ids)
    (same : first.filter (!·.isReload) = second.filter (!·.isReload)) :
    let s := ((Server.start address config).steps before).1
    (s.steps first).1.world.now = (s.steps second).1.world.now ∧
      ∃ seen, (s.steps first).1.Shows (s.steps first).2 r exchange.request seen ∧
        (s.steps second).1.Shows (s.steps second).2 r exchange.request seen ∧
        (seen = .left → .disconnect exchange.request ∈ first ∧ .disconnect exchange.request ∈ second) := by
  intro s
  obtain ⟨tickets, kept⟩ := (Kept.start address config).steps before
  obtain ⟨ticket, fresh, x, given, waits⟩ := kept.staffed.waiting waiting
  obtain ⟨rfl, -, -, -⟩ := waits.quiet kept.quiet
  have desk : Desk s.world r ticket (.waiting false) := ⟨x, waits⟩
  have number : exchange.request = ticket.number := by
    have stands := kept.exchanges r ticket _ given desk
    rw [found, Option.some_inj] at stands
    rw [stands]
    rfl
  have agree : ticket.standingAt s.world.now (.waiting false) first = ticket.standingAt s.world.now (.waiting false) second := by
    rw [← Ticket.standingAt_filter (by simp), same, Ticket.standingAt_filter (by simp)]
  obtain ⟨tickets₁, kept₁, desk₁, now₁, told₁⟩ := kept.standsAt given desk first
  obtain ⟨tickets₂, kept₂, desk₂, now₂, told₂⟩ := kept.standsAt given desk second
  rw [← agree] at desk₂ told₂
  refine ⟨?_, (ticket.standingAt s.world.now (.waiting false) first).seen ticket, ?_, ?_, ?_⟩
  · rw [now₁, now₂, ← Server.elapses_filter first, same, Server.elapses_filter second]
  · exact number ▸ kept₁.shows desk₁ told₁
  · exact number ▸ kept₂.shows desk₂ told₂
  · intro left
    have dropped : ticket.standingAt s.world.now (.waiting false) first = .dropped := by
      cases stands : ticket.standingAt s.world.now (.waiting false) first with
      | dropped => rfl
      | waiting | closing | answered =>
        rw [stands] at left
        cases left
    have there : Standing.waiting false ≠ .dropped := nofun
    rw [number]
    exact ⟨Ticket.leaves_of_dropped dropped there, Ticket.leaves_of_dropped (agree.symm.trans dropped) there⟩

/-- A request with the default window waits while the policies are reloaded in one run and not in the other. -/
theorem Server.unmoved_by_reloads_shorter :
    let before : List Server.Step := [.request ⟨.get, "/deferred/slow?delay_ms=9".toUTF8.toList⟩]
    let shorter : ServiceConfig := { timeouts := { defaultSecs := some 1 }, routes := [⟨"slow", ⟨2, .milliseconds⟩⟩] }
    let s := ((Server.start "127.0.0.1:8080" {}).steps before).1
    ∃ exchange, s.exchanges[0]? = some exchange ∧ 0 ∈ s.world.registry.ids ∧
      ∃ seen, (s.steps [.reload shorter, .advance 5]).1.Shows (s.steps [.reload shorter, .advance 5]).2 0 exchange.request seen ∧
        (s.steps [.advance 5]).1.Shows (s.steps [.advance 5]).2 0 exchange.request seen := by
  intro before shorter s
  have found : s.exchanges[0]? = some ⟨0, .get, "slow", 1, .waiting⟩ := by decide +kernel
  have waiting : 0 ∈ s.world.registry.ids := by decide +kernel
  obtain ⟨-, seen, first, second, -⟩ := Server.unmoved_by_reloads "127.0.0.1:8080" {} before
    [.reload shorter, .advance 5] [.advance 5] 0 _ found waiting rfl
  exact ⟨_, found, waiting, seen, first, second⟩

end Deferral.Http
