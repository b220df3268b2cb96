import Deferral.Http.Server

/-! What a deferred request is given when it arrives: a window, if any, and a delay, each with the
tick at which it is over. The two delays alone decide how the request ends. -/

namespace Deferral.Http
open Simulation

/-- A deferred request that a server has taken. -/
structure Ticket where
  number : Nat
  method : Method
  route : String
  params : Params
  /-- The window of its response: what the request asks for, or else what the policies say. -/
  window : Option Duration
  arrival : Nat
  deriving DecidableEq, Repr

/-- The window of a deferred request: the one it asks for, or else the one of the route's policy or of the
default policy. -/
def windowOf (table : PolicyTable) (route : String) (params : Params) : Option Duration :=
  match params.timeoutMs with
  | some ms => some (.ofMillis ms)
  | none => (table.resolve route).map SuspendPolicy.duration

theorem windowOf_eq (table : PolicyTable) (route : String) (params : Params) : windowOf table route params =
    (params.timeoutMs.map Duration.ofMillis <|> (table.policy? route).map SuspendPolicy.duration <|>
      table.default.map SuspendPolicy.duration) := by
  unfold windowOf PolicyTable.resolve
  cases params.timeoutMs <;> cases table.policy? route <;> rfl

namespace Ticket

def id (ticket : Ticket) : Uuid := .ofIndex ticket.number

def timeoutDue (ticket : Ticket) : Option Nat := ticket.window.bind (Drive.runtime.due ticket.arrival)

def workDue (ticket : Ticket) : Option Nat := Drive.runtime.due ticket.arrival (.ofMillis ticket.params.delayMs)

def result (ticket : Ticket) : Except Failure String := Server.workerResult ticket.params

/-- When and how the request ends if nobody cancels it. A window that is over together with the delay
comes first, as its timer was scheduled first. -/
def verdict (ticket : Ticket) : Option Nat × Outcome String :=
  match ticket.window with
  | some window =>
    if window.ticks Drive.runtime.tick ≤ ticket.params.delayMs then (ticket.timeoutDue, .timedOut window)
    else (ticket.workDue, .ofResult ticket.result)
  | none => (ticket.workDue, .ofResult ticket.result)

structure Decision where
  due : Nat
  status : Nat
  body : String
  deriving DecidableEq, Repr

/-- What the two delays alone decide. -/
def decision (ticket : Ticket) : Decision :=
  let work : Decision := {
    due := ticket.arrival + ticket.params.delayMs
    status := if ticket.params.fail then 500 else 200
    body := ticket.params.value.getD (if ticket.params.fail then "worker failed" else "ok") }
  match ticket.window with
  | some window =>
    if window.ticks 1000000 ≤ ticket.params.delayMs then
      { due := ticket.arrival + window.ticks 1000000, status := 503, body := "request timed out" }
    else work
  | none => work

/-- A reply to the request; it carries the request's id. -/
def replied (ticket : Ticket) (status : Nat) (body : String) : Nat × Answer :=
  (ticket.number, (Answer.reply {
    status
    body
    headers := [("cache-control", "no-store"), plainText, ("x-request-id", ticket.id.hyphenated)] }).to ticket.method)

def answer (ticket : Ticket) (outcome : Outcome String) : Nat × Answer :=
  (ticket.number, (Answer.reply (.ofOutcome ticket.id outcome)).to ticket.method)

end Ticket

namespace Ticket

variable {ticket : Ticket} {now : Nat}

theorem answer_replied (ticket : Ticket) (outcome : Outcome String) :
    ∃ status body, ticket.answer outcome = ticket.replied status body := by
  cases outcome <;> exact ⟨_, _, rfl⟩

theorem due_eq_some {arrival tick : Nat} {window : Duration} :
    Drive.runtime.due arrival window = some tick ↔
      arrival + window.ticks Drive.runtime.tick = tick ∧ tick ≤ Duration.wordMax := by
  simp only [Drive.due]
  split
  next inside => simp only [Option.some_inj]; constructor <;> omega
  next beyond => simp only [reduceCtorEq, false_iff]; omega

theorem workDue_eq_some {tick : Nat} :
    ticket.workDue = some tick ↔ ticket.arrival + ticket.params.delayMs = tick ∧ tick ≤ Duration.wordMax := by
  rw [workDue, due_eq_some, show Drive.runtime.tick = 1000000 from rfl, Duration.ticks_ofMillis]

theorem timeoutDue_eq_some {tick : Nat} :
    ticket.timeoutDue = some tick ↔ ∃ window, ticket.window = some window ∧
      ticket.arrival + window.ticks Drive.runtime.tick = tick ∧ tick ≤ Duration.wordMax := by
  simp only [timeoutDue, Option.bind_eq_some_iff, due_eq_some]

theorem verdict_of_timeout (due : ticket.timeoutDue = some now) (working : ∀ tick, ticket.workDue = some tick → now ≤ tick) :
    ∃ window, ticket.window = some window ∧ ticket.verdict = (some now, .timedOut window) := by
  obtain ⟨window, given, sum, inside⟩ := timeoutDue_eq_some.mp due
  refine ⟨window, given, ?_⟩
  have sooner : window.ticks Drive.runtime.tick ≤ ticket.params.delayMs := by
    apply Nat.le_of_not_lt
    intro longer
    have later := working (ticket.arrival + ticket.params.delayMs) (workDue_eq_some.mpr ⟨rfl, by omega⟩)
    omega
  rw [verdict, given]
  simp only
  rw [if_pos sooner, due]

theorem verdict_of_work (due : ticket.workDue = some now) (running : ∀ tick, ticket.timeoutDue = some tick → now < tick) :
    ticket.verdict = (some now, .ofResult ticket.result) := by
  obtain ⟨sum, inside⟩ := workDue_eq_some.mp due
  cases given : ticket.window with
  | none => rw [verdict, given, due]
  | some window =>
    have longer : ¬ window.ticks Drive.runtime.tick ≤ ticket.params.delayMs := by
      intro sooner
      have later := running (ticket.arrival + window.ticks Drive.runtime.tick)
        (timeoutDue_eq_some.mpr ⟨window, given, rfl, by omega⟩)
      omega
    rw [verdict, given]
    simp only
    rw [if_neg longer, due]

theorem verdict_later (timing : ∀ tick, ticket.timeoutDue = some tick → now < tick)
    (working : ∀ tick, ticket.workDue = some tick → now < tick) {tick : Nat} (ends : ticket.verdict.1 = some tick) :
    now < tick := by
  unfold verdict at ends
  split at ends
  · split at ends
    · exact timing tick ends
    · exact working tick ends
  · exact working tick ends

/-- The verdict is the decision, as long as the clock can reach it. -/
theorem verdict_eq (ticket : Ticket) :
    ticket.verdict.1 = (if ticket.decision.due ≤ Duration.wordMax then some ticket.decision.due else none) ∧
      ticket.answer ticket.verdict.2 = ticket.replied ticket.decision.status ticket.decision.body := by
  have worked : ticket.answer (.ofResult ticket.result) = ticket.replied (if ticket.params.fail then 500 else 200)
      (ticket.params.value.getD (if ticket.params.fail then "worker failed" else "ok")) := by
    unfold result Server.workerResult
    cases ticket.params.fail <;> rfl
  have due : ticket.workDue = if ticket.arrival + ticket.params.delayMs ≤ Duration.wordMax then
      some (ticket.arrival + ticket.params.delayMs) else none := by
    rw [workDue, Drive.due, show Drive.runtime.tick = 1000000 from rfl, Duration.ticks_ofMillis]
  cases given : ticket.window with
  | none => simp only [verdict, decision, given, due, worked, and_self]
  | some window =>
    have timeout : ticket.timeoutDue = if ticket.arrival + window.ticks 1000000 ≤ Duration.wordMax then
        some (ticket.arrival + window.ticks 1000000) else none := by
      rw [timeoutDue, given, Option.bind_some]
      rfl
    simp only [verdict, decision, given, show Drive.runtime.tick = 1000000 from rfl]
    split
    · exact ⟨timeout, rfl⟩
    · exact ⟨due, worked⟩

end Ticket
end Deferral.Http
