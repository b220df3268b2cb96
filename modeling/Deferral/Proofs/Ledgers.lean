import Deferral.Proofs.ServerSteps

/-! Ledgers of what a server was asked and what it answered. They are kept from outside, step by step, and what
the server says of itself agrees with them. -/

namespace Deferral.Http
open Simulation

/-- What is known of a server from the steps that it made and the answers that it gave. -/
structure Ledger where
  table : PolicyTable
  running : Bool := true
  requests : Nat := 0
  now : Nat := 0
  /-- The requests that reached the deferred handler. -/
  taken : List Ticket := []
  /-- Those of them that have been neither answered nor disconnected. -/
  inFlight : List Ticket := []
  /-- Those whose clients went away while they were in flight. -/
  disconnected : List Ticket := []
  answers : List (Nat × Answer) := []

namespace Ledger

def brought (ledger : Ledger) (step : Server.Step) : List Ticket :=
  step.brings ledger.table ledger.running ledger.requests ledger.now

def receive (ledger : Ledger) (step : Server.Step) : Ledger :=
  { ledger with taken := ledger.taken ++ ledger.brought step, inFlight := ledger.inFlight ++ ledger.brought step }

/-- The ledger after a step and the answers that it gave. -/
def enter (ledger : Ledger) (step : Server.Step) (answers : List (Nat × Answer)) : Ledger where
  table := step.tableAfter ledger.table
  running := ledger.running && !step.stops
  requests := ledger.requests + step.requests
  now := ledger.now + step.elapses
  taken := (ledger.receive step).taken
  inFlight := (ledger.receive step).inFlight.filter fun ticket =>
    !step.leaves ticket && (Server.answersTo ticket.number answers).isEmpty
  disconnected := (ledger.receive step).disconnected ++ (ledger.receive step).inFlight.filter step.leaves
  answers := (ledger.receive step).answers ++ answers

/-- The ledger of a server that was started with a configuration and has made these steps. -/
def ofReports (config : ServiceConfig) (steps : List Server.Step) (reports : List Server.StepReport) : Ledger :=
  (steps.zip reports).foldl (fun ledger (step, report) => ledger.enter step report.answers) { table := .ofConfig config }

/-- What the ledger holds of a request that is where it is. -/
def Shows (ledger : Ledger) (ticket : Ticket) : Standing → Prop
  | .waiting _ => ticket ∈ ledger.inFlight ∧ ticket ∉ ledger.disconnected ∧ Server.answersTo ticket.number ledger.answers = []
  | .closing _ _ => False
  | .answered _ outcome => ticket ∉ ledger.inFlight ∧ ticket ∉ ledger.disconnected ∧
      Server.answersTo ticket.number ledger.answers = [ticket.answer outcome]
  | .dropped => ticket ∉ ledger.inFlight ∧ ticket ∈ ledger.disconnected ∧ Server.answersTo ticket.number ledger.answers = []

theorem Shows.entered {ledger : Ledger} {step : Server.Step} {ticket : Ticket} {before next : Standing} {first last : Nat}
    {answers : List (Nat × Answer)} (shown : (ledger.receive step).Shows ticket before)
    (fate : step.Fate ticket first last before next) (told : Server.answersTo ticket.number answers = before.told ticket next) :
    (ledger.enter step answers).Shows ticket next := by
  have flying : ticket ∈ (ledger.enter step answers).inFlight ↔ ticket ∈ (ledger.receive step).inFlight ∧
      step.leaves ticket = false ∧ before.told ticket next = [] := by
    simp [enter, told]
  have gone : ticket ∈ (ledger.enter step answers).disconnected ↔ ticket ∈ (ledger.receive step).disconnected ∨
      ticket ∈ (ledger.receive step).inFlight ∧ step.leaves ticket = true := by
    simp [enter]
  have answered : Server.answersTo ticket.number (ledger.enter step answers).answers =
      Server.answersTo ticket.number (ledger.receive step).answers ++ before.told ticket next := by
    rw [← told]
    exact Server.answersTo_append ..
  cases fate with
  | cancelled fresh cancels =>
    have stays := Server.Step.cancels_stays cancels
    obtain ⟨inside, kept, silent⟩ := shown
    simp [Shows, flying, gone, answered, Standing.told, kept, silent, stays]
  | left fresh leaves =>
    obtain ⟨inside, kept, silent⟩ := shown
    simp [Shows, flying, gone, answered, Standing.told, inside, silent, leaves]
  | decided fresh cancels leaves ends =>
    obtain ⟨inside, kept, silent⟩ := shown
    simp [Shows, flying, gone, answered, Standing.told, kept, silent, leaves]
  | waits fresh fresh' cancels leaves =>
    obtain ⟨inside, kept, silent⟩ := shown
    simp [Shows, flying, gone, answered, Standing.told, inside, kept, silent, leaves]
  | answered tick outcome =>
    obtain ⟨outside, kept, given⟩ := shown
    simp [Shows, flying, gone, answered, Standing.told, outside, kept, given]
  | dropped =>
    obtain ⟨outside, kept, silent⟩ := shown
    simp [Shows, flying, gone, answered, Standing.told, outside, kept, silent]

/-- A ledger and the server that it is about. -/
structure Follows (ledger : Ledger) (s : Server) : Prop where
  kept : Kept s ledger.taken
  table : ledger.table = s.table
  running : ledger.running = s.running
  requests : ledger.requests = s.requests
  now : ledger.now = s.world.now
  shows : ∀ i ticket standing, ledger.taken[i]? = some ticket → Desk s.world i ticket standing → ledger.Shows ticket standing
  inFlight : ledger.inFlight.Sublist ledger.taken
  disconnected : ledger.disconnected ⊆ ledger.taken
  numbered : ∀ answer ∈ ledger.answers, answer.1 < s.requests
  counted : s.world.metrics.requestTotal = (Server.handled ledger.taken ledger.answers).length

namespace Follows

variable {ledger : Ledger} {s : Server}

theorem start (address : String) (config : ServiceConfig) :
    Follows { table := .ofConfig config } (Server.start address config) where
  kept := .start address config
  table := rfl
  running := rfl
  requests := rfl
  now := rfl
  shows := by simp
  inFlight := List.nil_sublist _
  disconnected := List.nil_subset _
  numbered := by simp
  counted := rfl

theorem brought_eq (follows : Follows ledger s) (step : Server.Step) :
    ledger.brought step = s.brought step := by
  rw [brought, follows.table, follows.running, follows.requests, follows.now]
  rfl

theorem fresh (follows : Follows ledger s) {step : Server.Step} {ticket : Ticket} (member : ticket ∈ ledger.brought step) :
    ticket ∉ ledger.taken ∧ Server.answersTo ticket.number ledger.answers = [] := by
  have number : ticket.number = s.requests := by
    rw [follows.brought_eq] at member
    exact Server.number_brought member
  refine ⟨fun old => ?_, Server.answersTo_eq_nil fun answer given same => ?_⟩
  · have below := follows.kept.below ticket old
    omega
  · have below := follows.numbered answer given
    omega

theorem received (follows : Follows ledger s) {step : Server.Step} {i : Nat} {ticket : Ticket} {standing : Standing}
    (given : ledger.taken[i]? = some ticket) (desk : Desk s.world i ticket standing) :
    (ledger.receive step).Shows ticket standing := by
  have old : ticket ∉ ledger.brought step := fun new => (follows.fresh new).1 (List.mem_of_getElem? given)
  have same : ticket ∈ (ledger.receive step).inFlight ↔ ticket ∈ ledger.inFlight := by
    rw [show (ledger.receive step).inFlight = ledger.inFlight ++ ledger.brought step from rfl, List.mem_append]
    exact or_iff_left old
  have shown := follows.shows i ticket standing given desk
  cases standing with
  | closing => exact shown.elim
  | waiting => exact ⟨same.mpr shown.1, shown.2⟩
  | answered | dropped => exact ⟨fun member => shown.1 (same.mp member), shown.2⟩

theorem received_new (follows : Follows ledger s) {step : Server.Step} {ticket : Ticket} (member : ticket ∈ ledger.brought step)
    (fresh : Bool) : (ledger.receive step).Shows ticket (.waiting fresh) := by
  obtain ⟨new, silent⟩ := follows.fresh member
  exact ⟨List.mem_append_right _ member, fun old => new (follows.disconnected old), silent⟩

theorem shows_entered (follows : Follows ledger s) {step : Server.Step} {i : Nat} {ticket : Ticket} {standing : Standing}
    (given : (ledger.receive step).taken[i]? = some ticket) (desk : Desk (s.step step).1.world i ticket standing) :
    (ledger.enter step (s.step step).2.answers).Shows ticket standing := by
  have stepped := follows.kept.step step
  have orderly := stepped.kept.staffed.orderly
  have older (given : ledger.taken[i]? = some ticket) : (ledger.enter step (s.step step).2.answers).Shows ticket standing := by
    obtain ⟨before, desk'⟩ := follows.kept.staffed.desks i ticket given
    obtain ⟨next, fares⟩ := stepped.older i ticket before given desk'
    rw [desk.unique orderly fares.desk]
    exact (follows.received given desk').entered fares.fate fares.told
  have taken : (ledger.receive step).taken = ledger.taken ++ ledger.brought step := rfl
  have brought := follows.brought_eq step
  rcases s.brought_cases step with none | ⟨new, one⟩
  · rw [taken, brought, none, List.append_nil] at given
    exact older given
  · rw [taken, brought, one] at given
    rcases getElem?_snoc given with given | ⟨rfl, rfl⟩
    · exact older given
    · obtain ⟨next, fares⟩ := stepped.newer ticket (by rw [one]; exact List.mem_singleton_self ticket)
      rw [desk.unique orderly fares.desk]
      exact (follows.received_new (by rw [brought, one]; exact List.mem_singleton_self ticket) true).entered fares.fate fares.told

theorem handled_received (follows : Follows ledger s) (step : Server.Step) :
    Server.handled (ledger.receive step).taken ledger.answers = Server.handled ledger.taken ledger.answers := by
  apply List.filter_congr
  intro answer given
  have older := follows.numbered answer given
  rw [show (ledger.receive step).taken = ledger.taken ++ ledger.brought step from rfl, List.any_append, Bool.or_eq_left_iff_imp]
  intro new
  obtain ⟨ticket, member, same⟩ := List.any_eq_true.mp new
  rw [follows.brought_eq] at member
  have number := Server.number_brought member
  have same : ticket.number = answer.1 := by simpa using same
  omega

theorem step (follows : Follows ledger s) (step : Server.Step) :
    Follows (ledger.enter step (s.step step).2.answers) (s.step step).1 := by
  have stepped := follows.kept.step step
  have taken : (ledger.enter step (s.step step).2.answers).taken = ledger.taken ++ s.brought step := by
    rw [← follows.brought_eq]
    rfl
  constructor
  case kept =>
    rw [taken]
    exact stepped.kept
  case table => exact (congrArg step.tableAfter follows.table).trans stepped.table.symm
  case running => exact (congrArg (· && !step.stops) follows.running).trans stepped.running.symm
  case requests => exact (congrArg (· + step.requests) follows.requests).trans stepped.requests.symm
  case now => exact (congrArg (· + step.elapses) follows.now).trans stepped.now.symm
  case shows => exact fun i ticket standing given desk => follows.shows_entered given desk
  case inFlight =>
    exact List.filter_sublist.trans (follows.inFlight.append_right _)
  case disconnected =>
    intro ticket member
    rcases List.mem_append.mp member with old | new
    · exact List.mem_append_left _ (follows.disconnected old)
    · exact (follows.inFlight.append_right _).subset (List.mem_filter.mp new).1
  case numbered =>
    intro answer given
    rcases List.mem_append.mp given with old | new
    · rw [stepped.requests]
      exact Nat.lt_add_right _ (follows.numbered answer old)
    · exact stepped.numbered answer new
  case counted =>
    have before : Server.handled (ledger.taken ++ s.brought step) ledger.answers =
        Server.handled ledger.taken ledger.answers := by
      rw [← follows.brought_eq]
      exact follows.handled_received step
    rw [stepped.counted, follows.counted, taken]
    show _ = (Server.handled _ (ledger.answers ++ (s.step step).2.answers)).length
    rw [Server.handled_append, before, List.length_append]

theorem steps (follows : Follows ledger s) (steps : List Server.Step) :
    Follows ((steps.zip (s.steps steps).2).foldl (fun ledger (step, report) => ledger.enter step report.answers) ledger)
      (s.steps steps).1 := by
  induction steps generalizing ledger s with
  | nil => exact follows
  | cons step rest ih => exact ih (follows.step step)

end Follows

end Ledger

end Deferral.Http
