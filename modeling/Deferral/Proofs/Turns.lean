import Deferral.Proofs.Arrivals
import Deferral.Proofs.Settlement

/-! The turns of a server. A step first does what it asks for, which makes tasks ready, and then lets these
run and gives the answers. Whatever the step is, the requests it takes and the answers of its report are
accounted for in one way. -/

namespace Deferral.Http
open Simulation

namespace Server

theorem stepBound_large (n : Nat) : 12 * n + 64 ≤ stepBound (n + 1) := by
  have square : 64 * (n + 3) * 1 ≤ 64 * (n + 3) * (n + 3) := Nat.mul_le_mul_left _ (by omega)
  show 12 * n + 64 ≤ 64 * (n + 3) * (n + 3)
  omega

theorem fuel_large (s : Server) : 12 * s.exchanges.length + 64 ≤ s.fuel := stepBound_large _

theorem perm_report (answers : List (Nat × Answer)) : (answers.mergeSort fun a b => decide (a.1 ≤ b.1)).Perm answers :=
  List.mergeSort_perm _ _

/-- A report is sorted, which one answer to a request does not show. -/
theorem answersTo_report {number : Nat} {answers : List (Nat × Answer)} (few : (answersTo number answers).length ≤ 1) :
    answersTo number (answers.mergeSort fun a b => decide (a.1 ≤ b.1)) = answersTo number answers := by
  have same : (answersTo number (answers.mergeSort fun a b => decide (a.1 ≤ b.1))).Perm (answersTo number answers) :=
    (perm_report answers).filter _
  match given : answersTo number answers with
  | [] =>
    rw [given] at same
    exact List.perm_nil.mp same
  | [answer] =>
    rw [given] at same
    exact List.perm_singleton.mp same
  | _ :: _ :: _ =>
    rw [given] at few
    simp at few

theorem answersTo_append (number : Nat) (first second : List (Nat × Answer)) :
    answersTo number (first ++ second) = answersTo number first ++ answersTo number second :=
  List.filter_append ..

theorem answersTo_eq_nil {number : Nat} {answers : List (Nat × Answer)} (apart : ∀ answer ∈ answers, number ≠ answer.1) :
    answersTo number answers = [] := by
  refine List.filter_eq_nil_iff.mpr fun answer given => ?_
  simpa using (apart answer given).symm

/-- The answers that go to tickets. -/
def handled (tickets : List Ticket) (answers : List (Nat × Answer)) : List (Nat × Answer) :=
  answers.filter fun answer => tickets.any (·.number == answer.1)

theorem handled_append (tickets : List Ticket) (first second : List (Nat × Answer)) :
    handled tickets (first ++ second) = handled tickets first ++ handled tickets second :=
  List.filter_append ..

end Server

theorem Standing.told_few (ticket : Ticket) (a b : Standing) : (a.told ticket b).length ≤ 1 := by
  cases a <;> cases b <;> simp [told]

/-- The middle of a step, when what it asks for is done. The tickets include the one that it brings. -/
structure Turn (s : Server) (step : Server.Step) (tickets : List Ticket) (ends : Nat → Ticket → Nat → Outcome String → Prop)
    (base : World) (m : Server) (immediate : List (Nat × Answer)) : Prop where
  performs : ∃ result, s.perform step = (m, result, immediate)
  seen : base.events.size = s.world.events.size
  total : base.metrics.requestTotal = s.world.metrics.requestTotal
  orderly : Orderly base tickets.length
  stands : ∀ i ticket, tickets[i]? = some ticket → ∃ standing, Desk base i ticket standing ∧
    m.exchanges[i]? = some (ticket.exchange i standing) ∧ ∀ tick outcome, standing ≠ .closing tick outcome
  passed : Passed tickets ends nobody base m.world
  verdicts : ∀ i ticket tick outcome, ticket.EndsWithin m.world.now m.world.now tick outcome → ends i ticket tick outcome
  light : load m.world ≤ 2 * tickets.length + 2
  length : m.exchanges.length = tickets.length
  distinct : (tickets.map (·.number)).Nodup
  below : ∀ ticket ∈ tickets, ticket.number < m.requests
  stopped : m.running = false → m.world.registry.ids = []
  apart : ∀ answer ∈ immediate, ∀ ticket ∈ tickets, ticket.number ≠ answer.1
  asked : ∀ answer ∈ immediate, answer.1 < m.requests

namespace Turn

variable {s m : Server} {step : Server.Step} {tickets : List Ticket} {ends : Nat → Ticket → Nat → Outcome String → Prop}
  {base : World} {immediate : List (Nat × Answer)}

theorem staffed (turn : Turn s step tickets ends base m immediate) : Staffed tickets base where
  orderly := turn.orderly
  desks := by
    intro i ticket given
    obtain ⟨standing, desk, -, -⟩ := turn.stands i ticket given
    exact ⟨standing, desk⟩

theorem unhurried (turn : Turn s step tickets ends base m immediate) : Unhurried tickets base := by
  intro i ticket tick outcome given desk
  obtain ⟨standing, desk', -, still⟩ := turn.stands i ticket given
  exact still tick outcome (desk'.unique turn.orderly desk)

theorem exchanges (turn : Turn s step tickets ends base m immediate) {i : Nat} {ticket : Ticket} {standing : Standing}
    (given : tickets[i]? = some ticket) (desk : Desk base i ticket standing) :
    m.exchanges[i]? = some (ticket.exchange i standing) := by
  obtain ⟨standing', desk', exchange, -⟩ := turn.stands i ticket given
  rw [desk.unique turn.orderly desk']
  exact exchange

theorem ended (turn : Turn s step tickets ends base m immediate) :
    ∃ delivered, Ended tickets ends base m (s.step step).1 delivered ∧
      (s.step step).2.answers = (immediate ++ delivered).mergeSort fun a b => decide (a.1 ≤ b.1) := by
  obtain ⟨result, performs⟩ := turn.performs
  have large := m.fuel_large
  have length := turn.length
  have light := turn.light
  have ended := settled_step turn.staffed turn.unhurried turn.passed turn.verdicts (by omega) (by omega) length turn.distinct
    fun _ _ _ => turn.exchanges
  rw [turn.seen] at ended
  refine ⟨(m.settle.deliverAll (m.settle.world.events.toList.drop s.world.events.size)).2, ?_, ?_⟩
  · simp only [Server.step, performs]
    exact ended
  · simp only [Server.step, performs]

theorem kept (turn : Turn s step tickets ends base m immediate) : Kept (s.step step).1 tickets := by
  obtain ⟨delivered, ended, -⟩ := turn.ended
  constructor
  case staffed => exact ended.staffed
  case quiet => exact ended.quiet
  case length => exact ended.length
  case exchanges =>
    intro i ticket standing given desk
    obtain ⟨before, desk'⟩ := turn.staffed.desks i ticket given
    obtain ⟨next, settled⟩ := ended.settled i ticket before given desk'
    rw [desk.unique ended.staffed.orderly settled.desk]
    exact settled.exchange
  case distinct => exact turn.distinct
  case below =>
    rw [ended.requests]
    exact turn.below
  case stopped =>
    intro stopped
    rw [ended.running] at stopped
    apply List.eq_nil_iff_forall_not_mem.mpr
    intro i tracked
    have tracked := ended.untracked i tracked
    rw [turn.stopped stopped] at tracked
    cases tracked

theorem settled (turn : Turn s step tickets ends base m immediate) {i : Nat} {ticket : Ticket} {standing : Standing}
    (given : tickets[i]? = some ticket) (desk : Desk base i ticket standing) :
    ∃ next, Desk (s.step step).1.world i ticket next ∧ standing.Moves (ends i ticket) False next ∧
      Server.answersTo ticket.number (s.step step).2.answers = standing.told ticket next := by
  obtain ⟨delivered, ended, report⟩ := turn.ended
  obtain ⟨next, settled⟩ := ended.settled i ticket standing given desk
  have silent : Server.answersTo ticket.number immediate = [] :=
    Server.answersTo_eq_nil fun answer here => turn.apart answer here ticket (List.mem_of_getElem? given)
  have both : Server.answersTo ticket.number (immediate ++ delivered) = standing.told ticket next := by
    rw [Server.answersTo_append, silent, settled.answers, List.nil_append]
  refine ⟨next, settled.desk, settled.moves, ?_⟩
  rw [report, Server.answersTo_report, both]
  rw [both]
  exact Standing.told_few ticket standing next

theorem promptly (turn : Turn s step tickets ends base m immediate) {number : Nat}
    (apart : ∀ ticket ∈ tickets, ticket.number ≠ number) (few : immediate.length ≤ 1) :
    Server.answersTo number (s.step step).2.answers = Server.answersTo number immediate := by
  obtain ⟨delivered, ended, report⟩ := turn.ended
  have silent : Server.answersTo number delivered = [] := by
    refine Server.answersTo_eq_nil fun answer given same => ?_
    obtain ⟨ticket, member, number⟩ := ended.known answer given
    exact apart ticket member (number.trans same.symm)
  have both : Server.answersTo number (immediate ++ delivered) = Server.answersTo number immediate := by
    rw [Server.answersTo_append, silent, List.append_nil]
  rw [report, Server.answersTo_report, both]
  rw [both]
  exact Nat.le_trans (List.length_filter_le _ _) few

/-- The answers of handlers, and no others, are counted. -/
theorem counted (turn : Turn s step tickets ends base m immediate) :
    (s.step step).1.world.metrics.requestTotal =
      s.world.metrics.requestTotal + (Server.handled tickets (s.step step).2.answers).length := by
  obtain ⟨delivered, ended, report⟩ := turn.ended
  have same : (Server.handled tickets (s.step step).2.answers).Perm (Server.handled tickets (immediate ++ delivered)) := by
    rw [report]
    exact (Server.perm_report _).filter _
  have none : Server.handled tickets immediate = [] := by
    refine List.filter_eq_nil_iff.mpr fun answer given => ?_
    simpa using fun ticket member => turn.apart answer given ticket member
  have all : Server.handled tickets delivered = delivered := by
    refine List.filter_eq_self.mpr fun answer given => ?_
    simpa using ended.known answer given
  have split : Server.handled tickets (immediate ++ delivered) = delivered := by
    rw [Server.handled_append, none, all, List.nil_append]
  rw [same.length_eq, split, ended.total, turn.total]

theorem numbered (turn : Turn s step tickets ends base m immediate) {answer : Nat × Answer}
    (given : answer ∈ (s.step step).2.answers) : answer.1 < (s.step step).1.requests := by
  obtain ⟨delivered, ended, report⟩ := turn.ended
  rw [report, List.mem_mergeSort] at given
  rw [ended.requests]
  rcases List.mem_append.mp given with promptly | later
  · exact turn.asked answer promptly
  · obtain ⟨ticket, member, same⟩ := ended.known answer later
    rw [← same]
    exact turn.below ticket member

theorem untracked (turn : Turn s step tickets ends base m immediate) {i : Nat} (absent : i ∉ m.world.registry.ids) :
    i ∉ (s.step step).1.world.registry.ids := by
  obtain ⟨delivered, ended, -⟩ := turn.ended
  exact fun tracked => absent (ended.untracked i tracked)

theorem still (turn : Turn s step tickets ends base m immediate) :
    (s.step step).1.world.now = m.world.now ∧ (s.step step).1.table = m.table ∧ (s.step step).1.running = m.running ∧
      (s.step step).1.requests = m.requests := by
  obtain ⟨delivered, ended, -⟩ := turn.ended
  exact ⟨ended.now, ended.table, ended.running, ended.requests⟩

end Turn

end Deferral.Http
