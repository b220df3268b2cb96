import Deferral.Proofs.Cancellations
import Deferral.Proofs.Replies

/-! How a step of the server ends. Everything that became ready runs, and each handler that has its
outcome is answered within the step, so that between two steps a request waits, or has been answered, or
has lost its client. -/

namespace Deferral.Http
open Simulation

def Standing.progress : Standing → Progress
  | .waiting _ | .closing _ _ => .waiting
  | .answered _ _ => .answered
  | .dropped => .gone

def Ticket.exchange (ticket : Ticket) (i : Nat) (standing : Standing) : Exchange where
  request := ticket.number
  method := ticket.method
  route := ticket.route
  handler := 2 * i + 1
  progress := standing.progress

/-- Between the desks' standings before and after a step, what the client is told. -/
def Standing.told (ticket : Ticket) : Standing → Standing → List (Nat × Answer)
  | .waiting _, .answered _ outcome => [ticket.answer outcome]
  | _, _ => []

theorem Closed.unique {w : World} {i : Nat} {ticket : Ticket} {a b : Outcome String} {stage stage' : WaitStage}
    (first : Closed w i ticket a stage) (second : Closed w i ticket b stage') : a = b ∧ stage = stage' := by
  obtain ⟨x, found, -, outcome, -⟩ := first.response
  obtain ⟨y, found', -, outcome', -⟩ := second.response
  rw [found, Option.some_inj] at found'
  subst found'
  rw [outcome, Option.some_inj] at outcome'
  have handler := first.handler
  rw [second.handler, Option.some_inj, Waiter.mk.injEq] at handler
  exact ⟨outcome', handler.2.2.symm⟩

theorem Desk.unique {w : World} {i count : Nat} {ticket : Ticket} {a b : Standing} (orderly : Orderly w count)
    (first : Desk w i ticket a) (second : Desk w i ticket b) : a = b := by
  cases a with
  | waiting fresh =>
    obtain ⟨x, waits⟩ := first
    obtain ⟨fresh', rfl⟩ := waits.unique orderly second
    obtain ⟨y, waits'⟩ := second
    have worker := waits.worker
    rw [waits'.worker, Option.some_inj, Waiter.mk.injEq] at worker
    have stages := worker.2.2
    cases fresh <;> cases fresh' <;> simp_all
  | closing tick outcome =>
    cases b with
    | waiting fresh =>
      obtain ⟨x, waits⟩ := second
      obtain ⟨fresh, same⟩ := waits.unique orderly first
      cases same
    | closing tick' outcome' =>
      obtain ⟨rfl, closed, -⟩ := first
      obtain ⟨rfl, closed', -⟩ := second
      rw [(closed.unique closed').1]
    | answered tick' outcome' => cases (first.2.1.unique second.1).2
    | dropped =>
      obtain ⟨⟨outcome', closed'⟩, -⟩ := second
      cases (first.2.1.unique closed').2
  | answered tick outcome =>
    cases b with
    | waiting fresh =>
      obtain ⟨x, waits⟩ := second
      obtain ⟨fresh, same⟩ := waits.unique orderly first
      cases same
    | closing tick' outcome' => cases (second.2.1.unique first.1).2
    | answered tick' outcome' =>
      have same := first.2
      rw [second.2] at same
      simp_all
    | dropped =>
      have same := first.2
      rw [second.2] at same
      cases same
  | dropped =>
    cases b with
    | waiting fresh =>
      obtain ⟨x, waits⟩ := second
      obtain ⟨fresh, same⟩ := waits.unique orderly first
      cases same
    | closing tick' outcome' =>
      obtain ⟨⟨outcome, closed⟩, -⟩ := first
      cases (second.2.1.unique closed).2
    | answered tick' outcome' =>
      have same := first.2
      rw [second.2] at same
      cases same
    | dropped => rfl

/-- What holds of a server between two steps. -/
structure Kept (s : Server) (tickets : List Ticket) : Prop where
  staffed : Staffed tickets s.world
  quiet : s.world.ready = []
  length : s.exchanges.length = tickets.length
  exchanges : ∀ i ticket standing, tickets[i]? = some ticket → Desk s.world i ticket standing →
    s.exchanges[i]? = some (ticket.exchange i standing)
  distinct : (tickets.map (·.number)).Nodup
  below : ∀ ticket ∈ tickets, ticket.number < s.requests
  stopped : s.running = false → s.world.registry.ids = []

theorem distinct_of_tickets {exchanges : List Exchange} {tickets : List Ticket} (length : exchanges.length = tickets.length)
    (stand : ∀ (i : Nat) (ticket : Ticket), tickets[i]? = some ticket →
      ∃ e : Exchange, exchanges[i]? = some e ∧ e.request = ticket.number)
    (distinct : (tickets.map (·.number)).Nodup) : Server.Distinct exchanges := by
  intro i j a b found found' same
  have numbered (k : Nat) (e : Exchange) (present : exchanges[k]? = some e) :
      (tickets.map (·.number))[k]? = some e.request := by
    have inside := (List.getElem?_eq_some_iff.mp present).1
    rw [length] at inside
    obtain ⟨e', present', request⟩ := stand k _ (List.getElem?_eq_getElem inside)
    rw [present, Option.some_inj] at present'
    subst present'
    rw [List.getElem?_map, List.getElem?_eq_getElem inside, Option.map_some, request]
  have first := numbered i a found
  have second := numbered j b found'
  rw [same, ← second] at first
  obtain ⟨inside, -⟩ := List.getElem?_eq_some_iff.mp (second.symm ▸ first : _ = some b.request)
  exact (List.getElem?_inj inside distinct).mp first

theorem Framed.counted (w : World) (metrics : Metrics) (i : Nat) : Framed i w { w with metrics } :=
  ⟨rfl, rfl, fun _ _ found => found, rfl, rfl, rfl, rfl, rfl⟩

theorem Orderly.counted {w : World} {count : Nat} (orderly : Orderly w count) (metrics : Metrics) :
    Orderly { w with metrics } count :=
  orderly.adjust rfl rfl rfl rfl rfl (fun _ member => member) rfl orderly.seats (fun _ => rfl) (fun _ => rfl) rfl
    fun _ _ => rfl

def Unhurried (tickets : List Ticket) (w : World) : Prop :=
  ∀ i ticket tick outcome, tickets[i]? = some ticket → ¬ Desk w i ticket (.closing tick outcome)

theorem Unhurried.of_quiet {tickets : List Ticket} {w : World} (quiet : w.ready = []) : Unhurried tickets w := by
  intro i ticket tick outcome _ desk
  have calls := desk.2.1.calls
  simp [queueOf, quiet] at calls

/-- What a step comes to at one desk: where it stands, what its exchange shows and what its client is told. -/
structure Settled (ends : Nat → Ticket → Nat → Outcome String → Prop) (i : Nat) (ticket : Ticket) (standing : Standing)
    (s' : Server) (answers : List (Nat × Answer)) (next : Standing) : Prop where
  desk : Desk s'.world i ticket next
  moves : standing.Moves (ends i ticket) False next
  exchange : s'.exchanges[i]? = some (ticket.exchange i next)
  answers : Server.answersTo ticket.number answers = standing.told ticket next

/-- How a step ends: it began in the world `base`, it came to `m` before the tasks that became ready ran, and
these answers were given on the way to `s'`. -/
structure Ended (tickets : List Ticket) (ends : Nat → Ticket → Nat → Outcome String → Prop) (base : World) (m s' : Server)
    (answers : List (Nat × Answer)) : Prop where
  staffed : Staffed tickets s'.world
  quiet : s'.world.ready = []
  now : s'.world.now = m.world.now
  total : s'.world.metrics.requestTotal = base.metrics.requestTotal + answers.length
  table : s'.table = m.table
  running : s'.running = m.running
  requests : s'.requests = m.requests
  length : s'.exchanges.length = tickets.length
  untracked : ∀ i ∈ s'.world.registry.ids, i ∈ m.world.registry.ids
  known : ∀ answer ∈ answers, ∃ ticket ∈ tickets, ticket.number = answer.1
  settled : ∀ i ticket standing, tickets[i]? = some ticket → Desk base i ticket standing →
    ∃ next, Settled ends i ticket standing s' answers next

theorem Passed.untracked {tickets : List Ticket} {ends : Nat → Ticket → Nat → Outcome String → Prop}
    {leaves : Nat → Ticket → Prop} {w w' : World} (passed : Passed tickets ends leaves w w') (staffed : Staffed tickets w)
    {i : Nat} (tracked : i ∈ w'.registry.ids) : i ∈ w.registry.ids := by
  obtain ⟨ticket, fresh, x, given, waits⟩ := (passed.staffed staffed).waiting tracked
  obtain ⟨standing, desk⟩ := staffed.desks i ticket given
  obtain ⟨next, desk', moves⟩ := passed.desks i ticket standing given desk
  obtain ⟨fresh', rfl⟩ := waits.unique passed.orderly desk'
  cases standing with
  | waiting before =>
    obtain ⟨y, waits⟩ := desk
    exact waits.tracked staffed.orderly
  | closing | answered | dropped => exact moves.elim

theorem Passed.settled {tickets : List Ticket} {ends : Nat → Ticket → Nat → Outcome String → Prop} {base : World} {f : Server}
    {events : List Stamped} {i : Nat} {ticket : Ticket} {standing : Standing} (passed : Passed tickets ends nobody base f.world)
    (recorded : f.world.events.toList = base.events.toList ++ events) (quiet : f.world.ready = [])
    (apart : Server.Distinct f.exchanges) (given : tickets[i]? = some ticket) (desk : Desk base i ticket standing)
    (still : ∀ tick outcome, standing ≠ .closing tick outcome) (here : f.exchanges[i]? = some (ticket.exchange i standing)) :
    ∃ next, Settled ends i ticket standing (f.deliverAll events).1 (f.deliverAll events).2 next := by
  obtain ⟨next, desk', moves⟩ := passed.desks i ticket standing given desk
  have framed : Framed i f.world (f.deliverAll events).1.world := by
    obtain ⟨metrics, world, -⟩ := (f.deliverAll_replied events).world
    rw [world]
    exact .counted f.world metrics i
  have answers : answersOf f.world i = answersOf base i ++ events.filter (Stamped.answers i) := by
    rw [answersOf, recorded, List.filter_append]
    rfl
  have silent (none : events.filter (Stamped.answers i) = []) (same : standing.progress = next.progress)
      (untold : standing.told ticket next = []) :
      Settled ends i ticket standing (f.deliverAll events).1 (f.deliverAll events).2 next := by
    obtain ⟨kept, nothing⟩ := Server.deliverAll_unanswered apart here none
    refine ⟨framed.desk desk', moves, ?_, nothing.trans untold.symm⟩
    rw [kept, Ticket.exchange, Ticket.exchange, same]
  refine ⟨next, ?_⟩
  cases standing with
  | closing tick outcome => exact absurd rfl (still tick outcome)
  | waiting fresh =>
    obtain ⟨x, waits⟩ := desk
    rw [waits.unanswered, List.nil_append] at answers
    cases next with
    | closing tick outcome => exact absurd desk' (Unhurried.of_quiet quiet i ticket tick outcome given)
    | dropped => exact moves.elim
    | waiting fresh' =>
      obtain ⟨y, waits'⟩ := desk'
      exact silent (answers.symm.trans waits'.unanswered) rfl rfl
    | answered tick outcome =>
      obtain ⟨kept, one⟩ := Server.deliverAll_answered apart here rfl (answers.symm.trans desk'.2)
      refine ⟨framed.desk desk', moves, kept, one.trans ?_⟩
      rw [Server.replyTo, Server.idOf_eq here]
      rfl
  | answered tick outcome =>
    cases next with
    | waiting | closing | dropped => exact moves.elim
    | answered tick' outcome' =>
      obtain ⟨rfl, rfl⟩ := moves
      rw [desk.2, desk'.2] at answers
      exact silent (List.append_right_eq_self.mp answers.symm) rfl rfl
  | dropped =>
    cases next with
    | waiting | closing | answered => exact moves.elim
    | dropped =>
      rw [desk.2, List.nil_append] at answers
      exact silent (answers.symm.trans desk'.2) rfl rfl

/-- The end of a step: the ready tasks run, then the answers are given. -/
theorem settled_step {tickets : List Ticket} {ends : Nat → Ticket → Nat → Outcome String → Prop} {base : World} {m : Server}
    (staffed : Staffed tickets base) (unhurried : Unhurried tickets base) (passed : Passed tickets ends nobody base m.world)
    (verdicts : ∀ i ticket tick outcome, ticket.EndsWithin m.world.now m.world.now tick outcome → ends i ticket tick outcome)
    (enough : 13 ≤ m.fuel) (light : load m.world ≤ m.fuel) (length : m.exchanges.length = tickets.length)
    (distinct : (tickets.map (·.number)).Nodup)
    (exchanges : ∀ i ticket standing, tickets[i]? = some ticket → Desk base i ticket standing →
      m.exchanges[i]? = some (ticket.exchange i standing)) :
    Ended tickets ends base m (m.settle.deliverAll (m.settle.world.events.toList.drop base.events.size)).1
      (m.settle.deliverAll (m.settle.world.events.toList.drop base.events.size)).2 := by
  let f := m.settle
  let events := f.world.events.toList.drop base.events.size
  obtain ⟨runs, quiet, still, -⟩ := (passed.staffed staffed).settle enough light
  have through : Passed tickets ends nobody base f.world := passed.trans (runs.mono verdicts fun _ _ none => none)
  have recorded : f.world.events.toList = base.events.toList ++ events := by
    obtain ⟨more, grown⟩ := through.events
    show _ = base.events.toList ++ f.world.events.toList.drop base.events.size
    rw [← grown, ← Array.length_toList, List.drop_left]
  have replied := f.deliverAll_replied events
  have stand : ∀ i ticket standing, tickets[i]? = some ticket → Desk base i ticket standing →
      f.exchanges[i]? = some (ticket.exchange i standing) := exchanges
  have apart : Server.Distinct f.exchanges := by
    refine distinct_of_tickets length ?_ distinct
    intro i ticket given
    obtain ⟨standing, desk⟩ := staffed.desks i ticket given
    exact ⟨_, stand i ticket standing given desk, rfl⟩
  have settled : ∀ i ticket standing, tickets[i]? = some ticket → Desk base i ticket standing →
      ∃ next, Settled ends i ticket standing (f.deliverAll events).1 (f.deliverAll events).2 next := by
    intro i ticket standing given desk
    refine through.settled recorded quiet apart given desk ?_ (stand i ticket standing given desk)
    rintro tick outcome rfl
    exact unhurried i ticket tick outcome given desk
  obtain ⟨metrics, world, total⟩ := replied.world
  constructor
  case staffed =>
    refine ⟨?_, ?_⟩
    · rw [world]
      exact through.orderly.counted metrics
    · intro i ticket given
      obtain ⟨standing, desk⟩ := staffed.desks i ticket given
      obtain ⟨next, result⟩ := settled i ticket standing given desk
      exact ⟨next, result.desk⟩
  case quiet =>
    rw [world]
    exact quiet
  case now =>
    rw [world]
    exact still
  case total => rw [world, total, through.served]
  case table => exact replied.table
  case running => exact replied.running
  case requests => exact replied.requests
  case length => exact replied.length.trans length
  case untracked =>
    intro i tracked
    rw [world] at tracked
    exact runs.untracked (passed.staffed staffed) tracked
  case known =>
    intro answer given
    obtain ⟨i, exchange, found, same⟩ := Server.deliverAll_known given
    have inside := (List.getElem?_eq_some_iff.mp found).1
    rw [show f.exchanges.length = tickets.length from length] at inside
    have ticket := List.getElem?_eq_getElem inside
    obtain ⟨standing, desk⟩ := staffed.desks i _ ticket
    rw [stand i _ standing ticket desk, Option.some_inj] at found
    exact ⟨_, List.getElem_mem inside, by rw [same, ← found]; rfl⟩
  case settled => exact settled

end Deferral.Http
