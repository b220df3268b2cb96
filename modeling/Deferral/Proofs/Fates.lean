import Deferral.Proofs.Turns

/-! What becomes of the requests of a server. A request is taken when it comes to the deferred handler, and
from then on a step cancels it, loses its client, brings it to its verdict or leaves it in flight. -/

namespace Deferral.Http
open Simulation

namespace Server.Step

/-- The deferred request that a step brings to a server, which takes it as long as it runs. -/
def brings (step : Step) (table : PolicyTable) (running : Bool) (number now : Nat) : List Ticket :=
  match step with
  | .request asked =>
    match running, asked.dispatch with
    | true, .deferred route params =>
      [{ number, method := asked.method, route, params, window := windowOf table route params, arrival := now }]
    | _, _ => []
  | _ => []

def cancels (step : Step) (ticket : Ticket) : Prop :=
  match step with
  | .request asked => asked.dispatch = .cancel ticket.id
  | .shutdown => True
  | _ => False

def leaves (step : Step) (ticket : Ticket) : Bool :=
  match step with
  | .disconnect number => number == ticket.number
  | _ => false

def elapses : Step → Nat
  | .advance ms => ms
  | _ => 0

def requests : Step → Nat
  | .request _ => 1
  | _ => 0

def stops : Step → Bool
  | .shutdown => true
  | _ => false

def tableAfter (step : Step) (table : PolicyTable) : PolicyTable :=
  match step with
  | .reload config => .ofConfig config
  | _ => table

/-- What becomes of a desk in a step from one tick to another. -/
inductive Fate (step : Step) (ticket : Ticket) (first last : Nat) : Standing → Standing → Prop where
  | cancelled (fresh : Bool) (cancels : step.cancels ticket) :
      Fate step ticket first last (.waiting fresh) (.answered first .cancelled)
  | left (fresh : Bool) (leaves : step.leaves ticket = true) : Fate step ticket first last (.waiting fresh) .dropped
  | decided (fresh : Bool) {tick : Nat} {outcome : Outcome String} (cancels : ¬ step.cancels ticket)
      (leaves : step.leaves ticket = false) (ends : ticket.EndsWithin first last tick outcome) :
      Fate step ticket first last (.waiting fresh) (.answered tick outcome)
  | waits (fresh fresh' : Bool) (cancels : ¬ step.cancels ticket) (leaves : step.leaves ticket = false) :
      Fate step ticket first last (.waiting fresh) (.waiting fresh')
  | answered (tick : Nat) (outcome : Outcome String) :
      Fate step ticket first last (.answered tick outcome) (.answered tick outcome)
  | dropped : Fate step ticket first last .dropped .dropped

theorem cancels_stays {step : Step} {ticket : Ticket} (cancels : step.cancels ticket) : step.leaves ticket = false := by
  cases step with
  | disconnect => exact cancels.elim
  | request | advance | reload | shutdown => rfl

end Server.Step

/-- The deferred request that the server takes in a step. -/
def Server.brought (s : Server) (step : Server.Step) : List Ticket := step.brings s.table s.running s.requests s.world.now

theorem Server.number_brought {s : Server} {step : Server.Step} {ticket : Ticket} (member : ticket ∈ s.brought step) :
    ticket.number = s.requests := by
  unfold brought Step.brings at member
  split at member
  · split at member
    · rw [List.mem_singleton.mp member]
    · cases member
  · cases member

theorem Server.brought_cases (s : Server) (step : Server.Step) : s.brought step = [] ∨ ∃ ticket, s.brought step = [ticket] := by
  unfold brought Step.brings
  split
  · split
    · exact .inr ⟨_, rfl⟩
    · exact .inl rfl
  · exact .inl rfl

/-- What a step comes to for one request. -/
structure Fares (s : Server) (step : Server.Step) (i : Nat) (ticket : Ticket) (before next : Standing) : Prop where
  desk : Desk (s.step step).1.world i ticket next
  fate : step.Fate ticket s.world.now (s.step step).1.world.now before next
  told : Server.answersTo ticket.number (s.step step).2.answers = before.told ticket next

/-- What a step comes to for all of them, and what else it changes. -/
structure Stepped (s : Server) (step : Server.Step) (tickets : List Ticket) : Prop where
  kept : Kept (s.step step).1 (tickets ++ s.brought step)
  older : ∀ i ticket before, tickets[i]? = some ticket → Desk s.world i ticket before →
    ∃ next, Fares s step i ticket before next
  newer : ∀ ticket ∈ s.brought step,
    ∃ next, Fares s step tickets.length ticket (.waiting true) next
  counted : (s.step step).1.world.metrics.requestTotal = s.world.metrics.requestTotal +
    (Server.handled (tickets ++ s.brought step) (s.step step).2.answers).length
  numbered : ∀ answer ∈ (s.step step).2.answers, answer.1 < (s.step step).1.requests
  now : (s.step step).1.world.now = s.world.now + step.elapses
  table : (s.step step).1.table = step.tableAfter s.table
  running : (s.step step).1.running = (s.running && !step.stops)
  requests : (s.step step).1.requests = s.requests + step.requests

section Tickets

variable {s : Server} {tickets : List Ticket}

theorem Kept.exchange (kept : Kept s tickets) {i : Nat} {ticket : Ticket} (given : tickets[i]? = some ticket) :
    ∃ standing, Desk s.world i ticket standing ∧ s.exchanges[i]? = some (ticket.exchange i standing) ∧
      ∀ tick outcome, standing ≠ .closing tick outcome := by
  obtain ⟨standing, desk⟩ := kept.staffed.desks i ticket given
  refine ⟨standing, desk, kept.exchanges i ticket standing given desk, ?_⟩
  rintro tick outcome rfl
  exact Unhurried.of_quiet kept.quiet i ticket tick outcome given desk

theorem Kept.numbers (kept : Kept s tickets) : s.exchanges.map (·.request) = tickets.map (·.number) := by
  apply List.ext_getElem?
  intro i
  rw [List.getElem?_map, List.getElem?_map]
  cases given : tickets[i]? with
  | none =>
    have beyond : s.exchanges[i]? = none := by
      rw [List.getElem?_eq_none_iff] at given ⊢
      rw [kept.length]
      exact given
    rw [beyond]
    rfl
  | some ticket =>
    obtain ⟨standing, -, exchange, -⟩ := kept.exchange given
    rw [exchange]
    rfl

theorem Kept.responseOf_eq (kept : Kept s tickets) (id : Uuid) : s.responseOf id = tickets.findIdx? (·.id == id) := by
  have mapped : s.responseOf id = (s.exchanges.map (·.request)).findIdx? (Uuid.ofIndex · == id) := by
    rw [List.findIdx?_map]
    rfl
  rw [mapped, kept.numbers, List.findIdx?_map]
  rfl

theorem Kept.index_unique (kept : Kept s tickets) {i j : Nat} {a b : Ticket} (first : tickets[i]? = some a)
    (second : tickets[j]? = some b) (same : a.number = b.number) : i = j := by
  have inside := (List.getElem?_eq_some_iff.mp first).1
  refine (List.getElem?_inj (by rw [List.length_map]; exact inside) kept.distinct).mp ?_
  rw [List.getElem?_map, List.getElem?_map, first, second, Option.map_some, Option.map_some, same]

end Tickets

section Turns

variable {s m : Server} {step : Server.Step} {tickets : List Ticket} {ends : Nat → Ticket → Nat → Outcome String → Prop}
  {base : World} {immediate : List (Nat × Answer)}

theorem Kept.light (kept : Kept s tickets) : load s.world ≤ 2 * tickets.length := by
  have few := kept.staffed.orderly.tracked_le
  rw [load, kept.quiet, List.length_nil]
  omega

theorem Kept.fueled (kept : Kept s tickets) : 12 * tickets.length + 64 ≤ s.fuel := by
  rw [← kept.length]
  exact s.fuel_large

theorem Kept.turn (kept : Kept s tickets) {result : Server.StepResult} (performs : s.perform step = (m, result, immediate))
    (passed : Passed tickets ends nobody s.world m.world) (light : load m.world ≤ 2 * tickets.length)
    (exchanges : m.exchanges = s.exchanges) (requests : s.requests ≤ m.requests)
    (verdicts : ∀ i ticket tick outcome, ticket.EndsWithin m.world.now m.world.now tick outcome → ends i ticket tick outcome)
    (stopped : m.running = false → m.world.registry.ids = [])
    (apart : ∀ answer ∈ immediate, s.requests ≤ answer.1 ∧ answer.1 < m.requests) :
    Turn s step tickets ends s.world m immediate where
  performs := ⟨result, performs⟩
  seen := rfl
  total := rfl
  orderly := kept.staffed.orderly
  stands := by
    rw [exchanges]
    exact fun _ _ => kept.exchange
  passed := passed
  verdicts := verdicts
  light := Nat.le_trans light (Nat.le_add_right ..)
  length := by rw [exchanges]; exact kept.length
  distinct := kept.distinct
  below := fun ticket member => Nat.lt_of_lt_of_le (kept.below ticket member) requests
  stopped := stopped
  apart := by
    intro answer given ticket member
    have older := kept.below ticket member
    obtain ⟨newer, -⟩ := apart answer given
    omega
  asked := fun answer given => (apart answer given).2

theorem Turn.fares (turn : Turn s step tickets ends base m immediate) {i : Nat} {ticket : Ticket} {before : Standing}
    (given : tickets[i]? = some ticket) (desk : Desk base i ticket before)
    (ends_of : ∀ tick outcome, ends i ticket tick outcome →
      step.cancels ticket ∧ tick = s.world.now ∧ outcome = .cancelled ∨
        ticket.EndsWithin s.world.now m.world.now tick outcome)
    (cancels : step.cancels ticket →
      i ∉ m.world.registry.ids ∧ base.ready = [] ∧ base.now = s.world.now ∧ m.world.now = s.world.now)
    (stays : ∀ fresh, before = .waiting fresh → step.leaves ticket = false) :
    ∃ next, Fares s step i ticket before next := by
  obtain ⟨next, desk', moves, told⟩ := turn.settled given desk
  refine ⟨next, desk', ?_, told⟩
  rw [turn.still.1]
  have kept := turn.kept
  cases before with
  | closing tick outcome => exact absurd desk (turn.unhurried i ticket tick outcome given)
  | answered tick outcome =>
    cases next with
    | waiting | closing | dropped => exact moves.elim
    | answered tick' outcome' =>
      obtain ⟨rfl, rfl⟩ := moves
      exact .answered _ _
  | dropped =>
    cases next with
    | waiting | closing | answered => exact moves.elim
    | dropped => exact .dropped
  | waiting fresh =>
    have stays := stays fresh rfl
    cases next with
    | dropped => exact moves.elim
    | closing tick outcome => exact absurd desk' (Unhurried.of_quiet kept.quiet i ticket tick outcome given)
    | waiting fresh' =>
      refine .waits _ _ (fun cancelled => ?_) stays
      obtain ⟨y, waits⟩ := desk'
      exact turn.untracked (cancels cancelled).1 (waits.tracked kept.staffed.orderly)
    | answered tick outcome =>
      rcases ends_of tick outcome moves with ⟨cancelled, rfl, rfl⟩ | decided
      · exact .cancelled _ cancelled
      · refine .decided _ (fun cancelled => ?_) stays decided
        obtain ⟨-, quiet, begun, still⟩ := cancels cancelled
        obtain ⟨x, waits⟩ := desk
        obtain ⟨verdict, first, last⟩ := decided
        have later : base.now < tick := waits.verdict_later quiet (by rw [verdict])
        omega

theorem Kept.idle (kept : Kept s tickets) {result : Server.StepResult} (performs : s.perform step = (m, result, immediate))
    (alike : Alike s.world m.world) (exchanges : m.exchanges = s.exchanges) (requests : s.requests ≤ m.requests)
    (running : m.running = s.running) (apart : ∀ answer ∈ immediate, s.requests ≤ answer.1 ∧ answer.1 < m.requests) :
    Turn s step tickets (within s.world.now s.world.now) s.world m immediate ∧ m.world.registry = s.world.registry ∧
      m.world.now = s.world.now := by
  obtain ⟨registry, now⟩ : m.world.registry = s.world.registry ∧ m.world.now = s.world.now := by
    obtain ⟨log, metrics, same, -⟩ := alike
    rw [same]
    exact ⟨rfl, rfl⟩
  refine ⟨kept.turn performs (.alike kept.staffed.orderly alike) ?_ exchanges requests ?_ ?_ apart, registry, now⟩
  · rw [load_alike alike]
    exact kept.light
  · rw [now]
    exact fun _ _ _ _ within => within
  · intro stopped
    rw [running] at stopped
    rw [registry]
    exact kept.stopped stopped

/-- A step is accounted for when it is known how the requests fare, the one it brings included. -/
theorem Turn.accounted
    (turn : Turn s step (tickets ++ s.brought step) ends base m immediate)
    (older : ∀ i ticket before, tickets[i]? = some ticket → Desk s.world i ticket before →
      ∃ next, Fares s step i ticket before next)
    (newer : ∀ ticket ∈ s.brought step,
      ∃ next, Fares s step tickets.length ticket (.waiting true) next)
    (now : m.world.now = s.world.now + step.elapses) (table : m.table = step.tableAfter s.table)
    (running : m.running = (s.running && !step.stops)) (requests : m.requests = s.requests + step.requests) :
    Stepped s step tickets := by
  obtain ⟨now', table', running', requests'⟩ := turn.still
  exact {
    kept := turn.kept
    older
    newer
    counted := turn.counted
    numbered := fun _ => turn.numbered
    now := now'.trans now
    table := table'.trans table
    running := running'.trans running
    requests := requests'.trans requests }

theorem Turn.stepped (turn : Turn s step tickets ends s.world m immediate) (kept : Kept s tickets)
    (brings : s.brought step = [])
    (ends_of : ∀ i ticket tick outcome, tickets[i]? = some ticket → ends i ticket tick outcome →
      step.cancels ticket ∧ tick = s.world.now ∧ outcome = .cancelled ∨
        ticket.EndsWithin s.world.now m.world.now tick outcome)
    (cancels : ∀ i ticket, tickets[i]? = some ticket → step.cancels ticket →
      i ∉ m.world.registry.ids ∧ m.world.now = s.world.now)
    (stays : ∀ i ticket fresh, tickets[i]? = some ticket → Desk s.world i ticket (.waiting fresh) → step.leaves ticket = false)
    (now : m.world.now = s.world.now + step.elapses) (table : m.table = step.tableAfter s.table)
    (running : m.running = (s.running && !step.stops)) (requests : m.requests = s.requests + step.requests) :
    Stepped s step tickets := by
  have whole : tickets = tickets ++ s.brought step := by
    rw [brings, List.append_nil]
  refine Turn.accounted (whole ▸ turn) ?_ ?_ now table running requests
  · intro i ticket before given desk
    refine turn.fares given desk (fun tick outcome => ends_of i ticket tick outcome given) (fun cancelled => ?_) ?_
    · obtain ⟨untracked, still⟩ := cancels i ticket given cancelled
      exact ⟨untracked, kept.quiet, rfl, still⟩
    · rintro fresh rfl
      exact stays i ticket fresh given desk
  · rw [brings]
    exact fun _ member => nomatch member

end Turns

end Deferral.Http
