import Deferral.Proofs.DeskTasks

/-! How the answers of a step are given. Each handler that has its outcome replies once, to its own
request, and the reply is counted. -/

namespace Deferral.Http
open Simulation

namespace Server

variable {s : Server} {events : List Stamped} {i : Nat} {exchange : Exchange}

/-- The requests that the exchanges are about are distinct. -/
def Distinct (exchanges : List Exchange) : Prop :=
  ∀ (i j : Nat) (a b : Exchange), exchanges[i]? = some a → exchanges[j]? = some b → a.request = b.request → i = j

/-- What a reply leaves: the exchanges but for their progress, and the world but for a count. -/
structure Replied (s s' : Server) (count : Nat) : Prop where
  world : ∃ metrics, s'.world = { s.world with metrics } ∧ metrics.requestTotal = s.world.metrics.requestTotal + count
  table : s'.table = s.table
  running : s'.running = s.running
  requests : s'.requests = s.requests
  length : s'.exchanges.length = s.exchanges.length
  exchange : ∀ (i : Nat) (a : Exchange), s.exchanges[i]? = some a → ∃ progress, s'.exchanges[i]? = some { a with progress }

namespace Replied

theorem refl (s : Server) : Replied s s 0 :=
  ⟨⟨s.world.metrics, rfl, rfl⟩, rfl, rfl, rfl, rfl, fun _ a found => ⟨a.progress, found⟩⟩

theorem trans {s' s'' : Server} {count more : Nat} (first : Replied s s' count) (second : Replied s' s'' more) :
    Replied s s'' (count + more) := by
  refine ⟨?_, second.table.trans first.table, second.running.trans first.running, second.requests.trans first.requests,
    second.length.trans first.length, ?_⟩
  · obtain ⟨metrics, world, total⟩ := first.world
    obtain ⟨metrics', world', total'⟩ := second.world
    refine ⟨metrics', by rw [world', world], ?_⟩
    rw [total', world, total, Nat.add_assoc]
  · intro i a found
    obtain ⟨progress, found⟩ := first.exchange i a found
    obtain ⟨progress', found⟩ := second.exchange i _ found
    exact ⟨progress', found⟩

theorem distinct {s' : Server} {count : Nat} (replied : Replied s s' count) (distinct : Distinct s.exchanges) :
    Distinct s'.exchanges := by
  have older (i : Nat) (a : Exchange) (found : s'.exchanges[i]? = some a) :
      ∃ b, s.exchanges[i]? = some b ∧ b.request = a.request := by
    have inside := (List.getElem?_eq_some_iff.mp found).1
    rw [replied.length] at inside
    obtain ⟨progress, same⟩ := replied.exchange i _ (List.getElem?_eq_getElem inside)
    rw [found, Option.some_inj] at same
    exact ⟨_, List.getElem?_eq_getElem inside, by rw [same]⟩
  intro i j a b found found' same
  obtain ⟨c, present, request⟩ := older i a found
  obtain ⟨d, present', request'⟩ := older j b found'
  exact distinct i j c d present present' (by rw [request, request', same])

end Replied

/-- The reply of an exchange. -/
def replyTo (s : Server) (i : Nat) (exchange : Exchange) (outcome : Outcome String) : Nat × Answer :=
  (exchange.request, (Answer.reply (.ofOutcome (s.idOf i) outcome)).to exchange.method)

theorem idOf_eq (found : s.exchanges[i]? = some exchange) : s.idOf i = .ofIndex exchange.request := by
  rw [idOf, found]
  rfl

theorem deliver_waiting (outcome : Outcome String) (found : s.exchanges[i]? = some exchange)
    (waiting : exchange.progress = .waiting) :
    (s.deliver i outcome).2 = [s.replyTo i exchange outcome] ∧ Replied s (s.deliver i outcome).1 1 ∧
      (s.deliver i outcome).1.exchanges = s.exchanges.set i { exchange with progress := .answered } := by
  have delivers : s.deliver i outcome = (Server.countRequest
      { s with exchanges := s.exchanges.set i { exchange with progress := .answered } } exchange.route
      (Reply.ofOutcome (s.idOf i) outcome).status, [s.replyTo i exchange outcome]) := by
    simp only [deliver, found, waiting, if_true]
    rfl
  rw [delivers]
  refine ⟨rfl, ⟨⟨_, rfl, Metrics.requestTotal_countRequest _ _ _⟩, rfl, rfl, rfl, List.length_set .., ?_⟩, rfl⟩
  intro j a present
  by_cases same : i = j
  · subst same
    rw [found, Option.some_inj] at present
    subst present
    exact ⟨.answered, List.getElem?_set_self (List.getElem?_eq_some_iff.mp found).1⟩
  · exact ⟨a.progress, (List.getElem?_set_ne same).trans present⟩

theorem deliver_through {outcome : Outcome String} (through : ∀ e, s.exchanges[i]? = some e → e.progress ≠ .waiting) :
    s.deliver i outcome = (s, []) := by
  cases found : s.exchanges[i]? with
  | none => simp only [deliver, found]
  | some e => simp only [deliver, found, if_neg (through e found)]

theorem deliver_cases (s : Server) (i : Nat) (outcome : Outcome String) :
    s.deliver i outcome = (s, []) ∨ ∃ exchange, s.exchanges[i]? = some exchange ∧ exchange.progress = .waiting ∧
      (s.deliver i outcome).2 = [s.replyTo i exchange outcome] ∧ Replied s (s.deliver i outcome).1 1 ∧
      (s.deliver i outcome).1.exchanges = s.exchanges.set i { exchange with progress := .answered } := by
  by_cases waiting : ∃ exchange, s.exchanges[i]? = some exchange ∧ exchange.progress = .waiting
  · obtain ⟨exchange, found, waiting⟩ := waiting
    exact .inr ⟨exchange, found, waiting, deliver_waiting outcome found waiting⟩
  · refine .inl (deliver_through fun e found still => waiting ⟨e, found, still⟩)

theorem deliverAll_cons (s : Server) (stamped : Stamped) (rest : List Stamped) :
    (∃ i outcome, stamped.event = .answered i outcome ∧ s.deliverAll (stamped :: rest) =
      (((s.deliver i outcome).1.deliverAll rest).1, (s.deliver i outcome).2 ++ ((s.deliver i outcome).1.deliverAll rest).2)) ∨
    (∀ i, Stamped.answers i stamped = false) ∧ s.deliverAll (stamped :: rest) = s.deliverAll rest := by
  obtain ⟨tick, event⟩ := stamped
  cases event with
  | answered i outcome => exact .inl ⟨i, outcome, rfl, rfl⟩
  | listener | line | delivered | listenerFailed | scheduled | disarmed | fired => exact .inr ⟨fun _ => rfl, rfl⟩

theorem deliverAll_replied (s : Server) (events : List Stamped) :
    Replied s (s.deliverAll events).1 (s.deliverAll events).2.length := by
  induction events generalizing s with
  | nil => exact .refl s
  | cons stamped rest ih =>
    rcases s.deliverAll_cons stamped rest with ⟨i, outcome, -, same⟩ | ⟨-, same⟩
    · rw [same]
      rcases s.deliver_cases i outcome with none | ⟨exchange, -, -, one, replied, -⟩
      · rw [none]
        exact ih s
      · have later := replied.trans (ih (s.deliver i outcome).1)
        rw [one]
        rw [List.cons_append, List.nil_append, List.length_cons, Nat.add_comm]
        exact later
    · rw [same]
      exact ih s

theorem deliverAll_known {answer : Nat × Answer} (member : answer ∈ (s.deliverAll events).2) :
    ∃ (i : Nat) (exchange : Exchange), s.exchanges[i]? = some exchange ∧ answer.1 = exchange.request := by
  induction events generalizing s with
  | nil => cases member
  | cons stamped rest ih =>
    rcases s.deliverAll_cons stamped rest with ⟨i, outcome, -, same⟩ | ⟨-, same⟩
    · rw [same] at member
      rcases s.deliver_cases i outcome with none | ⟨exchange, found, -, one, replied, -⟩
      · rw [none] at member
        exact ih member
      · rcases List.mem_append.mp member with first | later
        · rw [one, List.mem_singleton] at first
          exact ⟨i, exchange, found, by rw [first]; rfl⟩
        · obtain ⟨j, e, present, same⟩ := ih later
          have inside := (List.getElem?_eq_some_iff.mp present).1
          rw [replied.length] at inside
          obtain ⟨progress, here⟩ := replied.exchange j _ (List.getElem?_eq_getElem inside)
          rw [present, Option.some_inj] at here
          exact ⟨j, _, List.getElem?_eq_getElem inside, by rw [same, here]⟩
    · rw [same] at member
      exact ih member

/-- The answers that are given to a request. -/
def answersTo (number : Nat) (answers : List (Nat × Answer)) : List (Nat × Answer) := answers.filter (·.1 == number)

theorem deliverAll_unanswered (distinct : Distinct s.exchanges) (found : s.exchanges[i]? = some exchange)
    (none : events.filter (Stamped.answers i) = []) :
    (s.deliverAll events).1.exchanges[i]? = some exchange ∧ answersTo exchange.request (s.deliverAll events).2 = [] := by
  induction events generalizing s with
  | nil => exact ⟨found, rfl⟩
  | cons stamped rest ih =>
    rw [List.filter_cons] at none
    split at none
    · cases none
    next unrelated =>
      rcases s.deliverAll_cons stamped rest with ⟨j, outcome, answered, same⟩ | ⟨-, same⟩
      · rw [same]
        have other : j ≠ i := by
          rintro rfl
          simp [Stamped.answers, answered] at unrelated
        rcases s.deliver_cases j outcome with nothing | ⟨e, present, -, one, replied, set⟩
        · rw [nothing]
          exact ih distinct found none
        · have still : (s.deliver j outcome).1.exchanges[i]? = some exchange := by
            rw [set, List.getElem?_set_ne other]
            exact found
          obtain ⟨kept, silent⟩ := ih (replied.distinct distinct) still none
          refine ⟨kept, ?_⟩
          have apart : e.request ≠ exchange.request := fun same => other (distinct j i e exchange present found same)
          rw [answersTo, List.filter_append, one, List.filter_cons_of_neg (by simpa [replyTo] using apart), List.filter_nil,
            List.nil_append]
          exact silent
      · rw [same]
        exact ih distinct found none

theorem deliverAll_answered {tick : Option Nat} {outcome : Outcome String} (distinct : Distinct s.exchanges)
    (found : s.exchanges[i]? = some exchange) (waiting : exchange.progress = .waiting)
    (one : events.filter (Stamped.answers i) = [⟨tick, .answered i outcome⟩]) :
    (s.deliverAll events).1.exchanges[i]? = some { exchange with progress := .answered } ∧
      answersTo exchange.request (s.deliverAll events).2 = [s.replyTo i exchange outcome] := by
  induction events generalizing s with
  | nil => cases one
  | cons stamped rest ih =>
    rw [List.filter_cons] at one
    split at one
    next ours =>
      rw [List.cons.injEq] at one
      obtain ⟨rfl, none⟩ := one
      obtain ⟨reply, replied, set⟩ := deliver_waiting outcome found waiting
      have now : (s.deliver i outcome).1.exchanges[i]? = some { exchange with progress := .answered } := by
        rw [set, List.getElem?_set_self (List.getElem?_eq_some_iff.mp found).1]
      obtain ⟨kept, silent⟩ := deliverAll_unanswered (replied.distinct distinct) now none
      refine ⟨kept, ?_⟩
      show answersTo exchange.request ((s.deliver i outcome).2 ++ ((s.deliver i outcome).1.deliverAll rest).2) = _
      rw [answersTo, List.filter_append, reply, List.filter_cons_of_pos (by simp [replyTo]), List.filter_nil]
      exact congrArg (_ :: ·) silent
    next unrelated =>
      rcases s.deliverAll_cons stamped rest with ⟨j, other, answered, same⟩ | ⟨-, same⟩
      · rw [same]
        have apart : j ≠ i := by
          rintro rfl
          simp [Stamped.answers, answered] at unrelated
        rcases s.deliver_cases j other with nothing | ⟨e, present, -, reply, replied, set⟩
        · rw [nothing]
          exact ih distinct found one
        · have still : (s.deliver j other).1.exchanges[i]? = some exchange := by
            rw [set, List.getElem?_set_ne apart]
            exact found
          obtain ⟨kept, answer⟩ := ih (replied.distinct distinct) still one
          refine ⟨kept, ?_⟩
          have distinct : e.request ≠ exchange.request := fun same => apart (distinct j i e exchange present found same)
          rw [answersTo, List.filter_append, reply, List.filter_cons_of_neg (by simpa [replyTo] using distinct),
            List.filter_nil, List.nil_append]
          refine answer.trans ?_
          rw [replyTo, replyTo, idOf_eq still, idOf_eq found]
      · rw [same]
        exact ih distinct found one

end Server

end Deferral.Http
