import Deferral.Proofs.Ledgers

/-! The accounts of a server agree with its ledger. No request is lost or leaked: what is pending, which timers
are armed, what is answered and what is counted is what an observer expects who knows the steps and the
answers. -/

namespace Deferral.Http
open Simulation

theorem filter_mem_part {α : Type} [DecidableEq α] {part whole : List α} (sublist : part.Sublist whole)
    (distinct : whole.Nodup) : whole.filter (· ∈ part) = part := by
  induction sublist with
  | slnil => rfl
  | @cons part whole a sub ih =>
    obtain ⟨new, distinct⟩ := List.nodup_cons.mp distinct
    rw [List.filter_cons_of_neg (by simpa using fun member => new (sub.subset member))]
    exact ih distinct
  | @cons_cons part whole a sub ih =>
    obtain ⟨new, distinct⟩ := List.nodup_cons.mp distinct
    rw [List.filter_cons_of_pos (by simp)]
    congr 1
    refine Eq.trans (List.filter_congr fun b member => ?_) (ih distinct)
    have other : b ≠ a := by
      rintro rfl
      exact new member
    simp [other]

namespace Ledger.Follows

variable {ledger : Ledger} {s : Server} {i : Nat} {ticket : Ticket}

theorem tracked_iff (follows : Follows ledger s) (given : ledger.taken[i]? = some ticket) :
    i ∈ s.world.registry.ids ↔ ticket ∈ ledger.inFlight := by
  obtain ⟨standing, desk⟩ := follows.kept.staffed.desks i ticket given
  have shown := follows.shows i ticket standing given desk
  have orderly := follows.kept.staffed.orderly
  cases standing with
  | waiting fresh =>
    obtain ⟨x, waits⟩ := desk
    exact iff_of_true (waits.tracked orderly) shown.1
  | closing => exact shown.elim
  | answered tick outcome => exact iff_of_false (desk.1.untracked orderly) shown.1
  | dropped =>
    obtain ⟨⟨outcome, closed⟩, -⟩ := desk
    exact iff_of_false (closed.untracked orderly) shown.1

theorem nodup (follows : Follows ledger s) : ledger.taken.Nodup :=
  List.Pairwise.of_map _ (fun _ _ apart same => apart (congrArg _ same)) follows.kept.distinct

end Ledger.Follows

/-- The requests in flight, each with its index. -/
def Ledger.flights (ledger : Ledger) : List (Ticket × Nat) :=
  ledger.taken.zipIdx.filter fun flight => flight.1 ∈ ledger.inFlight

namespace Ledger.Follows

variable {ledger : Ledger} {s : Server}

theorem inFlight_eq (follows : Follows ledger s) : ledger.inFlight = ledger.flights.map Prod.fst := by
  have chosen : ledger.flights.map Prod.fst = (ledger.taken.zipIdx.map Prod.fst).filter (· ∈ ledger.inFlight) := by
    rw [List.filter_map]
    rfl
  rw [chosen, List.zipIdx_map_fst, filter_mem_part follows.inFlight follows.nodup]

theorem tracked_eq (follows : Follows ledger s) : s.world.registry.ids = ledger.flights.map Prod.snd := by
  have same : ledger.flights = ledger.taken.zipIdx.filter fun flight => (s.world.responses[flight.2]?).any (!·.isDone) := by
    apply List.filter_congr
    intro flight member
    have given := List.mem_zipIdx_iff_getElem?.mp member
    have inside := (List.getElem?_eq_some_iff.mp given).1
    have tracked := follows.tracked_iff given
    rw [follows.kept.staffed.orderly.tracked, List.mem_filter, List.mem_range] at tracked
    rw [Bool.eq_iff_iff, decide_eq_true_iff, ← tracked]
    exact and_iff_right inside
  rw [follows.kept.staffed.orderly.tracked, same, List.range_eq_range', ← List.zipIdx_map_snd 0, List.filter_map]
  rfl

theorem status_eq (follows : Follows ledger s) : s.status =
    { inFlight := ledger.inFlight.length, pending := ledger.inFlight.map Ticket.id, routes := ledger.table.routeNames } := by
  have sorted : s.inFlight = s.world.registry.ids := by
    apply List.mergeSort_of_pairwise
    rw [follows.kept.staffed.orderly.tracked]
    exact (List.pairwise_le_range.imp fun le => decide_eq_true le).filter _
  have pending : s.inFlight.map s.idOf = ledger.inFlight.map Ticket.id := by
    rw [sorted, follows.tracked_eq, follows.inFlight_eq, List.map_map, List.map_map]
    apply List.map_congr_left
    intro flight member
    have given := List.mem_zipIdx_iff_getElem?.mp (List.mem_filter.mp member).1
    obtain ⟨standing, -, exchange, -⟩ := follows.kept.exchange given
    exact Server.idOf_eq exchange
  have number : s.world.registry.size = ledger.inFlight.length := by
    rw [Registry.size, follows.tracked_eq, follows.inFlight_eq, List.length_map, List.length_map]
  rw [Server.status, pending, number, follows.table]

theorem timed_iff (follows : Follows ledger s) {i : Nat} {ticket : Ticket} (given : ledger.taken[i]? = some ticket) :
    (s.world.responses[i]?).any (·.timer.isSome) = (decide (ticket ∈ ledger.inFlight) && ticket.window.isSome) := by
  obtain ⟨standing, desk⟩ := follows.kept.staffed.desks i ticket given
  have shown := follows.shows i ticket standing given desk
  have untimed {outcome : Outcome String} {stage : WaitStage} (closed : Closed s.world i ticket outcome stage) :
      (s.world.responses[i]?).any (·.timer.isSome) = false := by
    obtain ⟨x, found, -, -, none⟩ := closed.response
    simp [found, none]
  cases standing with
  | waiting fresh =>
    obtain ⟨x, waits⟩ := desk
    rw [waits.found, decide_eq_true shown.1, Bool.true_and, Option.any_some]
    cases timer : x.timer with
    | none => rw [waits.untimed timer]; rfl
    | some id =>
      obtain ⟨window, declared, -⟩ := waits.timed id timer
      rw [declared]
      rfl
  | closing => exact shown.elim
  | answered tick outcome => rw [untimed desk.1, decide_eq_false shown.1, Bool.false_and]
  | dropped =>
    obtain ⟨⟨outcome, closed⟩, -⟩ := desk
    rw [untimed closed, decide_eq_false shown.1, Bool.false_and]

theorem armed_eq (follows : Follows ledger s) : s.world.timers.armed = ledger.inFlight.countP (·.window.isSome) := by
  have orderly := follows.kept.staffed.orderly
  have same : s.world.responses.map (·.timer.isSome) =
      ledger.taken.map fun ticket => decide (ticket ∈ ledger.inFlight) && ticket.window.isSome := by
    apply List.ext_getElem?
    intro i
    rw [List.getElem?_map, List.getElem?_map]
    cases given : ledger.taken[i]? with
    | none =>
      rw [List.getElem?_eq_none_iff, ← orderly.responses] at given
      rw [List.getElem?_eq_none given]
      rfl
    | some ticket =>
      have timed := follows.timed_iff given
      have inside := (List.getElem?_eq_some_iff.mp given).1
      rw [← orderly.responses] at inside
      rw [List.getElem?_eq_getElem inside, Option.any_some] at timed
      rw [List.getElem?_eq_getElem inside, Option.map_some, Option.map_some, timed]
  calc s.world.timers.armed = s.world.responses.countP (·.timer.isSome) := orderly.armed
    _ = (s.world.responses.map (·.timer.isSome)).countP id := by
      rw [List.countP_map]
      rfl
    _ = (ledger.taken.filter (· ∈ ledger.inFlight)).countP (·.window.isSome) := by
      rw [same, List.countP_map, List.countP_filter]
      congr 1
      funext ticket
      exact Bool.and_comm ..
    _ = ledger.inFlight.countP (·.window.isSome) := by rw [filter_mem_part follows.inFlight follows.nodup]

theorem entry (follows : Follows ledger s) {ticket : Ticket} (member : ticket ∈ ledger.taken) :
    ∃ (i : Nat) (standing : Standing), ledger.taken[i]? = some ticket ∧ Desk s.world i ticket standing ∧
      ledger.Shows ticket standing := by
  obtain ⟨i, given⟩ := List.mem_iff_getElem?.mp member
  obtain ⟨standing, desk⟩ := follows.kept.staffed.desks i ticket given
  exact ⟨i, standing, given, desk, follows.shows i ticket standing given desk⟩

theorem cancelled (follows : Follows ledger s) {step : Server.Step} {ticket : Ticket} (member : ticket ∈ ledger.inFlight)
    (cancels : step.cancels ticket) :
    Server.answersTo ticket.number (s.step step).2.answers = [ticket.replied 503 "request cancelled"] := by
  obtain ⟨i, standing, given, desk, shown⟩ := follows.entry (follows.inFlight.subset member)
  obtain ⟨next, fares⟩ := (follows.kept.step step).older i ticket standing given desk
  rw [fares.told]
  cases fares.fate with
  | cancelled => rfl
  | left fresh leaves =>
    rw [Server.Step.cancels_stays cancels] at leaves
    cases leaves
  | decided fresh spared | waits fresh fresh' spared => exact absurd cancels spared
  | answered | dropped => exact absurd member shown.1

theorem nothing_left (follows : Follows ledger s) (stopped : ledger.running = false) : ledger.inFlight = [] := by
  rw [follows.running] at stopped
  have none := follows.kept.stopped stopped
  rw [follows.tracked_eq, List.map_eq_nil_iff] at none
  rw [follows.inFlight_eq, none]
  rfl

end Ledger.Follows

/-- The server's accounts are those of the ledger: what it says of itself, what it has answered and counted, and
what it answers next. -/
structure Ledger.Agrees (ledger : Ledger) (s : Server) : Prop where
  ids : (ledger.taken.map Ticket.id).Nodup
  pending : s.status.pending = ledger.inFlight.map Ticket.id
  number : s.status.inFlight = ledger.inFlight.length
  inFlight : ∀ ticket, ticket ∈ ledger.inFlight ↔ ticket ∈ ledger.taken ∧ ticket ∉ ledger.disconnected ∧
    Server.answersTo ticket.number ledger.answers = []
  timers : s.world.timers.armed = ledger.inFlight.countP (·.window.isSome)
  once : ∀ ticket ∈ ledger.taken, Server.answersTo ticket.number ledger.answers = [] ∨
    ∃ status body, Server.answersTo ticket.number ledger.answers = [ticket.replied status body]
  silent : ∀ ticket ∈ ledger.disconnected, Server.answersTo ticket.number ledger.answers = []
  counted : s.world.metrics.requestTotal = (Server.handled ledger.taken ledger.answers).length
  asked : ∀ request : Request, ledger.running = true → request.dispatch = .status →
    Server.answersTo ledger.requests (s.step (.request request)).2.answers =
      [(ledger.requests, (Answer.status {
        inFlight := ledger.inFlight.length
        pending := ledger.inFlight.map Ticket.id
        routes := ledger.table.routeNames }).to request.method)]
  cancel : ∀ (request : Request) (id : Uuid), ledger.running = true → request.dispatch = .cancel id →
    Server.answersTo ledger.requests (s.step (.request request)).2.answers =
      [(ledger.requests, (Answer.reply (if ∃ ticket ∈ ledger.inFlight, ticket.id = id then { status := 202 }
        else .text 404 "unknown or resolved response")).to request.method)]
  cancelled : ∀ (request : Request), ∀ ticket ∈ ledger.inFlight, request.dispatch = .cancel ticket.id →
    Server.answersTo ticket.number (s.step (.request request)).2.answers = [ticket.replied 503 "request cancelled"]
  shutdown : ∀ ticket ∈ ledger.inFlight,
    Server.answersTo ticket.number (s.step .shutdown).2.answers = [ticket.replied 503 "request cancelled"]
  emptied : (s.step .shutdown).1.status = { inFlight := 0, pending := [], routes := ledger.table.routeNames }
  stopped : ledger.running = false → ledger.inFlight = []

namespace Ledger.Follows

variable {ledger : Ledger} {s : Server}

theorem ids_nodup (follows : Follows ledger s) : (ledger.taken.map Ticket.id).Nodup := by
  have distinct := follows.kept.distinct
  rw [List.Nodup, List.pairwise_map] at distinct ⊢
  exact distinct.imp fun apart same => apart ((Uuid.ofIndex_inj _ _).mp same)

theorem inFlight_iff (follows : Follows ledger s) (ticket : Ticket) : ticket ∈ ledger.inFlight ↔
    ticket ∈ ledger.taken ∧ ticket ∉ ledger.disconnected ∧ Server.answersTo ticket.number ledger.answers = [] := by
  constructor
  · intro member
    have taken := follows.inFlight.subset member
    obtain ⟨i, standing, -, -, shown⟩ := follows.entry taken
    cases standing with
    | waiting => exact ⟨taken, shown.2⟩
    | closing => exact shown.elim
    | answered | dropped => exact absurd member shown.1
  · rintro ⟨taken, stays, silent⟩
    obtain ⟨i, standing, -, -, shown⟩ := follows.entry taken
    cases standing with
    | waiting => exact shown.1
    | closing => exact shown.elim
    | answered tick outcome =>
      rw [shown.2.2] at silent
      cases silent
    | dropped => exact absurd shown.2.1 stays

theorem answered_once (follows : Follows ledger s) {ticket : Ticket} (member : ticket ∈ ledger.taken) :
    Server.answersTo ticket.number ledger.answers = [] ∨
      ∃ status body, Server.answersTo ticket.number ledger.answers = [ticket.replied status body] := by
  obtain ⟨i, standing, -, -, shown⟩ := follows.entry member
  cases standing with
  | waiting | dropped => exact .inl shown.2.2
  | closing => exact shown.elim
  | answered tick outcome =>
    obtain ⟨status, body, same⟩ := ticket.answer_replied outcome
    exact .inr ⟨status, body, by rw [← same]; exact shown.2.2⟩

theorem disconnected_silent (follows : Follows ledger s) {ticket : Ticket} (member : ticket ∈ ledger.disconnected) :
    Server.answersTo ticket.number ledger.answers = [] := by
  obtain ⟨i, standing, -, -, shown⟩ := follows.entry (follows.disconnected member)
  cases standing with
  | waiting | answered => exact absurd member shown.2.1
  | closing => exact shown.elim
  | dropped => exact shown.2.2

theorem cancel_eq (follows : Follows ledger s) {request : Request} {id : Uuid} (running : ledger.running = true)
    (dispatch : request.dispatch = .cancel id) :
    Server.answersTo ledger.requests (s.step (.request request)).2.answers =
      [(ledger.requests, (Answer.reply (if ∃ ticket ∈ ledger.inFlight, ticket.id = id then { status := 202 }
        else .text 404 "unknown or resolved response")).to request.method)] := by
  rw [follows.requests]
  split
  next known =>
    obtain ⟨ticket, member, rfl⟩ := known
    obtain ⟨i, given⟩ := List.mem_iff_getElem?.mp (follows.inFlight.subset member)
    exact (follows.kept.cancelled dispatch given ((follows.tracked_iff given).mpr member)).2
  next unknown =>
    rw [follows.running] at running
    refine (follows.kept.unknown running dispatch fun i ticket given same tracked => ?_).2
    exact unknown ⟨ticket, (follows.tracked_iff given).mp tracked, same⟩

theorem emptied (follows : Follows ledger s) :
    (s.step .shutdown).1.status = { inFlight := 0, pending := [], routes := ledger.table.routeNames } := by
  have later := follows.step .shutdown
  have none := later.nothing_left (Bool.and_false _)
  rw [later.status_eq, none]
  rfl

theorem agrees (follows : Follows ledger s) : ledger.Agrees s where
  ids := follows.ids_nodup
  pending := by rw [follows.status_eq]
  number := by rw [follows.status_eq]
  inFlight := follows.inFlight_iff
  timers := follows.armed_eq
  once := fun _ => follows.answered_once
  silent := fun _ => follows.disconnected_silent
  counted := follows.counted
  asked := by
    intro request running dispatch
    rw [follows.running] at running
    rw [follows.requests, (follows.kept.status running dispatch).2, follows.status_eq]
  cancel := fun _ _ => follows.cancel_eq
  cancelled := fun request ticket member dispatch =>
    follows.cancelled member (show (Server.Step.request request).cancels ticket from dispatch)
  shutdown := fun ticket member => follows.cancelled member (show Server.Step.shutdown.cancels ticket from trivial)
  emptied := follows.emptied
  stopped := follows.nothing_left

end Ledger.Follows

/-- No request is lost or leaked. After any steps, the accounts of the server are those of the ledger. -/
theorem Server.accounts_agree (address : String) (config : ServiceConfig) (steps : List Server.Step) :
    (Ledger.ofReports config steps ((Server.start address config).steps steps).2).Agrees
      ((Server.start address config).steps steps).1 :=
  ((Ledger.Follows.start address config).steps steps).agrees

/-- Of four requests one is answered, one loses its client and two wait. One of these is then cancelled by its id,
which counts it and leaves the other, and its id is not known a second time. -/
theorem Server.accounts_agree_mixed :
    let steps : List Server.Step := [
      .request ⟨.get, "/deferred/slow?delay_ms=9".toUTF8.toList⟩,
      .request ⟨.get, "/deferred/idle?delay_ms=90&timeout_ms=50".toUTF8.toList⟩,
      .request ⟨.get, "/deferred/left?delay_ms=90&timeout_ms=50".toUTF8.toList⟩,
      .request ⟨.get, "/deferred/kept?delay_ms=90&timeout_ms=50".toUTF8.toList⟩,
      .disconnect 2, .advance 9]
    let cancel : Request := ⟨.post, "/deferred/7d3a51c8-f09b-4e62-82d4-000000000001/cancel".toUTF8.toList⟩
    let status : Request := ⟨.get, "/status".toUTF8.toList⟩
    let s := ((Server.start "127.0.0.1:8080" {}).steps steps).1
    let s' := ((Server.start "127.0.0.1:8080" {}).steps (steps ++ [.request cancel])).1
    let ledger := Ledger.ofReports {} steps ((Server.start "127.0.0.1:8080" {}).steps steps).2
    let idle : Ticket := ⟨1, .get, "idle", { delayMs := 90, timeoutMs := some 50 }, some (.ofMillis 50), 0⟩
    let kept : Ticket := ⟨3, .get, "kept", { delayMs := 90, timeoutMs := some 50 }, some (.ofMillis 50), 0⟩
    ledger.taken.map Ticket.number = [0, 1, 2, 3] ∧ ledger.answers.map Prod.fst = [0] ∧
      ledger.disconnected.map Ticket.number = [2] ∧ ledger.inFlight = [idle, kept] ∧
      s.world.timers.armed = 2 ∧ s.world.metrics.requestTotal = 1 ∧ ledger.running = true ∧
      cancel.dispatch = .cancel idle.id ∧ status.dispatch = .status ∧
      Server.answersTo 4 (s.step (.request cancel)).2.answers = [(4, .reply { status := 202 })] ∧
      Server.answersTo 1 (s.step (.request cancel)).2.answers = [idle.replied 503 "request cancelled"] ∧
      s'.world.timers.armed = 1 ∧ s'.world.metrics.requestTotal = 2 ∧
      Server.answersTo 5 (s'.step (.request cancel)).2.answers =
        [(5, .reply (.text 404 "unknown or resolved response"))] ∧
      Server.answersTo 5 (s'.step (.request status)).2.answers =
        [(5, .status { inFlight := 1, pending := [kept.id], routes := [] })] := by
  intro steps cancel status s s' ledger idle kept
  let ledger' := Ledger.ofReports {} (steps ++ [.request cancel])
    ((Server.start "127.0.0.1:8080" {}).steps (steps ++ [.request cancel])).2
  have cancels : cancel.dispatch = .cancel idle.id := by decide +kernel
  have asks : status.dispatch = .status := by decide +kernel
  have before : ledger.taken.map Ticket.number = [0, 1, 2, 3] ∧ ledger.answers.map Prod.fst = [0] ∧
      ledger.disconnected.map Ticket.number = [2] ∧ ledger.inFlight = [idle, kept] ∧ s.world.timers.armed = 2 ∧
      s.world.metrics.requestTotal = 1 ∧ ledger.running = true ∧ ledger.requests = 4 := by decide +kernel
  have after : s'.world.timers.armed = 1 ∧ s'.world.metrics.requestTotal = 2 ∧ s'.status.inFlight = 1 ∧
      s'.status.pending = [kept.id] ∧ ledger'.table.routeNames = [] ∧ ledger'.running = true ∧
      ledger'.requests = 5 := by decide +kernel
  -- The run is evaluated. What is told next follows from the accounts, whatever its steps were.
  clear_value steps
  have agrees : ledger.Agrees s := Server.accounts_agree "127.0.0.1:8080" {} steps
  have agrees' : ledger'.Agrees s' := Server.accounts_agree "127.0.0.1:8080" {} (steps ++ [.request cancel])
  clear_value s s' ledger ledger'
  obtain ⟨taken, answered, disconnected, flying, armed, counted, running, requests⟩ := before
  obtain ⟨armed', counted', number, pending, routes, running', requests'⟩ := after
  have waits : idle ∈ ledger.inFlight := by
    rw [flying]
    exact List.mem_cons_self
  have resolved : ¬∃ ticket ∈ ledger'.inFlight, ticket.id = idle.id := by
    rw [← List.mem_map, ← agrees'.pending, pending]
    decide +kernel
  have accepted := agrees.cancel cancel _ running cancels
  rw [requests, if_pos ⟨idle, waits, rfl⟩] at accepted
  have unknown := agrees'.cancel cancel _ running' cancels
  rw [requests', if_neg resolved] at unknown
  have asked := agrees'.asked status running' asks
  rw [requests', ← agrees'.pending, ← agrees'.number, number, pending, routes] at asked
  exact ⟨taken, answered, disconnected, flying, armed, counted, running, cancels, asks, accepted,
    agrees.cancelled cancel idle waits cancels, armed', counted', unknown, asked⟩

end Deferral.Http
