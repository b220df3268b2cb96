import Deferral.Proofs.Fates

/-! The steps of a server, one kind after the other: what is done at once, and what that means for each request in
flight. Whatever the step is, all of them are accounted for. -/

namespace Deferral.Http
open Simulation

section Steps

variable {s : Server} {tickets : List Ticket} {request : Request}

theorem Kept.prompt (kept : Kept s tickets) (answer : Answer)
    (handles : s.handle request = ({ s with requests := s.requests + 1 }, [(s.requests, answer)]))
    (brings : s.brought (.request request) = [])
    (cancels : ∀ i ticket, tickets[i]? = some ticket → request.dispatch = .cancel ticket.id → i ∉ s.world.registry.ids) :
    Stepped s (.request request) tickets ∧
      Server.answersTo s.requests (s.step (.request request)).2.answers = [(s.requests, answer)] := by
  have performs : s.perform (.request request) =
      ({ s with requests := s.requests + 1 }, .number s.requests, [(s.requests, answer)]) := by
    simp only [Server.perform, handles]
  obtain ⟨turn, -, -⟩ := kept.idle performs (.refl _) rfl (Nat.le_succ _) rfl (by simp)
  refine ⟨turn.stepped kept brings (fun _ _ _ _ _ ends => .inr ends) (fun i ticket given cancelled => ?_) (fun _ _ _ _ _ => rfl)
    rfl rfl (Bool.and_true _).symm rfl, ?_⟩
  · exact ⟨cancels i ticket given cancelled, rfl⟩
  · rw [turn.promptly (fun ticket member => Nat.ne_of_lt (kept.below ticket member)) (Nat.le_refl 1)]
    simp [Server.answersTo]

theorem Kept.refused (kept : Kept s tickets) (stopped : s.running = false) :
    Stepped s (.request request) tickets ∧
      Server.answersTo s.requests (s.step (.request request)).2.answers = [(s.requests, .refused)] := by
  apply kept.prompt
  · simp [Server.handle, stopped]
  · simp [Server.brought, Server.Step.brings, stopped]
  · rw [kept.stopped stopped]
    exact fun _ _ _ _ member => nomatch member

theorem Kept.status (kept : Kept s tickets) (running : s.running = true) (dispatch : request.dispatch = .status) :
    Stepped s (.request request) tickets ∧
      Server.answersTo s.requests (s.step (.request request)).2.answers =
        [(s.requests, (Answer.status s.status).to request.method)] := by
  apply kept.prompt
  · simp only [Server.handle, running, dispatch]
    rfl
  · simp [Server.brought, Server.Step.brings, running, dispatch]
  · simp [dispatch]

theorem Kept.answered (kept : Kept s tickets) (running : s.running = true) {reply : Reply}
    (dispatch : request.dispatch = .answered reply) : Stepped s (.request request) tickets := by
  refine (kept.prompt ((Answer.reply reply).to request.method) ?_ ?_ ?_).1
  · simp only [Server.handle, running, dispatch]
    rfl
  · simp [Server.brought, Server.Step.brings, running, dispatch]
  · simp [dispatch]

section Cancelling

variable {i : Nat} {ticket : Ticket} {id : Uuid}

theorem Kept.responseOf_ticket (kept : Kept s tickets) (given : tickets[i]? = some ticket) :
    s.responseOf ticket.id = some i := by
  obtain ⟨inside, here⟩ := List.getElem?_eq_some_iff.mp given
  rw [kept.responseOf_eq, List.findIdx?_eq_some_iff_getElem]
  refine ⟨inside, by simp [here], ?_⟩
  intro j before same
  have earlier := List.getElem?_eq_getElem (Nat.lt_trans before inside)
  have same : tickets[j].number = ticket.number := by simpa [Ticket.id, Uuid.ofIndex_inj] using same
  have index := kept.index_unique earlier given same
  omega

theorem handle_cancel {m : Server} {reply : Reply} (running : s.running = true) (dispatch : request.dispatch = .cancel id)
    (cancels : Server.handleCancel { s with requests := s.requests + 1 } id = (m, reply)) :
    s.handle request = (m, [(s.requests, (Answer.reply reply).to request.method)]) := by
  have runs : (!s.running) = false := by rw [running]; rfl
  simp only [Server.handle, dispatch, cancels, runs]
  rfl

theorem Kept.cancelled (kept : Kept s tickets) (dispatch : request.dispatch = .cancel ticket.id)
    (given : tickets[i]? = some ticket) (tracked : i ∈ s.world.registry.ids) :
    Stepped s (.request request) tickets ∧ Server.answersTo s.requests (s.step (.request request)).2.answers =
      [(s.requests, (Answer.reply { status := 202 }).to request.method)] := by
  have running : s.running = true := by
    cases stopped : s.running with
    | true => rfl
    | false =>
      rw [kept.stopped stopped] at tracked
      cases tracked
  have large := kept.fueled
  have enough : 11 ≤ s.fuel := by omega
  obtain ⟨w', ran, passed, now, lighter, removed⟩ := kept.staffed.run_cancelTracked tracked enough
  let m : Server := { s with world := w'.record (.responseCancelled i), requests := s.requests + 1 }
  have finds : Server.responseOf { s with requests := s.requests + 1 } ticket.id = some i := kept.responseOf_ticket given
  have runs : Server.run { s with requests := s.requests + 1 } (.cancelTracked (some i)) =
      ({ s with world := w', requests := s.requests + 1 }, .done) := run_with _ ran
  have cancels : Server.handleCancel { s with requests := s.requests + 1 } ticket.id = (m, { status := 202 }) := by
    simp only [Server.handleCancel, finds, runs]
    rfl
  have performs : s.perform (.request request) =
      (m, .number s.requests, [(s.requests, (Answer.reply { status := 202 }).to request.method)]) := by
    simp only [Server.perform, handle_cancel running dispatch cancels]
  let ends : Nat → Ticket → Nat → Outcome String → Prop := fun j other tick outcome =>
    cancelling (· = i) s.world.now j other tick outcome ∨ other.EndsWithin s.world.now s.world.now tick outcome
  have noted : Passed tickets ends nobody s.world m.world :=
    (passed.trans (.alike passed.orderly (.record w' _))).mono (fun _ _ _ _ cancels => .inl cancels) fun _ _ none => none
  have turn : Turn s (.request request) tickets ends s.world m
      [(s.requests, (Answer.reply { status := 202 }).to request.method)] := by
    refine kept.turn performs noted (Nat.le_trans lighter kept.light) rfl (Nat.le_succ _) ?_ ?_ (by simp [m])
    · intro j other tick outcome within
      rw [show m.world.now = s.world.now from now] at within
      exact .inr within
    · intro stopped
      rw [show m.running = s.running from rfl, running] at stopped
      cases stopped
  refine ⟨turn.stepped kept ?_ ?_ ?_ (fun _ _ _ _ _ => rfl) now rfl (Bool.and_true _).symm rfl, ?_⟩
  · simp [Server.brought, Server.Step.brings, dispatch]
  · intro j other tick outcome here ends
    rcases ends with ⟨rfl, rfl, rfl⟩ | within
    · rw [given] at here
      cases here
      exact .inl ⟨dispatch, rfl, rfl⟩
    · rw [show m.world.now = s.world.now from now]
      exact .inr within
  · intro j other here cancels
    have same : j = i := by
      have dispatch' : request.dispatch = .cancel other.id := cancels
      rw [dispatch, Dispatch.cancel.injEq, Ticket.id, Ticket.id, Uuid.ofIndex_inj] at dispatch'
      exact kept.index_unique here given dispatch'.symm
    refine ⟨?_, now⟩
    rw [show m.world.registry = w'.registry from rfl, removed, same]
    simp [Registry.remove]
  · rw [turn.promptly (fun ticket member => Nat.ne_of_lt (kept.below ticket member)) (Nat.le_refl 1)]
    simp [Server.answersTo]

theorem Kept.unknown (kept : Kept s tickets) (running : s.running = true) (dispatch : request.dispatch = .cancel id)
    (absent : ∀ i ticket, tickets[i]? = some ticket → ticket.id = id → i ∉ s.world.registry.ids) :
    Stepped s (.request request) tickets ∧ Server.answersTo s.requests (s.step (.request request)).2.answers =
      [(s.requests, (Answer.reply (.text 404 "unknown or resolved response")).to request.method)] := by
  have enough := kept.fueled
  apply kept.prompt
  · have handles : Server.handleCancel { s with requests := s.requests + 1 } id =
        ({ s with requests := s.requests + 1 }, .text 404 "unknown or resolved response") := by
      have finds : Server.responseOf { s with requests := s.requests + 1 } id = tickets.findIdx? (·.id == id) :=
        kept.responseOf_eq id
      cases found : tickets.findIdx? (·.id == id) with
      | none =>
        rw [found] at finds
        simp only [Server.handleCancel, finds]
      | some i =>
        rw [found] at finds
        obtain ⟨inside, same, -⟩ := List.findIdx?_eq_some_iff_getElem.mp found
        have untracked := absent i _ (List.getElem?_eq_getElem inside) (by simpa using same)
        have runs : Server.run { s with requests := s.requests + 1 } (.cancelTracked (some i)) =
            ({ s with requests := s.requests + 1 }, .absent) :=
          run_with _ (run_cancelTracked_absent untracked (by show 1 ≤ s.fuel; omega))
        simp only [Server.handleCancel, finds, runs]
    exact handle_cancel running dispatch handles
  · simp [Server.brought, Server.Step.brings, running, dispatch]
  · intro i ticket given cancels
    rw [dispatch, Dispatch.cancel.injEq] at cancels
    exact absent i ticket given cancels.symm

end Cancelling

section Arriving

variable {ticket : Ticket} {declared : Option Duration} {world : World}

theorem getElem?_snoc {i : Nat} {other : Ticket} (given : (tickets ++ [ticket])[i]? = some other) :
    tickets[i]? = some other ∨ i = tickets.length ∧ other = ticket := by
  by_cases old : i < tickets.length
  · rw [List.getElem?_append_left old] at given
    exact .inl given
  · rw [List.getElem?_append_right (Nat.le_of_not_lt old)] at given
    obtain ⟨inside, same⟩ := List.getElem?_eq_some_iff.mp given
    rw [List.length_singleton] at inside
    exact .inr ⟨by omega, by simp [← same]⟩

theorem load_arrived {w : World} (orderly : Orderly w tickets.length) (quiet : w.ready = []) :
    load (Http.arrived w ticket declared) ≤ 2 * tickets.length + 4 := by
  have orderly' : Orderly (Http.arrived w ticket declared) (tickets.length + 1) := orderly.arrived
  have tracked := orderly'.tracked_le
  have alarms := timeoutAlarm_few ticket (ticket.timer w)
  have few : (goingOff w.now (ticket.timeoutAlarm (ticket.timer w))).length ≤ 1 := by
    rw [goingOff, List.length_map]
    exact Nat.le_trans (List.length_filter_le _ _) alarms
  have ready : (Http.arrived w ticket declared).ready.length ≤ 2 := by
    simp only [Http.arrived, quiet, List.nil_append, List.length_append, List.length_singleton]
    omega
  rw [load]
  omega

/-- A server that has taken a request. -/
def Server.joined (s : Server) (ticket : Ticket) (world : World) : Server :=
  { s with
    world
    requests := s.requests + 1
    exchanges := s.exchanges ++ [ticket.exchange s.exchanges.length (.waiting true)] }

theorem Kept.perform_deferred (kept : Kept s tickets) (running : s.running = true)
    (dispatch : request.dispatch = .deferred ticket.route ticket.params) (number : s.requests = ticket.number)
    (method : request.method = ticket.method) (arrives : ticket.arrival = s.world.now)
    (window : ticket.window = windowOf s.table ticket.route ticket.params) :
    ∃ world declared, s.perform (.request request) = (s.joined ticket world, .number s.requests, []) ∧
      (ticket.window <|> declared) = ticket.window ∧ Alike (Http.arrived s.world ticket declared) world := by
  have large := kept.fueled
  have orderly := kept.staffed.orderly
  obtain ⟨world, declared, handles, declares, alike⟩ := handleDeferred_eq (s := { s with requests := s.requests + 1 })
    (by show 6 ≤ s.fuel; omega) orderly.runtime arrives window (by rw [orderly.responses, kept.length])
    (by rw [orderly.waiters, kept.length])
  refine ⟨world, declared, ?_, declares, alike⟩
  have runs : (!s.running) = false := by rw [running]; rfl
  have given (n : Nat) (named : Method) (same : n = ticket.number) (same' : named = ticket.method) :
      Server.handleDeferred { s with requests := s.requests + 1 } n named ticket.route ticket.params =
        (s.joined ticket world, []) := by
    rw [same, same']
    exact handles
  have handles := given s.requests request.method number method
  simp only [Server.perform, Server.handle, dispatch, runs, handles]
  rfl

theorem Kept.desk_arrived (kept : Kept s tickets) (alike : Alike (Http.arrived s.world ticket declared) world) {i : Nat}
    {other : Ticket} {before : Standing} (given : tickets[i]? = some other) (desk : Desk s.world i other before) :
    Desk world i other before :=
  (Framed.alike i alike).desk ((Framed.arrived kept.staffed.orderly (List.getElem?_eq_some_iff.mp given).1).desk desk)

theorem Kept.desk_new (kept : Kept s tickets) (alike : Alike (Http.arrived s.world ticket declared) world)
    (arrives : ticket.arrival = s.world.now) (declares : (ticket.window <|> declared) = ticket.window) :
    Desk world tickets.length ticket (.waiting true) :=
  (Framed.alike _ alike).desk ⟨_, Waits.arrived kept.staffed.orderly arrives declares⟩

theorem Kept.arrival (kept : Kept s tickets) (running : s.running = true) {step : Server.Step} {result : Server.StepResult}
    (performs : s.perform step = (s.joined ticket world, result, [])) (number : s.requests = ticket.number)
    (arrives : ticket.arrival = s.world.now) (declares : (ticket.window <|> declared) = ticket.window)
    (alike : Alike (Http.arrived s.world ticket declared) world) :
    Turn s step (tickets ++ [ticket]) (within s.world.now s.world.now) world (s.joined ticket world) [] := by
  have orderly : Orderly world (tickets ++ [ticket]).length := by
    rw [List.length_append]
    exact kept.staffed.orderly.arrived.alike alike
  constructor
  case performs => exact ⟨_, performs⟩
  case seen =>
    obtain ⟨log, metrics, rfl, -⟩ := alike
    rfl
  case total =>
    obtain ⟨log, metrics, rfl, total⟩ := alike
    exact total
  case orderly => exact orderly
  case stands =>
    intro i other given
    rcases getElem?_snoc given with given | ⟨rfl, rfl⟩
    · obtain ⟨standing, desk, exchange, still⟩ := kept.exchange given
      refine ⟨standing, kept.desk_arrived alike given desk, ?_, still⟩
      exact (List.getElem?_append_left (List.getElem?_eq_some_iff.mp exchange).1).trans exchange
    · refine ⟨.waiting true, kept.desk_new alike arrives declares, ?_, fun _ _ => Standing.noConfusion⟩
      rw [← kept.length]
      exact List.getElem?_concat_length
  case passed => exact .refl orderly
  case verdicts =>
    obtain ⟨log, metrics, rfl, -⟩ := alike
    exact fun _ _ _ _ within => within
  case light =>
    have light : load (Http.arrived s.world ticket declared) ≤ _ := load_arrived kept.staffed.orderly kept.quiet
    rw [show (s.joined ticket world).world = world from rfl, load_alike alike, List.length_append, List.length_singleton]
    omega
  case length => simp [Server.joined, kept.length]
  case distinct =>
    rw [List.map_append, List.nodup_append]
    refine ⟨kept.distinct, by simp, ?_⟩
    intro a member b member'
    obtain ⟨other, older, rfl⟩ := List.mem_map.mp member
    have before := kept.below other older
    rw [List.map_singleton, List.mem_singleton] at member'
    omega
  case below =>
    intro other member
    show other.number < s.requests + 1
    rcases List.mem_append.mp member with older | new
    · exact Nat.lt_succ_of_lt (kept.below other older)
    · rw [List.mem_singleton.mp new]
      omega
  case stopped =>
    intro stopped
    rw [show (s.joined ticket world).running = s.running from rfl, running] at stopped
    cases stopped
  case apart => simp
  case asked => simp

theorem Kept.taken (kept : Kept s tickets) (running : s.running = true) {route : String} {params : Params}
    (dispatch : request.dispatch = .deferred route params) : Stepped s (.request request) tickets := by
  let ticket : Ticket := {
    number := s.requests
    method := request.method
    route
    params
    window := windowOf s.table route params
    arrival := s.world.now }
  have brings : s.brought (.request request) = [ticket] := by
    simp only [Server.brought, Server.Step.brings, running, dispatch]
    rfl
  obtain ⟨world, declared, performs, declares, alike⟩ :=
    kept.perform_deferred running (show request.dispatch = .deferred ticket.route ticket.params from dispatch) rfl rfl rfl rfl
  have turn := kept.arrival running performs rfl rfl declares alike
  have now : world.now = s.world.now := by
    obtain ⟨log, metrics, rfl, -⟩ := alike
    rfl
  have fares (i : Nat) (other : Ticket) (before : Standing) (given : (tickets ++ [ticket])[i]? = some other)
      (desk : Desk world i other before) : ∃ next, Fares s (.request request) i other before next := by
    refine turn.fares given desk (fun tick outcome within => .inr ?_) (fun cancels => ?_) fun _ _ => rfl
    · rw [show (s.joined ticket world).world.now = s.world.now from now]
      exact within
    · have cancels : request.dispatch = .cancel other.id := cancels
      rw [dispatch] at cancels
      cases cancels
  refine Turn.accounted (m := s.joined ticket world) (brings.symm ▸ turn) ?_ ?_ now rfl (Bool.and_true _).symm rfl
  · intro i other before given desk
    exact fares i other before ((List.getElem?_append_left (List.getElem?_eq_some_iff.mp given).1).trans given)
      (kept.desk_arrived alike given desk)
  · rw [brings]
    intro other member
    rw [List.mem_singleton.mp member]
    exact fares _ _ _ List.getElem?_concat_length (kept.desk_new alike rfl declares)

end Arriving

/-- The clock moves, and every request in flight ends whose verdict falls on the way. -/
theorem Kept.advanced (kept : Kept s tickets) (ms : Nat) : Stepped s (.advance ms) tickets := by
  have large := kept.fueled
  have few := kept.staffed.orderly.few
  have asleep : s.world.sleeping.length < s.fuel := by omega
  have enough : 13 ≤ s.fuel := by omega
  have roomy : 4 * tickets.length ≤ s.fuel := by omega
  obtain ⟨passed, quiet, now⟩ := kept.staffed.advanceRuntime kept.quiet enough roomy asleep (Nat.le_add_right s.world.now ms)
  let m : Server := { s with world := World.advanceRuntime s.fuel s.fuel s.world (s.world.now + ms) }
  have performs : s.perform (.advance ms) = (m, .done, []) := by
    simp only [Server.perform, World.advance, kept.staffed.orderly.runtime]
    rfl
  have light : load m.world ≤ 2 * tickets.length := by
    have tracked := passed.orderly.tracked_le
    rw [load, quiet, List.length_nil]
    show 0 + 2 * m.world.registry.size ≤ 2 * tickets.length
    have tracked : m.world.registry.size ≤ tickets.length := tracked
    omega
  have turn : Turn s (.advance ms) tickets (within s.world.now (s.world.now + ms)) s.world m [] := by
    refine kept.turn performs passed light rfl (Nat.le_refl _) ?_ ?_ (by simp)
    · rintro i ticket tick outcome ⟨verdict, first, last⟩
      have reached : m.world.now = s.world.now + ms := now
      exact ⟨verdict, by omega, by omega⟩
    · intro stopped
      apply List.eq_nil_iff_forall_not_mem.mpr
      intro i tracked
      have before := passed.untracked kept.staffed tracked
      rw [kept.stopped stopped] at before
      cases before
  refine turn.stepped kept rfl (fun _ _ _ _ _ within => .inr ?_) (fun _ _ _ cancels => cancels.elim) (fun _ _ _ _ _ => rfl) now
    rfl (Bool.and_true _).symm rfl
  rw [show m.world.now = s.world.now + ms from now]
  exact within

theorem Kept.reloaded (kept : Kept s tickets) (config : ServiceConfig) : Stepped s (.reload config) tickets := by
  have performs : s.perform (.reload config) = (s.reload config, .reloaded, []) := rfl
  obtain ⟨turn, -, now⟩ := kept.idle performs (.record _ _) rfl (Nat.le_refl _) rfl (by simp)
  exact turn.stepped kept rfl (fun _ _ _ _ _ within => .inr within) (fun _ _ _ cancels => cancels.elim)
    (fun _ _ _ _ _ => rfl) rfl rfl (Bool.and_true _).symm rfl

theorem Kept.stopping (kept : Kept s tickets) (running : s.running = true) : Stepped s .shutdown tickets := by
  have large := kept.fueled
  let w := (s.world.record (.shutdownTriggered 1)).record (.shutdownReceived s.world.registry.size)
  have alike : Alike s.world w := (Alike.record _ _).trans (.record _ _)
  have told : Passed tickets (cancelling (fun _ => True) s.world.now) nobody s.world w := .alike kept.staffed.orderly alike
  have roomy : 12 * tickets.length + 2 ≤ s.fuel := by omega
  obtain ⟨v, number, ran, cancelled, still, lighter, none⟩ := (told.staffed kept.staffed).run_cancelAll roomy
  have light : load v ≤ 2 * tickets.length := by
    refine Nat.le_trans lighter ?_
    rw [load_alike alike]
    exact kept.light
  have staffed := (told.trans cancelled).staffed kept.staffed
  have enough : 13 ≤ s.fuel := by omega
  obtain ⟨ran_out, quiet, settled, -⟩ := staffed.settle enough (by omega)
  let m : Server := { s with world := (v.settle s.fuel).record .serverStopped, running := false }
  have performs : s.perform .shutdown = (m, .number 1, []) := by
    have runs : ((s.record (.shutdownTriggered 1)).record
        (.shutdownReceived (s.record (.shutdownTriggered 1)).world.registry.size)).run .cancelAll =
        ({ s with world := v }, .number number) := run_with _ ran
    have stops : s.stop = (m, 1) := by
      rw [Server.stop, if_pos running]
      simp only [runs]
      rfl
    simp only [Server.perform, stops]
  let ends : Nat → Ticket → Nat → Outcome String → Prop := fun i ticket tick outcome =>
    cancelling (fun _ => True) s.world.now i ticket tick outcome ∨ ticket.EndsWithin s.world.now s.world.now tick outcome
  have now : (v.settle s.fuel).now = s.world.now := settled.trans still
  have passed : Passed tickets ends nobody s.world m.world := by
    refine ((told.trans cancelled).mono (fun _ _ _ _ cancels => .inl cancels) fun _ _ none => none).trans ?_
    refine (ran_out.trans (.alike ran_out.orderly (.record _ _))).mono (fun _ _ _ _ within => .inr ?_) fun _ _ none => none
    rw [show v.now = s.world.now from still] at within
    exact within
  have empty : m.world.registry.ids = [] := by
    apply List.eq_nil_iff_forall_not_mem.mpr
    intro i tracked
    have before := ran_out.untracked staffed (show i ∈ (v.settle s.fuel).registry.ids from tracked)
    rw [none] at before
    cases before
  have turn : Turn s .shutdown tickets ends s.world m [] := by
    refine kept.turn performs passed ?_ rfl (Nat.le_refl _) ?_ (fun _ => empty) (by simp)
    · show (v.settle s.fuel).ready.length + 2 * m.world.registry.ids.length ≤ 2 * tickets.length
      rw [quiet, empty]
      exact Nat.zero_le _
    · intro i ticket tick outcome within
      rw [show m.world.now = s.world.now from now] at within
      exact .inr within
  refine turn.stepped kept rfl ?_ (fun i _ _ _ => ⟨?_, now⟩) (fun _ _ _ _ _ => rfl) now rfl (Bool.and_false _).symm rfl
  · rintro i ticket tick outcome - (⟨-, rfl, rfl⟩ | within)
    · exact .inl ⟨trivial, rfl, rfl⟩
    · rw [show m.world.now = s.world.now from now]
      exact .inr within
  · rw [empty]
    exact List.not_mem_nil

theorem Kept.stopped_again (kept : Kept s tickets) (stopped : s.running = false) : Stepped s .shutdown tickets := by
  have performs : s.perform .shutdown = (s.record (.shutdownTriggered 0), .number 0, []) := by
    have stops : s.stop = (s.record (.shutdownTriggered 0), 0) := by
      rw [Server.stop, if_neg (by rw [stopped]; exact Bool.false_ne_true)]
    simp only [Server.perform, stops]
  obtain ⟨turn, registry, now⟩ := kept.idle performs (.record _ _) rfl (Nat.le_refl _) rfl (by simp)
  refine turn.stepped kept rfl (fun _ _ _ _ _ within => .inr within) (fun i _ _ _ => ⟨?_, rfl⟩) (fun _ _ _ _ _ => rfl) rfl rfl
    ?_ rfl
  · rw [registry, kept.stopped stopped]
    exact List.not_mem_nil
  · show s.running = (s.running && false)
    rw [stopped]
    rfl

section Leaving

variable {number : Nat}

theorem Kept.nobody_leaves (kept : Kept s tickets)
    (absent : s.exchanges.findIdx? (fun e => e.request == number && e.progress == .waiting) = none) :
    Stepped s (.disconnect number) tickets := by
  have performs : s.perform (.disconnect number) = (s, .done, []) := by
    simp only [Server.perform, Server.disconnect, absent]
  obtain ⟨turn, -, -⟩ := kept.idle performs (.refl _) rfl (Nat.le_refl _) rfl (by simp)
  refine turn.stepped kept rfl (fun _ _ _ _ _ within => .inr within) (fun _ _ _ cancels => cancels.elim) ?_ rfl rfl
    (Bool.and_true _).symm rfl
  intro i ticket fresh given desk
  have exchange := kept.exchanges i ticket _ given desk
  have other := List.findIdx?_eq_none_iff.mp absent _ (List.mem_of_getElem? exchange)
  simp [Ticket.exchange, Standing.progress] at other
  simpa [Server.Step.leaves] using Ne.symm other

/-- A server that has lost a client. -/
def Server.parted (s : Server) (r : Nat) (world : World) : Server :=
  { s with
    world := world.record (.clientWentAway r)
    exchanges := s.exchanges.modify r fun e => { e with progress := .gone } }

variable {r : Nat} {ticket : Ticket} {fresh : Bool} {x : Response String Listener} {world : World}

theorem Kept.perform_disconnect (kept : Kept s tickets) (given : tickets[r]? = some ticket)
    (waits : Waits s.world r ticket fresh x)
    (found : s.exchanges.findIdx? (fun e => e.request == number && e.progress == .waiting) = some r)
    (ran : (s.world.setStage (2 * r + 1) .finished).run s.fuel (.cancel r) = (world, .done)) :
    s.perform (.disconnect number) = (s.parted r world, .done, []) := by
  let gone : Server := { s with
    world := s.world.setStage (2 * r + 1) .finished
    exchanges := s.exchanges.modify r fun e => { e with progress := .gone } }
  have handler : ((s.exchanges[r]?.map (·.handler)).getD 0) = 2 * r + 1 := by
    rw [kept.exchanges r ticket (.waiting fresh) given ⟨x, waits⟩]
    rfl
  have fuel : gone.fuel = s.fuel := by
    rw [Server.fuel, Server.fuel, List.length_modify]
  have runs : gone.run (.cancel r) = ({ gone with world }, .done) := run_with _ (by rw [fuel]; exact ran)
  have unresolved : ¬ (gone.world.responses[r]?).all (·.isDone) = true := by
    rw [show gone.world.responses = s.world.responses from rfl, waits.found]
    simp [Response.isDone, waits.unresolved]
  have abandons : gone.abandon r = s.parted r world := by
    rw [Server.abandon, if_neg unresolved, runs]
    rfl
  simp only [Server.perform, Server.disconnect, found, handler]
  rw [show Server.abandon _ r = _ from abandons]

theorem Kept.parting (kept : Kept s tickets) (given : tickets[r]? = some ticket) (waits : Waits s.world r ticket fresh x)
    {step : Server.Step} {result : Server.StepResult} (performs : s.perform step = (s.parted r world, result, []))
    (beside : Beside r tickets.length s.world world) (lighter : load world ≤ load s.world)
    (events : world.events = s.world.events) (desk : Desk world r ticket .dropped) :
    Turn s step tickets (within s.world.now s.world.now) world (s.parted r world) [] := by
  have exchange := kept.exchanges r ticket (.waiting fresh) given ⟨x, waits⟩
  constructor
  case performs => exact ⟨_, performs⟩
  case seen => rw [events]
  case total => exact beside.served
  case orderly => exact beside.orderly
  case stands =>
    intro i other here
    by_cases ours : i = r
    · subst ours
      rw [given] at here
      cases here
      refine ⟨.dropped, desk, ?_, fun _ _ => Standing.noConfusion⟩
      simp [Server.parted, exchange, Ticket.exchange, Standing.progress]
    · obtain ⟨standing, desk', exchange', still⟩ := kept.exchange here
      refine ⟨standing, (beside.others i ours).desk desk', ?_, still⟩
      simp [Server.parted, Ne.symm ours, exchange']
  case passed => exact .alike beside.orderly (.record _ _)
  case verdicts =>
    rw [show (s.parted r world).world.now = s.world.now from beside.now]
    exact fun _ _ _ _ within => within
  case light => exact Nat.le_trans lighter (Nat.le_trans kept.light (Nat.le_add_right ..))
  case length => exact (List.length_modify ..).trans kept.length
  case distinct => exact kept.distinct
  case below => exact kept.below
  case stopped =>
    intro stopped
    have tracked := waits.tracked kept.staffed.orderly
    rw [kept.stopped stopped] at tracked
    cases tracked
  case apart => simp
  case asked => simp

theorem Kept.client_leaves (kept : Kept s tickets) (given : tickets[r]? = some ticket) (waits : Waits s.world r ticket fresh x)
    (same : ticket.number = number)
    (found : s.exchanges.findIdx? (fun e => e.request == number && e.progress == .waiting) = some r) :
    Stepped s (.disconnect number) tickets := by
  have large := kept.fueled
  have orderly := kept.staffed.orderly
  have enough : 10 ≤ s.fuel := by omega
  obtain ⟨world, ran, beside, lighter, events, desk⟩ := waits.abandon orderly enough
  have turn := kept.parting given waits (kept.perform_disconnect given waits found ran) beside lighter events desk
  have now : (s.parted r world).world.now = s.world.now := beside.now
  refine Turn.accounted (m := s.parted r world) ((List.append_nil tickets).symm ▸ turn) ?_ (fun _ member => nomatch member) now
    rfl (Bool.and_true _).symm rfl
  intro i other before here desk'
  by_cases ours : i = r
  · subst ours
    rw [given] at here
    cases here
    cases desk'.unique orderly (show Desk s.world i ticket (.waiting fresh) from ⟨x, waits⟩)
    obtain ⟨next, settled, moves, told⟩ := turn.settled given desk
    cases next with
    | waiting | closing | answered => exact moves.elim
    | dropped => exact ⟨.dropped, settled, .left fresh (by simp [Server.Step.leaves, same]), told⟩
  · refine turn.fares here ((beside.others i ours).desk desk') (fun _ _ within => .inr ?_) (fun cancels => cancels.elim) ?_
    · rw [now]
      exact within
    · intro _ _
      have different : number ≠ other.number := by
        rw [← same]
        exact fun equal => ours (kept.index_unique here given equal.symm)
      simpa [Server.Step.leaves] using different

theorem Kept.disconnected (kept : Kept s tickets) : Stepped s (.disconnect number) tickets := by
  cases found : s.exchanges.findIdx? (fun e => e.request == number && e.progress == .waiting) with
  | none => exact kept.nobody_leaves found
  | some r =>
    obtain ⟨inside, ours, -⟩ := List.findIdx?_eq_some_iff_getElem.mp found
    obtain ⟨ticket, given⟩ : ∃ ticket, tickets[r]? = some ticket :=
      ⟨_, List.getElem?_eq_getElem (by rw [← kept.length]; exact inside)⟩
    obtain ⟨standing, desk, exchange, still⟩ := kept.exchange given
    rw [List.getElem?_eq_getElem inside, Option.some_inj] at exchange
    rw [exchange, Bool.and_eq_true, beq_iff_eq, beq_iff_eq] at ours
    cases standing with
    | waiting fresh =>
      obtain ⟨x, waits⟩ := desk
      exact kept.client_leaves given waits ours.1 found
    | closing tick outcome => exact absurd rfl (still tick outcome)
    | answered | dropped => cases ours.2

end Leaving

/-- Whatever the step is, the server goes on, and every request fares as the step says. -/
theorem Kept.step (kept : Kept s tickets) (step : Server.Step) : Stepped s step tickets := by
  cases step with
  | advance ms => exact kept.advanced ms
  | disconnect number => exact kept.disconnected
  | reload config => exact kept.reloaded config
  | shutdown =>
    cases running : s.running with
    | true => exact kept.stopping running
    | false => exact kept.stopped_again running
  | request request =>
    cases running : s.running with
    | false => exact (kept.refused running).1
    | true =>
      cases dispatch : request.dispatch with
      | deferred route params => exact kept.taken running dispatch
      | status => exact (kept.status running dispatch).1
      | answered reply => exact kept.answered running dispatch
      | cancel id =>
        by_cases known : ∃ (i : Nat) (ticket : Ticket), tickets[i]? = some ticket ∧ ticket.id = id ∧ i ∈ s.world.registry.ids
        · obtain ⟨i, ticket, given, rfl, tracked⟩ := known
          exact (kept.cancelled dispatch given tracked).1
        · exact (kept.unknown running dispatch fun i ticket given same tracked => known ⟨i, ticket, given, same, tracked⟩).1

end Steps

theorem Orderly.empty : Orderly { drive := .runtime } 0 where
  runtime := rfl
  responses := rfl
  waiters := rfl
  seats := by simp
  callbacks := by simp [Timers.callback?, Timers.get?]
  owned := by simp [Timers.isArmed, Timers.get?]
  held := by simp
  armed := rfl
  tracked := rfl
  tasks := by simp
  later := by simp
  sleepers := by simp
  few := Nat.le_refl 0
  silent := fun _ _ => rfl

theorem Kept.start (address : String) (config : ServiceConfig) : Kept (Server.start address config) [] where
  staffed := ⟨Orderly.empty.alike (.record _ _), by simp⟩
  quiet := rfl
  length := rfl
  exchanges := by simp
  distinct := List.nodup_nil
  below := by simp
  stopped := fun _ => rfl

end Deferral.Http
