import Deferral.Proofs.DeskClock

/-! How requests are cancelled: by name, when their clients go away, and all at once. A cancelled desk
closes, and the registry holds the waiting desks and no others. -/

namespace Deferral.Http
open Simulation

/-- Requests end now because they are cancelled. -/
def cancelling (which : Nat → Prop) (now : Nat) : Nat → Ticket → Nat → Outcome String → Prop :=
  fun i _ tick outcome => which i ∧ tick = now ∧ outcome = .cancelled

section Registry

variable {tickets : List Ticket} {w : World} {i : Nat} {ticket : Ticket}

theorem Waits.tracked {fresh : Bool} {x : Response String Listener} {count : Nat} (waits : Waits w i ticket fresh x)
    (orderly : Orderly w count) : i ∈ w.registry.ids := by
  have inside := (List.getElem?_eq_some_iff.mp waits.found).1
  rw [orderly.tracked, List.mem_filter, List.mem_range, ← orderly.responses]
  exact ⟨inside, by simp [waits.found, Response.isDone, waits.unresolved]⟩

theorem Closed.untracked {outcome : Outcome String} {stage : WaitStage} {count : Nat} (closed : Closed w i ticket outcome stage)
    (orderly : Orderly w count) : i ∉ w.registry.ids := by
  obtain ⟨x, found, terminal, -, -⟩ := closed.response
  rw [orderly.tracked, List.mem_filter]
  rintro ⟨-, unresolved⟩
  simp [found, Response.isDone, terminal] at unresolved

theorem Staffed.waiting (staffed : Staffed tickets w) (tracked : i ∈ w.registry.ids) :
    ∃ ticket fresh x, tickets[i]? = some ticket ∧ Waits w i ticket fresh x := by
  have inside := tracked
  rw [staffed.orderly.tracked, List.mem_filter, List.mem_range] at inside
  obtain ⟨ticket, given⟩ : ∃ ticket, tickets[i]? = some ticket := ⟨_, List.getElem?_eq_getElem inside.1⟩
  obtain ⟨standing, desk⟩ := staffed.desks i ticket given
  cases standing with
  | waiting fresh =>
    obtain ⟨x, waits⟩ := desk
    exact ⟨ticket, fresh, x, given, waits⟩
  | closing tick outcome => exact absurd tracked (desk.2.1.untracked staffed.orderly)
  | answered tick outcome => exact absurd tracked (desk.1.untracked staffed.orderly)
  | dropped =>
    obtain ⟨⟨outcome, closed⟩, -⟩ := desk
    exact absurd tracked (closed.untracked staffed.orderly)

theorem Waits.unique {fresh : Bool} {x : Response String Listener} {count : Nat} {standing : Standing}
    (waits : Waits w i ticket fresh x) (orderly : Orderly w count) (desk : Desk w i ticket standing) :
    ∃ fresh, standing = .waiting fresh := by
  have tracked := waits.tracked orderly
  cases standing with
  | waiting fresh => exact ⟨fresh, rfl⟩
  | closing tick outcome => exact absurd tracked (desk.2.1.untracked orderly)
  | answered tick outcome => exact absurd tracked (desk.1.untracked orderly)
  | dropped =>
    obtain ⟨⟨outcome, closed⟩, -⟩ := desk
    exact absurd tracked (closed.untracked orderly)

end Registry

section Cancelling

variable {tickets : List Ticket} {w : World} {i count : Nat} {ticket : Ticket} {fresh : Bool} {x : Response String Listener}

theorem Waits.cancel (waits : Waits w i ticket fresh x) (orderly : Orderly w count) (work : Work)
    (asks : work.request? = some (i, .cancel)) (below : List Work) (result : Result) (onClock : Bool) :
    ∃ w', Reaches 10 w ⟨work :: below, result, onClock⟩ w' ⟨below, .done, onClock⟩ ∧ Beside i count w w' ∧
      load w' ≤ load w ∧ Desk w' i ticket (.closing w.now .cancelled) ∧ w'.registry = w.registry.remove i := by
  obtain ⟨w', alike, reaches⟩ := reaches_ended work asks orderly.runtime waits.found rfl (by simp [Request.generation?])
    waits.unresolved waits.listens below result onClock
  obtain ⟨lighter, desk⟩ := waits.closing .cancelled orderly waits.found waits.worker waits.handler
    waits.uncalled waits.unanswered
  refine ⟨w', reaches, (Beside.ended orderly waits.found).alike alike, ?_, (Framed.alike i alike).desk desk, ?_⟩
  · rw [load_alike alike]
    exact lighter
  · obtain ⟨log, metrics, rfl, -⟩ := alike
    rfl

theorem Passed.cancelled {which : Nat → Prop} {leaves : Nat → Ticket → Prop} {w' : World} (cancels : which i)
    (given : tickets[i]? = some ticket) (waits : Waits w i ticket fresh x) (orderly : Orderly w tickets.length)
    (beside : Beside i tickets.length w w') (desk : Desk w' i ticket (.closing w.now .cancelled)) :
    Passed tickets (cancelling which w.now) leaves w w' := by
  refine .beside beside ?_
  intro ticket' standing given' desk'
  rw [given] at given'
  cases given'
  obtain ⟨fresh', rfl⟩ := waits.unique orderly desk'
  exact ⟨_, desk, cancels, rfl, rfl⟩

theorem Staffed.run_cancelTracked (staffed : Staffed tickets w) (tracked : i ∈ w.registry.ids) {fuel : Nat} (enough : 11 ≤ fuel) :
    ∃ w', w.run fuel (.cancelTracked (some i)) = (w', .done) ∧
      Passed tickets (cancelling (· = i) w.now) nobody w w' ∧ w'.now = w.now ∧ load w' ≤ load w ∧
      w'.registry = w.registry.remove i := by
  obtain ⟨ticket, fresh, x, given, waits⟩ := staffed.waiting tracked
  obtain ⟨w', cancels, beside, lighter, desk, removed⟩ := waits.cancel staffed.orderly (.call (.cancel i)) rfl [] .done true
  have looks : w.perform { stack := [] } (.call (.cancelTracked (some i))) = (w, { stack := [.call (.cancel i)] }) := by
    have held : w.registry.contains i = true := List.contains_iff_mem.mpr tracked
    simp only [World.perform, World.call, held, if_true]
    rfl
  exact ⟨w', run_eq (.next looks cancels) enough, .cancelled rfl given waits staffed.orderly beside desk, beside.now, lighter,
    removed⟩

theorem run_cancelTracked_absent (untracked : i ∉ w.registry.ids) {fuel : Nat} (enough : 1 ≤ fuel) :
    w.run fuel (.cancelTracked (some i)) = (w, .absent) := by
  have looks : w.perform { stack := [] } (.call (.cancelTracked (some i))) = (w, ⟨[], .absent, true⟩) := by
    have missing : w.registry.contains i = false := by
      rw [Registry.contains, ← Bool.not_eq_true, List.contains_iff_mem]
      exact untracked
    simp only [World.perform, World.call, missing]
    rfl
  exact run_eq (.next looks .refl) enough

/-- The client of a waiting desk goes away: its handler is dropped, and the response is cancelled. -/
theorem Waits.abandon (waits : Waits w i ticket fresh x) (orderly : Orderly w count) {fuel : Nat} (enough : 10 ≤ fuel) :
    ∃ w', (w.setStage (2 * i + 1) .finished).run fuel (.cancel i) = (w', .done) ∧ Beside i count w w' ∧ load w' ≤ load w ∧
      w'.events = w.events ∧ Desk w' i ticket .dropped := by
  let v := w.setStage (2 * i + 1) .finished
  have orderly' : Orderly v count := orderly.setStage _ _
  have worker : v.waiters[2 * i]? = some ⟨i, .worker ticket.workDue ticket.result, if fresh then .fresh else .parked⟩ := by
    rw [getElem?_setStage, if_neg (by omega)]
    exact waits.worker
  have handler : v.waiters[2 * i + 1]? = some ⟨i, .handler, .finished⟩ := by
    rw [getElem?_setStage, if_pos rfl, waits.handler]
    rfl
  obtain ⟨w', alike, reaches⟩ := reaches_ended (w := v) (.call (.cancel i)) rfl orderly.runtime waits.found rfl
    (by simp [Request.generation?]) waits.unresolved waits.listens [] .done true
  have closed : Closed (v.ended i x .cancelled) i ticket .cancelled .finished :=
    .ended orderly'.seats waits.found worker handler waits.uncalled (.inr ⟨rfl, rfl⟩)
  refine ⟨w', run_eq reaches enough,
    ((Beside.setStage orderly (by omega) _).trans (.ended orderly' waits.found)).alike alike, ?_, ?_,
    (Framed.alike i alike).desk (show Desk _ i ticket .dropped from ⟨⟨.cancelled, closed⟩, waits.unanswered⟩)⟩
  · rw [load_alike alike]
    exact load_ended orderly' waits.found waits.unresolved worker handler
  · obtain ⟨log, metrics, rfl, -⟩ := alike
    rfl

theorem Staffed.reaches_cancelled (staffed : Staffed tickets w) {pending : List Nat} (tracked : w.registry.ids = pending)
    (cancelled : Nat) (result : Result) :
    ∃ w' number,
      Reaches (12 * pending.length + 1) w ⟨[.cancelEach pending cancelled], result, true⟩ w' ⟨[], .number number, true⟩ ∧
      Passed tickets (cancelling (fun _ => True) w.now) nobody w w' ∧ w'.now = w.now ∧ load w' ≤ load w ∧
      w'.registry.ids = [] := by
  induction pending generalizing w cancelled result with
  | nil =>
    have alike : Alike w (if cancelled > 0 then w.record (.cancelledInFlight cancelled) else w) := by
      split
      · exact .record _ _
      · exact .refl _
    refine ⟨_, cancelled, .step .refl, .alike staffed.orderly alike, ?_, Nat.le_of_eq (load_alike alike), ?_⟩
    · show (if cancelled > 0 then w.record (.cancelledInFlight cancelled) else w).now = w.now
      split <;> rfl
    · show (if cancelled > 0 then w.record (.cancelledInFlight cancelled) else w).registry.ids = []
      rw [← tracked]
      split <;> rfl
  | cons i pending ih =>
    obtain ⟨ticket, fresh, x, given, waits⟩ := staffed.waiting (i := i) (by simp [tracked])
    obtain ⟨v, cancels, beside, lighter, desk, removed⟩ := waits.cancel staffed.orderly (.call (.cancel i)) rfl
      [.countCancelled pending cancelled] result true
    have passed : Passed tickets (cancelling (fun _ => True) w.now) nobody w v :=
      .cancelled trivial given waits staffed.orderly beside desk
    have rest : v.registry.ids = pending := by
      have once : (i :: pending).Nodup := by
        rw [← tracked, staffed.orderly.tracked]
        exact List.nodup_range.filter _
      rw [removed, Registry.remove, tracked, List.filter_cons_of_neg (by simp), List.filter_eq_self]
      intro j member
      have apart : j ≠ i := by
        rintro rfl
        exact (List.nodup_cons.mp once).1 member
      simpa using apart
    obtain ⟨w', number, reaches, later, now, lighter', none⟩ := ih (passed.staffed staffed) rest (cancelled + 1) .done
    rw [beside.now] at later
    refine ⟨w', number, ?_, passed.trans later, now.trans beside.now, Nat.le_trans lighter' lighter, none⟩
    have counts : Reaches 1 v ⟨[.countCancelled pending cancelled], .done, true⟩ v
        ⟨[.cancelEach pending (cancelled + 1)], .done, true⟩ := .step .refl
    have asks : Reaches 1 w ⟨[.cancelEach (i :: pending) cancelled], result, true⟩ w
        ⟨.call (.cancel i) :: [.countCancelled pending cancelled], result, true⟩ := .step .refl
    refine (asks.trans (cancels.trans (counts.trans reaches))).mono ?_
    rw [List.length_cons]
    omega

theorem Staffed.run_cancelAll (staffed : Staffed tickets w) {fuel : Nat} (enough : 12 * tickets.length + 2 ≤ fuel) :
    ∃ w' number, w.run fuel .cancelAll = (w', .number number) ∧ Passed tickets (cancelling (fun _ => True) w.now) nobody w w' ∧
      w'.now = w.now ∧ load w' ≤ load w ∧ w'.registry.ids = [] := by
  obtain ⟨w', number, reaches, passed, now, lighter, none⟩ := staffed.reaches_cancelled rfl 0 .done
  have few : w.registry.ids.length ≤ tickets.length := staffed.orderly.tracked_le
  exact ⟨w', number, run_eq (.step reaches) (by omega), passed, now, lighter, none⟩

end Cancelling

end Deferral.Http
