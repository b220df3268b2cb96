import Deferral.Proofs.Refusals
import Deferral.Proofs.Reordering

/-! Cancelling everything in the registry. The call takes a list of what is tracked and cancels one response
of it after the other. Whatever listeners do in between, the list stays as it was taken: each response in it
is cancelled once, and counts just when that is what ended it. -/

namespace Deferral.Simulation

theorem Request.grant_cancel {r : Nat} {x : Response String Listener} (unresolved : x.state.isTerminal = false) :
    Request.cancel.grant r x = .ok {
      response := x.resolved .cancelled
      disarms := x.timer
      tells := [.notify r, .announce r .cancelled x.listeners.length] ++ notices r .cancelled x.listeners
      returns := [.settled r .cancel] } := by
  simp [grant, conclude, Response.resolve, unresolved, Except.map, Response.resolved, notices]

section Steps

variable {w : World} {t : Thread} {pending : List Nat} {count : Nat} {rest : List Work} {r : Nat} {x : Response String Listener}

theorem step_cancelAll (stack : t.stack = .call .cancelAll :: rest) :
    step w t = (w, { t with stack := .cancelEach w.registry.ids 0 :: rest }) := by
  simp only [step, stack, World.perform, World.call, Thread.push, List.singleton_append]

theorem step_cancelEach_nil (stack : t.stack = .cancelEach [] count :: rest) :
    step w t = (if count > 0 then w.record (.cancelledInFlight count) else w,
      { t with stack := rest, result := .number count }) := by
  simp only [step, stack, World.perform, Thread.answer]

theorem step_cancelEach_cons (stack : t.stack = .cancelEach (r :: pending) count :: rest) :
    step w t = (w, { t with stack := .call (.cancel r) :: .countCancelled pending count :: rest }) := by
  simp only [step, stack, World.perform, Thread.push, List.cons_append, List.nil_append]

theorem step_countCancelled (stack : t.stack = .countCancelled pending count :: rest) (succeeded : t.result = .done) :
    step w t = (w, { t with stack := .cancelEach pending (count + 1) :: rest }) := by
  simp only [step, stack, World.perform, Thread.push, succeeded, List.singleton_append]

theorem step_countCancelled_rejected {error : TransitionError} (stack : t.stack = .countCancelled pending count :: rest)
    (rejected : t.result = .rejected error) :
    step w t = (w, { t with stack := .cancelEach pending count :: rest }) := by
  simp only [step, stack, World.perform, Thread.push, rejected, List.singleton_append]

theorem step_cancel_refused (stack : t.stack = .call (.cancel r) :: rest) (found : w.responses[r]? = some x)
    (terminal : x.state.isTerminal = true) : step w t = (w.recordRejection r (.refuse .cancel x.state),
      { t with stack := rest, result := .rejected (.refuse .cancel x.state) }) := by
  have refused : Request.cancel.grant r x = .error (.refuse .cancel x.state) :=
    (Request.grant_error_iff rfl).mpr ⟨terminal, rfl⟩
  rw [step_asks stack rfl, World.serve_refused found refused]
  rfl

theorem step_cancel_granted (stack : t.stack = .call (.cancel r) :: rest) (found : w.responses[r]? = some x)
    (unresolved : x.state.isTerminal = false) : step w t = (w.setResponse r (x.resolved .cancelled),
      { t with stack := x.timer.toList.map .disarm ++ ([.notify r, .announce r .cancelled x.listeners.length] ++
        notices r .cancelled x.listeners) ++ .settled r .cancel :: rest }) := by
  rw [step_asks stack rfl, World.serve_granted found (Request.grant_cancel unresolved)]
  simp [Grant.work, Thread.push]

theorem response_cancelled (found : w.responses[r]? = some x) :
    (w.setResponse r (x.resolved .cancelled)).response r = x.resolved .cancelled := by
  obtain ⟨inside, -⟩ := List.getElem?_eq_some_iff.mp found
  simp [World.response, World.setResponse, inside]

end Steps

namespace Moment

/-- The response that a call which cancels everything cancels next: below that cancel there is nothing but
the rest of the call. -/
def cancels? (moment : Moment) : Option Nat :=
  match moment.thread.stack with
  | [.call (.cancel r), .countCancelled _ _] => some r
  | _ => none

/-- The response that is cancelled so, if that is what moves it from an unresolved state to being cancelled. -/
def moves? (moment : Moment) : Option Nat :=
  moment.cancels?.filter fun r => !(moment.world.response r).state.isTerminal &&
    ((step moment.world moment.thread).1.response r).state == .cancelled

theorem moves?_of_other {moment : Moment} (other : moment.cancels? = none) : moment.moves? = none := by
  simp [moves?, other]

end Moment

namespace Pool

/-- The responses that a call which cancels everything cancelled, in this order. -/
def ownCancels (n : List Moment) : List Nat := n.filterMap Moment.cancels?

/-- Those of them that were cancelled by that. -/
def ownMoves (n : List Moment) : List Nat := n.filterMap Moment.moves?

variable {m n : List Moment} {p : Pool} {w v : World} {t u : Thread} {moment : Moment}

theorem ownMoves_sublist (n : List Moment) : (ownMoves n).Sublist (ownCancels n) := by
  induction n with
  | nil => exact .slnil
  | cons moment n ih =>
    cases cancels : moment.cancels? with
    | none => simpa [ownMoves, ownCancels, cancels, Moment.moves?_of_other cancels] using ih
    | some r =>
      cases moves : moment.moves? with
      | none => simpa [ownMoves, ownCancels, cancels, moves] using ih.cons r
      | some s =>
        have same : r = s := by
          rw [Moment.moves?, cancels, Option.filter_some] at moves
          split at moves <;> cases moves
          rfl
        simpa [ownMoves, ownCancels, cancels, moves, same] using ih

/-- Responses that are resolved stay as they ended. -/
def Lasting (w v : World) : Prop := ∀ r, (w.response r).state.isTerminal = true →
  (v.response r).state = (w.response r).state ∧ (v.response r).outcome = (w.response r).outcome

theorem Upheld.lasting {q : Pool} {moments : List Moment} (upheld : Upheld m p) (next : Move Tracking p moments q) :
    Lasting p.world q.world := by
  intro r terminal
  have same := upheld.frozen_step next terminal
  exact ⟨congrArg (·.state) same, congrArg (·.outcome) same⟩

/-- How far a call that cancels everything has come with the list that it took. -/
structure Swept (tracked : List Nat) (n : List Moment) (w : World) (done pending : List Nat) : Prop where
  all : (done ++ pending).Perm tracked
  own : ownCancels n = done
  ended : ∀ r ∈ done, (w.response r).state.isTerminal = true
  cancelled : ∀ r ∈ ownMoves n, (w.response r).outcome = some .cancelled
  passed : ∀ moment ∈ n, ∀ r, moment.cancels? = some r →
    r ∈ ownMoves n ∨ (moment.world.response r).state.isTerminal = true

namespace Swept

variable {tracked done pending : List Nat}

theorem later (swept : Swept tracked n w done pending) (other : moment.cancels? = none) (lasting : Lasting w v) :
    Swept tracked (n ++ [moment]) v done pending := by
  obtain ⟨all, own, ended, cancelled, passed⟩ := swept
  have cancels : ownCancels (n ++ [moment]) = ownCancels n := by simp [ownCancels, other]
  have moves : ownMoves (n ++ [moment]) = ownMoves n := by simp [ownMoves, Moment.moves?_of_other other]
  refine ⟨all, cancels.trans own, fun r member => ?_, fun r member => ?_, fun earlier among r named => ?_⟩
  · rw [(lasting r (ended r member)).1]
    exact ended r member
  · rw [moves] at member
    have terminal := ended r (own ▸ (ownMoves_sublist n).subset member)
    rw [(lasting r terminal).2]
    exact cancelled r member
  · rcases List.mem_append.mp among with old | new
    · rw [moves]
      exact passed earlier old r named
    · rw [List.mem_singleton.mp new, other] at named
      cases named

theorem next {r : Nat} (swept : Swept tracked n w done (r :: pending)) (cancels : moment.cancels? = some r)
    (lasting : Lasting w v) (terminal : (v.response r).state.isTerminal = true)
    (how : moment.moves? = some r ∧ (v.response r).outcome = some .cancelled ∨
      moment.moves? = none ∧ (moment.world.response r).state.isTerminal = true) :
    Swept tracked (n ++ [moment]) v (done ++ [r]) pending := by
  obtain ⟨all, own, ended, cancelled, passed⟩ := swept
  have still (s : Nat) (member : s ∈ ownMoves n) : (v.response s).outcome = some .cancelled := by
    rw [(lasting s (ended s (own ▸ (ownMoves_sublist n).subset member))).2]
    exact cancelled s member
  have moves : ownMoves (n ++ [moment]) = ownMoves n ++ moment.moves?.toList := by
    cases moves : moment.moves? <;> simp [ownMoves, moves]
  refine ⟨by simpa using all, by simp [ownCancels, cancels, ← own], fun s member => ?_, fun s member => ?_,
    fun earlier among s named => ?_⟩
  · rcases List.mem_append.mp member with old | new
    · rw [(lasting s (ended s old)).1]
      exact ended s old
    · rw [List.mem_singleton.mp new]
      exact terminal
  · rw [moves, List.mem_append] at member
    rcases member with old | new
    · exact still s old
    · rcases how with ⟨wins, outcome⟩ | ⟨none, -⟩
      · rw [wins] at new
        rw [List.mem_singleton.mp new]
        exact outcome
      · rw [none] at new
        cases new
  · rw [moves, List.mem_append]
    rcases List.mem_append.mp among with old | new
    · exact (passed earlier old s named).imp_left .inl
    · rw [List.mem_singleton.mp new] at named ⊢
      cases cancels.symm.trans named
      rcases how with ⟨wins, -⟩ | ⟨-, terminal⟩
      · exact .inl (.inr (by simp [wins]))
      · exact .inr terminal

end Swept

/-- Where a call that cancels everything is: it takes its list, goes on with it, or is inside the cancel of a
response, above what it does next. -/
inductive Sweep (tracked : List Nat) (n : List Moment) (w : World) (t : Thread) : Prop where
  | called (stack : t.stack = [.call .cancelAll]) (begun : n = []) (all : w.registry.ids.Perm tracked)
  | each {done pending} (stack : t.stack = [.cancelEach pending (ownMoves n).length]) (swept : Swept tracked n w done pending)
  | cancel {r done pending} (stack : t.stack = [.call (.cancel r), .countCancelled pending (ownMoves n).length])
      (swept : Swept tracked n w done (r :: pending))
  | inside {r done pending count above} (stack : t.stack = above ++ [.settled r .cancel, .countCancelled pending count])
      (swept : Swept tracked n w (done ++ [r]) pending) (counted : (ownMoves n).length = count + 1)
  | back {done pending count} (stack : t.stack = [.countCancelled pending count]) (swept : Swept tracked n w done pending)
      (counted : t.result = .done ∧ (ownMoves n).length = count + 1 ∨
        (∃ error, t.result = .rejected error) ∧ (ownMoves n).length = count)
  | returned {done} (stack : t.stack = []) (swept : Swept tracked n w done [])
      (counted : t.result = .number (ownMoves n).length)

namespace Sweep

variable {tracked : List Nat}

theorem pause {ids : List Nat} (sweep : Sweep tracked n w t) (now : Nat) (sleeping : List (Nat × Task)) (ready : List Task)
    (places : ids.Perm w.registry.ids) : Sweep tracked n { w with now, sleeping, ready, registry := ⟨ids⟩ } t := by
  have aside {done pending : List Nat} (swept : Swept tracked n w done pending) :
      Swept tracked n { w with now, sleeping, ready, registry := ⟨ids⟩ } done pending :=
    ⟨swept.all, swept.own, swept.ended, swept.cancelled, swept.passed⟩
  cases sweep with
  | called stack begun all => exact .called stack begun (places.trans all)
  | each stack swept => exact .each stack (aside swept)
  | cancel stack swept => exact .cancel stack (aside swept)
  | inside stack swept counted => exact .inside stack (aside swept) counted
  | back stack swept counted => exact .back stack (aside swept) counted
  | returned stack swept counted => exact .returned stack (aside swept) counted

theorem cancels {r place : Nat} {done pending : List Nat} {x : Response String Listener}
    (stack : t.stack = [.call (.cancel r), .countCancelled pending (ownMoves n).length])
    (swept : Swept tracked n w done (r :: pending)) (found : w.responses[r]? = some x) (lasting : Lasting w (step w t).1) :
    Sweep tracked (n ++ [⟨place, w, t⟩]) (step w t).1 (step w t).2 := by
  have cancels : Moment.cancels? ⟨place, w, t⟩ = some r := by simp [Moment.cancels?, stack]
  have before := World.response_found found
  cases terminal : x.state.isTerminal with
  | true =>
    have goes := step_cancel_refused stack found terminal
    have ended : (w.response r).state.isTerminal = true := by rw [before]; exact terminal
    have still : ((step w t).1.response r).state.isTerminal = true := by rw [(lasting r ended).1]; exact ended
    have none : Moment.moves? ⟨place, w, t⟩ = none := by simp [Moment.moves?, cancels, ended]
    refine .back (by rw [goes]) (swept.next cancels lasting still (.inr ⟨none, ended⟩)) (.inr ⟨⟨_, by rw [goes]⟩, ?_⟩)
    simp [ownMoves, none]
  | false =>
    have goes := step_cancel_granted stack found terminal
    have after : (step w t).1.response r = x.resolved .cancelled := by
      rw [goes]
      exact response_cancelled found
    have wins : Moment.moves? ⟨place, w, t⟩ = some r := by
      simp [Moment.moves?, cancels, before, terminal, after, Response.resolved, Outcome.state]
    have won := swept.next cancels lasting (by rw [after]; rfl) (.inl ⟨wins, by rw [after]; rfl⟩)
    refine .inside (by rw [goes]) won ?_
    simp [ownMoves, wins]

theorem run {work : Work} {rest : List Work} {place : Nat} (sweep : Sweep tracked n w t)
    (stack : t.stack = work :: rest) (caught : Caught work rest)
    (made : ∀ r ∈ tracked, ∃ x, w.responses[r]? = some x) (lasting : Lasting w (step w t).1) :
    Sweep tracked (n ++ [⟨place, w, t⟩]) (step w t).1 (step w t).2 := by
  have silent (other : Moment.cancels? ⟨place, w, t⟩ = none) : ownMoves (n ++ [⟨place, w, t⟩]) = ownMoves n := by
    simp [ownMoves, Moment.moves?_of_other other]
  cases sweep with
  | called now begun all =>
    have other : Moment.cancels? ⟨place, w, t⟩ = none := by simp [Moment.cancels?, now]
    subst begun
    have swept : Swept tracked [] w [] w.registry.ids := ⟨all, rfl, by simp, by simp [ownMoves], by simp⟩
    have later := swept.later other lasting
    rw [step_cancelAll now] at later ⊢
    refine .each ?_ later
    rw [silent other]
    rfl
  | @each done pending now swept =>
    have other : Moment.cancels? ⟨place, w, t⟩ = none := by simp [Moment.cancels?, now]
    have later := swept.later other lasting
    cases pending with
    | nil =>
      rw [step_cancelEach_nil now] at later ⊢
      exact .returned rfl later (by rw [silent other])
    | cons r pending =>
      rw [step_cancelEach_cons now] at later ⊢
      exact .cancel (by rw [silent other]) later
  | @cancel r done pending now swept =>
    obtain ⟨x, found⟩ := made r (swept.all.mem_iff.mp (by simp))
    exact cancels now swept found lasting
  | @inside r done pending count above now swept counted =>
    cases above with
    | nil =>
      have other : Moment.cancels? ⟨place, w, t⟩ = none := by simp [Moment.cancels?, now]
      have later := swept.later other lasting
      rw [step_returns now rfl] at later ⊢
      exact .back rfl later (.inl ⟨rfl, by rw [silent other]; exact counted⟩)
    | cons first above =>
      -- whatever is done for the listeners is done above the rest of the call
      have other : Moment.cancels? ⟨place, w, t⟩ = none := by
        cases above <;> simp [Moment.cancels?, now]
      obtain ⟨rfl, below⟩ := List.cons.inj (stack.symm.trans now)
      obtain ⟨above, kept⟩ := (step_delivery (w := w) stack).keeps caught below rfl rfl
      exact .inside kept (swept.later other lasting) (by rw [silent other]; exact counted)
  | back now swept counted =>
    have other : Moment.cancels? ⟨place, w, t⟩ = none := by simp [Moment.cancels?, now]
    have later := swept.later other lasting
    rcases counted with ⟨succeeded, counted⟩ | ⟨⟨error, rejected⟩, counted⟩
    · rw [step_countCancelled now succeeded] at later ⊢
      exact .each (by rw [silent other, counted]) later
    · rw [step_countCancelled_rejected now rejected] at later ⊢
      exact .each (by rw [silent other, counted]) later
  | returned now => cases stack.symm.trans now

end Sweep

theorem Solo.sweep {before after : List Thread} (upheld : Upheld m ⟨w, before ++ t :: after⟩)
    (stack : t.stack = [.call .cancelAll]) (made : ∀ r ∈ w.registry.ids, ∃ x, w.responses[r]? = some x)
    (solo : Solo Tracking before.length w t n v u) : Sweep w.registry.ids n v u := by
  induction solo with
  | refl => exact .called stack rfl (.refl _)
  | pause past now sleeping ready places ih => exact ih.pause now sleeping ready places
  | @run n v u work rest past top allowed ih =>
    have run : Reordered Tracking ⟨w, before ++ t :: after⟩ n ⟨v, before ++ u :: after⟩ := past.reordered
    refine ih.run top (allowed.1.caught top) (fun r member => ?_) ((upheld.reordered run).lasting (.run top allowed))
    obtain ⟨x, found⟩ := made r member
    exact run.found found

/-- What a call that cancels everything did, from the world that it found to the one that it left. -/
structure CancelledAll (w : World) (n : List Moment) (v : World) (result : Result) : Prop where
  /-- It cancelled each tracked response once, in some order. -/
  each : (ownCancels n).Perm w.registry.ids
  ended : ∀ r ∈ w.registry.ids, (v.response r).state.isTerminal = true
  counted : result = .number (ownMoves n).length
  distinct : (ownMoves n).Nodup
  moved : ∀ r ∈ ownMoves n, r ∈ w.registry.ids ∧ (v.response r).state = .cancelled ∧ (v.response r).outcome = some .cancelled
  /-- A response that does not count was resolved when its turn came. -/
  passed : ∀ r ∈ w.registry.ids, r ∉ ownMoves n →
    ∃ moment ∈ n, moment.cancels? = some r ∧ (moment.world.response r).state.isTerminal = true
  unchanged : ∀ r, (w.response r).state.isTerminal = true →
    v.response r = { w.response r with nextListener := (v.response r).nextListener }
  table : ∀ r, r ∈ v.registry.ids ↔
    (∃ moment ∈ n, moment.tracks r) ∧ (v.response r).state.isTerminal = false

theorem Upheld.table_of_idle (upheld : Upheld m p) (idle : ∀ u ∈ p.threads, u.stack = []) {r : Nat}
    (member : r ∈ p.world.registry.ids) :
    (p.world.response r).state.isTerminal = false ∧ ∃ x, p.world.responses[r]? = some x := by
  refine upheld.unresolved_of_tracked (fun f pending => ?_) member
  obtain ⟨u, among, here⟩ := List.mem_flatMap.mp pending
  rw [idle u among] at here
  cases here

theorem Solo.cancelled_all {idles : List Thread} (upheld : Upheld m ⟨w, idles⟩) (idle : ∀ u ∈ idles, u.stack = [])
    (stack : t.stack = [.call .cancelAll]) (solo : Solo Tracking idles.length w t n v u) (returned : u.stack = []) :
    CancelledAll w n v u.result := by
  have begun : Upheld (m ++ []) ⟨w, idles ++ [t]⟩ := upheld.move (.spawn (.inl ⟨_, stack⟩))
  have run : Reordered Tracking ⟨w, idles ++ [t]⟩ n ⟨v, idles ++ [u]⟩ := solo.reordered
  have later := begun.reordered run
  have rest : ∀ thread ∈ idles ++ [u], thread.stack = [] := by
    intro thread among
    rcases List.mem_append.mp among with old | new
    · exact idle thread old
    · rw [List.mem_singleton.mp new]
      exact returned
  have distinct := (upheld.tracked 0).distinct
  cases solo.sweep begun stack (fun r member => (upheld.table_of_idle idle member).2) with
  | called now | each now | cancel now | back now => cases returned.symm.trans now
  | inside now =>
    rw [returned] at now
    simp at now
  | @returned done now swept counted =>
    have all : done.Perm w.registry.ids := by simpa using swept.all
    have own : (ownCancels n).Perm w.registry.ids := by
      rw [swept.own]
      exact all
    have sublist := ownMoves_sublist n
    have ended (r : Nat) (member : r ∈ w.registry.ids) : (v.response r).state.isTerminal = true :=
      swept.ended r (all.mem_iff.mpr member)
    refine ⟨own, ended, counted, sublist.nodup (own.nodup_iff.mpr distinct), fun r member => ?_, fun r member uncounted => ?_,
      fun r terminal => begun.frozen run terminal, fun r => ⟨fun member => ?_, fun ⟨tracks, unresolved⟩ => ?_⟩⟩
    · have published := swept.cancelled r member
      exact ⟨own.mem_iff.mp (sublist.subset member), later.state_of_outcome published, published⟩
    · obtain ⟨moment, among, cancels⟩ := List.mem_filterMap.mp (own.mem_iff.mpr member)
      exact ⟨moment, among, cancels, (swept.passed moment among r cancels).resolve_left uncounted⟩
    · have unresolved := (later.table_of_idle rest member).1
      refine ⟨(run.mem_table member).resolve_left fun here => ?_, unresolved⟩
      rw [ended r here] at unresolved
      cases unresolved
    · obtain ⟨moment, among, tracks⟩ := tracks
      obtain ⟨h, valid⟩ := later.valid
      exact (later.tracked r).present ⟨moment, List.mem_append_right _ among, tracks⟩ ((valid.unresolved_iff r).mp unresolved)

end Pool
end Deferral.Simulation
