import Deferral.Proofs.RegistryContents

/-! Which calls a response refuses, and what a refusal leaves. A refused call returns at once, and all that
it adds is a count, an entry in the log and, for a timer that fired late, one entry more. A call that is
not refused comes to its end and returns without an error, whatever its listeners ask for meanwhile. -/

namespace Deferral.Simulation

namespace Request

/-- The operation that a refusal names. A listener that joins and a timer to keep are never refused. -/
def operation? : Request → Option Operation
  | .declare _ => some .applyPolicy
  | .suspend => some .suspend
  | .setTimeout _ => some .setTimeout
  | .produce _ => some .resume
  | .cancel => some .cancel
  | .expire _ _ => some .timeoutFire
  | .subscribe _ | .keepTimer _ _ => none

/-- What a response refuses: a window or a suspension once it is no longer pending, a timer that it no
longer waits for, and anything else once it is resolved. -/
def Refused (x : Response String Listener) : Request → Prop
  | .declare _ | .suspend => x.state ≠ .pending
  | .setTimeout _ | .produce _ | .cancel => x.state.isTerminal = true
  | .expire _ generation => x.state.isTerminal = true ∨ generation ≠ x.generation
  | .subscribe _ | .keepTimer _ _ => False

variable {r : Nat} {x : Response String Listener} {asked : Request} {operation : Operation}

private theorem conclude_error_iff {outcome : Outcome String} {generation : Option Nat} {error : TransitionError} :
    conclude r x operation outcome generation = .error error ↔
      (x.state.isTerminal = true ∨ ∃ n, generation = some n ∧ n ≠ x.generation) ∧ error = .refuse operation x.state := by
  have stale : generation.any (· != x.generation) = true ↔ ∃ n, generation = some n ∧ n ≠ x.generation := by
    cases generation <;> simp
  unfold conclude Response.resolve
  by_cases refused : (generation.any (· != x.generation) || x.state.isTerminal) = true
  · rw [if_pos refused]
    rw [Bool.or_eq_true, stale] at refused
    simp only [Except.map, Except.error.injEq, refused.symm, true_and]
    exact eq_comm
  · rw [if_neg refused]
    rw [Bool.or_eq_true, stale] at refused
    simp only [Except.map, reduceCtorEq, false_iff, not_and]
    exact fun either => absurd either.symm refused

theorem grant_error_iff (named : asked.operation? = some operation) {error : TransitionError} :
    asked.grant r x = .error error ↔ asked.Refused x ∧ error = .refuse operation x.state := by
  cases asked with
  | declare window =>
    cases named
    by_cases pending : x.state = .pending <;> simp [grant, Response.applyPolicy, Refused, Except.map, pending, eq_comm]
  | suspend =>
    cases named
    by_cases pending : x.state = .pending
    · cases declared : x.declared <;> simp [grant, Response.suspend, Refused, Except.map, pending, declared]
    · simp [grant, Response.suspend, Refused, Except.map, pending, eq_comm]
  | setTimeout window =>
    cases named
    by_cases terminal : x.state.isTerminal = true <;>
      simp [grant, Response.setTimeout, Refused, Except.map, terminal, eq_comm]
  | produce result =>
    cases named
    rw [grant, conclude_error_iff]
    simp [Refused]
  | cancel =>
    cases named
    rw [grant, conclude_error_iff]
    simp [Refused]
  | expire window generation =>
    cases named
    rw [grant, conclude_error_iff]
    simp [Refused]
  | subscribe | keepTimer => cases named

end Request

def Work.isReturn : Work → Bool
  | .answer .done | .settled _ _ => true
  | _ => false

theorem step_returns {w : World} {t : Thread} {last : Work} {rest : List Work} (stack : t.stack = last :: rest)
    (returns : last.isReturn = true) : step w t = (w, { t with stack := rest, result := .done }) := by
  unfold step
  rw [stack]
  cases last with
  | answer result => cases result <;> first | rfl | cases returns
  | settled r operation => rfl
  | _ => cases returns

theorem Grants.ends_returning {r : Nat} {x : Response String Listener} {asked : Request} {g : Grant} {operation : Operation}
    (grants : Grants r x asked g) (named : asked.operation? = some operation) :
    ∃ above last, g.work r = above ++ [last] ∧ last.isReturn = true := by
  suffices only : ∃ last, g.returns = [last] ∧ last.isReturn = true by
    obtain ⟨last, same, returns⟩ := only
    exact ⟨_, last, by rw [Grant.work, same], returns⟩
  cases grants with
  | declare | suspend | start => exact ⟨.answer .done, rfl, rfl⟩
  | @finish _ operation => exact ⟨.settled r operation, rfl, rfl⟩
  | subscribe | store | stale => cases named

def Trailed : List Work → Prop
  | [] => True
  | work :: rest =>
    (∀ r window generation, work = .request r (.expire window generation) → ∃ below, rest = .expired r :: below) ∧ Trailed rest

namespace Trailed

theorem append {pushed rest : List Work} (none : ∀ r window generation, .request r (.expire window generation) ∉ pushed)
    (trailed : Trailed rest) : Trailed (pushed ++ rest) := by
  induction pushed with
  | nil => exact trailed
  | cons work pushed ih =>
    refine ⟨?_, ih fun r window generation member => none r window generation (List.mem_cons_of_mem _ member)⟩
    rintro r window generation rfl
    exact absurd (List.mem_cons_self ..) (none r window generation)

theorem suffix {stack below : List Work} (trailed : Trailed stack) (suffix : below <:+ stack) : Trailed below := by
  obtain ⟨above, rfl⟩ := suffix
  induction above with
  | nil => exact trailed
  | cons work above ih => exact ih trailed.2

end Trailed

theorem Effect.keeps_trailed {before after : World} {work : Work} {rest stack : List Work}
    (effect : Effect before work rest after stack) (trailed : Trailed rest) : Trailed stack := by
  have hooked {extra : List Work} (hooked : Hooked before extra) :
      ∀ r window generation, .request r (.expire window generation) ∉ extra := by
    intro r window generation member
    rcases hooked.1 _ member with ⟨speaker, body, same⟩ | ⟨result, same⟩ | ⟨id, same⟩ <;> cases same
  cases effect with
  | refused | created => exact trailed
  | granted asks found granted =>
    refine trailed.append fun r window generation member => ?_
    cases Request.grant_duty granted member rfl
  | armed hooks => exact .append (hooked hooks) ⟨by simp, trailed⟩
  | scheduled hooks => exact .append (hooked hooks) ⟨by simp, trailed⟩
  | disarmed _ hooks => exact trailed.append (hooked hooks)
  | @fired _ id timer _ _ returns _ _ returned =>
    have back : Trailed (returns ++ rest) := by
      refine trailed.append fun r window generation member => ?_
      obtain ⟨result, same⟩ := returned _ member
      cases same
    rw [List.append_assoc]
    cases timer.callback with
    | expire r window generation => exact ⟨by simp, by simp, back⟩
    | script body => exact ⟨by simp, back⟩
  | unwound => exact trailed.suffix ((List.tail_suffix _).trans (List.dropWhile_suffix _))
  | quiet pushed _ _ outer =>
    refine trailed.append fun r window generation member => ?_
    have inner := (outer _ member).1
    cases inner

namespace Pool

theorem Chronicle.trailed {rule : World → Thread → Prop} {drive : Drive} {m : List Moment} {p : Pool}
    (chronicle : Chronicle rule (start drive) m p) : ∀ t ∈ p.threads, Trailed t.stack := by
  induction chronicle with
  | refl => simp [start]
  | move past next ih =>
    cases next with
    | wait => exact ih
    | @spawn w threads t fresh =>
      intro u member
      rcases List.mem_append.mp member with old | new
      · exact ih u old
      · rw [List.mem_singleton.mp new]
        rcases fresh with ⟨action, stack⟩ | ⟨task, stack⟩ | ⟨timer, stack⟩
        · simp [stack, Trailed]
        · cases task <;> simp [stack, Task.thread, Trailed]
        · simp [stack, Trailed]
    | @run w before t after work rest stack allowed =>
      intro u member
      have own := ih t (List.mem_append_right _ (List.mem_cons_self ..))
      rw [stack] at own
      rcases List.mem_append.mp member with earlier | here
      · exact ih u (List.mem_append_left _ earlier)
      · rcases List.mem_cons.mp here with rfl | later
        · exact (step_effect (w := w) stack).keeps_trailed own.2
        · exact ih u (List.mem_append_right _ (List.mem_cons_of_mem _ later))

theorem Chronicle.goes {rule : World → Thread → Prop} {p : Pool} {m : List Moment} (before after : List Thread) {w : World}
    {t : Thread} {work : Work} {rest : List Work} (past : Chronicle rule p m ⟨w, before ++ t :: after⟩)
    (stack : t.stack = work :: rest) (allowed : rule w t) :
    Chronicle rule p (m ++ [⟨before.length, w, t⟩]) ⟨(step w t).1, before ++ (step w t).2 :: after⟩ :=
  past.move (.run stack allowed)

/-- What a refusal does. The call returns at once; the world differs in one count and in one entry of the
log; and of a timer the thread next tells that it fired late, and that only. -/
structure Refusal (moment : Moment) (rest : List Work) (r : Nat) (asked : Request) (operation : Operation)
    (state : ResponseState) (error : TransitionError) : Prop where
  kind : error = if state.isTerminal then .alreadyResolved operation state else .invalidTransition operation state
  returned : (step moment.world moment.thread).2 = { moment.thread with stack := rest, result := .rejected error }
  world : ∃ metrics, (step moment.world moment.thread).1 =
      { moment.world with metrics, log := moment.world.log.push (.rejected r operation state) } ∧
    ∀ metric, metrics.count metric = moment.world.metrics.count metric + if metric = .rejections operation then 1 else 0
  late : ∀ window generation, asked = .expire window generation → ∃ below, rest = .expired r :: below ∧
    ∀ w, step w (step moment.world moment.thread).2 =
      ({ w with log := w.log.push (.firedLate r error) }, { moment.thread with stack := below, result := .rejected error })

/-- What becomes of a call that is not refused: it has its return to make below all else that it does, and
either that is still to come or it has been made. -/
def Succeeds (moment : Moment) (rest : List Work) (later : List Moment) (p : Pool) : Prop :=
  ∃ above last, last.isReturn = true ∧ (step moment.world moment.thread).2.stack = above ++ last :: rest ∧
    ((∃ t above, p.threads[moment.place]? = some t ∧ t.stack = above ++ last :: rest) ∨
      ∃ back ∈ later, back.place = moment.place ∧ back.thread.stack = last :: rest ∧
        step back.world back.thread = (back.world, { back.thread with stack := rest, result := .done }))

section Answers

variable {drive : Drive} {p : Pool} {past later : List Moment} {moment : Moment} {work : Work} {rest : List Work} {r : Nat}
  {asked : Request} {operation : Operation} {x : Response String Listener}

theorem refusal_of_refused (chronicle : Chronicle Contained (start drive) (past ++ moment :: later) p)
    (stack : moment.thread.stack = work :: rest) (asks : work.request? = some (r, asked))
    (named : asked.operation? = some operation) (found : moment.world.responses[r]? = some x) (refused : asked.Refused x) :
    Refusal moment rest r asked operation x.state (.refuse operation x.state) := by
  have answered := (Request.grant_error_iff (r := r) named).mpr ⟨refused, rfl⟩
  have goes : step moment.world moment.thread =
      (moment.world.recordRejection r (.refuse operation x.state),
        { moment.thread with stack := rest, result := .rejected (.refuse operation x.state) }) := by
    rw [step_asks stack asks, World.serve_refused found answered]
    rfl
  constructor
  case kind => rfl
  case returned => rw [goes]
  case world =>
    refine ⟨moment.world.metrics.countRejection operation, ?_, ?_⟩
    · rw [goes]
      simp [World.recordRejection, World.record]
    · intro metric
      rw [Metrics.countRejection, Metrics.count_increment]
      split
      next same => rw [same]
      next => rfl
  case late =>
    rintro window generation rfl
    cases chronicle.cut with
    | @found w before t after _ _ _ _ first top allowed second =>
      have trailed := first.trailed t (List.mem_append_right _ (List.mem_cons_self ..))
      rw [stack, Work.eq_request asks rfl] at trailed
      obtain ⟨below, rfl⟩ := trailed.1 _ _ _ rfl
      refine ⟨below, rfl, ?_⟩
      intro w
      rw [goes]
      rfl

theorem succeeds_of_admitted (chronicle : Chronicle Contained (start drive) (past ++ moment :: later) p)
    (stack : moment.thread.stack = work :: rest) (asks : work.request? = some (r, asked))
    (named : asked.operation? = some operation) (found : moment.world.responses[r]? = some x) (admitted : ¬asked.Refused x) :
    Succeeds moment rest later p := by
  cases answered : asked.grant r x with
  | error error => exact absurd ((Request.grant_error_iff named).mp answered).1 admitted
  | ok grant =>
    cases chronicle.cut with
    | @found w before t after _ _ _ _ first top allowed second =>
      obtain ⟨h, valid⟩ := first.valid
      obtain ⟨above, last, ends, returns⟩ := (valid.grants found answered).ends_returning named
      have pushed : (step w t).2.stack = above ++ last :: rest := by
        rw [step_asks stack asks, World.serve_granted found answered, Thread.push, ends, List.append_assoc]
        rfl
      refine ⟨above, last, returns, pushed, ?_⟩
      have waits := performed second (show (before ++ (step w t).2 :: after)[before.length]? = some (step w t).2 by simp) above pushed
        (by cases last <;> first | rfl | cases returns) (by cases last <;> first | rfl | cases returns)
      rcases waits with going | ⟨back, among, place, top⟩
      · exact .inl going
      · exact .inr ⟨back, among, place, top, step_returns top returns⟩

theorem Succeeds.not_rejected (succeeds : Succeeds moment rest later p) (error : TransitionError) :
    (step moment.world moment.thread).2 ≠ { moment.thread with stack := rest, result := .rejected error } := by
  intro returned
  obtain ⟨above, last, -, pushed, -⟩ := succeeds
  have shorter := congrArg (·.stack.length) returned
  simp only [pushed, List.length_append, List.length_cons] at shorter
  omega

theorem resolved_of_refused (refused : asked.Refused x) (named : asked.operation? = some operation)
    (among : operation ∈ [.resume, .cancel, .setTimeout]) : x.state.isTerminal = true := by
  cases asked with
  | declare | suspend | expire =>
    cases named
    simp at among
  | setTimeout | produce | cancel => exact refused
  | subscribe | keepTimer => cases named

end Answers

/-- A call on a response, from a client, a listener, a script or a timer, is refused just when the response
refuses it in the state that the call finds. The error tells whether that state is terminal, and names the
operation and the state; resuming, cancelling and starting the clock are refused on a resolved response
alone. A refusal leaves all responses, timers, tables and waiters as they are. Every other call returns
without an error. -/
theorem refused_exactly {drive : Drive} {p : Pool} {past later : List Moment} {moment : Moment} {work : Work}
    {rest : List Work} {r : Nat} {asked : Request} {operation : Operation} {x : Response String Listener}
    (chronicle : Chronicle Contained (start drive) (past ++ moment :: later) p) (stack : moment.thread.stack = work :: rest)
    (asks : work.request? = some (r, asked)) (named : asked.operation? = some operation)
    (found : moment.world.responses[r]? = some x) :
    ((∃ error, (step moment.world moment.thread).2 = { moment.thread with stack := rest, result := .rejected error }) ↔
      asked.Refused x) ∧
    (asked.Refused x → Refusal moment rest r asked operation x.state (.refuse operation x.state)) ∧
    (asked.Refused x → operation ∈ [.resume, .cancel, .setTimeout] → x.state.isTerminal = true) ∧
    (¬asked.Refused x → Succeeds moment rest later p) := by
  have refusal := refusal_of_refused chronicle stack asks named found
  have succeeds := succeeds_of_admitted chronicle stack asks named found
  refine ⟨⟨?_, fun refused => ⟨_, (refusal refused).returned⟩⟩, refusal, fun refused => resolved_of_refused refused named, succeeds⟩
  rintro ⟨error, returned⟩
  exact Classical.byContradiction fun admitted => (succeeds admitted).not_rejected error returned

/-- The timer of a clock that was started anew is fired after it was cancelled. -/
theorem refused_exactly_late : ∃ m moment p, Chronicle Contained (start (.manual false)) (m ++ moment :: []) p ∧
    moment.thread.stack = [.request 0 (.expire (.ofSecs 1) 1), .expired 0, .answer (.fire .fired)] ∧
    Refusal moment [.expired 0, .answer (.fire .fired)] 0 (.expire (.ofSecs 1) 1) .timeoutFire .suspended
      (.invalidTransition .timeoutFire .suspended) := by
  have begun : Run Contained (start (.manual false)) [] (start (.manual false)) := .refl
  obtain ⟨_, made⟩ := begun.call (.create 1 .events) 9 (by decide)
  obtain ⟨_, started⟩ := made.call (.setTimeout 0 (.ofSecs 1)) 20 (by decide)
  obtain ⟨_, replaced⟩ := started.call (.setTimeout 0 (.ofSecs 2)) 20 (by decide)
  have spawned := replaced.step (.spawn (t := { stack := [.call (.fire 1 true)] }) (.inl ⟨_, rfl⟩))
  have fired := spawned.goes [_, _, _] [] rfl rfl
  obtain ⟨m, chronicle⟩ := Chronicle.of_run fired
  have refused := chronicle.goes [_, _, _] [] rfl rfl
  have told := refused_exactly refused rfl rfl rfl rfl
  exact ⟨m, _, _, refused, rfl, told.2.1 (.inr (by decide))⟩

end Pool
end Deferral.Simulation
