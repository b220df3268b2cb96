import Deferral.Proofs.Execution
import Deferral.Proofs.PoolInvariant

/-! A timer's callback times its response out only while the clock that armed it is the one that runs.
The generation tells: each start of a clock takes the next number, so the callback of the last start is
the only one that names the current generation. -/

namespace Deferral.Simulation
open Response (Arming)
namespace Pool

variable {rule : World → Thread → Prop} {p q : Pool} {h : History}

/-- Wherever a timer's callback stands when it asks: it was armed by a start of the response's clock, and
no other callback by the same start. It times the response out if that was the last start and the
response is suspended. Otherwise it is refused, as an invalid transition while the response is suspended
and as one already resolved after that, and leaves every response and timer as they are. -/
theorem expire_answered {drive : Drive} (run : Run rule (start drive) h p) {t : Thread} (running : t ∈ p.threads)
    {r generation : Nat} {window : Duration} {rest : List Work}
    (stack : t.stack = .request r (.expire window generation) :: rest) :
    (∃ tick, (tick, ⟨window, generation⟩) ∈ armings r h) ∧
    p.world.timers.callbacks.countP (·.expires r ⟨window, generation⟩) ≤ 1 ∧
    (((p.world.response r).state = .suspended ∧ ∃ tick, (armings r h).getLast? = some (tick, ⟨window, generation⟩)) →
      (step p.world t).1.responses =
        p.world.responses.set r ((p.world.response r).resolved (.timedOut window))) ∧
    (¬((p.world.response r).state = .suspended ∧ ∃ tick, (armings r h).getLast? = some (tick, ⟨window, generation⟩)) →
      (step p.world t).1.responses = p.world.responses ∧ (step p.world t).1.timers = p.world.timers ∧
      (step p.world t).2.stack = rest ∧
      ((p.world.response r).state = .suspended ∧
          (step p.world t).2.result = .rejected (.invalidTransition .timeoutFire .suspended) ∨
        (p.world.response r).state.isTerminal = true ∧
          (step p.world t).2.result = .rejected (.alreadyResolved .timeoutFire (p.world.response r).state))) := by
  have valid := Valid.of_run run
  have member : .request r (.expire window generation) ∈ p.works :=
    List.mem_flatMap.mpr ⟨t, running, by simp [stack]⟩
  obtain ⟨tick, started⟩ := valid.attempts r window generation member
  have found := valid.found started
  have pending := valid.not_pending started
  have last := valid.last_iff started
  have served := step_serve (w := p.world) stack
  refine ⟨⟨tick, started⟩, Nat.le_trans (Nat.le_add_left _ _) (valid.inflight_le_one r ⟨window, generation⟩), ?_, ?_⟩
  · rintro ⟨suspended, latest⟩
    have current := last.mp latest
    have granted : ∃ grant, Request.grant r (p.world.response r) (.expire window generation) = .ok grant ∧
        grant.response = (p.world.response r).resolved (.timedOut window) := by
      simp only [Request.grant, Request.conclude, Response.resolve]
      rw [show generation = (p.world.response r).generation from current, if_neg (by simp [suspended])]
      exact ⟨_, rfl, rfl⟩
    obtain ⟨grant, granted, resolved⟩ := granted
    rw [served, World.serve_granted found granted, ← resolved]
    rfl
  · intro stale
    have refused : Request.grant r (p.world.response r) (.expire window generation) =
        .error (.refuse .timeoutFire (p.world.response r).state) := by
      simp only [Request.grant, Request.conclude, Response.resolve]
      rw [if_pos ?_]
      · rfl
      · rw [last] at stale
        cases state : (p.world.response r).state <;> simp_all
    rw [served, World.serve_refused found refused]
    refine ⟨rfl, rfl, rfl, ?_⟩
    cases state : (p.world.response r).state with
    | pending => exact absurd state pending
    | suspended => exact .inl ⟨rfl, rfl⟩
    | completed | timedOut | cancelled => exact .inr ⟨rfl, rfl⟩

/-- The timer of a clock that was started anew is fired after it was cancelled. -/
theorem expire_answered_stale :
    ∃ h p t, Run Freely (start (.manual false)) h p ∧ t ∈ p.threads ∧
      t.stack.head? = some (.request 0 (.expire (.ofSecs 1) 1)) ∧ (p.world.response 0).state = .suspended ∧
      (step p.world t).1.responses = p.world.responses ∧
      (step p.world t).2.result = .rejected (.invalidTransition .timeoutFire .suspended) := by
  obtain ⟨h, threads, run⟩ := run_of_scenario (.manual false)
    [.call (.create 1 .events), .call (.setTimeout 0 (.ofSecs 1)), .call (.setTimeout 0 (.ofSecs 2))]
  have spawned := run.step (.spawn (t := { stack := [.call (.fire 1 true)] }) (.inl ⟨_, rfl⟩))
  have fired := spawned.goes threads [] rfl trivial
  obtain ⟨⟨tick, started⟩, -, -, refused⟩ := expire_answered fired (List.mem_append_right _ (List.mem_singleton.mpr rfl)) rfl
  have replaced : ¬∃ tick, (armings 0 _).getLast? = some (tick, ⟨.ofSecs 1, 1⟩) := fun latest =>
    nomatch ((Valid.of_run fired).last_iff started).mp latest
  obtain ⟨responses, -, -, answer⟩ := refused fun current => replaced current.2
  refine ⟨_, _, _, fired, List.mem_append_right _ (List.mem_singleton.mpr rfl), rfl, rfl, responses, ?_⟩
  rcases answer with ⟨-, result⟩ | ⟨terminal, -⟩
  · exact result
  · exact nomatch terminal

end Pool
end Deferral.Simulation
