import Deferral.Proofs.Execution
import Deferral.Proofs.PoolInvariant

/-! A response ends at most once, in the state of its outcome, and stays as it ended. -/

namespace Deferral.Simulation
namespace Pool

variable {rule : World → Thread → Prop} {p q : Pool} {h notes : History}

theorem Valid.moves (valid : Valid h p) (step : Step rule p notes q) (r : Nat) :
    (q.world.response r).state = (p.world.response r).state ∨
      (q.world.response r).state ∈ (p.world.response r).state.successors := by
  cases step.touches r with
  | @granted asked x grant asks found granted after =>
    have sound := valid.sound r
    have before := World.response_found found
    have later := World.response_found after
    rw [before] at sound ⊢
    rw [later]
    exact (valid.grants found granted).moves sound (valid.positive asks)
  | kept same => exact .inl (by rw [same])

theorem Valid.frozen (valid : Valid h p) (step : Step rule p notes q) {r : Nat}
    (terminal : (p.world.response r).state.isTerminal = true) :
    (q.world.response r).state = (p.world.response r).state ∧
      (q.world.response r).outcome = (p.world.response r).outcome ∧
      (q.world.response r).window = (p.world.response r).window := by
  cases step.touches r with
  | @granted asked x grant asks found granted after =>
    have before := World.response_found found
    have later := World.response_found after
    rw [before] at terminal ⊢
    rw [later]
    obtain ⟨state, outcome, window, -⟩ := (valid.grants found granted).frozen terminal
    exact ⟨state, outcome, window⟩
  | kept same =>
    rw [same]
    exact ⟨rfl, rfl, rfl⟩

theorem Valid.stays (valid : Valid h p) (run : Run rule p notes q) {r : Nat}
    (terminal : (p.world.response r).state.isTerminal = true) :
    (q.world.response r).state = (p.world.response r).state ∧
      (q.world.response r).outcome = (p.world.response r).outcome ∧
      (q.world.response r).window = (p.world.response r).window := by
  induction run with
  | refl => exact ⟨rfl, rfl, rfl⟩
  | @step _ middle _ _ run next ih =>
    obtain ⟨state, outcome, window⟩ := ih
    have still : (middle.world.response r).state.isTerminal = true := by rw [state]; exact terminal
    obtain ⟨state', outcome', window'⟩ := (valid.run_preserves run).frozen next still
    exact ⟨state'.trans state, outcome'.trans outcome, window'.trans window⟩

theorem Valid.outcome_iff (valid : Valid h p) (r : Nat) :
    ((p.world.response r).outcome.isSome = true ↔ (p.world.response r).state.isTerminal = true) ∧
      ∀ outcome, (p.world.response r).outcome = some outcome → outcome.state = (p.world.response r).state := by
  have agrees := (valid.sound r).agrees
  cases found : (p.world.response r).outcome with
  | none => cases terminal : (p.world.response r).state.isTerminal <;> simp_all
  | some outcome =>
    cases terminal : (p.world.response r).state.isTerminal with
    | false => simp_all
    | true => simpa [found, terminal] using agrees

theorem Valid.unresolved_iff (valid : Valid h p) (r : Nat) :
    (p.world.response r).state.isTerminal = false ↔ (p.world.response r).outcome = none := by
  rw [← Bool.not_eq_true, ← (valid.outcome_iff r).1, Bool.not_eq_true, Option.isSome_eq_false_iff, Option.isNone_iff_eq_none]

theorem Valid.outcome_frozen (valid : Valid h p) (step : Step rule p notes q) {r : Nat}
    (ended : (p.world.response r).outcome.isSome = true) : (q.world.response r).outcome = (p.world.response r).outcome :=
  (valid.frozen step ((valid.outcome_iff r).1.mp ended)).2.1

theorem Valid.outcome_stays (valid : Valid h p) (run : Run rule p notes q) {r : Nat}
    (ended : (p.world.response r).outcome.isSome = true) : (q.world.response r).outcome = (p.world.response r).outcome :=
  (valid.stays run ((valid.outcome_iff r).1.mp ended)).2.1

theorem Valid.ended_cases (valid : Valid h p) (r : Nat) :
    (endings r h = [] ∧ (p.world.response r).state.isTerminal = false) ∨
      ∃ tick outcome, endings r h = [(tick, outcome)] ∧ outcome.state = (p.world.response r).state := by
  obtain ⟨terminal, agrees⟩ := valid.outcome_iff r
  have ended := valid.ended r
  cases found : (p.world.response r).outcome with
  | none =>
    rw [found] at ended terminal
    refine .inl ⟨List.map_eq_nil_iff.mp ended, ?_⟩
    simpa using terminal
  | some outcome =>
    rw [found] at ended
    obtain ⟨⟨tick, other⟩, same, rfl⟩ := List.map_eq_singleton_iff.mp ended
    exact .inr ⟨tick, other, same, agrees other found⟩

theorem Valid.endings_le (valid : Valid h p) (r : Nat) : (endings r h).length ≤ 1 := by
  rcases valid.ended_cases r with ⟨none, -⟩ | ⟨tick, outcome, only, -⟩
  · rw [none]
    exact Nat.zero_le 1
  · rw [only]
    exact Nat.le_refl 1

/-- Whatever calls, listeners, callbacks and hooks do, and in whatever order: of the requests that end a
response at most one is granted and at most one of the calls that made them returns as granted; the
response has an outcome just when its state is terminal, and then that of the state; its state moves
along the arrows of its life alone; and once terminal, its state, outcome and window stay. -/
theorem ends_once {drive : Drive} (run : Run rule (start drive) h p) (r : Nat) :
    (endings r h).length ≤ 1 ∧ h.countP (·.settles r) ≤ (endings r h).length ∧
    ((p.world.response r).outcome.isSome = true ↔ (p.world.response r).state.isTerminal = true) ∧
    (∀ outcome, (p.world.response r).outcome = some outcome → outcome.state = (p.world.response r).state) ∧
    (∀ notes q, Step rule p notes q → (q.world.response r).state = (p.world.response r).state ∨
      (q.world.response r).state ∈ (p.world.response r).state.successors) ∧
    ∀ notes q, Run rule p notes q → (p.world.response r).state.isTerminal = true →
      (q.world.response r).state = (p.world.response r).state ∧
      (q.world.response r).outcome = (p.world.response r).outcome ∧
      (q.world.response r).window = (p.world.response r).window := by
  have valid := Valid.of_run run
  have returns := valid.returns r
  obtain ⟨terminal, agrees⟩ := valid.outcome_iff r
  refine ⟨valid.endings_le r, by omega, terminal, agrees, ?_, ?_⟩
  · intro notes q step
    exact valid.moves step r
  · intro notes q later terminal
    exact valid.stays later terminal

/-- A response with a clock is resumed, and its listener tries to resume it again. -/
theorem ends_once_resumed :
    ∃ h p, Run Freely (start .runtime) h p ∧ (p.world.response 0).state = .completed ∧
      (endings 0 h).length ≤ 1 ∧ h.countP (·.settles 0) ≤ (endings 0 h).length := by
  obtain ⟨h, threads, run⟩ := run_of_scenario .runtime
    [.call (.create 1 .events), .call (.setTimeout 0 (.ofSecs 1)), .call (.onResolved 0 "again" [.resume 0 "late"]),
      .call (.resume 0 "first")]
  obtain ⟨once, returns, -⟩ := ends_once run 0
  exact ⟨h, _, run, by rfl, once, returns⟩

end Pool
end Deferral.Simulation
