import Deferral.Simulation.Step

/-! What a granted request does to its response. A refusal leaves the response as it is, so what
every grant keeps is kept by all calls, whatever threads make them. -/

namespace Deferral

def ResponseState.successors : ResponseState → List ResponseState
  | .pending => [.suspended, .completed, .cancelled]
  | .suspended => [.completed, .timedOut, .cancelled]
  | .completed | .timedOut | .cancelled => []

namespace Response
variable {α ℓ : Type}

def resolved (x : Response α ℓ) (outcome : Outcome α) : Response α ℓ :=
  { x with state := outcome.state, outcome := some outcome, listeners := [], timer := none }

def started (x : Response α ℓ) (window : Duration) : Response α ℓ :=
  { x with state := .suspended, generation := x.generation + 1, active := some window, timer := none }

end Response

namespace Simulation

namespace Work

/-- Work that no caller can ask for: it is left by grants, by the scheduler and by timers. -/
def isInner : Work → Bool
  | .request _ (.expire _ _) | .request _ (.keepTimer _ _) | .settled _ _ | .disarm _ | .arm _ _
  | .fireInline _ | .timerDue _ => true
  | _ => false

/-- Work that only a grant leaves. -/
def isDuty : Work → Bool
  | .settled _ _ | .disarm _ | .arm _ _ => true
  | _ => false

theorem isInner_of_isDuty {work : Work} (duty : work.isDuty = true) : work.isInner = true := by
  cases work <;> first | rfl | cases duty

theorem countP_none {counted : Work → Bool} (duty : ∀ work, counted work = true → work.isDuty = true)
    {stack : List Work} (none : ∀ work ∈ stack, work.isDuty = false) : stack.countP counted = 0 := by
  apply List.countP_eq_zero.mpr
  intro work member counts
  have duties := duty work counts
  rw [none work member] at duties
  cases duties

theorem countP_outer {counted : Work → Bool} (duty : ∀ work, counted work = true → work.isDuty = true)
    {stack : List Work} (outer : ∀ work ∈ stack, work.isInner = false) : stack.countP counted = 0 := by
  apply countP_none duty
  intro work member
  cases duties : work.isDuty with
  | false => rfl
  | true =>
    have inner := isInner_of_isDuty duties
    rw [outer work member] at inner
    cases inner

/-- Work that tells clients, waiting tasks or the log of something. -/
def isTelling : Work → Bool
  | .record _ | .notify _ | .announce _ _ _ | .listen _ _ _ _ => true
  | _ => false

theorem outer_of_isTelling {work : Work} (tells : work.isTelling = true) : work.isInner = false := by
  cases work <;> first | rfl | cases tells

def isGuard : Work → Bool
  | .guardListener _ _ => true
  | _ => false

/-- Work that may run what clients, listeners, scripts or schedulers ask for. -/
def isOpen : Work → Bool
  | .call _ | .script _ _ | .request _ _ | .arm _ _ | .fireInline _ | .timerDue _ | .listen _ _ _ _ | .cancelEach _ _
  | .countCancelled _ _ | .race _ _ _ | .countRaced _ _ _ | .enable _ | .readOutcome _ | .park _ | .rouse _ => true
  | _ => false

end Work

/-- How a request would end a response: the operation and the outcome. -/
def Request.ending? : Request → Option (Operation × Outcome String)
  | .produce result => some (.resume, .ofResult result)
  | .cancel => some (.cancel, .cancelled)
  | .expire window _ => some (.timeoutFire, .timedOut window)
  | _ => none

def Request.starts? (x : Response String Listener) : Request → Option Duration
  | .suspend => x.declared
  | .setTimeout window => some window
  | _ => none

def Request.generation? : Request → Option Nat
  | .expire _ generation | .keepTimer _ generation => some generation
  | _ => none

/-- What holds of a response whatever was asked of it: its outcome is that of its state, a pending one
has never started its clock, a resolved one has no timer, and a window runs once the clock was started. -/
structure Sound (x : Response String Listener) : Prop where
  agrees : x.outcome.map Outcome.state = if x.state.isTerminal then some x.state else none
  fresh : x.state = .pending → x.generation = 0 ∧ x.timer = none
  disarmed : x.state.isTerminal = true → x.timer = none
  running : x.active = none ↔ x.generation = 0

theorem Sound.initial (sink : FailureSink) : Sound { sink := sink } := by
  constructor <;> simp

/-- Every way in which a request to a sound response is granted. -/
inductive Grants (r : Nat) (x : Response String Listener) : Request → Grant → Prop where
  | declare {window} (pending : x.state = .pending) :
      Grants r x (.declare window) { response := { x with declared := some window } }
  | suspend (pending : x.state = .pending) (undeclared : x.declared = none) :
      Grants r x .suspend {
        response := { x with state := .suspended }
        tells := [.record (.suspended r none)] }
  | start {request window event} (starts : request.starts? x = some window)
      (unresolved : x.state.isTerminal = false) :
      Grants r x request {
        response := x.started window
        disarms := x.timer
        tells := [.record event]
        arms := some ⟨window, x.generation + 1⟩ }
  | finish {request operation outcome} (ends : request.ending? = some (operation, outcome))
      (current : ∀ n, request.generation? = some n → n = x.generation)
      (unresolved : x.state.isTerminal = false) :
      Grants r x request {
        response := x.resolved outcome
        disarms := x.timer
        tells := [.notify r, .announce r outcome x.listeners.length] ++
          x.listeners.map fun (index, listener) => .listen r index listener outcome
        returns := [.settled r operation] }
  | subscribe {listener} :
      Grants r x (.subscribe listener) {
        response := (x.subscribe listener).1
        tells := (x.subscribe listener).2.2.toList.map
          (.listen r (x.subscribe listener).2.1 listener) }
  | store {timer} (unresolved : x.state.isTerminal = false) :
      Grants r x (.keepTimer timer x.generation) {
        response := { x with timer := some timer }
        returns := [] }
  | stale {timer generation} (stale : x.generation ≠ generation ∨ x.state.isTerminal = true) :
      Grants r x (.keepTimer timer generation) {
        response := x
        disarms := some timer
        returns := [] }

namespace Request

variable {r : Nat} {x : Response String Listener} {g : Grant}

private theorem conclude_grants {request : Request} {operation : Operation} {outcome : Outcome String}
    (ends : request.ending? = some (operation, outcome))
    (granted : conclude r x operation outcome request.generation? = .ok g) : Grants r x request g := by
  unfold conclude Response.resolve at granted
  split at granted
  · cases granted
  next current =>
    cases granted
    simp only [Bool.or_eq_true, not_or, Bool.not_eq_true] at current
    refine .finish ends ?_ current.2
    intro n named
    simpa [named] using current.1

theorem grant_cases {request : Request} (sound : Sound x) (granted : request.grant r x = .ok g) :
    Grants r x request g := by
  cases request with
  | declare window =>
    simp only [grant, Response.applyPolicy] at granted
    split at granted <;> cases granted
    next pending => exact .declare pending
  | suspend =>
    simp only [grant, Response.suspend] at granted
    split at granted
    · next pending =>
      split at granted <;> cases granted
      · next window declared =>
        have same : x.timer = none := (sound.fresh pending).2
        have start := @Grants.start r x .suspend window (.suspended r (some window.millisWord)) declared
          (by simp [pending])
        simpa [Response.started, same] using start
      · next undeclared => exact .suspend pending undeclared
    · cases granted
  | setTimeout window =>
    simp only [grant, Response.setTimeout] at granted
    split at granted <;> cases granted
    next unresolved => exact .start rfl (by simpa using unresolved)
  | produce result => exact conclude_grants rfl granted
  | cancel => exact conclude_grants rfl granted
  | expire window generation => exact conclude_grants rfl granted
  | subscribe listener => cases granted; exact .subscribe
  | keepTimer timer generation =>
    simp only [grant, Response.keepTimer] at granted
    by_cases current : x.generation = generation ∧ x.isDone = false
    · rw [if_pos current] at granted
      cases granted
      rw [← current.1]
      exact .store current.2
    · rw [if_neg current] at granted
      cases granted
      refine .stale ?_
      by_cases same : x.generation = generation
      · exact .inr (by simpa [same, Response.isDone] using current)
      · exact .inl same

theorem grant_tells {asked : Request} (granted : asked.grant r x = .ok g) :
    (∀ work ∈ g.tells, work.isTelling = true) ∧ ((∀ work ∈ g.returns, work = .answer .done) ∨
      ∃ operation outcome, asked.ending? = some (operation, outcome) ∧ g.returns = [.settled r operation]) := by
  have conclude {operation : Operation} {outcome : Outcome String} {generation : Option Nat}
      (granted : conclude r x operation outcome generation = .ok g) :
      (∀ work ∈ g.tells, work.isTelling = true) ∧ g.returns = [.settled r operation] := by
    unfold Request.conclude Response.resolve at granted
    split at granted <;> cases granted
    refine ⟨?_, rfl⟩
    simp only [List.mem_append, List.mem_cons, List.mem_map]
    rintro work ((rfl | rfl | none) | ⟨pair, -, rfl⟩)
    · rfl
    · rfl
    · cases none
    · rfl
  cases asked with
  | declare window =>
    simp only [grant, Response.applyPolicy] at granted
    split at granted <;> cases granted
    exact ⟨by simp, .inl (by simp)⟩
  | suspend =>
    simp only [grant, Response.suspend] at granted
    split at granted
    · split at granted <;> cases granted <;> exact ⟨by simp [Work.isTelling], .inl (by simp)⟩
    · cases granted
  | setTimeout window =>
    simp only [grant, Response.setTimeout] at granted
    split at granted <;> cases granted
    exact ⟨by simp [Work.isTelling], .inl (by simp)⟩
  | produce result =>
    obtain ⟨tells, returns⟩ := conclude granted
    exact ⟨tells, .inr ⟨_, _, rfl, returns⟩⟩
  | cancel =>
    obtain ⟨tells, returns⟩ := conclude granted
    exact ⟨tells, .inr ⟨_, _, rfl, returns⟩⟩
  | expire window generation =>
    obtain ⟨tells, returns⟩ := conclude granted
    exact ⟨tells, .inr ⟨_, _, rfl, returns⟩⟩
  | subscribe listener =>
    cases granted
    refine ⟨?_, .inl (by simp)⟩
    intro work member
    obtain ⟨outcome, -, rfl⟩ := List.mem_map.mp member
    rfl
  | keepTimer timer generation =>
    simp only [grant] at granted
    split at granted <;> cases granted <;> exact ⟨by simp, .inl (by simp)⟩

theorem grant_outer {asked : Request} (granted : asked.grant r x = .ok g) :
    (∀ work ∈ g.tells, work.isInner = false) ∧ ((∀ work ∈ g.returns, work.isInner = false) ∨
      ∃ operation outcome, asked.ending? = some (operation, outcome) ∧ g.returns = [.settled r operation]) := by
  obtain ⟨tells, returns⟩ := grant_tells granted
  refine ⟨fun work member => Work.outer_of_isTelling (tells work member), returns.imp_left fun done work member => ?_⟩
  rw [done work member]
  rfl

theorem grant_work {asked : Request} (granted : asked.grant r x = .ok g) {work : Work} (member : work ∈ g.work r)
    (inner : work.isInner = true) :
    (∃ id, g.disarms = some id ∧ work = .disarm id) ∨ (∃ arming, g.arms = some arming ∧ work = .arm r arming) ∨
      ∃ operation, work = .settled r operation := by
  obtain ⟨tells, returns⟩ := grant_outer granted
  simp only [Grant.work, List.mem_append, List.mem_map, Option.mem_toList] at member
  rcases member with ((⟨id, disarms, rfl⟩ | member) | ⟨arming, arms, rfl⟩) | member
  · exact .inl ⟨id, disarms, rfl⟩
  · rw [tells work member] at inner
    cases inner
  · exact .inr (.inl ⟨arming, arms, rfl⟩)
  · rcases returns with outer | ⟨operation, outcome, -, same⟩
    · rw [outer work member] at inner
      cases inner
    · rw [same, List.mem_singleton] at member
      exact .inr (.inr ⟨operation, member⟩)

theorem grant_duty {asked : Request} (granted : asked.grant r x = .ok g) {work : Work} (member : work ∈ g.work r)
    (inner : work.isInner = true) : work.isDuty = true := by
  rcases grant_work granted member inner with ⟨id, -, rfl⟩ | ⟨arming, -, rfl⟩ | ⟨operation, rfl⟩ <;> rfl

theorem countP_grant {asked : Request} (granted : asked.grant r x = .ok g) {counted : Work → Bool}
    (duty : ∀ work, counted work = true → work.isDuty = true) :
    (g.work r).countP counted ≤ (g.disarms.toList.map Work.disarm).countP counted +
      (g.arms.toList.map (Work.arm r)).countP counted +
      (asked.ending?.toList.map fun ending => Work.settled r ending.1).countP counted := by
  obtain ⟨tells, returns⟩ := grant_outer granted
  simp only [Grant.work, List.countP_append, Work.countP_outer duty tells]
  rcases returns with outer | ⟨operation, outcome, ends, same⟩
  · rw [Work.countP_outer duty outer]
    omega
  · rw [same, ends]
    exact Nat.le_refl _

end Request

namespace Grants

variable {r : Nat} {x : Response String Listener} {request : Request} {g : Grant}

theorem keeps_sound (grants : Grants r x request g) (sound : Sound x)
    (numbered : ∀ n, request.generation? = some n → 0 < n) : Sound g.response := by
  obtain ⟨agrees, fresh, disarmed, running⟩ := sound
  cases grants with
  | declare pending => exact ⟨agrees, fresh, disarmed, running⟩
  | suspend pending undeclared =>
    refine ⟨?_, by simp, by simp, running⟩
    simpa [pending] using agrees
  | start starts unresolved =>
    refine ⟨?_, by simp [Response.started], by simp [Response.started], by simp [Response.started]⟩
    simpa [Response.started, unresolved] using agrees
  | @finish _ _ outcome ends current unresolved =>
    refine ⟨by simp [Response.resolved], ?_, by simp [Response.resolved], running⟩
    intro pending
    have terminal := outcome.isTerminal_state
    rw [show outcome.state = .pending from pending] at terminal
    cases terminal
  | subscribe =>
    unfold Response.subscribe
    split <;> exact ⟨agrees, fresh, disarmed, running⟩
  | store unresolved =>
    refine ⟨agrees, ?_, ?_, running⟩
    · intro pending
      have started := numbered x.generation rfl
      have := (fresh pending).1
      omega
    · intro terminal
      simp_all
  | stale => exact ⟨agrees, fresh, disarmed, running⟩

/-- A response moves along the arrows of its life only; that it times out from suspension alone is
because the generation of a clock not started is zero. -/
theorem moves (grants : Grants r x request g) (sound : Sound x)
    (numbered : ∀ n, request.generation? = some n → 0 < n) :
    g.response.state = x.state ∨ g.response.state ∈ x.state.successors := by
  cases grants with
  | declare pending => exact .inl rfl
  | suspend pending undeclared => exact .inr (by simp [pending, ResponseState.successors])
  | start starts unresolved =>
    cases state : x.state <;> simp_all [Response.started, ResponseState.successors]
  | finish ends current unresolved =>
    right
    cases request with
    | produce result =>
      cases ends
      cases state : x.state <;> simp_all [Response.resolved, ResponseState.successors]
    | cancel =>
      cases ends
      cases state : x.state <;> simp_all [Response.resolved, ResponseState.successors, Outcome.state]
    | expire window n =>
      cases ends
      have same := current n rfl
      have started := numbered n rfl
      have suspended : x.state = .suspended := by
        cases state : x.state with
        | pending => have := (sound.fresh state).1; omega
        | suspended => rfl
        | completed | timedOut | cancelled => simp [state] at unresolved
      simp [suspended, Response.resolved, Outcome.state, ResponseState.successors]
    | declare | suspend | setTimeout | subscribe | keepTimer => cases ends
  | subscribe =>
    left
    unfold Response.subscribe
    split <;> rfl
  | store unresolved => exact .inl rfl
  | stale => exact .inl rfl

theorem frozen (grants : Grants r x request g) (resolved : x.state.isTerminal = true) :
    g.response.state = x.state ∧ g.response.outcome = x.outcome ∧ g.response.window = x.window ∧
      g.response.generation = x.generation := by
  cases grants with
  | declare pending | suspend pending => simp [pending] at resolved
  | start _ unresolved | finish _ _ unresolved | store unresolved =>
    rw [resolved] at unresolved
    cases unresolved
  | subscribe =>
    unfold Response.subscribe
    split <;> exact ⟨rfl, rfl, rfl, rfl⟩
  | stale => exact ⟨rfl, rfl, rfl, rfl⟩

end Grants
end Simulation
end Deferral
