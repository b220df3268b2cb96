import Deferral.Proofs.ThreadRuns
import Deferral.Proofs.WaitingTasks

/-! How much work is left to a thread that runs alone. The first part of the rank is what clients, listeners
and timers can still cause, which nothing adds to; the second is what is left to do about what was caused.
Each step lowers the rank, so a thread, the tasks that it makes ready and the clock all come to an end. -/

namespace Deferral.Simulation

/-! ### What can still be caused -/

def Listener.cost : Listener → Nat
  | .script _ body => 3 * Action.workAll body
  | .untrack => 0

def Callback.cost : Callback → Nat
  | .expire _ _ _ => 0
  | .script body => 3 * Action.workAll body

/-- A call that cancels causes nothing but the end of a response. -/
def Action.cost : Action → Nat
  | .cancel _ => 0
  | action => 3 * action.work

/-- A window that is asked for is still to be armed, and then to run out: three steps down. -/
def Request.cost : Request → Nat
  | .suspend | .setTimeout _ => 3
  | .subscribe listener => listener.cost
  | _ => 0

def Work.cost : Work → Nat
  | .call action => action.cost
  | .script _ body => 3 * Action.workAll body
  | .request _ asked => asked.cost
  | .arm _ _ => 2
  | .listen _ _ listener _ => listener.cost
  | .race threads action _ | .countRaced threads action _ => threads * (3 * action.work + 1)
  | _ => 0

def costs (stack : List Work) : Nat := (stack.map (·.cost)).sum

/-- What a response holds: its listeners, and its one end. -/
def stake (x : Response String Listener) : Nat :=
  (x.listeners.map (·.2.cost)).sum + if x.state.isTerminal then 0 else 1

/-- What a timer holds while its callback may still run. -/
def Timer.stake (timer : Timer Callback) : Nat := if timer.armed || !timer.ran then timer.callback.cost + 1 else 0

def World.cost (w : World) : Nat := (w.responses.map stake).sum + (w.timers.list.map Timer.stake).sum

/-! ### What is left to do -/

def Listener.weight : Listener → Nat
  | .script _ body => 3 * body.length + 3
  | .untrack => 5

def Request.weight : Request → Nat
  | .declare _ | .keepTimer _ _ => 2
  | .subscribe listener => listener.weight + 2
  | _ => 1

/-- A notification may make each of the waiters ready. -/
def Work.weight (waiters : Nat) : Work → Nat
  | .script _ body => 3 * body.length + 1
  | .request _ asked => asked.weight
  | .notify _ => 5 * waiters + 1
  | .listen _ _ listener _ => listener.weight
  | .cancelEach pending _ => 3 * pending.length + 1
  | .countCancelled pending _ => 3 * pending.length + 2
  | .untrack _ | .readOutcome _ => 3
  | .measure | .countRaced _ _ _ | .park _ | .rouse _ => 2
  | _ => 1

def weights (waiters : Nat) (stack : List Work) : Nat := (stack.map (·.weight waiters)).sum

/-- A task that is ready takes less than one that sleeps. -/
def World.weight (w : World) : Nat := 5 * w.ready.length + 6 * w.sleeping.length

def rank (w : World) (stack : List Work) : Nat × Nat :=
  (w.cost + costs stack, w.weight + weights w.waiters.length stack)

abbrev Lower (a b : Nat × Nat) : Prop := Prod.Lex (· < ·) (· < ·) a b

theorem Lower.trans {a b c : Nat × Nat} (first : Lower a b) (second : Lower b c) : Lower a c := by
  cases first with
  | left _ _ less =>
    cases second with
    | left _ _ less' => exact .left _ _ (Nat.lt_trans less less')
    | right _ _ => exact .left _ _ less
  | right _ less =>
    cases second with
    | left _ _ less' => exact .left _ _ less'
    | right _ less' => exact .right _ (Nat.lt_trans less less')

theorem Lower.of_le {a b c d : Nat} (first : a ≤ b) (second : c < d) : Lower (a, c) (b, d) := by
  rcases Nat.lt_or_eq_of_le first with less | rfl
  · exact .left _ _ less
  · exact .right _ second

@[simp] theorem costs_nil : costs [] = 0 := rfl

@[simp] theorem costs_cons (work : Work) (stack : List Work) : costs (work :: stack) = work.cost + costs stack := rfl

@[simp] theorem costs_append (stack below : List Work) : costs (stack ++ below) = costs stack + costs below := by
  simp [costs]

@[simp] theorem weights_nil (waiters : Nat) : weights waiters [] = 0 := rfl

@[simp] theorem weights_cons (waiters : Nat) (work : Work) (stack : List Work) :
    weights waiters (work :: stack) = work.weight waiters + weights waiters stack := rfl

@[simp] theorem weights_append (waiters : Nat) (stack below : List Work) :
    weights waiters (stack ++ below) = weights waiters stack + weights waiters below := by
  simp [weights]

theorem Work.weight_pos (work : Work) (waiters : Nat) : 0 < work.weight waiters := by
  cases work with
  | request r asked => cases asked <;> simp [weight, Request.weight]
  | listen r index listener outcome => cases listener <;> simp [weight, Listener.weight]
  | _ => simp [weight]

theorem Action.work_pos (action : Action) : 0 < action.work := by
  cases action <;> simp [work]

theorem Action.cost_le (action : Action) : action.cost ≤ 3 * action.work := by
  cases action <;> simp [cost]

theorem sum_set {α : Type} (f : α → Nat) {l : List α} {n : Nat} {a b : α} (found : l[n]? = some a) :
    ((l.set n b).map f).sum + f a = (l.map f).sum + f b := by
  induction l generalizing n with
  | nil => cases found
  | cons head l ih =>
    cases n with
    | zero =>
      cases found
      simp only [List.set_cons_zero, List.map_cons, List.sum_cons]
      omega
    | succ n =>
      have rest := ih (n := n) found
      simp only [List.set_cons_succ, List.map_cons, List.sum_cons]
      omega

theorem modify_eq_set {α : Type} (f : α → α) {l : List α} {n : Nat} {a : α} (found : l[n]? = some a) :
    l.modify n f = l.set n (f a) := by
  obtain ⟨inside, here⟩ := List.getElem?_eq_some_iff.mp found
  apply List.ext_getElem (by simp)
  intro i _ _
  by_cases same : n = i
  · subst same
    simp [here]
  · simp [same]

theorem costs_listen (listeners : List (Nat × Listener)) (r : Nat) (outcome : Outcome String) :
    costs (listeners.map fun (index, listener) => .listen r index listener outcome) = (listeners.map (·.2.cost)).sum := by
  simp [costs, Function.comp_def, Work.cost]

/-- A step that leaves a request's answer to a response lowers what the two can cause, or what is left to do. -/
theorem Request.grant_lowers {r : Nat} {x : Response String Listener} {asked : Request} {g : Grant}
    (granted : asked.grant r x = .ok g) (waiters : Nat) :
    stake g.response + costs (g.work r) < stake x + asked.cost ∨
      stake g.response + costs (g.work r) ≤ stake x + asked.cost ∧ weights waiters (g.work r) < asked.weight := by
  have disarms (timer : Option Nat) : costs (timer.toList.map .disarm) = 0 := by
    cases timer <;> rfl
  have conclude {operation : Operation} {outcome : Outcome String} {generation : Option Nat}
      (granted : conclude r x operation outcome generation = .ok g) : stake g.response + costs (g.work r) < stake x := by
    unfold Request.conclude Response.resolve at granted
    split at granted <;> cases granted
    next current =>
      have unresolved : x.state.isTerminal = false := by simp_all
      simp [Grant.work, stake, disarms, costs_listen, unresolved, outcome.isTerminal_state, Work.cost]
  cases asked with
  | declare window =>
    simp only [grant, Response.applyPolicy] at granted
    split at granted <;> cases granted
    exact .inr ⟨Nat.le_refl _, Nat.lt_succ_self _⟩
  | suspend =>
    left
    simp only [grant, Response.suspend] at granted
    split at granted
    next pending =>
      split at granted <;> cases granted <;> simp [Grant.work, stake, Work.cost, cost, pending]
    next => cases granted
  | setTimeout window =>
    left
    simp only [grant, Response.setTimeout] at granted
    split at granted <;> cases granted
    next unresolved => simp [Grant.work, stake, disarms, Work.cost, cost, unresolved]
  | produce result => exact .inl (conclude granted)
  | cancel => exact .inl (conclude granted)
  | expire window generation => exact .inl (conclude granted)
  | subscribe listener =>
    right
    simp only [grant, Response.subscribe] at granted
    cases published : x.outcome <;> simp only [published] at granted <;> cases granted
    · simp only [Grant.work, stake, cost, weight, List.map_append, List.sum_append]
      simp [Work.cost, Work.weight]
      omega
    · simp [Grant.work, stake, Work.cost, cost, Work.weight, weight]
  | keepTimer timer generation =>
    right
    simp only [grant] at granted
    split at granted
    next kept =>
      cases granted
      unfold Response.keepTimer at kept
      split at kept <;> cases kept
      simp [Grant.work, stake, weight]
    next =>
      cases granted
      simp [Grant.work, Work.cost, Work.weight, weight]

theorem Work.asks_le {work : Work} {r : Nat} {asked : Request} (asks : work.request? = some (r, asked)) (waiters : Nat) :
    asked.cost < work.cost ∨ asked.cost ≤ work.cost ∧ asked.weight ≤ work.weight waiters := by
  cases work with
  | request => cases asks; exact .inr ⟨Nat.le_refl _, Nat.le_refl _⟩
  | call action =>
    have calls : action.request? = some (r, asked) := asks
    unfold Action.request? at calls
    split at calls <;> cases calls
    · exact .inl (by simp [Request.cost, cost, Action.cost, Action.work])
    · exact .inr ⟨by simp [Request.cost, cost, Action.cost, Action.work], Nat.le_refl _⟩
    · exact .inr ⟨by simp [Request.cost, cost, Action.cost, Action.work], Nat.le_refl _⟩
    · exact .inr ⟨by simp [Request.cost, cost, Action.cost, Action.work], Nat.le_refl _⟩
    · exact .inl (by simp [Request.cost, cost, Action.cost, Action.work])
    · exact .inl (by simp [Request.cost, cost, Action.cost, Action.work])
    · exact .inr ⟨by simp [Request.cost, cost, Action.cost], Nat.le_refl _⟩
    · left
      simp only [Request.cost, Listener.cost, cost, Action.cost, Action.work]
      omega
  | _ => cases asks

/-! ### What one step spends -/

/-- The stack of a thread that runs alone: nobody notifies a waiting task between its asking for that and its
parking. -/
structure Undisturbed (w : World) (stack : List Work) : Prop where
  alone : Alone stack
  unnotified : ∀ id, stack = [.readOutcome id] ∨ stack = [.park id] →
    ∀ waiter, w.waiters[id]? = some waiter → waiter.stage ≠ .notified

theorem Undisturbed.of_none {w : World} {stack : List Work} (none : ∀ f ∈ stack, f.waits = false) : Undisturbed w stack := by
  refine ⟨.inl none, ?_⟩
  rintro id (rfl | rfl)
  · cases none (.readOutcome id) (List.mem_cons_self ..)
  · cases none (.park id) (List.mem_cons_self ..)

structure Spends (before : World) (work : Work) (rest : List Work) (after : World) (stack : List Work) : Prop where
  lower : Lower (rank after stack) (rank before (work :: rest))
  events : before.events.toList <+: after.events.toList
  undisturbed : Undisturbed after stack

/-- A change of the world that neither causes nor leaves anything. -/
structure Idly (before after : World) : Prop where
  cost : after.cost = before.cost
  weight : after.weight = before.weight
  waiters : after.waiters.length = before.waiters.length
  events : before.events.toList <+: after.events.toList

namespace Idly

variable {w w' : World}

theorem refl (w : World) : Idly w w := ⟨rfl, rfl, rfl, List.prefix_rfl⟩

theorem record (w : World) (event : LogEvent) : Idly w (w.record event) := ⟨rfl, rfl, rfl, List.prefix_rfl⟩

theorem emit (w : World) (t : Thread) (event : Event) : Idly w (w.emit t event) :=
  ⟨rfl, rfl, rfl, by simp [World.emit]⟩

theorem setStage (w : World) (id : Nat) (stage : WaitStage) : Idly w (w.setStage id stage) :=
  ⟨rfl, rfl, by simp [World.setStage], List.prefix_rfl⟩

theorem trans {w'' : World} (first : Idly w w') (second : Idly w' w'') : Idly w w'' :=
  ⟨second.cost.trans first.cost, second.weight.trans first.weight, second.waiters.trans first.waiters,
    first.events.trans second.events⟩

end Idly

namespace Spends

variable {w w' : World} {work : Work} {rest stack : List Work}

theorem caused (cost : w'.cost + costs stack < w.cost + costs (work :: rest))
    (events : w.events.toList <+: w'.events.toList) (undisturbed : Undisturbed w' stack) : Spends w work rest w' stack :=
  ⟨.left _ _ cost, events, undisturbed⟩

theorem idly (idly : Idly w w') (cost : costs stack ≤ costs (work :: rest))
    (weight : weights w.waiters.length stack < weights w.waiters.length (work :: rest)) (undisturbed : Undisturbed w' stack) :
    Spends w work rest w' stack := by
  refine ⟨?_, idly.events, undisturbed⟩
  unfold rank
  rw [idly.cost, idly.weight, idly.waiters]
  exact .of_le (Nat.add_le_add_left cost _) (Nat.add_lt_add_left weight _)

end Spends

theorem Timers.stake_disarm (ts : Timers Callback) (id : Nat) :
    ((ts.disarm id).list.map Timer.stake).sum ≤ (ts.list.map Timer.stake).sum := by
  unfold Timers.disarm Timers.modify
  split
  · exact Nat.le_refl _
  · cases found : ts.list[id - 1]? with
    | none =>
      exact Nat.le_of_eq (by rw [List.modify_eq_self (List.getElem?_eq_none_iff.mp found)])
    | some timer =>
      have less : Timer.stake { timer with armed := false } ≤ Timer.stake timer := by
        unfold Timer.stake
        cases timer.armed <;> cases timer.ran <;> simp
      have sums := sum_set Timer.stake (b := { timer with armed := false }) found
      simp only [modify_eq_set _ found]
      omega

theorem Timers.stake_spend {ts : Timers Callback} {id : Nat} {timer : Timer Callback} (found : ts.get? id = some timer)
    (live : timer.armed = true ∨ timer.ran = false) :
    ((ts.spend id).list.map Timer.stake).sum + (timer.callback.cost + 1) = (ts.list.map Timer.stake).sum := by
  unfold Timers.get? at found
  unfold Timers.spend Timers.modify
  split at found
  · cases found
  next positive =>
    rw [if_neg positive]
    have sums := sum_set Timer.stake (b := { timer with armed := false, ran := true }) found
    have held : Timer.stake timer = timer.callback.cost + 1 := by
      unfold Timer.stake
      rcases live with armed | fresh
      · simp [armed]
      · simp [fresh]
    have spent : Timer.stake { timer with armed := false, ran := true } = 0 := by simp [Timer.stake]
    simp only [modify_eq_set _ found]
    omega

namespace World

variable {w : World} {t : Thread}

theorem cost_setResponse {r : Nat} {x : Response String Listener} (found : w.responses[r]? = some x)
    (response : Response String Listener) : (w.setResponse r response).cost + stake x = w.cost + stake response := by
  have sums := sum_set stake (b := response) found
  simp only [cost, setResponse]
  omega

theorem serve_spends {work : Work} {r : Nat} {asked : Request} (asks : work.request? = some (r, asked))
    (none : ∀ f ∈ work :: t.stack, f.waits = false) :
    Spends w work t.stack (w.serve t r asked).1 (w.serve t r asked).2.stack := by
  have below : ∀ f ∈ t.stack, f.waits = false := fun f member => none f (List.mem_cons_of_mem _ member)
  have answered {w' : World} (idly : Idly w w') : Spends w work t.stack w' t.stack := by
    exact .idly idly (Nat.le_add_left _ _) (Nat.lt_add_of_pos_left (work.weight_pos _)) (.of_none below)
  cases found : w.responses[r]? with
  | none =>
    rw [serve_absent asked found]
    exact answered (.refl w)
  | some x =>
    cases granted : asked.grant r x with
    | error error =>
      rw [serve_refused found granted]
      exact answered ⟨rfl, rfl, rfl, List.prefix_rfl⟩
    | ok grant =>
      rw [serve_granted found granted]
      have undisturbed : Undisturbed (w.setResponse r grant.response) (grant.work r ++ t.stack) :=
        .of_none (List.forall_mem_append.mpr ⟨Request.grant_unwaiting granted, below⟩)
      have cost := w.cost_setResponse found grant.response
      have lowers := Request.grant_lowers granted w.waiters.length
      have least := Work.asks_le asks w.waiters.length
      refine ⟨?_, List.prefix_rfl, undisturbed⟩
      show Lower ((w.setResponse r grant.response).cost + costs (grant.work r ++ t.stack),
        w.weight + weights w.waiters.length (grant.work r ++ t.stack)) _
      rw [rank, costs_append, weights_append, costs_cons, weights_cons]
      by_cases less : (w.setResponse r grant.response).cost + (costs (grant.work r) + costs t.stack) <
          w.cost + (work.cost + costs t.stack)
      · exact .left _ _ less
      · refine .of_le (by omega) (by omega)

theorem call_cost {action : Action} (causes : ∀ r, action ≠ .cancel r) : (Work.call action).cost = 3 * action.work := by
  cases action <;> first | rfl | exact absurd rfl (causes _)

theorem sleepUntil_events (w : World) (due : Option Nat) (task : Task) : (w.sleepUntil due task).events = w.events := by
  unfold sleepUntil
  split
  · rfl
  · split <;> rfl

theorem schedule_spends (work : Work) {after : Duration} {callback : Callback} (next : Nat → List Work)
    (runtime : w.drive = .runtime) (cost : ∀ id, callback.cost + 1 + costs (next id) < work.cost)
    (waits : ∀ id, ∀ f ∈ next id, f.waits = false) (none : ∀ f ∈ work :: t.stack, f.waits = false) :
    Spends w work t.stack (w.schedule t after callback next).1 (w.schedule t after callback next).2.stack := by
  have below : ∀ f ∈ t.stack, f.waits = false := fun f member => none f (List.mem_cons_of_mem _ member)
  obtain ⟨extra, hooked, scheduled, goes⟩ := schedule_effect (w := w) (t := t) after callback next
  rw [hooked.2 runtime, List.nil_append] at goes
  rw [goes]
  refine .caused ?_ ?_ (.of_none (List.forall_mem_append.mpr ⟨waits _, below⟩))
  · have less := cost (w.timers.list.length + 1)
    have held (due : Option Nat) : Timer.stake { after := after, due := due, callback := callback } = callback.cost + 1 := rfl
    simp only [World.cost, scheduled.responses, scheduled.timers, Timers.schedule, List.map_append, List.sum_append,
      List.map_singleton, List.sum_singleton, costs_append, costs_cons, held]
    omega
  · have same : (w.schedule t after callback next).1.events = w.events := by
      rw [schedule_runtime runtime, sleepUntil_events]
    simp only [same, List.prefix_rfl]

theorem disarm_spends {work : Work} (id : Nat) (runtime : w.drive = .runtime)
    (none : ∀ f ∈ work :: t.stack, f.waits = false) :
    Spends w work t.stack (w.disarm t id).1 (w.disarm t id).2.stack := by
  have below : ∀ f ∈ t.stack, f.waits = false := fun f member => none f (List.mem_cons_of_mem _ member)
  obtain ⟨w', ⟨log, metrics, rfl, -⟩, same⟩ := w.disarm_alike runtime t id
  rw [same]
  refine ⟨?_, List.prefix_rfl, .of_none below⟩
  have less := Timers.stake_disarm w.timers id
  have heavy := work.weight_pos w.waiters.length
  exact .of_le (by simp only [World.cost, costs_cons, Thread.answer]; omega)
    (by simp only [World.weight, weights_cons, Thread.answer]; omega)

theorem runCallback_spends {v : World} {work : Work} {id : Nat} {timer : Timer Callback} (found : w.timers.get? id = some timer)
    (live : timer.armed = true ∨ timer.ran = false) (idly : Idly w v) (timers : v.timers = w.timers)
    (returns : List Work) {rest : List Work} (stack : t.stack = returns ++ rest) (free : costs returns = 0)
    (waits : ∀ f ∈ returns, f.waits = false) (none : ∀ f ∈ work :: rest, f.waits = false) :
    Spends w work rest (v.runCallback t id).1 (v.runCallback t id).2.stack := by
  have below : ∀ f ∈ rest, f.waits = false := fun f member => none f (List.mem_cons_of_mem _ member)
  have pushed {own : List Work} (quiet : ∀ f ∈ own, f.waits = false) : ∀ f ∈ own ++ (returns ++ rest), f.waits = false :=
    List.forall_mem_append.mpr ⟨quiet, List.forall_mem_append.mpr ⟨waits, below⟩⟩
  have stakes := Timers.stake_spend found live
  have cost := idly.cost
  rw [← timers] at found stakes
  simp only [runCallback, found, Thread.push, stack]
  cases callback : timer.callback with
  | expire r window generation =>
    rw [callback] at stakes
    refine .caused ?_ idly.events (.of_none (pushed (by simp [Work.waits])))
    simp only [World.cost, costs_append, costs_cons, free] at cost ⊢
    simp only [Work.cost, Request.cost, Callback.cost, costs_nil] at stakes ⊢
    omega
  | script body =>
    rw [callback] at stakes
    let spent : World := { v with timers := v.timers.spend id }
    have shown : Idly spent (if v.drive = .runtime then spent.emit t (.fired id) else spent) := by
      split
      · exact .emit ..
      · exact .refl _
    refine .caused ?_ (idly.events.trans shown.events) (.of_none (pushed (by simp [Work.waits])))
    rw [shown.cost]
    simp only [spent, World.cost, costs_append, costs_cons, free] at cost ⊢
    simp only [Work.cost, Callback.cost, costs_nil] at stakes ⊢
    omega

theorem fireByHand_spends (id : Nat) (force : Bool) (none : ∀ f ∈ t.stack, f.waits = false) :
    Spends w (.call (.fire id force)) t.stack (w.fireByHand t id force).1 (w.fireByHand t id force).2.stack := by
  have answered (result : Result) : Spends w (.call (.fire id force)) t.stack w (t.answer result).stack :=
    .idly (.refl w) (Nat.le_add_left _ _) (Nat.lt_add_of_pos_left (Work.weight_pos _ _)) (.of_none none)
  unfold fireByHand
  cases found : w.timers.get? id with
  | none => exact answered _
  | some timer =>
    simp only
    split
    · exact answered _
    · split
      · exact answered _
      next fresh =>
        exact runCallback_spends found (.inr (by simpa using fresh))
          (.emit w _ (.fired id)) rfl [.answer (.fire .fired)] rfl rfl (by simp [Work.waits]) (by simpa [Work.waits] using none)

theorem panic_spends (message : Option String) (none : ∀ f ∈ t.stack, f.waits = false) :
    Spends w (.call (.panic message)) t.stack (w.panic t message).1 (w.panic t message).2.stack := by
  have kept : Idly w (w.panic t message).1 := by
    unfold panic
    dsimp only
    split
    · exact .refl w
    · split
      · exact ⟨rfl, rfl, rfl, List.prefix_rfl⟩
      · exact .emit ..
  rw [panic_stack]
  have suffix : (t.stack.dropWhile (!·.isGuard)).tail <:+ t.stack := (List.tail_suffix _).trans (List.dropWhile_suffix _)
  refine .caused ?_ kept.events (.of_none fun f member => none f (suffix.subset member))
  obtain ⟨dropped, whole⟩ := suffix
  have parts := congrArg costs whole
  rw [costs_append] at parts
  rw [kept.cost, costs_cons, call_cost (by simp), ← parts]
  simp only [Action.work]
  omega

theorem create_events (w : World) (sink : FailureSink) (count : Nat) : (w.create sink count).events = w.events := by
  induction count generalizing w with
  | zero => rfl
  | succ count ih => exact ih _

theorem call_spends (runtime : w.drive = .runtime) (action : Action) (none : ∀ f ∈ t.stack, f.waits = false) :
    Spends w (.call action) t.stack (w.call t action).1 (w.call t action).2.stack := by
  have whole : ∀ f ∈ .call action :: t.stack, f.waits = false := List.forall_mem_cons.mpr ⟨rfl, none⟩
  have causes {action : Action} {after : World} (pushed : List Work) (waits : ∀ f ∈ pushed, f.waits = false)
      (cost : after.cost = w.cost) (events : w.events.toList <+: after.events.toList)
      (less : costs pushed < (Work.call action).cost) : Spends w (.call action) t.stack after (pushed ++ t.stack) := by
    refine .caused ?_ events (.of_none (List.forall_mem_append.mpr ⟨waits, none⟩))
    rw [cost, costs_append, costs_cons]
    omega
  have answers {action : Action} (causing : ∀ r, action ≠ .cancel r) : Spends w (.call action) t.stack w t.stack := by
    refine causes [] (by simp) rfl List.prefix_rfl ?_
    have some := action.work_pos
    rw [call_cost causing, costs_nil]
    omega
  cases action with
  | create count sink =>
    obtain ⟨responses, timers, -⟩ := w.create_alongside sink count
    refine .caused ?_ (by simp only [call, create_events, List.prefix_rfl]) (.of_none none)
    have made : stake { sink := sink } = 1 := rfl
    rw [call, costs_cons, call_cost (by simp)]
    simp only [World.cost, responses, timers, List.map_append, List.map_replicate, List.sum_append, List.sum_replicate_nat, made,
      Thread.answer, Action.work]
    omega
  | applyPolicy r timeout unit =>
    cases unit with
    | error error => exact answers (by simp)
    | ok unit => exact serve_spends rfl whole
  | setTimeoutIn r amount unit =>
    cases unit with
    | error error => exact answers (by simp)
    | ok unit => exact serve_spends rfl whole
  | suspend r => exact serve_spends rfl whole
  | setTimeout r window => exact serve_spends rfl whole
  | resume r value => exact serve_spends rfl whole
  | resumeWithError r failure => exact serve_spends rfl whole
  | cancel r => exact serve_spends rfl whole
  | onResolved r label body => exact serve_spends rfl whole
  | wait r label => exact causes [] (by simp) rfl List.prefix_rfl (Nat.succ_pos _)
  | inspect r =>
    obtain ⟨world, stack⟩ := onResponse_unchanged (w := w) (t := t) (r := r)
      (f := fun x => (w, t.answer (.inspection ⟨x.state, x.window, x.outcome⟩))) (fun _ => ⟨rfl, rfl⟩)
    simp only [call, world, stack]
    exact answers (by simp)
  | register r =>
    exact causes [.measure, .request r (.subscribe .untrack), .answer .done] (by simp [Work.waits]) rfl List.prefix_rfl
      (Nat.succ_pos _)
  | tracked r => exact answers (by simp)
  | cancelTracked named =>
    cases named with
    | none => exact answers (by simp)
    | some r =>
      simp only [call]
      split
      · exact causes [.call (.cancel r)] (by simp [Work.waits]) rfl List.prefix_rfl (Nat.succ_pos _)
      · exact answers (by simp)
  | cancelAll => exact causes [.cancelEach w.registry.ids 0] (by simp [Work.waits]) rfl List.prefix_rfl (Nat.succ_pos _)
  | trackedIds => exact answers (by simp)
  | fire timer force => exact fireByHand_spends timer force none
  | hookSchedule body => exact causes [] (by simp) rfl List.prefix_rfl (by simp [Work.cost, Action.cost, Action.work])
  | hookCancel body => exact causes [] (by simp) rfl List.prefix_rfl (by simp [Work.cost, Action.cost, Action.work])
  | race threads raced =>
    let back : List Work := if w.drive == .runtime && t.onClock then [.backOnClock] else []
    have waits : ∀ f ∈ back, f.waits = false := by
      intro f member
      simp only [back] at member
      split at member <;> simp_all [Work.waits]
    have free : costs back = 0 := by
      simp only [back]
      split <;> rfl
    refine causes (.race threads raced {} :: back) (List.forall_mem_cons.mpr ⟨rfl, waits⟩) rfl List.prefix_rfl ?_
    rw [costs_cons, free, call_cost (by simp)]
    simp only [Work.cost, Action.work, Nat.mul_add, Nat.mul_left_comm threads 3]
    omega
  | panic message => exact panic_spends message none
  | schedule window body =>
    refine schedule_spends _ _ runtime (fun id => ?_) (by simp [Work.waits]) whole
    simp only [Callback.cost, costs_cons, costs_nil, Work.cost, Action.cost, Action.work]
    omega
  | disarm id => exact disarm_spends id runtime whole

theorem deliver_idly (w : World) (t : Thread) (waiter : Waiter) (outcome : Outcome String) :
    Idly w (w.deliver t waiter outcome) := by
  unfold deliver
  split
  · exact .emit ..
  · exact .emit ..
  · exact .record ..

theorem wait_spends (id : Nat) (work : Work) (reads : work = .enable id ∨ work = .readOutcome id ∨ work = .park id)
    (own : Undisturbed w (work :: t.stack)) : Spends w work t.stack (w.perform t work).1 (w.perform t work).2.stack := by
  have ends {work : Work} {after : World} (idly : Idly w after) (below : t.stack = []) : Spends w work t.stack after t.stack := by
    rw [below]
    exact .idly idly (Nat.zero_le _) (Nat.lt_add_of_pos_left (work.weight_pos _)) (.of_none (by simp))
  rcases reads with rfl | rfl | rfl
  · have below := own.alone.below_enable
    simp only [perform, below]
    refine .idly (.setStage w id .enabled) (Nat.le_add_left _ _) (Nat.lt_add_of_pos_left (Work.weight_pos _ _))
      ⟨.inr ⟨id, .inr (.inl rfl)⟩, ?_⟩
    rintro other (same | same) waiter found <;> cases same
    rw [setStage_waiter, if_pos rfl] at found
    obtain ⟨before, -, rfl⟩ := Option.map_eq_some_iff.mp found
    simp
  · have below := own.alone.below_readOutcome
    simp only [perform, onWaiter]
    split
    next waiter found =>
      split
      · exact ends ((Idly.setStage w id .finished).trans (deliver_idly ..)) below
      · simp only [Thread.push, below]
        refine .idly (.refl w) (Nat.le_refl _) (by simp [Work.weight]) ⟨.inr ⟨id, .inr (.inr rfl)⟩, ?_⟩
        rintro other (same | same) <;> cases same
        exact own.unnotified id (.inl (by rw [below]))
    next => exact ends (.refl w) below
  · have below := own.alone.below_park
    simp only [perform, onWaiter]
    split
    next waiter found =>
      rw [if_neg (own.unnotified id (.inr (by rw [below])) waiter found)]
      split
      · split
        · simp only [Thread.push, below]
          exact .idly (.setStage w id .finished) (Nat.le_refl _) (by simp [Work.weight, Request.weight])
            (.of_none (by simp [Work.waits]))
        · exact ends (.setStage w id .parked) below
      · exact ends (.setStage w id .parked) below
    next => exact ends (.refl w) below

theorem notify_spends (r : Nat) (none : ∀ f ∈ t.stack, f.waits = false) :
    Spends w (.notify r) t.stack (w.notify r) t.stack := by
  refine ⟨?_, List.prefix_rfl, .of_none none⟩
  have few : (w.notify r).ready.length ≤ w.ready.length + w.waiters.length := by
    rw [notify, List.length_append]
    exact Nat.add_le_add_left (Nat.le_trans (List.length_filterMap_le _ _) (Nat.le_of_eq List.length_zipIdx)) _
  have same : (w.notify r).waiters.length = w.waiters.length := List.length_map ..
  refine .of_le (Nat.add_le_add_left (Nat.le_add_left _ _) _) ?_
  rw [same, weights_cons]
  simp only [weight, Work.weight, show (w.notify r).sleeping = w.sleeping from rfl]
  omega

/-- Each step of a thread that runs alone under a runtime spends something. -/
theorem perform_spends (runtime : w.drive = .runtime) (work : Work) (own : Undisturbed w (work :: t.stack)) :
    Spends w work t.stack (w.perform t work).1 (w.perform t work).2.stack := by
  cases waits : work.waits with
  | true =>
    cases work with
    | enable id => exact wait_spends id _ (.inl rfl) own
    | readOutcome id => exact wait_spends id _ (.inr (.inl rfl)) own
    | park id => exact wait_spends id _ (.inr (.inr rfl)) own
    | _ => cases waits
  | false =>
    have whole := own.alone.of_idle waits
    have below : ∀ f ∈ t.stack, f.waits = false := fun f member => whole f (List.mem_cons_of_mem _ member)
    have pushes {work : Work} {after : World} (pushed : List Work) (idly : Idly w after)
        (cost : costs pushed ≤ work.cost) (weight : weights w.waiters.length pushed < work.weight w.waiters.length)
        (waits : ∀ f ∈ pushed, f.waits = false) : Spends w work t.stack after (pushed ++ t.stack) := by
      refine .idly idly ?_ ?_ (.of_none (List.forall_mem_append.mpr ⟨waits, below⟩))
      · simp only [costs_append, costs_cons]
        omega
      · simp only [weights_append, weights_cons]
        omega
    have ends {work : Work} {after : World} (idly : Idly w after) : Spends w work t.stack after t.stack :=
      pushes [] idly (Nat.zero_le _) (work.weight_pos _) (by simp)
    have tells {after : World} (cost : after.cost = w.cost) (weight : after.weight = w.weight)
        (waiters : after.waiters = w.waiters) (events : after.events = w.events) : Idly w after :=
      ⟨cost, weight, by rw [waiters], by simp only [events, List.prefix_rfl]⟩
    cases work with
    | call action => exact call_spends runtime action below
    | request r asked => exact serve_spends rfl whole
    | script speaker body =>
      cases body with
      | nil => exact ends (.refl w)
      | cons action rest =>
        have least := action.cost_le
        refine pushes [.call action, .line speaker action, .script speaker rest] (.refl w) ?_ ?_ (by simp [Work.waits])
        · simp only [costs_cons, costs_nil, Work.cost, Action.workAll]
          omega
        · simp only [weights_cons, weights_nil, Work.weight, List.length_cons]
          omega
    | line speaker action => exact ends (.emit ..)
    | answer result => exact ends (.refl w)
    | settled r operation => exact ends (.refl w)
    | record event => exact ends (.record ..)
    | disarm id => exact disarm_spends id runtime whole
    | arm r arming =>
      exact schedule_spends (.arm r arming) (fun id => [.request r (.keepTimer id arming.generation)]) runtime
        (fun id => by simp [Callback.cost, Work.cost, Request.cost]) (by simp [Work.waits]) whole
    | fireInline id =>
      simp only [perform]
      split
      next armed =>
        obtain ⟨timer, found, live⟩ := isArmed_eq_true armed
        exact runCallback_spends found (.inl live) (.emit ..) rfl [] rfl rfl (by simp) whole
      next => exact ends (.refl w)
    | timerDue id =>
      simp only [perform]
      split
      next armed =>
        obtain ⟨timer, found, live⟩ := isArmed_eq_true armed
        exact runCallback_spends found (.inl live) (.record ..) rfl [] rfl rfl (by simp) whole
      next => exact ends (.refl w)
    | expired r =>
      simp only [perform]
      split
      · exact ends (.record ..)
      · exact ends (.refl w)
    | notify r => exact notify_spends r below
    | announce r outcome listeners => exact ends (tells rfl rfl rfl rfl)
    | listen r index listener outcome =>
      cases listener with
      | script label body =>
        refine pushes [.script (.listener label) body, .guardListener r index] (.emit ..) (Nat.le_refl _) ?_
          (by simp [Work.waits])
        simp [Work.weight, Listener.weight]
      | untrack =>
        exact pushes [.untrack r, .guardListener r index] (.refl w) (Nat.le_refl _) (by simp [Work.weight, Listener.weight])
          (by simp [Work.waits])
    | guardListener r index => exact ends (.refl w)
    | untrack r => exact pushes [.measure] (tells rfl rfl rfl rfl) (Nat.le_refl _) (by simp [Work.weight]) (by simp [Work.waits])
    | measure =>
      exact pushes [.gauge w.registry.size] (.refl w) (Nat.le_refl _) (by simp [Work.weight]) (by simp [Work.waits])
    | gauge length => exact ends (tells rfl rfl rfl rfl)
    | cancelEach pending cancelled =>
      cases pending with
      | nil =>
        simp only [perform]
        split
        · exact ends (.record ..)
        · exact ends (.refl w)
      | cons r pending =>
        refine pushes [.call (.cancel r), .countCancelled pending cancelled] (.refl w) (Nat.le_refl _) ?_ (by simp [Work.waits])
        simp only [weights_cons, weights_nil, Work.weight, List.length_cons]
        omega
    | countCancelled pending cancelled =>
      exact pushes [.cancelEach pending _] (.refl w) (Nat.le_refl _) (by simp [Work.weight]) (by simp [Work.waits])
    | race threads action tally =>
      cases threads with
      | zero => exact ends (.refl w)
      | succ threads =>
        have least := action.cost_le
        have waits : ∀ f ∈ .call action :: .countRaced threads action tally :: t.stack, f.waits = false := by
          simpa [Work.waits] using below
        refine .caused ?_ List.prefix_rfl (.of_none waits)
        show w.cost + costs (.call action :: .countRaced threads action tally :: t.stack) < _
        have once : (threads + 1) * (3 * action.work + 1) = threads * (3 * action.work + 1) + (3 * action.work + 1) :=
          Nat.succ_mul ..
        simp only [costs_cons, Work.cost, once]
        omega
    | countRaced threads action tally =>
      exact pushes [.race threads action (tally.add t.result)] (.refl w) (Nat.le_refl _) (by simp [Work.weight])
        (by simp [Work.waits])
    | backOnClock => exact ends (.refl w)
    | rouse id =>
      simp only [perform, onWaiter]
      split
      · split
        · exact pushes [.request _ (.produce _)] (.setStage ..) (Nat.le_refl _) (by simp [Work.weight, Request.weight])
            (by simp [Work.waits])
        · exact ends (.refl w)
      · exact ends (.refl w)
    | enable | readOutcome | park => cases waits

end World

theorem step_spends {w : World} {t : Thread} {work : Work} {rest : List Work} (runtime : w.drive = .runtime)
    (stack : t.stack = work :: rest) (own : Undisturbed w t.stack) :
    Spends w work rest (step w t).1 (step w t).2.stack := by
  unfold step
  rw [stack] at own ⊢
  exact World.perform_spends (t := { t with stack := rest }) runtime work own

end Deferral.Simulation
