import Deferral.Proofs.CancelAll
import Deferral.Proofs.VirtualClock

/-! Listeners that keep to the response they listen to. What is done for such listeners once the response is
resolved changes nothing of other responses, of timers, or of what the table holds of them. -/

namespace Deferral.Simulation

mutual

/-- Whether an action asks something of one response at most, and no more than to be read of the others, of
timers, of the scheduler's hooks and of the table as a whole. A timer that a listener starts for itself would
tell by its number when the listener ran. -/
def Action.keepsTo (r : Nat) : Action → Bool
  | .applyPolicy s _ _ | .suspend s | .setTimeout s _ | .setTimeoutIn s _ _ | .resume s _ | .resumeWithError s _
  | .cancel s | .register s | .cancelTracked (some s) => s == r
  | .onResolved s _ body => s == r && Action.allKeepTo r body
  | .race _ action => action.keepsTo r
  | .create _ _ | .wait _ _ | .inspect _ | .tracked _ | .cancelTracked none | .trackedIds | .panic _ => true
  | .cancelAll | .fire _ _ | .hookSchedule _ | .hookCancel _ | .schedule _ _ | .disarm _ => false

def Action.allKeepTo (r : Nat) : List Action → Bool
  | [] => true
  | action :: rest => action.keepsTo r && Action.allKeepTo r rest

end

def Listener.keepsTo (r : Nat) : Listener → Bool
  | .script _ body => Action.allKeepTo r body
  | .untrack => true

def Request.keepsTo (r : Nat) : Request → Bool
  | .subscribe listener => listener.keepsTo r
  | .expire _ _ | .keepTimer _ _ => false
  | _ => true

/-- Whether some work is what a resolved response's own listeners leave. -/
def Work.keepsTo (r : Nat) : Work → Bool
  | .call action | .race _ action _ | .countRaced _ action _ => action.keepsTo r
  | .script _ body => Action.allKeepTo r body
  | .request s asked => s == r && asked.keepsTo r
  | .listen s _ listener _ => s == r && listener.keepsTo r
  | .untrack s => s == r
  | .line _ _ | .answer _ | .settled _ _ | .record _ | .notify _ | .announce _ _ _ | .guardListener _ _ | .measure | .gauge _
  | .backOnClock => true
  | _ => false

theorem Work.request_keepsTo {work : Work} {r s : Nat} {asked : Request} (keeps : work.keepsTo r = true)
    (asks : work.request? = some (s, asked)) : s = r ∧ asked.keepsTo r = true := by
  cases work with
  | request =>
    cases asks
    simpa [Work.keepsTo] using keeps
  | call action =>
    have calls : action.request? = some (s, asked) := asks
    unfold Action.request? at calls
    split at calls <;> cases calls <;> simpa [Work.keepsTo, Action.keepsTo, Request.keepsTo, Listener.keepsTo] using keeps
  | _ => cases asks

structure KeptTo (r : Nat) (before after : World) : Prop where
  others : ∀ s, s ≠ r → after.response s = { before.response s with sink := (after.response s).sink }
  timers : after.timers = before.timers
  table : ∀ s, s ≠ r → (s ∈ after.registry.ids ↔ s ∈ before.registry.ids)
  drive : after.drive = before.drive
  hooks : after.cancelHooks = before.cancelHooks

namespace World

variable {w : World} {t : Thread} {r : Nat}

/-- What a step pushes that goes on with what is left for a response, unless it is a panic. -/
structure Leaves (r : Nat) (w : World) (stack : List Work) (after : World × Thread) : Prop where
  hooks : after.1.cancelHooks = w.cancelHooks
  pushes : ∃ pushed, after.2.stack = pushed ++ stack ∧ ∀ f ∈ pushed, f.keepsTo r = true

theorem Leaves.nothing {after : World × Thread} (hooks : after.1.cancelHooks = w.cancelHooks)
    (same : after.2.stack = t.stack) : Leaves r w t.stack after :=
  ⟨hooks, [], same, by simp⟩

theorem create_hooks (w : World) (sink : FailureSink) (count : Nat) :
    (w.create sink count).cancelHooks = w.cancelHooks := by
  induction count generalizing w with
  | zero => rfl
  | succ count ih => rw [create, ih]; rfl

theorem serve_leaves {asked : Request} (keeps : asked.keepsTo r = true) (sound : Sound (w.response r))
    (terminal : (w.response r).state.isTerminal = true) : Leaves r w t.stack (w.serve t r asked) := by
  cases found : w.responses[r]? with
  | none =>
    rw [serve_absent asked found]
    exact .nothing rfl rfl
  | some x =>
    rw [response_found found] at sound terminal
    cases answered : asked.grant r x with
    | error error =>
      rw [serve_refused found answered]
      exact .nothing rfl rfl
    | ok grant =>
      rw [serve_granted found answered]
      cases Request.grant_cases sound answered with
      | declare pending | suspend pending => simp [pending] at terminal
      | start _ unresolved | finish _ _ unresolved =>
        rw [terminal] at unresolved
        cases unresolved
      | store | stale => cases keeps
      | @subscribe listener =>
        refine ⟨rfl, _, rfl, fun f member => ?_⟩
        simp only [Grant.work, List.mem_append, List.mem_map, Option.mem_toList, Option.toList_none, List.map_nil,
          List.not_mem_nil, false_or, or_false, List.mem_singleton] at member
        rcases member with ⟨outcome, -, rfl⟩ | rfl
        · simpa [Work.keepsTo, Request.keepsTo] using keeps
        · rfl

theorem call_leaves {action : Action} (keeps : action.keepsTo r = true) (calm : ∀ message, action ≠ .panic message)
    (sound : Sound (w.response r)) (terminal : (w.response r).state.isTerminal = true) :
    Leaves r w t.stack (w.call t action) := by
  have own {s : Nat} {asked : Request} (same : s = r) (kept : asked.keepsTo r = true) :
      Leaves r w t.stack (w.serve t s asked) := by
    subst same
    exact serve_leaves kept sound terminal
  cases action with
  | create count sink => exact .nothing (create_hooks w sink count) rfl
  | applyPolicy s timeout unit =>
    cases unit with
    | error error => exact .nothing rfl rfl
    | ok unit => exact own (by simpa [Action.keepsTo] using keeps) rfl
  | setTimeoutIn s amount unit =>
    cases unit with
    | error error => exact .nothing rfl rfl
    | ok unit => exact own (by simpa [Action.keepsTo] using keeps) rfl
  | suspend s | setTimeout s window | resume s value | resumeWithError s failure | cancel s =>
    exact own (by simpa [Action.keepsTo] using keeps) rfl
  | onResolved s label body =>
    have kept : s = r ∧ Action.allKeepTo r body = true := by simpa [Action.keepsTo] using keeps
    have heard : (Request.subscribe (.script label body)).keepsTo r = true := kept.2
    exact own kept.1 heard
  | wait | tracked | trackedIds => exact .nothing rfl rfl
  | inspect s =>
    obtain ⟨world, stack⟩ := onResponse_unchanged (w := w) (t := t) (r := s)
      (f := fun x => (w, t.answer (.inspection ⟨x.state, x.window, x.outcome⟩))) (fun _ => ⟨rfl, rfl⟩)
    exact .nothing (congrArg (·.cancelHooks) world) stack
  | register s =>
    refine ⟨rfl, [.measure, .request s (.subscribe .untrack), .answer .done], rfl, ?_⟩
    simpa [Work.keepsTo, Request.keepsTo, Listener.keepsTo, Action.keepsTo] using keeps
  | cancelTracked named =>
    cases named with
    | none => exact .nothing rfl rfl
    | some s =>
      by_cases tracked : w.registry.contains s = true
      · refine ⟨rfl, [.call (.cancel s)], by simp [call, tracked, Thread.push], ?_⟩
        simpa [Work.keepsTo, Action.keepsTo] using keeps
      · exact .nothing rfl (by simp [call, tracked, Thread.answer])
  | race threads raced =>
    refine ⟨rfl, .race threads raced {} :: if w.drive == .runtime && t.onClock then [.backOnClock] else [], rfl, ?_⟩
    have kept : raced.keepsTo r = true := by simpa [Action.keepsTo] using keeps
    cases w.drive == .runtime && t.onClock <;> simp [Work.keepsTo, kept]
  | panic message => exact absurd rfl (calm message)
  | cancelAll | fire | hookSchedule | hookCancel | schedule | disarm => cases keeps

theorem perform_leaves {work : Work} (keeps : work.keepsTo r = true) (calm : ∀ message, work ≠ .call (.panic message))
    (sound : Sound (w.response r)) (terminal : (w.response r).state.isTerminal = true) :
    Leaves r w t.stack (w.perform t work) := by
  cases work with
  | call action => exact call_leaves keeps (fun message same => calm message (by rw [same])) sound terminal
  | script speaker body =>
    cases body with
    | nil => exact .nothing rfl rfl
    | cons action rest =>
      refine ⟨rfl, [.call action, .line speaker action, .script speaker rest], rfl, ?_⟩
      simpa [Work.keepsTo, Action.allKeepTo] using keeps
  | request s asked =>
    have kept : s = r ∧ asked.keepsTo r = true := by simpa [Work.keepsTo] using keeps
    obtain ⟨rfl, kept⟩ := kept
    exact serve_leaves kept sound terminal
  | listen s index listener outcome =>
    cases listener with
    | script label body =>
      refine ⟨rfl, [.script (.listener label) body, .guardListener s index], rfl, ?_⟩
      have kept : s = r ∧ Action.allKeepTo r body = true := by simpa [Work.keepsTo, Listener.keepsTo] using keeps
      simp [Work.keepsTo, kept.2]
    | untrack =>
      refine ⟨rfl, [.untrack s, .guardListener s index], rfl, ?_⟩
      have kept : s = r := by simpa [Work.keepsTo, Listener.keepsTo] using keeps
      simp [Work.keepsTo, kept]
  | untrack s => exact ⟨rfl, [.measure], rfl, by simp [Work.keepsTo]⟩
  | measure => exact ⟨rfl, [.gauge w.registry.size], rfl, by simp [Work.keepsTo]⟩
  | race threads action tally =>
    cases threads with
    | zero => exact .nothing rfl rfl
    | succ threads => exact ⟨rfl, [.call action, .countRaced threads action tally], rfl, by simpa [Work.keepsTo] using keeps⟩
  | countRaced threads action tally =>
    exact ⟨rfl, [.race threads action (tally.add t.result)], rfl, by simpa [Work.keepsTo] using keeps⟩
  | line | answer | settled | record | notify | announce | guardListener | gauge | backOnClock => exact .nothing rfl rfl
  | _ => cases keeps

theorem panic_hooks (message : Option String) : (w.panic t message).1.cancelHooks = w.cancelHooks := by
  unfold panic
  dsimp only
  split
  · rfl
  · split <;> rfl

end World

section Steps

variable {w : World} {t : Thread} {work : Work} {rest : List Work} {r : Nat}

/-- Work that keeps to a resolved response leaves such work on top of what waits below it; a panic drops some
of that. -/
theorem step_leaves (stack : t.stack = work :: rest) (keeps : work.keepsTo r = true) (sound : Sound (w.response r))
    (terminal : (w.response r).state.isTerminal = true) : (step w t).1.cancelHooks = w.cancelHooks ∧
      ∃ pushed below, (step w t).2.stack = pushed ++ below ∧ (∀ f ∈ pushed, f.keepsTo r = true) ∧ below <:+ rest := by
  unfold step
  rw [stack]
  by_cases panics : ∃ message, work = .call (.panic message)
  · obtain ⟨message, rfl⟩ := panics
    refine ⟨World.panic_hooks message, [], _, World.panic_stack message, by simp, ?_⟩
    exact (List.tail_suffix _).trans (List.dropWhile_suffix _)
  · obtain ⟨hooks, pushed, same, kept⟩ := World.perform_leaves (w := w) (t := { t with stack := rest }) keeps
      (fun message same => panics ⟨message, same⟩) sound terminal
    exact ⟨hooks, pushed, rest, same, kept, List.suffix_rfl⟩

theorem step_above {above base : List Work} {f : Work} (stack : t.stack = work :: (above ++ f :: base))
    (caught : Caught work (above ++ f :: base)) (unscripted : f.isScripted = false) (unguarded : f.isGuard = false)
    (keeps : ∀ g ∈ work :: above, g.keepsTo r = true) (sound : Sound (w.response r))
    (terminal : (w.response r).state.isTerminal = true) :
    ∃ above, (step w t).2.stack = above ++ f :: base ∧ ∀ g ∈ above, g.keepsTo r = true := by
  obtain ⟨left, kept⟩ := (step_delivery (w := w) stack).keeps caught rfl unscripted unguarded
  refine ⟨left, kept, fun g member => ?_⟩
  obtain ⟨-, pushed, below, same, own, dropped, suffix⟩ := step_leaves stack (keeps work (List.mem_cons_self ..)) sound terminal
  rw [kept] at same
  rcases List.append_eq_append_iff.mp same with ⟨between, split, -⟩ | ⟨between, split, rest⟩
  · rw [split] at own
    exact own g (List.mem_append_left _ member)
  · -- what is left of the stack ends above the same work
    rw [rest, ← List.append_assoc] at suffix
    have older := List.append_cancel_right suffix
    rw [split, List.mem_append] at member
    rcases member with new | old
    · exact own g new
    · refine keeps g (List.mem_cons_of_mem _ ?_)
      rw [← older]
      exact List.mem_append_right _ old

/-- Work that keeps to a resolved response changes nothing else that any order could show. -/
theorem step_keepsTo (stack : t.stack = work :: rest) (keeps : work.keepsTo r = true) (sound : ∀ s, Sound (w.response s))
    (terminal : (w.response r).state.isTerminal = true) : KeptTo r w (step w t).1 := by
  have effect := step_effect (w := w) stack
  have delivery := step_delivery (w := w) stack
  obtain ⟨hooks, -⟩ := step_leaves stack keeps (sound r) terminal
  generalize (step w t).2.stack = after at effect delivery
  generalize (step w t).1 = w' at effect delivery hooks ⊢
  refine ⟨fun s other => ?_, ?_, fun s other => ?_, effect.clock.1, hooks⟩
  · cases delivery with
    | granted asks found granted responses =>
      have same := (Work.request_keepsTo keeps asks).1
      rw [Delivery.granted_elsewhere responses (same ▸ Ne.symm other)]
    | listened kept | returned kept | untracked kept | registered kept | panicked kept | misreported kept
    | passed _ _ _ _ kept => exact kept.response s
  · cases effect with
    | armed | scheduled => cases keeps
    | disarmed asks => rcases asks with rfl | rfl <;> cases keeps
    | fired asks => rcases asks with ⟨rfl | rfl, -⟩ | ⟨force, rfl⟩ <;> cases keeps
    | refused _ _ _ _ timers | granted _ _ _ _ timers | created _ timers | unwound _ timers
    | quiet _ _ _ _ _ _ timers => exact timers
  · rw [delivery.registry, Work.mem_tabled]
    constructor
    · rintro (rfl | ⟨-, here⟩)
      · exact absurd (by simpa [Work.keepsTo, Action.keepsTo] using keeps) other
      · exact here
    · intro here
      refine .inr ⟨?_, here⟩
      rintro rfl
      exact other (by simpa [Work.keepsTo] using keeps)

end Steps
end Deferral.Simulation
