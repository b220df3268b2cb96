import Deferral.Proofs.Interleaving

/-! What one step does to the listeners that are still to run, to the registry and to the sinks of failures.
Listeners come to run by grants alone, only a registration adds to the registry, only a removal listener
takes from it, and a sink is told of panics and of nothing else. -/

namespace Deferral

/-- The failure of a listener of a response that a log event reports: the listener's number and its text. -/
def LogEvent.failure? (r : Nat) : LogEvent → Option (Nat × String)
  | .listenerFailed s index text => if s = r then some (index, text) else none
  | _ => none

/-- Whether a log event tells what became of a call on a response. -/
def LogEvent.accounts : LogEvent → Bool
  | .suspended .. | .timeoutSet .. | .rejected .. | .resolved .. => true
  | _ => false

/-- Whether a metric counts what became of calls on responses. -/
def Metric.accounts : Metric → Bool
  | .transitions _ | .rejections _ => true
  | _ => false

namespace Simulation

def Event.failure? (r : Nat) : Event → Option (Nat × String)
  | .listenerFailed index s text => if s = r then some (index, text) else none
  | _ => none

/-- What a sink of some kind was told of a response's listeners, oldest first. -/
def World.told (w : World) (sink : FailureSink) (r : Nat) : List (Nat × String) :=
  match sink with
  | .log => w.log.toList.filterMap (LogEvent.failure? r)
  | .events => w.events.toList.filterMap fun stamped => stamped.event.failure? r

theorem World.told_record (w : World) {event : LogEvent} (mild : ∀ r, event.failure? r = none) :
    (w.record event).told = w.told := by
  funext sink r
  cases sink <;> simp [World.told, World.record, mild]

theorem World.told_emit (w : World) (t : Thread) {event : Event} (mild : ∀ r, event.failure? r = none) :
    (w.emit t event).told = w.told := by
  funext sink r
  cases sink <;> simp [World.told, World.emit, mild]

/-- The first work of a listener that runs. -/
def Listener.work (r : Nat) : Listener → Work
  | .script label body => .script (.listener label) body
  | .untrack => .untrack r

namespace Work

/-- Work that a grant, a listener or a registration leaves, and nothing else does. -/
def attends : Work → Bool
  | .listen _ _ _ _ | .guardListener _ _ | .untrack _ | .request _ (.subscribe .untrack)
  | .record (.listenerFailed _ _ _) => true
  | _ => false

/-- Work that changes which listeners run, which responses are tracked or what the sinks were told. -/
def delivers : Work → Bool
  | .listen _ _ _ _ | .guardListener _ _ | .untrack _ | .call (.register _) | .call (.panic _)
  | .record (.listenerFailed _ _ _) => true
  | _ => false

/-- What is left of a script while one of its actions is carried out. -/
def isScripted : Work → Bool
  | .script _ _ | .line _ _ | .countRaced _ _ _ | .backOnClock => true
  | _ => false

end Work

/-- No response changes but those that are made, which are as taken to be. -/
structure Kept (before after : World) : Prop where
  response : ∀ r, after.response r = { before.response r with sink := (after.response r).sink }
  found : ∀ (r : Nat) (x : Response String Listener), before.responses[r]? = some x → after.responses[r]? = some x

theorem Kept.same {before after : World} (responses : after.responses = before.responses) : Kept before after := by
  constructor
  · intro r
    rw [World.response, responses, World.response]
  · intro r x found
    rw [responses]
    exact found

theorem Effect.kept {before after : World} {work : Work} {rest stack : List Work}
    (effect : Effect before work rest after stack)
    (ungranted : ∀ r asked x grant, work.request? = some (r, asked) → before.responses[r]? = some x →
      asked.grant r x ≠ .ok grant) : Kept before after := by
  cases effect with
  | granted asks found granted => exact absurd granted (ungranted _ _ _ _ asks found)
  | created responses =>
    refine ⟨World.response_created responses, ?_⟩
    intro r x found
    obtain ⟨inside, -⟩ := List.getElem?_eq_some_iff.mp found
    rw [responses, List.getElem?_append_left inside]
    exact found
  | armed _ scheduled | scheduled _ scheduled => exact .same scheduled.responses
  | refused _ _ _ responses | disarmed _ _ responses | fired _ _ _ responses | unwound responses
  | quiet _ _ _ _ _ responses => exact .same responses

/-- The effects of a step of a thread whose stack is `work :: rest` on listeners, registry and sinks. -/
inductive Delivery (before : World) : Work → List Work → World → List Work → Prop where
  | granted {work rest after r asked x grant} (asks : work.request? = some (r, asked))
      (found : before.responses[r]? = some x) (granted : asked.grant r x = .ok grant)
      (responses : after.responses = before.responses.set r grant.response)
      (registry : after.registry = before.registry) (told : after.told = before.told) :
      Delivery before work rest after (grant.work r ++ rest)
  | listened {r index listener outcome rest after} (kept : Kept before after)
      (registry : after.registry = before.registry) (told : after.told = before.told) :
      Delivery before (.listen r index listener outcome) rest after (listener.work r :: .guardListener r index :: rest)
  | returned {r index rest after} (kept : Kept before after) (registry : after.registry = before.registry)
      (told : after.told = before.told) : Delivery before (.guardListener r index) rest after rest
  | untracked {r rest after} (kept : Kept before after) (registry : after.registry = before.registry.remove r)
      (told : after.told = before.told) : Delivery before (.untrack r) rest after (.measure :: rest)
  | registered {r rest after} (kept : Kept before after) (registry : after.registry = before.registry.insert r)
      (told : after.told = before.told) :
      Delivery before (.call (.register r)) rest after (.measure :: .request r (.subscribe .untrack) :: .answer .done :: rest)
  | panicked {message rest after} (kept : Kept before after) (registry : after.registry = before.registry)
      (told : ∀ above r index below, rest = above ++ .guardListener r index :: below → (∀ f ∈ above, f.isGuard = false) →
        ∀ sink s, after.told sink s = before.told sink s ++
          if s = r ∧ sink = (before.response r).sink then [(index, message.getD "listener panicked")] else []) :
      Delivery before (.call (.panic message)) rest after (rest.dropWhile (!·.isGuard)).tail
  | misreported {r index text rest after} (kept : Kept before after) (registry : after.registry = before.registry) :
      Delivery before (.record (.listenerFailed r index text)) rest after rest
  | passed {work rest after} (pushed : List Work) (other : work.delivers = false)
      (unserved : ∀ r listener, work.request? = some (r, .subscribe listener) → before.responses[r]? = none)
      (none : ∀ f ∈ pushed, f.attends = false) (kept : Kept before after) (registry : after.registry = before.registry)
      (told : after.told = before.told) : Delivery before work rest after (pushed ++ rest)

theorem Hooked.unattended {before : World} {extra : List Work} (hooked : Hooked before extra) :
    ∀ f ∈ extra, f.attends = false := by
  intro f member
  rcases hooked.1 f member with ⟨speaker, body, rfl⟩ | ⟨result, rfl⟩ | ⟨id, rfl⟩ <;> rfl

namespace World

variable {w : World} {t : Thread}

/-- A step that neither the registry nor a sink hears of. -/
structure Tacit (before after : World) : Prop where
  registry : after.registry = before.registry
  told : after.told = before.told

theorem Tacit.same {before after : World} (registry : after.registry = before.registry)
    (events : after.events = before.events) (log : after.log = before.log) : Tacit before after := by
  refine ⟨registry, ?_⟩
  funext sink r
  cases sink
  · simp only [World.told, log]
  · simp only [World.told, events]

theorem Tacit.refl (w : World) : Tacit w w := ⟨rfl, rfl⟩

theorem Tacit.trans {first middle last : World} (a : Tacit first middle) (b : Tacit middle last) : Tacit first last :=
  ⟨b.registry.trans a.registry, b.told.trans a.told⟩

theorem Tacit.record (w : World) {event : LogEvent} (mild : ∀ r, event.failure? r = none) : Tacit w (w.record event) :=
  ⟨rfl, told_record w mild⟩

theorem Tacit.emit (w : World) (t : Thread) {event : Event} (mild : ∀ r, event.failure? r = none) :
    Tacit w (w.emit t event) := ⟨rfl, told_emit w t mild⟩

/-- A step of which neither the log nor a counter tells as of a call on a response. -/
structure Unbooked (before after : World) : Prop where
  log : ∃ entries, after.log.toList = before.log.toList ++ entries ∧ ∀ entry ∈ entries, entry.accounts = false
  metrics : ∀ metric, metric.accounts = true → after.metrics.count metric = before.metrics.count metric

theorem Unbooked.same {before after : World} (log : after.log = before.log) (metrics : after.metrics = before.metrics) :
    Unbooked before after :=
  ⟨⟨[], by simp [log], by simp⟩, fun _ _ => by rw [metrics]⟩

theorem Unbooked.record (w : World) {event : LogEvent} (plain : event.accounts = false) : Unbooked w (w.record event) :=
  ⟨⟨[event], by simp [World.record], by simpa using plain⟩, fun _ _ => rfl⟩

theorem Unbooked.trans {first middle last : World} (a : Unbooked first middle) (b : Unbooked middle last) :
    Unbooked first last := by
  obtain ⟨⟨early, log, plain⟩, metrics⟩ := a
  obtain ⟨⟨late, log', plain'⟩, metrics'⟩ := b
  refine ⟨⟨early ++ late, by rw [log', log, List.append_assoc], fun entry member => ?_⟩, fun metric accounts => ?_⟩
  · exact (List.mem_append.mp member).elim (plain entry) (plain' entry)
  · rw [metrics' metric accounts, metrics metric accounts]

/-- A step that does nothing to the registry, and tells neither a sink of a failure nor anyone of a call. -/
structure Plain (before after : World) : Prop extends Tacit before after, Unbooked before after

theorem Plain.same {before after : World} (registry : after.registry = before.registry)
    (events : after.events = before.events) (log : after.log = before.log) (metrics : after.metrics = before.metrics) :
    Plain before after :=
  ⟨.same registry events log, .same log metrics⟩

theorem Plain.refl (w : World) : Plain w w := .same rfl rfl rfl rfl

theorem Plain.trans {first middle last : World} (a : Plain first middle) (b : Plain middle last) : Plain first last :=
  ⟨a.toTacit.trans b.toTacit, a.toUnbooked.trans b.toUnbooked⟩

theorem Plain.record (w : World) {event : LogEvent} (plain : event.accounts = false)
    (mild : ∀ r, event.failure? r = none) : Plain w (w.record event) :=
  ⟨.record w mild, .record w plain⟩

theorem Plain.emit (w : World) (t : Thread) {event : Event} (mild : ∀ r, event.failure? r = none) :
    Plain w (w.emit t event) :=
  ⟨.emit w t mild, .same rfl rfl⟩

theorem sleepUntil_plain (w : World) (due : Option Nat) (task : Task) : Plain w (w.sleepUntil due task) := by
  unfold sleepUntil
  split
  · exact .refl w
  · split <;> exact .same rfl rfl rfl rfl

theorem create_plain (w : World) (sink : FailureSink) (count : Nat) : Plain w (w.create sink count) := by
  induction count generalizing w with
  | zero => exact .refl w
  | succ count ih =>
    have made : Plain (w.record (.created w.responses.length))
        { w.record (.created w.responses.length) with responses := w.responses ++ [{ sink := sink }] } := .same rfl rfl rfl rfl
    exact ((Plain.record w rfl fun _ => rfl).trans made).trans (ih _)

theorem takeScheduleHook_plain (w : World) : Plain w w.takeScheduleHook.1 := by
  unfold takeScheduleHook
  split
  · exact .refl w
  · exact .same rfl rfl rfl rfl

theorem takeCancelHook_plain (w : World) : Plain w w.takeCancelHook.1 := by
  unfold takeCancelHook
  split
  · exact .refl w
  · exact .same rfl rfl rfl rfl

theorem schedule_plain (after : Duration) (callback : Callback) (next : Nat → List Work) :
    Plain w (w.schedule t after callback next).1 := by
  have armed : Plain w { w with timers := (w.timers.schedule after (w.drive.due w.now after) callback).1 } :=
    .same rfl rfl rfl rfl
  unfold schedule
  dsimp only [Timers.schedule]
  split
  · exact armed.trans (sleepUntil_plain _ _ _)
  · exact ((armed.trans (.record _ rfl fun _ => rfl)).trans (.emit _ t fun _ => rfl)).trans (takeScheduleHook_plain _)

theorem disarm_plain (id : Nat) : Plain w (w.disarm t id).1 := by
  have disarmed : Plain w { w with timers := w.timers.disarm id } := .same rfl rfl rfl rfl
  unfold disarm
  dsimp only
  split
  · dsimp only
    split
    · exact disarmed.trans (.record _ rfl fun _ => rfl)
    · exact disarmed
  · exact (disarmed.trans (.emit _ t fun _ => rfl)).trans (takeCancelHook_plain _)

theorem disarm_pushes (w : World) (t : Thread) (id : Nat) :
    ∃ pushed, (w.disarm t id).2.stack = pushed ++ t.stack ∧ ∀ f ∈ pushed, f.attends = false := by
  unfold disarm
  dsimp only
  split
  · exact ⟨[], rfl, by simp⟩
  · unfold takeCancelHook
    split
    · exact ⟨_, rfl, by simp [Work.attends]⟩
    · exact ⟨_, rfl, by simp [Work.attends]⟩

theorem runCallback_plain (id : Nat) : Plain w (w.runCallback t id).1 := by
  have spent : Plain w { w with timers := w.timers.spend id } := .same rfl rfl rfl rfl
  unfold runCallback
  split
  · exact .refl w
  · simp only
    split
    · exact spent
    · simp only
      split
      · exact spent.trans (.emit _ t fun _ => rfl)
      · exact spent

theorem runCallback_pushes (w : World) (t : Thread) (id : Nat) :
    ∃ pushed, (w.runCallback t id).2.stack = pushed ++ t.stack ∧ ∀ f ∈ pushed, f.attends = false := by
  unfold runCallback
  split
  · exact ⟨[], rfl, by simp⟩
  · dsimp only
    split
    · exact ⟨_, rfl, by simp [Work.attends]⟩
    · exact ⟨_, rfl, by simp [Work.attends]⟩

theorem fireByHand_pushes (w : World) (t : Thread) (id : Nat) (force : Bool) :
    ∃ pushed, (w.fireByHand t id force).2.stack = pushed ++ t.stack ∧ ∀ f ∈ pushed, f.attends = false := by
  unfold fireByHand
  split
  · exact ⟨[], rfl, by simp⟩
  · split
    · exact ⟨[], rfl, by simp⟩
    · split
      · exact ⟨[], rfl, by simp⟩
      · obtain ⟨pushed, stack, none⟩ := runCallback_pushes (w.emit (t.push [.answer (.fire .fired)]) (.fired id))
          (t.push [.answer (.fire .fired)]) id
        refine ⟨pushed ++ [.answer (.fire .fired)], ?_, ?_⟩
        · rw [fire, stack]
          simp [Thread.push]
        · intro f member
          rcases List.mem_append.mp member with runs | back
          · exact none f runs
          · rw [List.mem_singleton.mp back]
            rfl

theorem fireByHand_plain (id : Nat) (force : Bool) : Plain w (w.fireByHand t id force).1 := by
  unfold fireByHand
  split
  · exact .refl w
  · split
    · exact .refl w
    · split
      · exact .refl w
      · exact (Plain.emit w _ fun _ => rfl).trans (runCallback_plain id)

theorem onWaiter_plain (id : Nat) {f : Waiter → World × Thread}
    (keeps : ∀ waiter, Plain w (f waiter).1 ∧ ∃ pushed, (f waiter).2.stack = pushed ++ t.stack ∧ ∀ g ∈ pushed, g.attends = false) :
    Plain w (w.onWaiter t id f).1 ∧
      ∃ pushed, (w.onWaiter t id f).2.stack = pushed ++ t.stack ∧ ∀ g ∈ pushed, g.attends = false := by
  unfold onWaiter
  split
  · exact keeps _
  · exact ⟨.refl w, [], rfl, by simp⟩

theorem deliver_plain (waiter : Waiter) (outcome : Outcome String) : Plain w (w.deliver t waiter outcome) := by
  unfold deliver
  split
  · exact .emit w t fun _ => rfl
  · exact .emit w t fun _ => rfl
  · exact .record w rfl fun _ => rfl

theorem readOutcome_plain (id : Nat) : Plain w (w.perform t (.readOutcome id)).1 ∧
    ∃ pushed, (w.perform t (.readOutcome id)).2.stack = pushed ++ t.stack ∧ ∀ f ∈ pushed, f.attends = false := by
  refine onWaiter_plain id fun waiter => ?_
  split
  next outcome found =>
    have stage : Plain w (w.setStage id .finished) := .same rfl rfl rfl rfl
    exact ⟨stage.trans (deliver_plain waiter outcome), [], rfl, by simp⟩
  next => exact ⟨.refl w, [.park id], rfl, by simp [Work.attends]⟩

theorem park_plain (id : Nat) : Plain w (w.perform t (.park id)).1 ∧
    ∃ pushed, (w.perform t (.park id)).2.stack = pushed ++ t.stack ∧ ∀ f ∈ pushed, f.attends = false := by
  refine onWaiter_plain id fun waiter => ?_
  have parks (stage : WaitStage) : Plain w (w.setStage id stage) := .same rfl rfl rfl rfl
  split
  · exact ⟨.refl w, [.enable id, .readOutcome id], rfl, by simp [Work.attends]⟩
  · split
    · split
      · exact ⟨parks _, [.request waiter.r (.produce _)], rfl, by simp [Work.attends]⟩
      · exact ⟨parks _, [], rfl, by simp⟩
    · exact ⟨parks _, [], rfl, by simp⟩

theorem rouse_plain (id : Nat) : Plain w (w.perform t (.rouse id)).1 ∧
    ∃ pushed, (w.perform t (.rouse id)).2.stack = pushed ++ t.stack ∧ ∀ f ∈ pushed, f.attends = false := by
  refine onWaiter_plain id fun waiter => ?_
  split
  · exact ⟨.same rfl rfl rfl rfl, [.request waiter.r (.produce _)], rfl, by simp [Work.attends]⟩
  · exact ⟨.refl w, [], rfl, by simp⟩

theorem cancelEach_plain (cancelled : Nat) : Plain w (w.perform t (.cancelEach [] cancelled)).1 := by
  dsimp only [perform]
  split
  · exact .record w rfl fun _ => rfl
  · exact .refl w

theorem unwind_guard {above below : List Work} {r index : Nat} (stack : t.stack = above ++ .guardListener r index :: below)
    (unguarded : ∀ f ∈ above, f.isGuard = false) : t.unwind = some (r, index, { t with stack := below }) := by
  have found : Thread.unwind.go (above ++ .guardListener r index :: below) = some (r, index, below) := by
    clear stack
    induction above with
    | nil => rfl
    | cons work above ih =>
      have rest := ih fun f member => unguarded f (List.mem_cons_of_mem _ member)
      have open_ := unguarded work (List.mem_cons_self ..)
      cases work <;> first | exact rest | cases open_
  simp only [Thread.unwind, stack, found]

theorem panic_told {message : Option String} {above below : List Work} {r index : Nat}
    (stack : t.stack = above ++ .guardListener r index :: below) (unguarded : ∀ f ∈ above, f.isGuard = false)
    (sink : FailureSink) (s : Nat) :
    (w.panic t message).1.told sink s = w.told sink s ++
      if s = r ∧ sink = (w.response r).sink then [(index, message.getD "listener panicked")] else [] := by
  have own : (w.responses[r]?.map (·.sink)).getD .events = (w.response r).sink := by
    unfold World.response
    cases w.responses[r]? <;> rfl
  simp only [panic, unwind_guard stack unguarded, own]
  cases (w.response r).sink <;> cases sink
  all_goals
    by_cases same : s = r
    · simp [World.told, record, emit, LogEvent.failure?, Event.failure?, same]
    · simp [World.told, record, emit, LogEvent.failure?, Event.failure?, same, Ne.symm same]

theorem panic_registry (message : Option String) : (w.panic t message).1.registry = w.registry := by
  unfold panic
  dsimp only
  split
  · rfl
  · split <;> rfl

theorem serve_delivery {work : Work} {r : Nat} {asked : Request} (asks : work.request? = some (r, asked))
    (other : work.delivers = false) :
    Delivery w work t.stack (w.serve t r asked).1 (w.serve t r asked).2.stack := by
  have only {s : Nat} {listener : Listener} (same : work.request? = some (s, .subscribe listener)) :
      s = r ∧ asked = .subscribe listener := by
    rw [asks] at same
    cases same
    exact ⟨rfl, rfl⟩
  cases found : w.responses[r]? with
  | none =>
    rw [serve_absent asked found]
    refine .passed [] other ?_ (by simp) (.same rfl) rfl rfl
    intro s listener same
    rw [(only same).1]
    exact found
  | some x =>
    cases answered : asked.grant r x with
    | error error =>
      have counted : Tacit w { w with metrics := w.metrics.countRejection error.operation } := .same rfl rfl rfl
      have tacit : Tacit w (w.recordRejection r error) := counted.trans (.record _ fun _ => rfl)
      rw [serve_refused found answered]
      refine .passed [] other ?_ (by simp) (.same rfl) tacit.registry tacit.told
      intro s listener same
      rw [(only same).2] at answered
      cases answered
    | ok grant =>
      rw [serve_granted found answered]
      exact .granted asks found answered rfl rfl rfl

theorem call_delivery (action : Action) :
    Delivery w (.call action) t.stack (w.call t action).1 (w.call t action).2.stack := by
  have effect := call_effect (w := w) (t := t) action
  have passed {action : Action} {after : World} {stack : List Work} (pushed : List Work) (asks : action.request? = none)
      (other : Work.delivers (.call action) = false) (none : ∀ f ∈ pushed, f.attends = false)
      (effect : Effect w (.call action) t.stack after stack) (tacit : Tacit w after) (same : stack = pushed ++ t.stack) :
      Delivery w (.call action) t.stack after stack := by
    rw [same]
    refine .passed pushed other ?_ none (effect.kept ?_) tacit.registry tacit.told
    · intro r listener unasked
      simp [Work.request?, asks] at unasked
    · intro r asked x grant unasked
      simp [Work.request?, asks] at unasked
  cases action with
  | create count sink => exact passed [] rfl rfl (by simp) effect (create_plain w sink count).toTacit rfl
  | applyPolicy r timeout unit =>
    cases unit with
    | error error => exact passed [] rfl rfl (by simp) effect (.refl w) rfl
    | ok unit => exact serve_delivery rfl rfl
  | setTimeoutIn r amount unit =>
    cases unit with
    | error error => exact passed [] rfl rfl (by simp) effect (.refl w) rfl
    | ok unit => exact serve_delivery rfl rfl
  | suspend r => exact serve_delivery rfl rfl
  | setTimeout r window => exact serve_delivery rfl rfl
  | resume r value => exact serve_delivery rfl rfl
  | resumeWithError r failure => exact serve_delivery rfl rfl
  | cancel r => exact serve_delivery rfl rfl
  | onResolved r label body => exact serve_delivery rfl rfl
  | wait r label => exact passed [] rfl rfl (by simp) effect (.same rfl rfl rfl) rfl
  | inspect r =>
    obtain ⟨world, stack⟩ := onResponse_unchanged (w := w) (t := t) (r := r)
      (f := fun x => (w, t.answer (.inspection ⟨x.state, x.window, x.outcome⟩))) (fun _ => ⟨rfl, rfl⟩)
    refine passed [] rfl rfl (by simp) effect ?_ stack
    simp only [call, world]
    exact .refl w
  | register r => exact .registered (.same rfl) rfl rfl
  | tracked r => exact passed [] rfl rfl (by simp) effect (.refl w) rfl
  | cancelTracked named =>
    cases named with
    | none => exact passed [] rfl rfl (by simp) effect (.refl w) rfl
    | some r =>
      by_cases tracked : w.registry.contains r = true
      · exact passed [.call (.cancel r)] rfl rfl (by simp [Work.attends]) effect (.refl w) (by simp [call, tracked, Thread.push])
      · exact passed [] rfl rfl (by simp) effect (.refl w) (by simp [call, tracked, Thread.answer])
  | cancelAll => exact passed [.cancelEach w.registry.ids 0] rfl rfl (by simp [Work.attends]) effect (.refl w) rfl
  | trackedIds => exact passed [] rfl rfl (by simp) effect (.refl w) rfl
  | fire timer force =>
    obtain ⟨pushed, stack, none⟩ := fireByHand_pushes w t timer force
    exact passed pushed rfl rfl none effect (fireByHand_plain timer force).toTacit stack
  | hookSchedule body => exact passed [] rfl rfl (by simp) effect (.same rfl rfl rfl) rfl
  | hookCancel body => exact passed [] rfl rfl (by simp) effect (.same rfl rfl rfl) rfl
  | race threads raced =>
    refine passed (.race threads raced {} :: if w.drive == .runtime && t.onClock then [.backOnClock] else []) rfl rfl ?_
      effect (.refl w) rfl
    cases w.drive == .runtime && t.onClock <;> simp [Work.attends]
  | panic message =>
    have kept := effect.kept (by simp [Work.request?, Action.request?])
    rw [show (w.call t (.panic message)).2.stack = (t.stack.dropWhile (!·.isGuard)).tail from panic_stack message]
    exact .panicked kept (panic_registry message) fun above r index below same unguarded => panic_told same unguarded
  | schedule window body =>
    obtain ⟨extra, hooked, scheduled, stack⟩ :=
      schedule_effect (w := w) (t := t) window (.script body) (fun id => [.answer (.number id)])
    refine passed (extra ++ [Work.answer (.number (w.timers.list.length + 1))]) rfl rfl ?_ effect
      (schedule_plain window _ _).toTacit stack
    intro f member
    rcases List.mem_append.mp member with hook | answer
    · exact hooked.unattended f hook
    · rw [List.mem_singleton.mp answer]
      rfl
  | disarm id =>
    obtain ⟨pushed, stack, none⟩ := disarm_pushes w t id
    exact passed pushed rfl rfl none effect (disarm_plain id).toTacit stack

theorem perform_delivery (work : Work) :
    Delivery w work t.stack (w.perform t work).1 (w.perform t work).2.stack := by
  have effect := perform_effect (w := w) (t := t) work
  have passed {work : Work} {after : World} {stack : List Work} (pushed : List Work) (asks : work.request? = none)
      (other : work.delivers = false) (none : ∀ f ∈ pushed, f.attends = false)
      (effect : Effect w work t.stack after stack) (tacit : Tacit w after) (same : stack = pushed ++ t.stack) :
      Delivery w work t.stack after stack := by
    rw [same]
    refine .passed pushed other ?_ none (effect.kept ?_) tacit.registry tacit.told
    · intro r listener unasked
      rw [asks] at unasked
      cases unasked
    · intro r asked x grant unasked
      rw [asks] at unasked
      cases unasked
  cases work with
  | call action => exact call_delivery action
  | request r asked => exact serve_delivery rfl rfl
  | script speaker body =>
    cases body with
    | nil => exact passed [] rfl rfl (by simp) effect (.refl w) rfl
    | cons action rest =>
      exact passed [.call action, .line speaker action, .script speaker rest] rfl rfl (by simp [Work.attends]) effect
        (.refl w) rfl
  | line speaker action => exact passed [] rfl rfl (by simp) effect (.emit w t fun _ => rfl) rfl
  | answer result => exact passed [] rfl rfl (by simp) effect (.refl w) rfl
  | settled r operation => exact passed [] rfl rfl (by simp) effect (.refl w) rfl
  | record event =>
    cases event with
    | listenerFailed r index text => exact .misreported (.same rfl) rfl
    | _ => exact passed [] rfl rfl (by simp) effect (.record w fun _ => rfl) rfl
  | disarm id =>
    obtain ⟨pushed, stack, none⟩ := disarm_pushes w t id
    exact passed pushed rfl rfl none effect (disarm_plain id).toTacit stack
  | arm r arming =>
    obtain ⟨extra, hooked, scheduled, stack⟩ :=
      schedule_effect (w := w) (t := t) arming.window (.expire r arming.window arming.generation)
        (fun id => [.request r (.keepTimer id arming.generation)])
    refine passed (extra ++ [Work.request r (.keepTimer (w.timers.list.length + 1) arming.generation)]) rfl rfl ?_ effect
      (schedule_plain arming.window _ _).toTacit stack
    intro f member
    rcases List.mem_append.mp member with hook | stores
    · exact hooked.unattended f hook
    · rw [List.mem_singleton.mp stores]
      rfl
  | fireInline id =>
    by_cases armed : w.timers.isArmed id = true
    · obtain ⟨pushed, stack, none⟩ := runCallback_pushes (w.emit t (.fired id)) t id
      have tacit := (Tacit.emit w t fun _ => rfl).trans (runCallback_plain (w := w.emit t (.fired id)) (t := t) id).toTacit
      simp only [perform, armed, if_true] at effect ⊢
      exact passed pushed rfl rfl none effect tacit stack
    · simp only [perform, armed] at effect ⊢
      exact passed [] rfl rfl (by simp) effect (.refl w) rfl
  | timerDue id =>
    by_cases armed : w.timers.isArmed id = true
    · obtain ⟨pushed, stack, none⟩ := runCallback_pushes (w.record (.timerFired id)) t id
      have tacit := (Tacit.record w fun _ => rfl).trans (runCallback_plain (w := w.record (.timerFired id)) (t := t) id).toTacit
      simp only [perform, armed, if_true] at effect ⊢
      exact passed pushed rfl rfl none effect tacit stack
    · simp only [perform, armed] at effect ⊢
      exact passed [] rfl rfl (by simp) effect (.refl w) rfl
  | expired r =>
    simp only [perform] at effect ⊢
    split at effect
    · exact passed [] rfl rfl (by simp) effect (.record w fun _ => rfl) rfl
    · exact passed [] rfl rfl (by simp) effect (.refl w) rfl
  | notify r => exact passed [] rfl rfl (by simp) effect (.same rfl rfl rfl) rfl
  | announce r outcome listeners =>
    have counted : Tacit w { w with metrics := w.metrics.countTransition outcome.kind } := .same rfl rfl rfl
    exact passed [] rfl rfl (by simp) effect (counted.trans (.record _ fun _ => rfl)) rfl
  | listen r index listener outcome =>
    cases listener with
    | script label body =>
      have tacit : Tacit w (w.emit t (.listener label r outcome)) := .emit w t fun _ => rfl
      exact .listened (.same rfl) tacit.registry tacit.told
    | untrack => exact .listened (.same rfl) rfl rfl
  | guardListener r index => exact .returned (.same rfl) rfl rfl
  | untrack r => exact .untracked (.same rfl) rfl rfl
  | measure => exact passed [.gauge w.registry.size] rfl rfl (by simp [Work.attends]) effect (.refl w) rfl
  | gauge length => exact passed [] rfl rfl (by simp) effect (.same rfl rfl rfl) rfl
  | cancelEach pending cancelled =>
    cases pending with
    | nil => exact passed [] rfl rfl (by simp) effect (cancelEach_plain cancelled).toTacit rfl
    | cons r pending =>
      exact passed [.call (.cancel r), .countCancelled pending cancelled] rfl rfl (by simp [Work.attends]) effect
        (.refl w) rfl
  | countCancelled pending cancelled =>
    exact passed [.cancelEach pending _] rfl rfl (by simp [Work.attends]) effect (.refl w) rfl
  | race threads action tally =>
    cases threads with
    | zero => exact passed [] rfl rfl (by simp) effect (.refl w) rfl
    | succ threads =>
      exact passed [.call action, .countRaced threads action tally] rfl rfl (by simp [Work.attends]) effect (.refl w) rfl
  | countRaced threads action tally =>
    exact passed [.race threads action (tally.add t.result)] rfl rfl (by simp [Work.attends]) effect (.refl w) rfl
  | backOnClock => exact passed [] rfl rfl (by simp) effect (.refl w) rfl
  | enable id => exact passed [] rfl rfl (by simp) effect (.same rfl rfl rfl) rfl
  | readOutcome id =>
    obtain ⟨plain, pushed, stack, none⟩ := readOutcome_plain (w := w) (t := t) id
    exact passed pushed rfl rfl none effect plain.toTacit stack
  | park id =>
    obtain ⟨plain, pushed, stack, none⟩ := park_plain (w := w) (t := t) id
    exact passed pushed rfl rfl none effect plain.toTacit stack
  | rouse id =>
    obtain ⟨plain, pushed, stack, none⟩ := rouse_plain (w := w) (t := t) id
    exact passed pushed rfl rfl none effect plain.toTacit stack

end World

theorem step_delivery {w : World} {t : Thread} {work : Work} {rest : List Work} (stack : t.stack = work :: rest) :
    Delivery w work rest (step w t).1 (step w t).2.stack := by
  unfold step
  rw [stack]
  exact World.perform_delivery (t := { t with stack := rest }) work

end Simulation
end Deferral
