import Deferral.Proofs.Tracking

/-! What one step does to the gauge of the registry's size. A registration and a removal change the table and
leave it to be measured, to measure is to read its size and leave that to be written, and to write is to set
the gauge. These three are steps of their own, and no other step has to do with the gauge. -/

namespace Deferral

namespace Metrics

theorem lookup_put_eq (m k : Metric) (f : Nat → Nat) (entries : List (Metric × Nat)) :
    (put m f entries).lookup k = if k = m then some (f ((entries.lookup m).getD 0)) else entries.lookup k := by
  induction entries with
  | nil =>
    by_cases same : k = m
    · simp [put, same]
    · simp [put, same, List.lookup_cons, beq_false_of_ne same]
  | cons entry rest ih =>
    obtain ⟨n, value⟩ := entry
    by_cases here : n = m
    · subst here
      by_cases same : k = n
      · simp [put, same]
      · simp [put, List.lookup_cons, same, beq_false_of_ne same]
    · by_cases same : k = n
      · subst same
        simp [put, here]
      · have other : (m == n) = false := beq_false_of_ne (Ne.symm here)
        simp only [put, here, if_false, List.lookup_cons, beq_false_of_ne same, ih, other]

theorem value?_set (ms : Metrics) (m : Metric) (value : Nat) : (ms.set m value).value? m = some value := by
  rw [value?, set, lookup_put_eq, if_pos rfl]

theorem value?_increment (ms : Metrics) {m k : Metric} (other : k ≠ m) : (ms.increment m).value? k = ms.value? k := by
  rw [value?, increment, lookup_put_eq, if_neg other, value?]

end Metrics

namespace Simulation

/-- What the gauge of responses in flight shows, once it has been set. -/
def World.inFlight? (w : World) : Option Nat := w.metrics.value? .inFlight

namespace Work

/-- Work that reads the size of the table or sets the gauge to a size that was read. -/
def meters : Work → Bool
  | .measure | .gauge _ => true
  | _ => false

/-- Work that changes the table. -/
def tables : Work → Bool
  | .call (.register _) | .untrack _ => true
  | _ => false

theorem tabled_of_not_tables {work : Work} (other : work.tables = false) (g : Registry) : work.tabled g = g := by
  unfold tabled
  split
  · cases other
  · cases other
  · rfl

end Work

/-- What work comes to that has nothing to do with the gauge. -/
structure Ungauged (before : World) (rest : List Work) (after : World) (stack : List Work) : Prop where
  inFlight : after.inFlight? = before.inFlight?
  stack : ∀ f ∈ stack, f.meters = true → f ∈ rest

theorem Ungauged.pushed {before after : World} {rest stack : List Work} (pushed : List Work) (same : stack = pushed ++ rest)
    (none : ∀ f ∈ pushed, f.meters = false) (inFlight : after.inFlight? = before.inFlight?) :
    Ungauged before rest after stack := by
  refine ⟨inFlight, fun f member meters => ?_⟩
  rw [same] at member
  rcases List.mem_append.mp member with new | old
  · rw [none f new] at meters
    cases meters
  · exact old

/-- The effects of a step of a thread whose stack is `work :: rest` on the gauge. -/
inductive Metering (before : World) : Work → List Work → World → List Work → Prop where
  | changed {work rest after below} (tables : work.tables = true) (ungauged : Ungauged before rest after below) :
      Metering before work rest after (.measure :: below)
  | read {rest} : Metering before .measure rest before (.gauge before.registry.size :: rest)
  | wrote {size rest after} (inFlight : after.inFlight? = some size) : Metering before (.gauge size) rest after rest
  | passed {work rest after stack} (untabled : work.tables = false) (unmetered : work.meters = false)
      (ungauged : Ungauged before rest after stack) : Metering before work rest after stack

theorem Request.grant_unmetered {r : Nat} {x : Response String Listener} {asked : Request} {g : Grant}
    (granted : asked.grant r x = .ok g) : ∀ f ∈ g.work r, f.meters = false := by
  obtain ⟨tells, returns⟩ := grant_tells granted
  simp only [Grant.work, List.forall_mem_append, List.forall_mem_map]
  refine ⟨⟨⟨fun _ _ => rfl, fun f told => ?_⟩, fun _ _ => rfl⟩, fun f returned => ?_⟩
  · have telling := tells f told
    cases f <;> first | rfl | cases telling
  · rcases returns with done | ⟨operation, outcome, -, settled⟩
    · rw [done f returned]
      rfl
    · rw [settled, List.mem_singleton] at returned
      rw [returned]
      rfl

theorem Hooked.unmetered {before : World} {extra : List Work} (hooked : Hooked before extra) :
    ∀ f ∈ extra, f.meters = false := by
  intro f member
  rcases hooked.1 f member with ⟨speaker, body, rfl⟩ | ⟨result, rfl⟩ | ⟨id, rfl⟩ <;> rfl

theorem Thread.Fresh.unmetered {t : Thread} (fresh : t.Fresh) : ∀ f ∈ t.stack, f.meters = false := by
  intro f member
  rcases fresh.of_mem member with ⟨action, rfl⟩ | ⟨id, rfl | rfl | rfl | rfl | rfl⟩ <;> rfl

namespace World

variable {w : World} {t : Thread}

theorem create_metrics (w : World) (sink : FailureSink) (count : Nat) : (w.create sink count).metrics = w.metrics := by
  induction count generalizing w with
  | zero => rfl
  | succ count ih =>
    rw [create, ih]
    rfl

theorem sleepUntil_metrics (w : World) (due : Option Nat) (task : Task) : (w.sleepUntil due task).metrics = w.metrics := by
  unfold sleepUntil
  split
  · rfl
  · split <;> rfl

theorem takeScheduleHook_metrics (w : World) : w.takeScheduleHook.1.metrics = w.metrics := by
  unfold takeScheduleHook
  split <;> rfl

theorem takeCancelHook_metrics (w : World) : w.takeCancelHook.1.metrics = w.metrics := by
  unfold takeCancelHook
  split <;> rfl

theorem schedule_metrics (after : Duration) (callback : Callback) (next : Nat → List Work) :
    (w.schedule t after callback next).1.metrics = w.metrics := by
  unfold schedule
  dsimp only [Timers.schedule]
  split
  · exact sleepUntil_metrics _ _ _
  · exact takeScheduleHook_metrics _

theorem disarm_ungauged (id : Nat) : Ungauged w t.stack (w.disarm t id).1 (w.disarm t id).2.stack := by
  unfold disarm
  dsimp only
  split
  · refine .pushed [] rfl (by simp) ?_
    dsimp only
    split <;> rfl
  · refine .pushed _ rfl ?_ (congrArg (·.value? .inFlight) (takeCancelHook_metrics _))
    unfold takeCancelHook
    split <;> simp [Work.meters]

theorem runCallback_ungauged (w : World) (t : Thread) (id : Nat) :
    Ungauged w t.stack (w.runCallback t id).1 (w.runCallback t id).2.stack := by
  unfold runCallback
  split
  · exact .pushed [] rfl (by simp) rfl
  · dsimp only
    split
    · exact .pushed _ rfl (by simp [Work.meters]) rfl
    · refine .pushed _ rfl (by simp [Work.meters]) ?_
      split <;> rfl

theorem fireByHand_ungauged (id : Nat) (force : Bool) :
    Ungauged w t.stack (w.fireByHand t id force).1 (w.fireByHand t id force).2.stack := by
  unfold fireByHand
  split
  · exact .pushed [] rfl (by simp) rfl
  · split
    · exact .pushed [] rfl (by simp) rfl
    · split
      · exact .pushed [] rfl (by simp) rfl
      · have ran := runCallback_ungauged (w.emit (t.push [.answer (.fire .fired)]) (.fired id))
          (t.push [.answer (.fire .fired)]) id
        refine ⟨ran.inFlight, fun f member meters => ?_⟩
        rcases List.mem_cons.mp (ran.stack f member meters) with rfl | old
        · cases meters
        · exact old

theorem panic_ungauged (message : Option String) :
    Ungauged w t.stack (w.panic t message).1 (w.panic t message).2.stack := by
  rw [panic_stack]
  refine ⟨?_, fun f member _ => (List.dropWhile_suffix _).subset (List.mem_of_mem_tail member)⟩
  unfold panic
  dsimp only
  split
  · rfl
  · split
    · exact Metrics.value?_increment _ (by decide)
    · rfl

theorem serve_ungauged (r : Nat) (asked : Request) :
    Ungauged w t.stack (w.serve t r asked).1 (w.serve t r asked).2.stack := by
  cases found : w.responses[r]? with
  | none =>
    rw [serve_absent asked found]
    exact .pushed [] rfl (by simp) rfl
  | some x =>
    cases answered : asked.grant r x with
    | error error =>
      rw [serve_refused found answered]
      exact .pushed [] rfl (by simp) (Metrics.value?_increment _ (by simp))
    | ok grant =>
      rw [serve_granted found answered]
      exact .pushed _ rfl (Request.grant_unmetered answered) rfl

theorem onWaiter_ungauged (id : Nat) {f : Waiter → World × Thread}
    (keeps : ∀ waiter, Ungauged w t.stack (f waiter).1 (f waiter).2.stack) :
    Ungauged w t.stack (w.onWaiter t id f).1 (w.onWaiter t id f).2.stack := by
  unfold onWaiter
  split
  · exact keeps _
  · exact .pushed [] rfl (by simp) rfl

theorem deliver_metrics (waiter : Waiter) (outcome : Outcome String) : (w.deliver t waiter outcome).metrics = w.metrics := by
  unfold deliver
  split <;> rfl

theorem call_metering (action : Action) :
    Metering w (.call action) t.stack (w.call t action).1 (w.call t action).2.stack := by
  have asks (r : Nat) (asked : Request) : Ungauged w t.stack (w.serve t r asked).1 (w.serve t r asked).2.stack :=
    serve_ungauged r asked
  have pushed {action : Action} {after : World} (pushed : List Work) (other : Work.tables (.call action) = false)
      (none : ∀ f ∈ pushed, f.meters = false) (metrics : after.metrics = w.metrics) :
      Metering w (.call action) t.stack after (pushed ++ t.stack) :=
    .passed other rfl (.pushed pushed rfl none (congrArg (·.value? .inFlight) metrics))
  cases action with
  | create count sink => exact pushed [] rfl (by simp) (create_metrics w sink count)
  | applyPolicy r timeout unit =>
    cases unit with
    | error error => exact pushed [] rfl (by simp) rfl
    | ok unit => exact .passed rfl rfl (asks r _)
  | setTimeoutIn r amount unit =>
    cases unit with
    | error error => exact pushed [] rfl (by simp) rfl
    | ok unit => exact .passed rfl rfl (asks r _)
  | suspend r | setTimeout r window | resume r value | resumeWithError r failure | cancel r | onResolved r label body =>
    exact .passed rfl rfl (asks r _)
  | inspect r =>
    obtain ⟨world, stack⟩ := onResponse_unchanged (w := w) (t := t) (r := r)
      (f := fun x => (w, t.answer (.inspection ⟨x.state, x.window, x.outcome⟩))) (fun _ => ⟨rfl, rfl⟩)
    simp only [call, world, stack]
    exact pushed [] rfl (by simp) rfl
  | register r =>
    exact .changed rfl (.pushed [.request r (.subscribe .untrack), .answer .done] rfl (by simp [Work.meters]) rfl)
  | cancelTracked named =>
    cases named with
    | none => exact pushed [] rfl (by simp) rfl
    | some r =>
      simp only [call]
      split
      · exact pushed [.call (.cancel r)] rfl (by simp [Work.meters]) rfl
      · exact pushed [] rfl (by simp) rfl
  | cancelAll => exact pushed [.cancelEach w.registry.ids 0] rfl (by simp [Work.meters]) rfl
  | fire timer force => exact .passed rfl rfl (fireByHand_ungauged timer force)
  | race threads raced =>
    refine pushed (.race threads raced {} :: if w.drive == .runtime && t.onClock then [.backOnClock] else []) rfl ?_ rfl
    cases w.drive == .runtime && t.onClock <;> simp [Work.meters]
  | panic message => exact .passed rfl rfl (panic_ungauged message)
  | schedule window body =>
    obtain ⟨extra, hooked, -, stack⟩ :=
      schedule_effect (w := w) (t := t) window (.script body) (fun id => [.answer (.number id)])
    simp only [call, stack]
    refine pushed _ rfl ?_ (schedule_metrics window _ _)
    exact List.forall_mem_append.mpr ⟨hooked.unmetered, by simp [Work.meters]⟩
  | disarm id => exact .passed rfl rfl (disarm_ungauged id)
  | wait | tracked | trackedIds | hookSchedule | hookCancel => exact pushed [] rfl (by simp) rfl

theorem perform_metering (work : Work) : Metering w work t.stack (w.perform t work).1 (w.perform t work).2.stack := by
  have pushed {work : Work} {after : World} (pushed : List Work) (untabled : work.tables = false)
      (unmetered : work.meters = false) (none : ∀ f ∈ pushed, f.meters = false) (metrics : after.metrics = w.metrics) :
      Metering w work t.stack after (pushed ++ t.stack) :=
    .passed untabled unmetered (.pushed pushed rfl none (congrArg (·.value? .inFlight) metrics))
  cases work with
  | call action => exact call_metering action
  | request r asked => exact .passed rfl rfl (serve_ungauged r asked)
  | script speaker body =>
    cases body with
    | nil => exact pushed [] rfl rfl (by simp) rfl
    | cons action rest =>
      exact pushed [.call action, .line speaker action, .script speaker rest] rfl rfl (by simp [Work.meters]) rfl
  | disarm id => exact .passed rfl rfl (disarm_ungauged id)
  | arm r arming =>
    obtain ⟨extra, hooked, -, stack⟩ :=
      schedule_effect (w := w) (t := t) arming.window (.expire r arming.window arming.generation)
        (fun id => [.request r (.keepTimer id arming.generation)])
    simp only [perform, stack]
    refine pushed _ rfl rfl ?_ (schedule_metrics arming.window _ _)
    exact List.forall_mem_append.mpr ⟨hooked.unmetered, by simp [Work.meters]⟩
  | fireInline id =>
    simp only [perform]
    split
    · have ran := runCallback_ungauged (w.emit t (.fired id)) t id
      exact .passed rfl rfl ⟨ran.inFlight, ran.stack⟩
    · exact pushed [] rfl rfl (by simp) rfl
  | timerDue id =>
    simp only [perform]
    split
    · have ran := runCallback_ungauged (w.record (.timerFired id)) t id
      exact .passed rfl rfl ⟨ran.inFlight, ran.stack⟩
    · exact pushed [] rfl rfl (by simp) rfl
  | expired r =>
    simp only [perform]
    split <;> exact pushed [] rfl rfl (by simp) rfl
  | announce r outcome listeners =>
    have counted : (w.metrics.countTransition outcome.kind).value? .inFlight = w.metrics.value? .inFlight :=
      (Metrics.value?_increment _ (by simp)).trans (Metrics.value?_increment _ (by simp))
    exact .passed rfl rfl (.pushed [] rfl (by simp) counted)
  | listen r index listener outcome =>
    cases listener with
    | script label body =>
      exact pushed [.script (.listener label) body, .guardListener r index] rfl rfl (by simp [Work.meters]) rfl
    | untrack => exact pushed [.untrack r, .guardListener r index] rfl rfl (by simp [Work.meters]) rfl
  | untrack r => exact .changed rfl (.pushed [] rfl (by simp) rfl)
  | measure => exact .read
  | gauge size => exact .wrote (Metrics.value?_set _ _ _)
  | cancelEach pending cancelled =>
    cases pending with
    | nil =>
      simp only [perform]
      split <;> exact pushed [] rfl rfl (by simp) rfl
    | cons r pending =>
      exact pushed [.call (.cancel r), .countCancelled pending cancelled] rfl rfl (by simp [Work.meters]) rfl
  | countCancelled pending cancelled => exact pushed [.cancelEach pending _] rfl rfl (by simp [Work.meters]) rfl
  | race threads action tally =>
    cases threads with
    | zero => exact pushed [] rfl rfl (by simp) rfl
    | succ threads => exact pushed [.call action, .countRaced threads action tally] rfl rfl (by simp [Work.meters]) rfl
  | countRaced threads action tally =>
    exact pushed [.race threads action (tally.add t.result)] rfl rfl (by simp [Work.meters]) rfl
  | readOutcome id =>
    refine .passed rfl rfl (onWaiter_ungauged id fun waiter => ?_)
    split
    · exact .pushed [] rfl (by simp) (congrArg (·.value? .inFlight) (deliver_metrics waiter _))
    · exact .pushed [.park id] rfl (by simp [Work.meters]) rfl
  | park id =>
    refine .passed rfl rfl (onWaiter_ungauged id fun waiter => ?_)
    split
    · exact .pushed [.enable id, .readOutcome id] rfl (by simp [Work.meters]) rfl
    · split
      · split
        · exact .pushed [.request waiter.r (.produce _)] rfl (by simp [Work.meters]) rfl
        · exact .pushed [] rfl (by simp) rfl
      · exact .pushed [] rfl (by simp) rfl
  | rouse id =>
    refine .passed rfl rfl (onWaiter_ungauged id fun waiter => ?_)
    split
    · exact .pushed [.request waiter.r (.produce _)] rfl (by simp [Work.meters]) rfl
    · exact .pushed [] rfl (by simp) rfl
  | line | answer | settled | record | notify | guardListener | backOnClock | enable =>
    exact pushed [] rfl rfl (by simp) rfl

end World

theorem step_metering {w : World} {t : Thread} {work : Work} {rest : List Work} (stack : t.stack = work :: rest) :
    Metering w work rest (step w t).1 (step w t).2.stack := by
  unfold step
  rw [stack]
  exact World.perform_metering (t := { t with stack := rest }) work

end Simulation
end Deferral
