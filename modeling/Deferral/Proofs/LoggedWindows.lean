import Deferral.Proofs.CallCounts
import Deferral.Proofs.Execution
import Mathlib.Algebra.GroupWithZero.Nat

/-! The windows that the log tells of. A call that starts a clock leaves one entry with the window in whole
milliseconds, cut to 64 bits; the entry is logged, waits on a stack, or was dropped by a panic. So an entry says
what the text of a timeout says as long as the milliseconds fit. -/

namespace Deferral

theorem toString_inj {n m : Nat} : toString n = toString m ↔ n = m := by
  refine ⟨fun same => ?_, congrArg toString⟩
  have digits := congrArg String.toList same
  rw [Nat.toString_eq_repr, Nat.toString_eq_repr, Nat.toList_repr, Nat.toList_repr] at digits
  rw [← Nat.ofDigitChars_ten_toDigits (n := n), digits, Nat.ofDigitChars_ten_toDigits]

theorem timeoutMessage_eq_iff {window : Duration} {ms : Nat} :
    timeoutMessage window = s!"request timed out after {ms}ms" ↔ window.millis = ms := by
  unfold timeoutMessage
  generalize window.millis = n
  refine ⟨fun same => ?_, fun same => by rw [same]⟩
  have texts := congrArg String.toList same
  simp only [String.toList_append] at texts
  have digits := List.append_cancel_left (List.append_cancel_right texts)
  exact toString_inj.mp (String.toList_inj.mp digits)

theorem SuspendPolicy.millis_lt_iff {policy : SuspendPolicy} (word : policy.timeout ≤ Duration.wordMax) :
    policy.duration.millis < 2 ^ 64 ↔ policy.timeout * policy.unit.nanos / 1000000 < 2 ^ 64 := by
  rw [Duration.millis_eq, duration, TimeUnit.totalNanos_toDuration policy.unit word]
  simp only [Duration.wordMax, Duration.nanosPerSecond]
  omega

/-- The response and the milliseconds of a log event that gives a window. -/
def LogEvent.window? (event : LogEvent) : Option (Nat × Nat) :=
  match event.fields.lookup "response_id", event.fields.lookup "timeout_ms" with
  | some (.response r), some (.number ms) => some (r, ms)
  | _, _ => none

theorem LogEvent.window?_of_unopened {event : LogEvent} (unopened : event.opening? = none) : event.window? = none := by
  cases event <;> first | rfl | cases unopened

def told (log : List LogEvent) : List (Nat × Nat) := log.filterMap LogEvent.window?

theorem told_append (log entries : List LogEvent) : told (log ++ entries) = told log ++ told entries :=
  List.filterMap_append

theorem told_unopened {entries : List LogEvent} (unopened : ∀ entry ∈ entries, entry.opening? = none) :
    told entries = [] :=
  List.filterMap_eq_nil_iff.mpr fun entry member => LogEvent.window?_of_unopened (unopened entry member)

namespace Simulation

/-- What a start of a response's clock gives to the log: the window cut to 64 bits. -/
def entry (start : Nat × Duration) : Nat × Nat := (start.1, start.2.millis % 2 ^ 64)

namespace Work

def window? : Work → Option (Nat × Nat)
  | .record event => event.window?
  | _ => none

def starts? (w : World) (work : Work) : Option (Nat × Duration) :=
  match work.request? with
  | some (r, asked) =>
    match w.responses[r]?.map fun x => (x, asked.grant r x) with
    | some (x, .ok _) => (asked.starts? x).map (r, ·)
    | _ => none
  | none => none

variable {w : World} {work : Work}

theorem starts?_granted {r : Nat} {asked : Request} {x : Response String Listener} {g : Grant}
    (asks : work.request? = some (r, asked)) (found : w.responses[r]? = some x) (granted : asked.grant r x = .ok g) :
    work.starts? w = (asked.starts? x).map (r, ·) := by
  simp only [starts?, asks, found, Option.map_some, granted]

theorem starts?_ungranted (ungranted : ∀ r asked x g, work.request? = some (r, asked) → w.responses[r]? = some x →
    asked.grant r x ≠ .ok g) : work.starts? w = none := by
  unfold starts?
  split
  next r asked asks =>
    cases found : w.responses[r]? with
    | none => rfl
    | some x =>
      cases answered : asked.grant r x with
      | error error => simp only [Option.map_some, answered]
      | ok g => exact absurd answered (ungranted r asked x g asks found)
  · rfl

theorem window?_of_untold (untold : work.isTelling = false) : work.window? = none := by
  cases work <;> first | rfl | cases untold

end Work

theorem Request.grant_windows {r : Nat} {x : Response String Listener} {asked : Request} {g : Grant}
    (granted : asked.grant r x = .ok g) :
    (g.work r).filterMap Work.window? = ((asked.starts? x).map fun window => entry (r, window)).toList := by
  have disarms (timer : Option Nat) : (timer.toList.map Work.disarm).filterMap Work.window? = [] := by
    cases timer <;> rfl
  have concluded {operation : Operation} {outcome : Outcome String} {generation : Option Nat}
      (granted : conclude r x operation outcome generation = .ok g) : (g.work r).filterMap Work.window? = [] := by
    unfold conclude Response.resolve at granted
    split at granted <;> cases granted
    simp only [Grant.work, List.filterMap_append, disarms]
    simp [Work.window?]
  cases asked with
  | declare window =>
    simp only [grant, Response.applyPolicy] at granted
    split at granted <;> cases granted
    rfl
  | suspend =>
    simp only [grant, Response.suspend] at granted
    split at granted
    · split at granted
      · next window declared =>
        cases granted
        simp only [Request.starts?, declared]
        rfl
      · next undeclared =>
        cases granted
        simp only [Request.starts?, undeclared]
        rfl
    · cases granted
  | setTimeout window =>
    simp only [grant, Response.setTimeout] at granted
    split at granted <;> cases granted
    simp only [Grant.work, List.filterMap_append, disarms]
    rfl
  | produce result => exact concluded granted
  | cancel => exact concluded granted
  | expire window generation => exact concluded granted
  | subscribe listener =>
    cases granted
    simp [Grant.work, Work.window?, Request.starts?]
  | keepTimer timer generation =>
    simp only [grant] at granted
    split at granted <;> cases granted <;> rfl

theorem Booking.told {before after : World} {work : Work} (booking : Booking before work after) :
    told after.log.toList = told before.log.toList ++ work.window?.toList := by
  cases booking with
  | refused refuses log =>
    rw [log, told_append]
    cases work <;> first | rfl | cases refuses
  | announced log =>
    rw [log, told_append]
    rfl
  | @recorded event _ log =>
    rw [log, told_append]
    cases given : event.window? <;> simp [Deferral.told, Work.window?, given]
  | unbooked unrefused silent unbooked =>
    obtain ⟨entries, log, plain⟩ := unbooked.log
    rw [log, told_append, told_unopened fun event member => (LogEvent.unaccounted (plain event member) .resume).2.2]
    cases work <;> first | rfl | cases silent

def Work.gives (window : Nat × Nat) (work : Work) : Bool := work.window? == some window

theorem Work.countP_gives (window : Nat × Nat) (stack : List Work) :
    stack.countP (·.gives window) = (stack.filterMap Work.window?).count window := (List.count_filterMap ..).symm

/-- A clock that starts has its window to be logged, and what was to be logged stays so unless a panic drops it. -/
theorem step_gives {w : World} {t : Thread} {work : Work} {rest : List Work} (stack : t.stack = work :: rest)
    (window : Nat × Nat) : (step w t).2.stack.countP (·.gives window) + t.drops.countP (·.gives window) =
      rest.countP (·.gives window) + ((work.starts? w).toList.map entry).count window := by
  have telling := (step_effect (w := w) stack).telling
  by_cases panic : ∃ message, work = .call (.panic message)
  · obtain ⟨message, rfl⟩ := panic
    have left : (step w t).2.stack = (rest.dropWhile (!·.isGuard)).tail := by
      unfold step
      rw [stack]
      exact World.panic_stack message
    have drops : t.drops = rest.takeWhile (!·.isGuard) := by rw [Thread.drops, stack]
    have unwound := countP_unwound (·.gives window) (fun f guarded => by
      cases f <;> first | rfl | cases guarded) rest
    rw [left, drops, unwound]
    rfl
  · have drops : t.drops = [] := by
      unfold Thread.drops
      split
      next message below same =>
        rw [stack] at same
        exact absurd ⟨message, (List.cons.inj same).1⟩ panic
      · rfl
    generalize (step w t).2.stack = left at telling ⊢
    rw [drops, List.countP_nil, Nat.add_zero]
    cases telling with
    | @granted r asked x g asks found granted =>
      rw [List.countP_append, Work.countP_gives, Request.grant_windows granted, Work.starts?_granted asks found granted,
        Nat.add_comm]
      cases asked.starts? x <;> rfl
    | pushed pushed untold endless =>
      have none : pushed.countP (·.gives window) = 0 := by
        refine List.countP_eq_zero.mpr fun f member gives => ?_
        rw [Work.gives, Work.window?_of_untold (untold f member)] at gives
        cases gives
      rw [List.countP_append, none, Work.starts?_ungranted endless.ungranted, Nat.zero_add]
      rfl
    | unwound panics => exact absurd ⟨_, panics⟩ panic

def Moment.starts? (moment : Moment) : Option (Nat × Duration) := moment.thread.stack.head?.bind (·.starts? moment.world)

/-- The windows that responses accepted for their clocks, oldest first. -/
def accepted (m : List Moment) : List (Nat × Duration) := m.filterMap Moment.starts?

def dropped (m : List Moment) : List Work := m.flatMap (·.thread.drops)

namespace Pool

variable {rule : World → Thread → Prop} {drive : Drive} {m moments : List Moment} {p q : Pool}

/-- Each accepted window is logged, is still to be logged, or was to be logged and was dropped. -/
def Logged (m : List Moment) (p : Pool) : Prop :=
  ∀ window, (told p.world.log.toList).count window + p.works.countP (·.gives window) +
    (dropped m).countP (·.gives window) = ((accepted m).map entry).count window

theorem Logged.move (logged : Logged m p) (move : Move rule p moments q) : Logged (m ++ moments) q := by
  intro window
  have before := logged window
  cases move with
  | wait now sleeping ready =>
    rw [List.append_nil]
    exact before
  | @spawn w threads t fresh =>
    have none : t.stack.countP (·.gives window) = 0 := by
      refine List.countP_eq_zero.mpr fun f member gives => ?_
      rw [Work.gives, Work.window?_of_untold (fresh.untold f member)] at gives
      cases gives
    have works : (Pool.mk w (threads ++ [t])).works = (Pool.mk w threads).works ++ t.stack := by simp [Pool.works]
    rw [List.append_nil, works, List.countP_append, none]
    exact before
  | @run w earlier t later work rest stack allowed =>
    have here := step_gives (w := w) stack window
    have log := (step_booking (w := w) stack).told
    have starts : accepted (m ++ [⟨earlier.length, w, t⟩]) = accepted m ++ (work.starts? w).toList := by
      cases starts : work.starts? w <;> simp [accepted, Moment.starts?, stack, starts]
    have drops : dropped (m ++ [⟨earlier.length, w, t⟩]) = dropped m ++ t.drops := by simp [dropped]
    have gives : work.window?.toList.count window = if work.gives window then 1 else 0 := by
      cases given : work.window? <;> simp [Work.gives, given, List.count_singleton]
    have others : (Pool.mk (step w t).1 (earlier ++ later)).works = (Pool.mk w (earlier ++ later)).works := rfl
    rw [countP_works_run, stack, List.countP_cons] at before
    rw [log, starts, drops, List.count_append, gives, countP_works_run, others, List.countP_append, List.map_append,
      List.count_append]
    dsimp only at before
    omega

theorem Logged.of_chronicle (chronicle : Chronicle rule (start drive) m p) : Logged m p := by
  induction chronicle with
  | refl => exact fun _ => rfl
  | move past next ih => exact ih.move next

/-- The log gives just the windows that responses accepted for their clocks, in whole milliseconds cut to 64 bits, but
for those that are still to be logged and those that panics dropped. Such an entry agrees with the text of a timeout
exactly if the milliseconds fit, which is where the amount of a declared window does. -/
theorem windows_logged (chronicle : Chronicle rule (start drive) m p) :
    (told p.world.log.toList ++ (p.works ++ dropped m).filterMap Work.window?).Perm
      ((accepted m).map fun (r, window) => (r, window.millis % 2 ^ 64)) ∧
    (∀ window : Duration, timeoutMessage window = s!"request timed out after {window.millis % 2 ^ 64}ms" ↔
      window.millis < 2 ^ 64) ∧
    ∀ policy : SuspendPolicy, policy.timeout ≤ Duration.wordMax →
      (policy.duration.millis < 2 ^ 64 ↔ policy.timeout * policy.unit.nanos / 1000000 < 2 ^ 64) := by
  refine ⟨List.perm_iff_count.mpr fun window => ?_, fun window => ?_, fun policy => policy.millis_lt_iff⟩
  · have logged := Logged.of_chronicle chronicle window
    rw [List.filterMap_append, List.count_append, List.count_append, ← Work.countP_gives, ← Work.countP_gives,
      ← Nat.add_assoc]
    exact logged
  · rw [timeoutMessage_eq_iff, eq_comm]
    exact Nat.mod_eq_iff_lt (by decide)

/-- A window of two seconds and, on another response, the longest one that a policy in days can declare; a policy in
days that still fits the log. -/
theorem windows_logged_saturated : ∃ m p, Chronicle Freely (start .runtime) m p ∧
    told p.world.log.toList = [(0, 2000), (1, 18446744073709550616)] ∧
    (told p.world.log.toList ++ (p.works ++ dropped m).filterMap Work.window?).Perm
      ((accepted m).map fun (r, window) => (r, window.millis % 2 ^ 64)) ∧
    (SuspendPolicy.mk 213503982334 .days).duration.millis < 2 ^ 64 := by
  obtain ⟨h, threads, run⟩ := run_of_scenario .runtime
    [.call (.create 2 .events), .call (.setTimeout 0 (.ofSecs 2)),
      .call (.applyPolicy 1 18446744073709551615 (.ok .days)), .call (.suspend 1)]
  obtain ⟨m, chronicle⟩ := Chronicle.of_run run
  obtain ⟨logged, _, fits⟩ := windows_logged chronicle
  exact ⟨m, _, chronicle, rfl, logged, (fits _ (by decide)).mpr (by decide)⟩

/-- A window that does not fit the log is logged as another one than the response times out after. -/
theorem logged_window_wraps : ∃ h p, Run Freely (start (.manual false)) h p ∧
    told p.world.log.toList = [(0, 384)] ∧
    (p.world.response 0).outcome.bind Outcome.failure? = some "request timed out after 18446744073709552000ms" := by
  obtain ⟨h, threads, run⟩ := run_of_scenario (.manual false)
    [.call (.create 1 .events), .call (.setTimeout 0 (.ofSecs 18446744073709552)),
      .advance 18446744073709552000000000]
  have text : timeoutMessage (.ofSecs 18446744073709552) = "request timed out after 18446744073709552000ms" :=
    timeoutMessage_eq_iff.mpr rfl
  exact ⟨h, _, run, rfl, congrArg some text⟩

end Pool
end Simulation
end Deferral
