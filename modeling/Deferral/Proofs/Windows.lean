import Deferral.Proofs.TerminalTransition

/-! The window of a response is the one given last. A declaration is heard only before any clock was
started, so the window that runs is never older than the declared one; and everything that is in flight
for the running clock carries it, down to the timer. -/

namespace Deferral.Simulation
open Response (Arming)

/-- The window that a request gives, if it is granted. -/
def Request.window? : Request → Option Duration
  | .declare window | .setTimeout window => some window
  | _ => none

/-- The window that a note tells was given to a response. -/
def Note.window? (r : Nat) : Note → Option Duration
  | .served _ s asked (.ok _) => if s = r then asked.window? else none
  | _ => none

/-- The windows given to a response, oldest first. -/
def windows (r : Nat) (h : History) : List Duration := h.filterMap (Note.window? r)

@[simp] theorem windows_append (r : Nat) (h notes : History) :
    windows r (h ++ notes) = windows r h ++ windows r notes := List.filterMap_append

theorem windows_served (tick r : Nat) (asked : Request) (arms : Option Arming) :
    windows r [.served tick r asked (.ok arms)] = asked.window?.toList := by
  cases given : asked.window? <;> simp [windows, Note.window?, given]

theorem windows_none {r : Nat} {notes : History}
    (none : ∀ tick asked arms, .served tick r asked (.ok arms) ∈ notes → asked.window? = none) :
    windows r notes = [] := by
  apply List.filterMap_eq_nil_iff.mpr
  intro note member
  unfold Note.window?
  split
  · split
    next same => exact none _ _ _ (same ▸ member)
    · rfl
  · rfl

theorem Sound.idle {x : Response String Listener} (sound : Sound x) (pending : x.state = .pending) :
    x.active = none := sound.running.mpr (sound.fresh pending).1

theorem Request.suspend_pending {r : Nat} {x : Response String Listener} {g : Grant}
    (granted : Request.suspend.grant r x = .ok g) : x.state = .pending := by
  simp only [grant, Response.suspend] at granted
  split at granted
  next pending => exact pending
  next => cases granted

theorem Request.grant_window {r : Nat} {x : Response String Listener} {asked : Request} {g : Grant} (sound : Sound x)
    (granted : asked.grant r x = .ok g) : g.response.window = asked.window?.or x.window := by
  cases grant_cases sound granted with
  | declare pending => simp [Response.window, window?, sound.idle pending]
  | suspend | store | stale => rfl
  | @start _ window event starts unresolved =>
    cases asked with
    | suspend =>
      have declared : x.declared = some window := starts
      have idle := sound.idle (suspend_pending granted)
      simp [Response.started, Response.window, window?, declared, idle]
    | setTimeout other =>
      cases starts
      rfl
    | _ => cases starts
  | finish ends current unresolved =>
    have none : asked.window? = none := by
      cases asked <;> first | rfl | cases ends
    rw [none]
    rfl
  | subscribe =>
    unfold Response.subscribe
    split <;> rfl

namespace Effect

variable {before after : World} {work : Work} {rest stack : List Work}

theorem keeps_callback (effect : Effect before work rest after stack) {id : Nat} {callback : Callback}
    (found : before.timers.callback? id = some callback) : after.timers.callback? id = some callback := by
  cases effect with
  | armed _ scheduled | scheduled _ scheduled =>
    rw [scheduled.timers]
    exact Timers.callback?_schedule_of_some found
  | disarmed _ _ _ timers | fired _ _ _ _ timers => simpa [timers] using found
  | refused _ _ _ _ timers | granted _ _ _ _ timers | created _ timers | unwound _ timers
  | quiet _ _ _ _ _ _ timers => rwa [timers]

/-- A timer after a step is one from before, with its span and callback, or it is new: that of a clock
that the step arms, set to the window it was started with, or that of a script. -/
theorem timer (effect : Effect before work rest after stack) {id : Nat} {timer : Timer Callback}
    (found : after.timers.get? id = some timer) :
    (∃ old, before.timers.get? id = some old ∧ timer.after = old.after ∧ timer.callback = old.callback) ∨
      (∃ r, ∃ arming : Arming, timer.after = arming.window ∧ timer.callback = .expire r arming.window arming.generation) ∨
      ∃ body, timer.callback = .script body := by
  cases effect with
  | @armed r arming _ _ _ _ scheduled =>
    rw [scheduled.timers, Timers.get?_schedule] at found
    split at found
    · cases found
      exact .inr (.inl ⟨r, arming, rfl, rfl⟩)
    · exact .inl ⟨timer, found, rfl, rfl⟩
  | scheduled _ scheduled =>
    rw [scheduled.timers, Timers.get?_schedule] at found
    split at found
    · cases found
      exact .inr (.inr ⟨_, rfl⟩)
    · exact .inl ⟨timer, found, rfl, rfl⟩
  | disarmed _ _ _ timers =>
    rw [timers, Timers.get?_disarm] at found
    split at found
    · obtain ⟨old, had, rfl⟩ := Option.map_eq_some_iff.mp found
      exact .inl ⟨old, had, rfl, rfl⟩
    · exact .inl ⟨timer, found, rfl, rfl⟩
  | fired _ _ _ _ timers =>
    rw [timers, Timers.get?_spend] at found
    split at found
    · obtain ⟨old, had, rfl⟩ := Option.map_eq_some_iff.mp found
      exact .inl ⟨old, had, rfl, rfl⟩
    · exact .inl ⟨timer, found, rfl, rfl⟩
  | refused _ _ _ _ timers | granted _ _ _ _ timers | created _ timers | unwound _ timers
  | quiet _ _ _ _ _ _ timers =>
    rw [timers] at found
    exact .inl ⟨timer, found, rfl, rfl⟩

theorem handle (effect : Effect before work rest after stack) {r id generation : Nat}
    (member : .request r (.keepTimer id generation) ∈ stack) :
    .request r (.keepTimer id generation) ∈ rest ∨
      ∃ window, after.timers.callback? id = some (.expire r window generation) := by
  rcases effect.inner member rfl with old | left
  · exact .inl old
  · right
    cases left with
    | grant _ _ granted member => cases Request.grant_duty granted member rfl
    | callback _ _ member =>
      rcases Callback.mem_work member with ⟨s, other, number, -, same | same⟩ | ⟨body, -, same⟩ <;> cases same
    | @keep _ arming arms =>
      subst arms
      cases effect with
      | armed _ scheduled =>
        refine ⟨arming.window, ?_⟩
        rw [scheduled.timers, Timers.callback?_schedule, if_pos rfl]
      | refused asks | granted asks => cases asks
      | disarmed asks => rcases asks with same | same <;> cases same
      | fired asks => rcases asks with ⟨same | same, -⟩ | ⟨force, same⟩ <;> cases same
      | quiet _ _ untimed => cases untimed

end Effect

namespace Pool

variable {rule : World → Thread → Prop} {p q : Pool} {h notes : History}

/-- What ties the timers to the windows of the responses that armed them: each is set to the window that
its callback carries, and a handle, to be stored or stored, is that of the response's own timer. -/
structure Clocked (p : Pool) : Prop where
  spans : ∀ id timer r window generation, p.world.timers.get? id = some timer →
    timer.callback = .expire r window generation → timer.after = window
  stores : ∀ r id generation, .request r (.keepTimer id generation) ∈ p.works →
    ∃ window, p.world.timers.callback? id = some (.expire r window generation)
  stored : ∀ r id, (p.world.response r).timer = some id →
    ∃ window, p.world.timers.callback? id = some (.expire r window (p.world.response r).generation)

theorem Step.keeps_callback (step : Step rule p notes q) {id : Nat} {callback : Callback}
    (found : p.world.timers.callback? id = some callback) : q.world.timers.callback? id = some callback := by
  cases step with
  | spawn | wait => exact found
  | @run w before t after work rest stack allowed => exact (step_effect (w := w) stack).keeps_callback found

namespace Clocked

theorem initial (drive : Drive) : Clocked (start drive) := by
  constructor
  · intro id timer r window generation found
    simp [start, Timers.get?] at found
  · intro r id generation member
    cases member
  · intro r id stored
    simp [start, World.response] at stored

private theorem spans_preserves (clocked : Clocked p) (step : Step rule p notes q) {id r generation : Nat}
    {timer : Timer Callback} {window : Duration} (found : q.world.timers.get? id = some timer)
    (callback : timer.callback = .expire r window generation) : timer.after = window := by
  cases step with
  | spawn | wait => exact clocked.spans id timer r window generation found callback
  | @run w before t after work rest stack allowed =>
    rcases (step_effect (w := w) stack).timer found with ⟨old, had, span, same⟩ | ⟨s, arming, span, same⟩ | ⟨body, same⟩
    · rw [span]
      exact clocked.spans id old r window generation had (same.symm.trans callback)
    · rw [callback] at same
      cases same
      exact span
    · rw [callback] at same
      cases same

private theorem stores_preserves (clocked : Clocked p) (step : Step rule p notes q) {r id generation : Nat}
    (member : .request r (.keepTimer id generation) ∈ q.works) :
    ∃ window, q.world.timers.callback? id = some (.expire r window generation) := by
  have kept (old : .request r (.keepTimer id generation) ∈ p.works) :
      ∃ window, q.world.timers.callback? id = some (.expire r window generation) := by
    obtain ⟨window, found⟩ := clocked.stores r id generation old
    exact ⟨window, step.keeps_callback found⟩
  cases step with
  | wait => exact kept member
  | @spawn w threads t fresh =>
    simp only [works, List.flatMap_append, List.flatMap_singleton, List.mem_append] at member
    rcases member with old | new
    · exact kept old
    · rcases fresh with ⟨action, stack⟩ | ⟨task, stack⟩ | ⟨timer, stack⟩ <;> rw [stack] at new
      · simp at new
      · cases task <;> simp [Task.thread] at new
      · simp at new
  | @run w before t after work rest stack allowed =>
    rcases mem_works_run.mp member with other | here
    · exact kept (mem_works_run.mpr (.inl other))
    · rcases (step_effect (w := w) stack).handle here with old | armed
      · exact kept (mem_works_here stack (List.mem_cons_of_mem _ old))
      · exact armed

private theorem stored_preserves (clocked : Clocked p) (valid : Valid h p) (step : Step rule p notes q) {r id : Nat}
    (stored : (q.world.response r).timer = some id) :
    ∃ window, q.world.timers.callback? id = some (.expire r window (q.world.response r).generation) := by
  have kept (had : (p.world.response r).timer = some id)
      (same : (q.world.response r).generation = (p.world.response r).generation) :
      ∃ window, q.world.timers.callback? id = some (.expire r window (q.world.response r).generation) := by
    obtain ⟨window, found⟩ := clocked.stored r id had
    rw [same]
    exact ⟨window, step.keeps_callback found⟩
  cases step.touches r with
  | kept same =>
    rw [same] at stored
    exact kept stored (by rw [same])
  | @granted asked x grant asks found granted after =>
    have before := World.response_found found
    have later := World.response_found after
    rw [before, later] at kept
    rw [later] at stored ⊢
    cases valid.grants found granted with
    | start | finish => cases stored
    | declare | suspend | stale => exact kept stored rfl
    | @subscribe listener =>
      have same : (x.subscribe listener).1.timer = x.timer ∧ (x.subscribe listener).1.generation = x.generation := by
        unfold Response.subscribe
        split <;> exact ⟨rfl, rfl⟩
      exact kept (same.1.symm.trans stored) same.2
    | store unresolved =>
      cases stored
      obtain ⟨work, member, asks⟩ := asks
      rw [Work.eq_request asks rfl] at member
      obtain ⟨window, armed⟩ := clocked.stores r id x.generation member
      exact ⟨window, step.keeps_callback armed⟩

theorem step_preserves (clocked : Clocked p) (valid : Valid h p) (step : Step rule p notes q) : Clocked q where
  spans _ _ _ _ _ found callback := clocked.spans_preserves step found callback
  stores _ _ _ member := clocked.stores_preserves step member
  stored _ _ stored := clocked.stored_preserves valid step stored

theorem of_run {drive : Drive} (run : Run rule (start drive) h p) : Clocked p := by
  induction run with
  | refl => exact .initial drive
  | step run next clocked => exact clocked.step_preserves (.of_run run) next

end Clocked

theorem Valid.window_step (valid : Valid h p) (step : Step rule p notes q) (r : Nat) :
    (q.world.response r).window = (windows r notes).getLast?.or (p.world.response r).window := by
  cases step.touches r with
  | @granted asked x grant asks found granted after told =>
    have sound := valid.sound r
    have before := World.response_found found
    rw [before] at sound ⊢
    rw [World.response_found after, Request.grant_window sound granted, told, windows_served]
    cases asked.window? <;> rfl
  | kept same stays untold =>
    have none : windows r notes = [] := windows_none fun tick asked arms member => absurd member (untold tick asked arms)
    rw [none, same]
    rfl

theorem Runs.window {drive : Drive} (run : Run rule (start drive) h p) (r : Nat) :
    (p.world.response r).window = (windows r h).getLast? := by
  induction run with
  | refl => rfl
  | step run next ih =>
    rw [(Valid.of_run run).window_step next r, ih, windows_append, List.getLast?_append]

theorem Valid.window_of_current (valid : Valid h p) {r tick : Nat} {arming : Arming} (member : (tick, arming) ∈ armings r h)
    (current : arming.generation = (p.world.response r).generation) :
    (p.world.response r).window = some arming.window := by
  rw [Response.window, valid.active_of_current member current]
  rfl

theorem Request.expires_of_ending {asked : Request} {operation : Operation} {after : Duration}
    (ends : asked.ending? = some (operation, .timedOut after)) : ∃ generation, asked = .expire after generation := by
  cases asked with
  | expire window generation =>
    cases ends
    exact ⟨generation, rfl⟩
  | produce result => cases result <;> cases ends
  | _ => cases ends

theorem Valid.timedOut_step (valid : Valid h p) (step : Step rule p notes q) {r : Nat}
    (before : ∀ after, (p.world.response r).outcome = some (.timedOut after) → (p.world.response r).window = some after)
    {after : Duration} (ended : (q.world.response r).outcome = some (.timedOut after)) :
    (q.world.response r).window = some after := by
  cases step.touches r with
  | kept same =>
    rw [same] at ended ⊢
    exact before after ended
  | @granted asked x grant asks found granted later =>
    have grants := valid.grants found granted
    have sound := valid.sound r
    have here := World.response_found found
    rw [World.response_found later] at ended ⊢
    rw [here] at before sound
    cases terminal : x.state.isTerminal with
    | true =>
      obtain ⟨-, outcome, window, -⟩ := grants.frozen terminal
      rw [outcome] at ended
      rw [window]
      exact before after ended
    | false =>
      have none : x.outcome = none := by simpa [terminal] using sound.agrees
      have outcome := grants.outcome sound
      rw [ended, none] at outcome
      obtain ⟨⟨operation, _⟩, ends, rfl⟩ : ∃ ending, asked.ending? = some ending ∧ ending.2 = .timedOut after := by
        cases ends : asked.ending? with
        | none => simp [ends] at outcome
        | some ending => exact ⟨ending, rfl, by simpa [ends] using outcome.symm⟩
      obtain ⟨generation, rfl⟩ := Request.expires_of_ending ends
      obtain ⟨work, member, asks⟩ := asks
      rw [Work.eq_request asks rfl] at member
      obtain ⟨tick, started⟩ := valid.attempts r after generation member
      have current : generation = x.generation := by
        cases grants with
        | finish _ current => exact current generation rfl
        | start starts => cases starts
      have window := valid.window_of_current started (by rw [here]; exact current)
      rw [here] at window
      rw [Request.grant_window sound granted, window]
      rfl

theorem Runs.timedOut {drive : Drive} (run : Run rule (start drive) h p) {r : Nat} :
    ∀ after, (p.world.response r).outcome = some (.timedOut after) → (p.world.response r).window = some after := by
  induction run with
  | refl => nofun
  | step run next ih => exact fun after => (Valid.of_run run).timedOut_step next ih

/-- What the window of a response is, by what the history gave and by what is under way for it. -/
structure Windowed (h : History) (p : Pool) (r : Nat) : Prop where
  given : (p.world.response r).window = (windows r h).getLast?
  started : ∀ tick arming, (armings r h).getLast? = some (tick, arming) →
    (p.world.response r).window = some arming.window
  /-- The timer of the running clock, as long as a call is still to arm it. -/
  arming : ∀ window, .arm r ⟨window, (p.world.response r).generation⟩ ∈ p.works →
    (p.world.response r).window = some window
  /-- The timer of the running clock, once it is armed, and the span that it was set to. -/
  armed : ∀ id timer window, p.world.timers.get? id = some timer →
    timer.callback = .expire r window (p.world.response r).generation →
    timer.after = window ∧ (p.world.response r).window = some window
  stored : ∀ id, (p.world.response r).timer = some id → ∃ timer window, p.world.timers.get? id = some timer ∧
    timer.callback = .expire r window (p.world.response r).generation ∧
    timer.after = window ∧ (p.world.response r).window = some window
  elapsed : ∀ after, (p.world.response r).outcome = some (.timedOut after) →
    (p.world.response r).window = some after

/-- The window of a response is the one that was given last and granted, whatever calls, listeners and
timers there are; what gives none or is refused leaves it; and the clock that runs, its timer and the
outcome of its end carry it. -/
theorem last_window_holds {drive : Drive} (run : Run rule (start drive) h p) (r : Nat) :
    Windowed h p r ∧ ∀ notes q, Step rule p notes q →
      (∀ tick asked arms, .served tick r asked (.ok arms) ∈ notes → asked.window? = none) →
      (q.world.response r).window = (p.world.response r).window := by
  have valid := Valid.of_run run
  have clocked := Clocked.of_run run
  have armed (id : Nat) (timer : Timer Callback) (window : Duration) (found : p.world.timers.get? id = some timer)
      (callback : timer.callback = .expire r window (p.world.response r).generation) :
      timer.after = window ∧ (p.world.response r).window = some window := by
    have kept : p.world.timers.callback? id = some timer.callback := by rw [Timers.callback?, found]; rfl
    rw [callback] at kept
    obtain ⟨tick, member⟩ := valid.arming_of_callback (Timers.callback_mem kept)
    exact ⟨clocked.spans id timer r window _ found callback, valid.window_of_current member rfl⟩
  refine ⟨⟨run.window r, ?_, ?_, armed, ?_, run.timedOut⟩, ?_⟩
  · intro tick arming last
    have member := List.mem_of_getLast? last
    exact valid.window_of_current member ((valid.last_iff member).mp ⟨tick, last⟩)
  · intro window member
    obtain ⟨tick, started⟩ := valid.arming_of_arm member
    exact valid.window_of_current started rfl
  · intro id stored
    obtain ⟨window, kept⟩ := clocked.stored r id stored
    obtain ⟨timer, found, callback⟩ := Option.map_eq_some_iff.mp kept
    exact ⟨timer, window, found, callback, armed id timer window found callback⟩
  · intro notes q step none
    rw [valid.window_step step r, windows_none none]
    rfl

/-- A declared window runs, is replaced by a listener of another response, and elapses; a declaration made
meanwhile is refused. -/
theorem last_window_holds_replaced :
    ∃ h p, Run Freely (start .runtime) h p ∧ Windowed h p 0 ∧
      (p.world.response 0).outcome = some (.timedOut (.ofSecs 2)) ∧ (p.world.response 0).window = some (.ofSecs 2) ∧
      (windows 0 h).getLast? = some (.ofSecs 2) := by
  obtain ⟨h, threads, run⟩ := run_of_scenario .runtime
    [.call (.create 2 .events), .call (.applyPolicy 0 1 (.ok .seconds)), .call (.suspend 0),
      .call (.onResolved 1 "replace" [.setTimeout 0 (.ofSecs 2)]), .call (.resume 1 "done"),
      .call (.applyPolicy 0 3 (.ok .seconds)), .advance 2000]
  obtain ⟨windowed, -⟩ := last_window_holds run 0
  have last := windowed.elapsed (.ofSecs 2) rfl
  exact ⟨h, _, run, windowed, rfl, last, windowed.given.symm.trans last⟩

end Pool
end Deferral.Simulation
