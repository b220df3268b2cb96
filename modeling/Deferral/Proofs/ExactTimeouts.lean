import Deferral.Proofs.Timeliness

/-! Under a runtime a response times out at the tick at which the last start of its clock is due, unless it
is resumed or cancelled before that timer has its turn, and at no other tick. -/

namespace Deferral.Simulation

/-- A response's clock as its granted requests tell of it: the window declared last, the last start with its
tick and its window, and how many starts there were. -/
structure Clock where
  declared : Option Duration := none
  started : Option (Nat × Duration) := none
  starts : Nat := 0
  deriving DecidableEq

def Clock.begin (clock : Clock) (tick : Nat) (window : Duration) : Clock :=
  { clock with started := some (tick, window), starts := clock.starts + 1 }

def Clock.grant (clock : Clock) (tick : Nat) : Request → Clock
  | .declare window => { clock with declared := some window }
  | .setTimeout window => clock.begin tick window
  | .suspend => clock.declared.elim clock (clock.begin tick)
  | _ => clock

def Clock.hear (r : Nat) (clock : Clock) : Note → Clock
  | .served tick s asked (.ok _) => if s = r then clock.grant tick asked else clock
  | _ => clock

def clockOf (r : Nat) (h : History) : Clock := h.foldl (Clock.hear r) {}

theorem Clock.hear_untold {r : Nat} {notes : History} (clock : Clock)
    (untold : ∀ tick asked arms, .served tick r asked (.ok arms) ∉ notes) : notes.foldl (hear r) clock = clock := by
  induction notes with
  | nil => rfl
  | cons note notes ih =>
    have silent : clock.hear r note = clock := by
      unfold hear
      split
      · split
        next same =>
          subst same
          exact absurd (List.mem_cons_self ..) (untold _ _ _)
        next => rfl
      · rfl
    rw [List.foldl_cons, silent]
    exact ih fun tick asked arms member => untold tick asked arms (List.mem_cons_of_mem _ member)

theorem Clock.follows (tick : Nat) {r : Nat} {x : Response String Listener} {asked : Request} {grant : Grant}
    {clock : Clock} (grants : Grants r x asked grant) (declared : clock.declared = x.declared)
    (starts : clock.starts = x.generation) :
    (clock.grant tick asked).declared = grant.response.declared ∧
      (clock.grant tick asked).starts = grant.response.generation ∧
      (clock.grant tick asked).started = (grant.arms.map fun arming => (tick, arming.window)).or clock.started := by
  cases grants with
  | @start _ window _ begins unresolved =>
    have same : clock.grant tick asked = clock.begin tick window := by
      cases asked with
      | suspend =>
        have begins : x.declared = some window := begins
        simp [Clock.grant, declared, begins]
      | setTimeout other =>
        cases begins
        rfl
      | _ => cases begins
    rw [same]
    exact ⟨declared, congrArg (· + 1) starts, rfl⟩
  | suspend pending undeclared =>
    have same : clock.grant tick .suspend = clock := by simp [Clock.grant, declared, undeclared]
    rw [same]
    exact ⟨declared, starts, rfl⟩
  | finish ends =>
    have same : clock.grant tick asked = clock := by
      cases asked <;> first | rfl | cases ends
    rw [same]
    exact ⟨declared, starts, rfl⟩
  | subscribe =>
    unfold Response.subscribe
    split <;> exact ⟨declared, starts, rfl⟩
  | declare => exact ⟨rfl, starts, rfl⟩
  | store | stale => exact ⟨declared, starts, rfl⟩

namespace Pool

variable {h notes : History} {p q : Pool}

/-- What a history tells of a clock is what the response and the starts of its clock say. -/
structure Told (r : Nat) (h : History) (p : Pool) : Prop where
  declared : (clockOf r h).declared = (p.world.response r).declared
  starts : (clockOf r h).starts = (p.world.response r).generation
  started : (clockOf r h).started = (armings r h).getLast?.map fun start => (start.1, start.2.window)

namespace Told

theorem initial (drive : Drive) (r : Nat) : Told r [] (start drive) := ⟨rfl, rfl, rfl⟩

theorem step_preserves {rule : World → Thread → Prop} {r : Nat} (valid : Valid h p) (told : Told r h p)
    (step : Step rule p notes q) : Told r (h ++ notes) q := by
  obtain ⟨declared, starts, started⟩ := told
  have heard : clockOf r (h ++ notes) = notes.foldl (Clock.hear r) (clockOf r h) := List.foldl_append
  cases step.touches r with
  | kept same stays untold =>
    rw [Clock.hear_untold _ untold] at heard
    have unchanged : armings r (h ++ notes) = armings r h := by
      rw [armings_append, armings_untold untold, List.append_nil]
    constructor
    · rw [heard, declared, same]
    · rw [heard, starts, same]
    · rw [heard, started, unchanged]
  | @granted asked x grant asks found granted after note =>
    have before := World.response_found found
    have later := World.response_found after
    rw [before] at declared starts
    have grants := valid.grants found granted
    obtain ⟨declared, starts, latest⟩ := Clock.follows p.world.now grants declared starts
    have heard : clockOf r (h ++ notes) = (clockOf r h).grant p.world.now asked := by
      rw [heard, note, List.foldl_cons, List.foldl_nil, Clock.hear, if_pos rfl]
    constructor
    · rw [heard, later]
      exact declared
    · rw [heard, later]
      exact starts
    · rw [heard, latest, started, armings_append, note, armings_served]
      cases grant.arms with
      | none => simp
      | some arming => simp

theorem of_run {rule : World → Thread → Prop} {drive : Drive} (run : Run rule (start drive) h p) (r : Nat) :
    Told r h p := by
  induction run with
  | refl => exact .initial drive r
  | step run next told => exact told.step_preserves (.of_run run) next

end Told

structure Settled (p : Pool) : Prop where
  still : ∀ t ∈ p.threads, t.stack = []
  idle : p.world.ready = []

theorem Settled.works_nil (settled : p.Settled) : p.works = [] := by
  apply List.flatMap_eq_nil_iff.mpr
  intro t member
  exact settled.still t member

/-- While a response is unresolved, the last start of its clock is not overdue, and when nothing is left to
do at a tick it is not due at that tick. -/
theorem not_overdue (run : Runs Ticking (start .runtime) h p) {r start tick : Nat} {arming : Response.Arming}
    (last : (armings r h).getLast? = some (start, arming)) (due : Drive.runtime.due start arming.window = some tick)
    (unresolved : (p.world.response r).state.isTerminal = false) :
    p.world.now ≤ tick ∧ (p.Settled → p.world.now < tick) := by
  have orderly := (driven_of_ticking run).2
  have valid := Valid.of_run orderly
  have punctual := Punctual.of_run run
  have started := List.mem_of_getLast? last
  have current := (valid.last_iff started).mp ⟨start, last⟩
  have suspended : (p.world.response r).state = .suspended := by
    have := valid.not_pending started
    cases state : (p.world.response r).state <;> simp_all
  have unique {other : Nat} (again : (other, ⟨arming.window, (p.world.response r).generation⟩) ∈ armings r h) :
      other = start := (valid.arming_unique again started current.symm).1
  rcases (orderly.keeps_tended r).alive _ suspended (valid.active_of_current started current) with
    arm | ⟨id, found, armed | asked⟩
  · have now := unique (punctual.arms r _ arm)
    have later := (Drive.due_runtime due).1
    refine ⟨by omega, ?_⟩
    intro settled
    rw [settled.works_nil] at arm
    cases arm
  · obtain ⟨other, again, scheduled⟩ := punctual.dues id r _ _ found
    rw [unique again, due] at scheduled
    rcases punctual.waits id tick armed scheduled with sleeps | ⟨now, turn⟩
    · have later := punctual.asleep _ sleeps
      exact ⟨Nat.le_of_lt later, fun _ => later⟩
    · refine ⟨Nat.le_of_eq now.symm, ?_⟩
      intro settled
      rw [settled.idle, settled.works_nil] at turn
      rcases turn with ready | works
      · cases ready
      · cases works
  · obtain ⟨other, again, now⟩ := punctual.asks r _ _ asked
    rw [unique again, due] at now
    cases now
    refine ⟨Nat.le_refl _, ?_⟩
    intro settled
    rw [settled.works_nil] at asked
    cases asked

/-- The clock has reached the tick at which the last start of a response's clock is due: its window, in
milliseconds rounded up, after its start, and within the range of the clock; and nobody resumed or
cancelled the response before the turn of that timer. -/
def DueAt (h : History) (now r tick : Nat) (window : Duration) : Prop :=
  ∃ start, (clockOf r h).started = some (start, window) ∧ tick = start + (window.totalNanos + 999999) / 1000000 ∧
    tick ≤ Duration.wordMax ∧ tick ≤ now ∧ ∀ note ∈ beforeTurn r (clockOf r h).starts h, note.produces r = false

private theorem due_of_ended (run : Runs Ticking (start .runtime) h p) {r tick : Nat} {window : Duration}
    (ended : (tick, .timedOut window) ∈ endings r h) : DueAt h p.world.now r tick window := by
  have orderly := (driven_of_ticking run).2
  have valid := Valid.of_run orderly
  have told := Told.of_run orderly r
  obtain ⟨start, generation, last, due, reached⟩ := (Timely.of_run run).expired r tick window ended
  obtain ⟨exact, inside⟩ := Drive.due_runtime due
  refine ⟨start, ?_, exact, inside, reached, ?_⟩
  · rw [told.started, last]
    rfl
  · intro note before
    cases produces : note.produces r with
    | false => rfl
    | true =>
      obtain ⟨other, outcome, ends, apart⟩ := Note.ending_of_produces produces
      have again : (other, outcome) ∈ endings r h :=
        List.mem_filterMap.mpr ⟨note, (List.takeWhile_sublist _).subset before, ends⟩
      rcases valid.ended_cases r with ⟨none, -⟩ | ⟨tick, final, only, -⟩
      · rw [none] at ended
        cases ended
      · rw [only, List.mem_singleton] at ended again
        rw [← ended] at again
        cases again
        exact absurd rfl (apart window)

private theorem ended_of_due (run : Runs Ticking (start .runtime) h p) {r tick : Nat} {window : Duration}
    (passed : tick < p.world.now ∨ p.Settled) (due : DueAt h p.world.now r tick window) :
    (tick, .timedOut window) ∈ endings r h := by
  have orderly := (driven_of_ticking run).2
  have valid := Valid.of_run orderly
  have told := Told.of_run orderly r
  have timely := Timely.of_run run
  obtain ⟨start, started, exact, within, reached, none⟩ := due
  rw [told.started] at started
  obtain ⟨⟨begun, arming⟩, last, same⟩ := Option.map_eq_some_iff.mp started
  cases same
  have scheduled : Drive.runtime.due begun arming.window = some tick := by
    subst exact
    exact if_pos within
  rcases valid.ended_cases r with ⟨-, unresolved⟩ | ⟨ending, outcome, only, -⟩
  · obtain ⟨early, late⟩ := not_overdue run last scheduled unresolved
    rcases passed with passed | settled
    · exact absurd passed (Nat.not_lt.mpr early)
    · exact absurd (late settled) (Nat.not_lt.mpr reached)
  · have member : (ending, outcome) ∈ endings r h := by
      rw [only]
      exact List.mem_cons_self ..
    by_cases expired : ∃ after, outcome = .timedOut after
    · obtain ⟨after, rfl⟩ := expired
      obtain ⟨other, generation, again, due, -⟩ := timely.expired r ending after member
      rw [last] at again
      cases again
      rw [scheduled] at due
      cases due
      exact member
    · have other : ∀ after, outcome ≠ .timedOut after := fun after same => expired ⟨after, same⟩
      obtain ⟨note, inside, produces⟩ := produces_of_ending member other
      have ahead : (p.world.response r).generation ≤ (clockOf r h).starts := Nat.le_of_eq told.starts.symm
      obtain ⟨earlier, before, produced⟩ := timely.hindered r _ note inside produces ahead
      rw [none earlier before] at produced
      cases produced

/-- Timeouts are exact, whatever the threads, callbacks and listeners of a runtime do. A response is timed
out just when it ended so; it ends so at no tick and with no window other than those at which the last
start of its clock is due; and when the clock has passed the tick at which it is due, or nothing is left
to do at that tick, it has. A response whose clock was never started never times out. -/
theorem timed_out_exactly (run : Runs Ticking (start .runtime) h p) (r : Nat) :
    ((p.world.response r).state = .timedOut ↔ ∃ tick window, (tick, .timedOut window) ∈ endings r h) ∧
    (∀ tick window, (tick, .timedOut window) ∈ endings r h → DueAt h p.world.now r tick window) ∧
    (∀ tick window, tick < p.world.now ∨ p.Settled → DueAt h p.world.now r tick window →
      (tick, .timedOut window) ∈ endings r h) ∧
    ((clockOf r h).started = none → (p.world.response r).state ≠ .timedOut) := by
  have valid := Valid.of_run (driven_of_ticking run).2
  have ended : (p.world.response r).state = .timedOut ↔ ∃ tick window, (tick, .timedOut window) ∈ endings r h := by
    rcases valid.ended_cases r with ⟨none, unresolved⟩ | ⟨tick, outcome, only, agrees⟩
    · constructor
      · intro expired
        rw [expired] at unresolved
        cases unresolved
      · rintro ⟨tick, window, member⟩
        rw [none] at member
        cases member
    · rw [only, ← agrees]
      cases outcome <;> simp [Outcome.state]
  refine ⟨ended, ?_, ?_, ?_⟩
  · intro tick window member
    exact due_of_ended run member
  · intro tick window passed due
    exact ended_of_due run passed due
  · intro stopped expired
    obtain ⟨tick, window, member⟩ := ended.mp expired
    obtain ⟨start, started, -⟩ := due_of_ended run member
    rw [stopped] at started
    cases started

private theorem Runs.ticks (before after : List Thread) {w : World} {t : Thread} {work : Work} {rest : List Work}
    (run : Runs Ticking p h ⟨w, before ++ t :: after⟩) (stack : t.stack = work :: rest) (allowed : Unforced w t) :
    Runs Ticking p (h ++ work.notes w) ⟨(Simulation.step w t).1, before ++ (Simulation.step w t).2 :: after⟩ :=
  .step run (.run stack allowed)

private theorem Runs.wakes {w : World} {threads : List Thread} (run : Runs Ticking p h ⟨w, threads⟩) (tick : Nat)
    (still : threads.all (·.stack.isEmpty) = true) (idle : w.ready = []) (later : w.now ≤ tick)
    (next : w.sleeping.all (fun entry => decide (tick ≤ entry.1)) = true) :
    Runs Ticking p (h ++ []) ⟨w.wakeAt tick, threads⟩ := by
  apply run.step
  apply Ticking.wake tick
  · intro t member
    exact List.isEmpty_iff.mp (List.all_eq_true.mp still t member)
  · exact idle
  · exact later
  · intro entry member
    exact of_decide_eq_true (List.all_eq_true.mp next entry member)

/-- A window of a millisecond and a half is over when two milliseconds are. -/
theorem timed_out_exactly_rounded :
    ∃ h p, Runs Ticking (start .runtime) h p ∧ DueAt h p.world.now 0 2 (.ofMicros 1500) ∧
      (2, .timedOut (.ofMicros 1500)) ∈ endings 0 h ∧ (p.world.response 0).state = .timedOut := by
  have begun : Runs Ticking (start .runtime) [] (start .runtime) := .refl
  have created := (begun.step (.call (t := { stack := [.call (.create 1 .events)] }) rfl)).ticks [] [] rfl trivial
  have started := (created.step (.call (t := { stack := [.call (.setTimeout 0 (.ofMicros 1500))] }) rfl)).ticks
    [_] [] rfl trivial
  have armed := ((started.ticks [_] [] rfl trivial).ticks [_] [] rfl trivial).ticks [_] [] rfl trivial
  have waits := armed.ticks [_] [] rfl trivial
  have woken := waits.wakes 2 rfl rfl (Nat.zero_le 2) (by decide +kernel)
  have turn := (woken.step (.start rfl)).ticks [_, _] [] rfl trivial
  have expired := (turn.ticks [_, _] [] rfl trivial).ticks [_, _] [] rfl trivial
  have told := (expired.ticks [_, _] [] rfl trivial).ticks [_, _] [] rfl trivial
  have returned := (told.ticks [_, _] [] rfl trivial).ticks [_, _] [] rfl trivial
  obtain ⟨h, p, run, done, idle, now, clock, quiet⟩ : ∃ h p, Runs Ticking (start .runtime) h p ∧
      p.threads.all (·.stack.isEmpty) = true ∧ p.world.ready = [] ∧ p.world.now = 2 ∧
      clockOf 0 h = { started := some (0, .ofMicros 1500), starts := 1 } ∧
      (beforeTurn 0 1 h).all (!·.produces 0) = true := ⟨_, _, returned, rfl, rfl, rfl, rfl, rfl⟩
  have settled : p.Settled := ⟨fun t member => List.isEmpty_iff.mp (List.all_eq_true.mp done t member), idle⟩
  have due : DueAt h p.world.now 0 2 (.ofMicros 1500) := by
    refine ⟨0, by rw [clock], rfl, by decide, Nat.le_of_eq now.symm, ?_⟩
    intro note before
    rw [clock] at before
    simpa using List.all_eq_true.mp quiet note before
  obtain ⟨state, -, timely, -⟩ := timed_out_exactly run 0
  have ended := timely 2 (.ofMicros 1500) (.inr settled) due
  exact ⟨h, p, run, due, ended, state.mpr ⟨2, _, ended⟩⟩

end Pool
end Deferral.Simulation
