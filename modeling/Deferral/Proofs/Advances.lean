import Deferral.Proofs.Completion

/-! The clock of a runtime may be advanced in one go or in several. A scenario comes to one end, whatever fuel
it is given beyond some bound, and to advance twice is to advance by the sum: each callback sees its own tick,
and what it schedules is waited for with the rest. -/

namespace Deferral.Simulation

theorem Advances.trans {first second : Nat} {w w' last : World} (begun : Advances first w w')
    (later : Advances second w' last) (ahead : first ≤ second) : Advances second w last := by
  induction begun with
  | @wakes w w' middle tick next settles rest ih =>
    obtain ⟨inside, least, listed⟩ := World.nextWaking_eq_some_iff.mp next
    exact .wakes (World.nextWaking_eq_some_iff.mpr ⟨Nat.le_trans inside ahead, least, listed⟩) settles (ih later)
  | @arrives w none =>
    have asleep := World.nextWaking_eq_none_iff.mp none
    cases later with
    | arrives quiet =>
      have same : max (max w.now first) second = max w.now second := by omega
      show Advances second w { w with now := max (max w.now first) second }
      rw [same]
      exact .arrives quiet
    | @wakes _ _ _ tick next settles rest =>
      -- nobody sleeps until a tick before the first stop
      obtain ⟨-, -, alarm, member, due⟩ := World.nextWaking_eq_some_iff.mp next
      have beyond := asleep alarm member
      have same : ({ w with now := max w.now first } : World).wakeAt tick = w.wakeAt tick := by
        have now : max (max w.now first) tick = max w.now tick := by omega
        simp only [World.wakeAt, now]
      rw [same] at settles
      exact .wakes next settles rest

/-! ### Scenarios -/

/-- What a step comes to with all fuel from some bound on. -/
def Takes (w : World) (asked : ScenarioStep) (report : StepReport) : Prop :=
  ∃ bound, ∀ fuel, bound ≤ fuel → w.take fuel asked = report

def Plays (w : World) (steps : List ScenarioStep) (told : List StepReport) (w' : World) : Prop :=
  ∃ bound, ∀ fuel, bound ≤ fuel → reports fuel w steps = (told, w')

section Scenarios

variable {w w' last : World}

theorem Plays.nil : Plays w [] [] w := ⟨0, fun _ _ => rfl⟩

theorem Plays.cons {asked : ScenarioStep} {steps : List ScenarioStep} {report : StepReport} {told : List StepReport}
    (takes : Takes w asked report) (plays : Plays report.world steps told last) :
    Plays w (asked :: steps) (report :: told) last := by
  obtain ⟨bound, taken⟩ := takes
  obtain ⟨more, played⟩ := plays
  refine ⟨bound + more, fun fuel enough => ?_⟩
  simp only [reports, taken fuel (by omega), played fuel (by omega)]

theorem exists_takes (runtime : w.drive = .runtime) (asked : ScenarioStep) :
    ∃ report, Takes w asked report ∧ report.world.drive = .runtime ∧ report.world.ready = [] := by
  cases asked with
  | call action =>
    obtain ⟨bound, w', t, reaches, idle, onward, -⟩ :=
      exists_end (t := { stack := [.call action] }) runtime (.of_none (by simp [Work.waits]))
    obtain ⟨more, last, settled, drive, none⟩ := exists_settled (onward.drive.trans runtime)
    have ran (fuel : Nat) (enough : bound + more ≤ fuel) : w.run fuel action = (w', t.result) := by
      rw [World.run, reaches.runThread idle (by omega : bound ≤ fuel)]
    refine ⟨w.take (bound + more) (.call action), ⟨bound + more, fun fuel enough => ?_⟩, ?_⟩
    · simp only [World.take, ran fuel enough, ran (bound + more) (Nat.le_refl _), settled fuel (by omega),
        settled (bound + more) (Nat.le_add_left ..)]
    · simp only [World.take, ran (bound + more) (Nat.le_refl _), settled (bound + more) (Nat.le_add_left ..)]
      exact ⟨drive, none⟩
  | advance ticks =>
    obtain ⟨w', advances, -, onward, -⟩ := exists_advances runtime (w.now + ticks)
    obtain ⟨bound, advanced⟩ := advances.advanceRuntime
    obtain ⟨more, last, settled, drive, none⟩ := exists_settled (onward.drive.trans runtime)
    have ran (fuel : Nat) (enough : bound + more ≤ fuel) : w.advance fuel ticks = w' := by
      rw [World.advance, runtime]
      exact advanced fuel fuel (by omega) (by omega)
    refine ⟨w.take (bound + more) (.advance ticks), ⟨bound + more, fun fuel enough => ?_⟩, ?_⟩
    · simp only [World.take, ran fuel enough, ran (bound + more) (Nat.le_refl _), settled fuel (by omega),
        settled (bound + more) (Nat.le_add_left ..)]
    · simp only [World.take, ran (bound + more) (Nat.le_refl _), settled (bound + more) (Nat.le_add_left ..)]
      exact ⟨drive, none⟩

theorem exists_plays (runtime : w.drive = .runtime) (idle : w.ready = []) (steps : List ScenarioStep) :
    ∃ told w', Plays w steps told w' ∧ w'.drive = .runtime ∧ w'.ready = [] := by
  induction steps generalizing w with
  | nil => exact ⟨[], w, .nil, runtime, idle⟩
  | cons asked steps ih =>
    obtain ⟨report, takes, drive, none⟩ := exists_takes runtime asked
    obtain ⟨told, w', plays, ends⟩ := ih drive none
    exact ⟨report :: told, w', .cons takes plays, ends⟩

theorem Advances.takes {ticks : Nat} (advances : Advances (w.now + ticks) w w') (runtime : w.drive = .runtime)
    (same : w'.drive = w.drive) (idle : w'.ready = []) :
    Takes w (.advance ticks) { result := .number w'.now, events := w'.events.toList.drop w.events.size, world := w' } := by
  obtain ⟨bound, advanced⟩ := advances.advanceRuntime
  obtain ⟨more, settled⟩ := (Settles.idle idle).settleUpTo
  refine ⟨bound + more, fun fuel enough => ?_⟩
  simp only [World.take, World.advance, runtime, same, advanced fuel fuel (by omega) (by omega), World.settle,
    settled fuel fuel (by omega) (by omega)]
  rfl

end Scenarios

private theorem drop_split {α : Type} {a b c : Array α} (first : a.toList <+: b.toList) (second : b.toList <+: c.toList) :
    b.toList.drop a.size ++ c.toList.drop b.size = c.toList.drop a.size := by
  obtain ⟨told, same⟩ := first
  obtain ⟨more, same'⟩ := second
  rw [← Array.length_toList, ← Array.length_toList, ← same', ← same, List.drop_left, List.drop_left, List.append_assoc,
    List.drop_left]

/-- To advance the clock twice or once by the sum is the same for all that is observed: what happened on the
way, in its order, and the world that is left, in which nothing is still to run. -/
structure Composes (fuel : Nat) (w : World) (a b : Nat) : Prop where
  world : (reports fuel w [.advance a, .advance b]).2 = (reports fuel w [.advance (a + b)]).2
  events : (reports fuel w [.advance a, .advance b]).1.flatMap (·.events) =
    (reports fuel w [.advance (a + b)]).1.flatMap (·.events)
  now : (reports fuel w [.advance (a + b)]).2.now = w.now + (a + b)
  settled : (reports fuel w [.advance (a + b)]).2.ready = []

theorem exists_composes {w : World} (runtime : w.drive = .runtime) (idle : w.ready = []) (a b : Nat) :
    ∃ bound, ∀ fuel, bound ≤ fuel → Composes fuel w a b := by
  obtain ⟨w', first, none, onward, now⟩ := exists_advances runtime (w.now + a)
  obtain ⟨last, second, none', later, now'⟩ := exists_advances (onward.drive.trans runtime) (w'.now + b)
  have here : w'.now = w.now + a := by omega
  have whole : Advances (w.now + (a + b)) w last := by
    rw [here, Nat.add_assoc] at second
    exact first.trans second (by omega)
  have split := Plays.cons (first.takes runtime onward.drive (none idle))
    (.cons (second.takes (onward.drive.trans runtime) later.drive (none' (none idle))) .nil)
  have once := Plays.cons (whole.takes runtime (later.drive.trans onward.drive) (none' (none idle))) .nil
  obtain ⟨bound, played⟩ := split
  obtain ⟨more, playedOnce⟩ := once
  refine ⟨bound + more, fun fuel enough => ?_⟩
  have parts := played fuel (by omega)
  have sum := playedOnce fuel (by omega)
  constructor
  case world =>
    rw [parts, sum]
  case events =>
    rw [parts, sum]
    simpa using drop_split onward.events later.events
  case now =>
    rw [sum]
    show last.now = w.now + (a + b)
    omega
  case settled =>
    rw [sum]
    exact none' (none idle)

/-- From any world that a runtime drives and in which nothing is left to run, the empty one among them: in each
world that a scenario comes to, whatever it has scheduled, armed, tracked and subscribed, to advance the clock
by two spans is to advance it by their sum. -/
theorem advances_compose {w : World} (runtime : w.drive = .runtime) (idle : w.ready = []) (steps : List ScenarioStep)
    (a b : Nat) : ∃ bound, ∀ fuel, bound ≤ fuel → Composes fuel (reports fuel w steps).2 a b := by
  obtain ⟨told, w', ⟨bound, played⟩, runtime', idle'⟩ := exists_plays runtime idle steps
  obtain ⟨more, composes⟩ := exists_composes runtime' idle' a b
  refine ⟨bound + more, fun fuel enough => ?_⟩
  rw [played fuel (by omega)]
  exact composes fuel (by omega)

/-- A timer after 5 ms whose callback sets another after 3 ms and gives a response a window of 2 ms: the first
fires before a stop at 6 ms, the others beyond it. -/
theorem advances_compose_nested : ∃ bound, ∀ fuel, bound ≤ fuel → Composes fuel (reports fuel { drive := .runtime }
    [.call (.create 1 .events), .call (.suspend 0),
      .call (.schedule (.ofMillis 5) [.schedule (.ofMillis 3) [], .setTimeout 0 (.ofMillis 2)])]).2 6 4 :=
  advances_compose rfl rfl _ 6 4

end Deferral.Simulation
