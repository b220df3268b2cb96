import Deferral.Proofs.TendedTimers

/-! The timers of a response over whole runs: while its calls are under way each timer is in somebody's
hand, and between calls the response holds the one timer that is armed for it. -/

namespace Deferral.Simulation
open Response (Arming)

theorem Work.tends_guard {work : Work} (guard : work.isGuard = true) : work.tends = false := by
  cases work with
  | guardListener => rfl
  | _ => cases guard

theorem Hooked.untended {w : World} {extra : List Work} (hooked : Hooked w extra) : ∀ f ∈ extra, f.tends = false := by
  intro f member
  rcases hooked.1 f member with ⟨speaker, body, rfl⟩ | ⟨result, rfl⟩ | ⟨id, rfl⟩ <;> rfl

theorem Thread.Fresh.untended {t : Thread} (fresh : t.Fresh) : ∀ f ∈ t.stack, f.tends = false := by
  rcases fresh with ⟨action, stack⟩ | ⟨task, stack⟩ | ⟨timer, stack⟩
  · simp [stack, Work.tends]
  · cases task <;> simp [stack, Task.thread, Work.tends]
  · simp [stack, Work.tends]

namespace Pool

/-- Clients disarm only timers of their own, for the handles of the others are not given to them, and no
panic comes out of a scheduler that has a call's timer in hand. -/
def Orderly (w : World) (t : Thread) : Prop :=
  match t.stack with
  | .call (.disarm id) :: _ => ∀ r window generation, w.timers.callback? id ≠ some (.expire r window generation)
  | .call (.panic _) :: rest => ∀ f ∈ rest.takeWhile (!·.isGuard), f.tends = false
  | _ => True

private theorem replaces_run (w w' : World) (before after : List Thread) {t t' : Thread} {work : Work}
    {rest : List Work} (pushed : List Work) (stack : t.stack = work :: rest) (stack' : t'.stack = pushed ++ rest) :
    Replaces (Pool.mk w (before ++ t :: after)).works work pushed (Pool.mk w' (before ++ t' :: after)).works := by
  constructor
  case kept =>
    intro f member _
    rcases mem_works_run.mp member with other | here
    · exact .inr (mem_works_run.mpr (.inl other))
    · rw [stack] at here
      rcases List.mem_cons.mp here with same | later
      · exact .inl same
      · exact .inr (mem_works_here stack' (List.mem_append_right _ later))
  case left =>
    intro f member
    rcases mem_works_run.mp member with other | here
    · exact .inl (mem_works_run.mpr (.inl other))
    · rw [stack'] at here
      rcases List.mem_append.mp here with new | later
      · exact .inr new
      · exact .inl (mem_works_here stack (List.mem_cons_of_mem _ later))
  case done =>
    intro f new
    exact mem_works_here stack' (List.mem_append_left _ new)
  case had => exact mem_works_here stack (List.mem_cons_self ..)

private theorem replaces_unwound {w w' : World} {before after : List Thread} {t t' : Thread} {work : Work}
    {rest : List Work} (stack : t.stack = work :: rest) (stack' : t'.stack = (rest.dropWhile (!·.isGuard)).tail)
    (spared : ∀ f ∈ rest.takeWhile (!·.isGuard), f.tends = false) :
    Replaces (Pool.mk w (before ++ t :: after)).works work [] (Pool.mk w' (before ++ t' :: after)).works := by
  constructor
  case kept =>
    intro f member tends
    rcases mem_works_run.mp member with other | here
    · exact .inr (mem_works_run.mpr (.inl other))
    · rw [stack] at here
      rcases List.mem_cons.mp here with same | later
      · exact .inl same
      · refine .inr (mem_works_run.mpr (.inr ?_))
        rw [← List.takeWhile_append_dropWhile (p := (!·.isGuard)) (l := rest)] at later
        rcases List.mem_append.mp later with dropped | later
        · rw [spared f dropped] at tends
          cases tends
        · rw [stack']
          cases tail : rest.dropWhile (!·.isGuard) with
          | nil => rw [tail] at later; cases later
          | cons guard below =>
            rw [tail] at later
            rcases List.mem_cons.mp later with rfl | later
            · have guards := List.head?_dropWhile_not (!·.isGuard) rest
              rw [tail] at guards
              have guard : f.isGuard = true := by simpa using guards
              rw [Work.tends_guard guard] at tends
              cases tends
            · exact later
  case left =>
    intro f member
    rcases mem_works_run.mp member with other | here
    · exact .inl (mem_works_run.mpr (.inl other))
    · rw [stack'] at here
      refine .inl (mem_works_run.mpr (.inr ?_))
      rw [stack]
      exact List.mem_cons_of_mem _ ((List.dropWhile_suffix _).subset (List.mem_of_mem_tail here))
  case done =>
    intro f new
    cases new
  case had => exact mem_works_here stack (List.mem_cons_self ..)

variable {h notes : History} {p q : Pool} {r : Nat}

/-- Whoever asks for a response that is not made has none of its timers in hand, for these were armed by a start. -/
theorem Valid.untended_of_absent (valid : Valid h p) {work : Work} (member : work ∈ p.works) (untimed : work.isTimed = false)
    (absent : ∀ s asked, work.request? = some (s, asked) → p.world.responses[s]? = none) : work.tends = false := by
  cases tends : work.tends with
  | false => rfl
  | true =>
    obtain ⟨s, asked, rfl⟩ : ∃ s asked, work = .request s asked := by
      cases work with
      | request s asked => exact ⟨s, asked, rfl⟩
      | disarm | arm => cases untimed
      | _ => cases tends
    have none := absent s asked rfl
    cases asked with
    | expire window generation =>
      obtain ⟨tick, started⟩ := valid.attempts s window generation member
      have found := valid.found started
      rw [none] at found
      cases found
    | keepTimer id generation =>
      obtain ⟨tick, window, started⟩ := valid.stores s id generation member
      have found := valid.found started
      rw [none] at found
      cases found
    | _ => cases tends

theorem tended_spawned {w : World} {threads : List Thread} {t : Thread} (fresh : t.Fresh)
    (tended : Tended (Pool.mk w threads).works w.timers r (w.response r)) :
    Tended (Pool.mk w (threads ++ [t])).works w.timers r (w.response r) := by
  apply tended.frame ⟨rfl, rfl, rfl, rfl⟩
  · intro f member _ _
    simp only [works, List.flatMap_append, List.mem_append]
    exact .inl member
  · intro f member tends
    simp only [works, List.flatMap_append, List.flatMap_singleton, List.mem_append] at member
    rcases member with old | new
    · exact .inl old
    · rw [fresh.untended f new] at tends
      cases tends

theorem tended_run {w : World} {before after : List Thread} {t : Thread} {work : Work} {rest : List Work}
    (valid : Valid h ⟨w, before ++ t :: after⟩)
    (tended : ∀ s, Tended (Pool.mk w (before ++ t :: after)).works w.timers s (w.response s))
    (stack : t.stack = work :: rest) (allowed : Orderly w t) :
    Tended (Pool.mk (step w t).1 (before ++ (step w t).2 :: after)).works (step w t).1.timers r ((step w t).1.response r) := by
  have effect := step_effect (w := w) stack
  generalize thread : (step w t).2 = t' at effect ⊢
  generalize (step w t).1 = w' at effect ⊢
  generalize stack' : t'.stack = left at effect
  have unserved (responses : w'.responses = w.responses) : w'.response r = w.response r := by
    rw [World.response, responses, World.response]
  have own := tended r
  cases effect with
  | @refused _ _ _ s asked x error asks found refused responses timers =>
    rw [unserved responses, timers]
    have replaces := replaces_run w w' before after [] stack stack'
    cases work with
    | request =>
      cases asks
      have refuses (same : s = r) : asked.grant r (w.response r) = .error error := by
        rw [← same, World.response, found]
        exact refused
      exact own.refused replaces refuses
    | call => exact own.quiet replaces ⟨rfl, rfl, rfl, rfl⟩ rfl (by simp)
    | _ => cases asks
  | @granted _ _ _ s asked x grant asks found granted responses timers =>
    have replaces := replaces_run w w' before after _ stack stack'
    have here := World.response_found found
    rw [timers]
    rw [← here] at granted
    by_cases same : s = r
    · subst same
      obtain ⟨inside, -⟩ := List.getElem?_eq_some_iff.mp found
      rw [show w'.response s = grant.response by simp [World.response, responses, inside]]
      exact own.granted_own valid granted asks replaces
    · rw [show w'.response r = w.response r by simp [World.response, responses, List.getElem?_set_ne same]]
      exact own.granted_other (tended s) same granted (Request.grant_cases (valid.sound s) granted) asks replaces
  | created responses timers =>
    rw [World.response_created responses r, timers]
    exact own.quiet (replaces_run w w' before after [] stack stack') ⟨rfl, rfl, rfl, rfl⟩ rfl (by simp)
  | @armed s arming _ _ extra hooks scheduled =>
    rw [unserved scheduled.responses, scheduled.timers]
    rw [← List.singleton_append, ← List.append_assoc] at stack'
    exact own.armed (replaces_run w w' before after _ stack stack') hooks.untended
  | @scheduled window body _ _ extra result hooks scheduled =>
    rw [unserved scheduled.responses, scheduled.timers]
    rw [← List.singleton_append, ← List.append_assoc] at stack'
    refine (own.quiet (replaces_run w w' before after _ stack stack') ⟨rfl, rfl, rfl, rfl⟩ rfl ?_).scheduled
    intro f member
    rcases List.mem_append.mp member with hook | answer
    · exact hooks.untended f hook
    · rw [List.mem_singleton.mp answer]
      rfl
  | @disarmed _ id _ _ extra asks hooks responses timers =>
    rw [unserved responses, timers]
    have replaces := replaces_run w w' before after _ stack stack'
    apply own.disarmed replaces hooks.untended (asks.imp_right fun same => by rw [same]; rfl)
    intro window found suspended
    rcases asks with rfl | rfl
    · obtain ⟨s, after, generation, given, stale⟩ := own.disarms id replaces.had
      rw [found] at given
      cases given
      rcases stale rfl with behind | terminal
      · exact behind rfl
      · rw [suspended] at terminal
        cases terminal
    · unfold Orderly at allowed
      rw [stack] at allowed
      exact allowed r window _ found
  | @fired _ id timer _ _ returns asks found returned responses timers =>
    rw [unserved responses, timers]
    have replaces := replaces_run w w' before after _ stack stack'
    have outer : work.tends = false := by
      rcases asks with ⟨rfl | rfl, -⟩ | ⟨force, rfl⟩ <;> rfl
    have callback : w.timers.callback? id = some timer.callback := by rw [Timers.callback?, found]; rfl
    apply own.fired replaces outer callback
    · intro f member
      exact List.mem_append_left _ member
    · intro f member tends
      rcases List.mem_append.mp member with runs | back
      · exact runs
      · obtain ⟨result, rfl⟩ := returned f back
        cases tends
  | unwound responses timers =>
    rw [unserved responses, timers]
    unfold Orderly at allowed
    rw [stack] at allowed
    exact own.quiet (replaces_unwound stack stack' allowed) ⟨rfl, rfl, rfl, rfl⟩ rfl (by simp)
  | quiet pushed absent untimed outer opened responses timers =>
    rw [unserved responses, timers]
    have replaces := replaces_run w w' before after _ stack stack'
    have untended := valid.untended_of_absent replaces.had untimed absent
    exact own.quiet replaces ⟨rfl, rfl, rfl, rfl⟩ untended fun f new => Work.tends_outer (outer f new).1

theorem Step.keeps_tended (valid : Valid h p) (tended : ∀ r, Tended p.works p.world.timers r (p.world.response r))
    (step : Step Orderly p notes q) (r : Nat) : Tended q.works q.world.timers r (q.world.response r) := by
  cases step with
  | wait => exact tended r
  | spawn fresh => exact tended_spawned fresh (tended r)
  | run stack allowed => exact tended_run valid tended stack allowed

theorem Runs.keeps_tended {drive : Drive} (run : Run Orderly (start drive) h p) (r : Nat) :
    Tended p.works p.world.timers r (p.world.response r) := by
  induction run generalizing r with
  | refl => exact .initial
  | step run next tended => exact next.keeps_tended (.of_run run) tended r

structure Idle (p : Pool) (r : Nat) : Prop where
  arms : ∀ arming, .arm r arming ∉ p.works
  stores : ∀ id generation, .request r (.keepTimer id generation) ∉ p.works
  asks : ∀ window generation, .request r (.expire window generation) ∉ p.works
  disarms : ∀ id window generation, p.world.timers.callback? id = some (.expire r window generation) →
    .disarm id ∉ p.works

theorem Idle.of_done {r : Nat} (done : p.works = []) : p.Idle r := by
  constructor <;> simp [done]

/-- Whatever the order of the steps: once no call has a timer of a response in hand, a suspended response
whose window runs has one armed timer, the one it stored, armed by the start that took the current
generation; and any other response has stored no timer and none of its timers is armed. -/
theorem idle_timers {drive : Drive} (run : Run Orderly (start drive) h p) {r : Nat} (idle : p.Idle r) :
    (∀ window, (p.world.response r).state = .suspended → (p.world.response r).active = some window →
      ∃ id, (p.world.response r).timer = some id ∧ p.world.timers.isArmed id = true ∧
        p.world.timers.callback? id = some (.expire r window (p.world.response r).generation) ∧
        ∀ other after generation, p.world.timers.callback? other = some (.expire r after generation) →
          p.world.timers.isArmed other = true → other = id) ∧
    (¬((p.world.response r).state = .suspended ∧ (p.world.response r).active.isSome = true) →
      (p.world.response r).timer = none ∧
        ∀ other after generation, p.world.timers.callback? other = some (.expire r after generation) →
          p.world.timers.isArmed other = false) := by
  have tended := run.keeps_tended r
  have owned (id : Nat) (window : Duration) (generation : Nat)
      (found : p.world.timers.callback? id = some (.expire r window generation))
      (armed : p.world.timers.isArmed id = true) : (p.world.response r).timer = some id := by
    rcases tended.owned id window generation found armed with stored | stores | disarms
    · exact stored
    · exact absurd stores (idle.stores id generation)
    · exact absurd disarms (idle.disarms id window generation found)
  constructor
  · intro window suspended runs
    rcases tended.alive window suspended runs with arm | ⟨id, found, armed | asked⟩
    · exact absurd arm (idle.arms _)
    · have stored := owned id window _ found armed
      refine ⟨id, stored, armed, found, ?_⟩
      intro other after generation given others
      have same := owned other after generation given others
      rw [stored] at same
      exact (Option.some.inj same).symm
    · exact absurd asked (idle.asks _ _)
  · intro stopped
    have none : (p.world.response r).timer = none := by
      cases stored : (p.world.response r).timer with
      | none => rfl
      | some id =>
        obtain ⟨suspended, window, runs, -⟩ := tended.stored id stored
        exact absurd ⟨suspended, by rw [runs]; rfl⟩ stopped
    refine ⟨none, ?_⟩
    intro other after generation found
    cases armed : p.world.timers.isArmed other with
    | false => rfl
    | true =>
      have stored := owned other after generation found armed
      rw [none] at stored
      cases stored

/-- A call that starts a clock is overtaken by another before it has armed its timer, and disarms it. -/
theorem idle_timers_overtaken :
    ∃ h p, Run Orderly (start (.manual false)) h p ∧ p.Idle 0 ∧ p.world.timers.list.length = 2 ∧
      ∃ id, (p.world.response 0).timer = some id ∧ p.world.timers.isArmed id = true ∧
        ∀ other after generation, p.world.timers.callback? other = some (.expire 0 after generation) →
          p.world.timers.isArmed other = true → other = id := by
  have asked (action : Action) : Thread.Fresh { stack := [.call action] } := .inl ⟨action, rfl⟩
  have begun : Run Orderly (start (.manual false)) [] (start (.manual false)) := .refl
  have created := (begun.step (.spawn (asked (.create 1 .events)))).goes [] [] rfl trivial
  have slow := (created.step (.spawn (asked (.setTimeout 0 (.ofSecs 1))))).goes [_] [] rfl trivial
  have quick := (slow.step (.spawn (asked (.setTimeout 0 (.ofSecs 2))))).goes [_, _] [] rfl trivial
  have armed := (quick.goes [_, _] [] rfl trivial).goes [_, _] [] rfl trivial
  have overtaken := (armed.goes [_, _] [] rfl trivial).goes [_, _] [] rfl trivial
  have late := (overtaken.goes [_] [_] rfl trivial).goes [_] [_] rfl trivial
  have disarmed := (late.goes [_] [_] rfl trivial).goes [_] [_] rfl trivial
  have returned := (disarmed.goes [_] [_] rfl trivial).goes [_] [_] rfl trivial
  obtain ⟨id, stored, armed, -, only⟩ := (idle_timers returned (r := 0) (.of_done rfl)).1 (.ofSecs 2) rfl rfl
  exact ⟨_, _, returned, .of_done rfl, rfl, id, stored, armed, only⟩

end Pool
end Deferral.Simulation
