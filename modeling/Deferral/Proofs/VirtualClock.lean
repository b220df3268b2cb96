import Deferral.Proofs.TimerOwnership

/-! A pool that a runtime drives. Tasks start in the order in which they became ready, and the clock moves
only when nothing is left to do, and never past a tick at which a task wakes. -/

namespace Deferral.Simulation

/-- Below work that may run what others ask for there is no timer in hand. -/
def Layered : List Work → Prop
  | [] => True
  | work :: rest => (work.isOpen = true → ∀ f ∈ rest, f.tends = false) ∧ Layered rest

namespace Layered

theorem of_none {stack : List Work} (none : ∀ f ∈ stack, f.tends = false) : Layered stack := by
  induction stack with
  | nil => trivial
  | cons work rest ih =>
    have below : ∀ f ∈ rest, f.tends = false := fun f member => none f (List.mem_cons_of_mem _ member)
    exact ⟨fun _ => below, ih below⟩

theorem of_closed {pushed rest : List Work} (closed : ∀ f ∈ pushed, f.isOpen = false) (layered : Layered rest) :
    Layered (pushed ++ rest) := by
  induction pushed with
  | nil => exact layered
  | cons work pushed ih =>
    refine ⟨?_, ih fun f member => closed f (List.mem_cons_of_mem _ member)⟩
    intro opened
    rw [closed work (List.mem_cons_self ..)] at opened
    cases opened

theorem append {pushed rest : List Work} (layered : Layered pushed) (none : ∀ f ∈ rest, f.tends = false) :
    Layered (pushed ++ rest) := by
  induction pushed with
  | nil => exact .of_none none
  | cons work pushed ih =>
    refine ⟨?_, ih layered.2⟩
    intro opened f member
    rcases List.mem_append.mp member with inside | below
    · exact layered.1 opened f inside
    · exact none f below

theorem suffix {stack below : List Work} (layered : Layered stack) (suffix : below <:+ stack) : Layered below := by
  obtain ⟨above, rfl⟩ := suffix
  induction above with
  | nil => exact layered
  | cons work above ih => exact ih layered.2

/-- A grant disarms first and arms last, and if it arms it tells nobody who could ask for anything. -/
theorem of_grant {r : Nat} {x : Response String Listener} {asked : Request} {g : Grant} (sound : Sound x)
    (granted : asked.grant r x = .ok g) : Layered (g.work r) := by
  obtain ⟨tells, returns⟩ := Request.grant_outer granted
  have told : ∀ f ∈ g.tells, f.tends = false := fun f member => Work.tends_outer (tells f member)
  have returned : ∀ f ∈ g.returns, f.tends = false := by
    rcases returns with outer | ⟨operation, outcome, -, same⟩
    · exact fun f member => Work.tends_outer (outer f member)
    · simp [same, Work.tends]
  have disarms : ∀ f ∈ g.disarms.toList.map Work.disarm, f.isOpen = false := by
    simp [Work.isOpen]
  rw [Grant.work, List.append_assoc, List.append_assoc]
  apply of_closed disarms
  cases arms : g.arms with
  | none =>
    apply of_none
    intro f member
    rcases List.mem_append.mp member with tell | back
    · exact told f tell
    · exact returned f back
  | some arming =>
    have closed : ∀ f ∈ g.tells, f.isOpen = false := by
      cases Request.grant_cases sound granted with
      | start => simp [Work.isOpen]
      | _ => cases arms
    exact of_closed closed ⟨fun _ => returned, of_none returned⟩

end Layered

theorem Effect.keeps_layered {before after : World} {work : Work} {rest stack : List Work}
    (effect : Effect before work rest after stack) (runtime : before.drive = .runtime)
    (sound : ∀ r, Sound (before.response r)) (layered : Layered (work :: rest)) : Layered stack := by
  obtain ⟨below, layered⟩ := layered
  cases effect with
  | refused | created => exact layered
  | @granted _ _ _ r asked x grant asks found granted =>
    have opened : work.isOpen = true := by
      cases work <;> first | rfl | cases asks
    have own := sound r
    rw [World.response_found found] at own
    exact (Layered.of_grant own granted).append (below opened)
  | armed hooks =>
    rw [hooks.2 runtime]
    exact ⟨fun _ => below rfl, layered⟩
  | scheduled hooks =>
    rw [hooks.2 runtime]
    exact ⟨by simp [Work.isOpen], layered⟩
  | disarmed _ hooks =>
    rw [hooks.2 runtime]
    exact layered
  | @fired _ id timer _ _ returns asks _ returned =>
    have opened : work.isOpen = true := by
      rcases asks with ⟨rfl | rfl, -⟩ | ⟨force, rfl⟩ <;> rfl
    refine Layered.append ?_ (below opened)
    have back : ∀ f ∈ returns, f.tends = false := by
      intro f member
      obtain ⟨result, rfl⟩ := returned f member
      rfl
    cases timer.callback with
    | expire r window generation =>
      refine ⟨fun _ => ?_, ⟨by simp [Work.isOpen], .of_none back⟩⟩
      simpa [Work.tends] using back
    | script body => exact ⟨fun _ => back, .of_none back⟩
  | unwound => exact layered.suffix ((List.tail_suffix _).trans (List.dropWhile_suffix _))
  | quiet pushed _ _ outer opens =>
    cases opened : work.isOpen with
    | true => exact (Layered.of_none fun f member => Work.tends_outer (outer f member).1).append (below opened)
    | false => exact .of_closed (opens opened) layered

theorem Effect.keeps_scheduled {before after : World} {work : Work} {rest stack : List Work}
    (effect : Effect before work rest after stack) (runtime : before.drive = .runtime) {id : Nat}
    (member : .fireInline id ∈ stack) : .fireInline id ∈ rest := by
  rcases effect.inner member rfl with old | left
  · exact old
  · exact absurd runtime left.fireInline

theorem Effect.keeps_turns {before after : World} {work : Work} {rest stack : List Work}
    (effect : Effect before work rest after stack) {id : Nat} (member : .timerDue id ∈ stack) : .timerDue id ∈ rest := by
  rcases effect.inner member rfl with old | left
  · exact old
  · exact left.not_timerDue.elim

theorem Effect.clock {before after : World} {work : Work} {rest stack : List Work}
    (effect : Effect before work rest after stack) : after.drive = before.drive ∧ after.now = before.now := by
  cases effect with
  | armed _ scheduled | scheduled _ scheduled => exact ⟨scheduled.drive, scheduled.now⟩
  | refused _ _ _ _ _ aside | granted _ _ _ _ _ aside | created _ _ aside | disarmed _ _ _ _ aside
  | fired _ _ _ _ _ aside | unwound _ _ aside | quiet _ _ _ _ _ _ _ aside => exact ⟨aside.drive, aside.now⟩

namespace Pool

/-- A runtime fires its timers by itself, and clients disarm only timers of their own. -/
def Unforced (w : World) (t : Thread) : Prop :=
  match t.stack with
  | .call (.fire _ _) :: _ => False
  | .call (.disarm id) :: _ => ∀ r window generation, w.timers.callback? id ≠ some (.expire r window generation)
  | _ => True

/-- One step under a runtime: a thread goes on, a client makes a call, the first ready task starts, or,
when all is done, the clock moves to a tick that is not past any at which a task wakes. -/
inductive Ticking : Pool → History → Pool → Prop where
  | run {w before t after work rest} (stack : t.stack = work :: rest) (allowed : Unforced w t) :
      Ticking ⟨w, before ++ t :: after⟩ (work.notes w) ⟨(step w t).1, before ++ (step w t).2 :: after⟩
  | call {w threads t action} (stack : t.stack = [.call action]) : Ticking ⟨w, threads⟩ [] ⟨w, threads ++ [t]⟩
  | start {w threads task rest} (ready : w.ready = task :: rest) :
      Ticking ⟨w, threads⟩ [] ⟨{ w with ready := rest }, threads ++ [task.thread]⟩
  | wake {w threads} (tick : Nat) (still : ∀ t ∈ threads, t.stack = []) (idle : w.ready = []) (later : w.now ≤ tick)
      (next : ∀ entry ∈ w.sleeping, tick ≤ entry.1) : Ticking ⟨w, threads⟩ [] ⟨w.wakeAt tick, threads⟩

/-- What holds of every pool that a runtime drives: no timer stands below work that a panic may drop, and a
timer's turn is a thread of its own. -/
structure Driven (p : Pool) : Prop where
  runtime : p.world.drive = .runtime
  layered : ∀ t ∈ p.threads, Layered t.stack
  scheduled : ∀ id, .fireInline id ∉ p.works
  turns : ∀ t ∈ p.threads, ∀ id, .timerDue id ∈ t.stack → t.stack = [.timerDue id]

variable {h notes : History} {p q : Pool}

theorem Driven.initial : Driven (start .runtime) := by
  refine ⟨rfl, ?_, ?_, ?_⟩
  · intro t member
    cases member
  · intro id member
    cases member
  · intro t member
    cases member

theorem Driven.turn_alone {w : World} {before after : List Thread} {t : Thread} {work : Work} {rest : List Work}
    (driven : Driven ⟨w, before ++ t :: after⟩) (stack : t.stack = work :: rest) {id : Nat} : .timerDue id ∉ rest := by
  intro member
  have alone := driven.turns t (List.mem_append_right _ (List.mem_cons_self ..)) id
    (by rw [stack]; exact List.mem_cons_of_mem _ member)
  rw [stack] at alone
  cases alone
  cases member

private theorem driven_spawn {w : World} {threads : List Thread} {t : Thread} (driven : Driven ⟨w, threads⟩)
    (quiet : ∀ f ∈ t.stack, f.tends = false ∧ ∀ id, f ≠ .fireInline id ∧ (f = .timerDue id → t.stack = [f]))
    (ready : List Task) : Driven ⟨{ w with ready }, threads ++ [t]⟩ := by
  refine ⟨driven.runtime, ?_, ?_, ?_⟩
  · intro other member
    rcases List.mem_append.mp member with old | new
    · exact driven.layered other old
    · rw [List.mem_singleton.mp new]
      exact .of_none fun f inside => (quiet f inside).1
  · intro id member
    simp only [works, List.flatMap_append, List.flatMap_singleton, List.mem_append] at member
    rcases member with old | new
    · exact driven.scheduled id old
    · exact ((quiet _ new).2 id).1 rfl
  · intro other member id turn
    rcases List.mem_append.mp member with old | new
    · exact driven.turns other old id turn
    · rw [List.mem_singleton.mp new] at turn ⊢
      exact ((quiet _ turn).2 id).2 rfl

theorem Ticking.keeps_driven (valid : Valid h p) (driven : Driven p) (next : Ticking p notes q) : Driven q := by
  cases next with
  | call stack => exact driven_spawn driven (by simp [stack, Work.tends]) _
  | @start w threads task rest ready =>
    apply driven_spawn driven
    cases task <;> simp [Task.thread, Work.tends]
  | wake tick => exact ⟨driven.runtime, driven.layered, driven.scheduled, driven.turns⟩
  | @run w before t after work rest stack allowed =>
    have effect := step_effect (w := w) stack
    have own := driven.layered t (List.mem_append_right _ (List.mem_cons_self ..))
    rw [stack] at own
    refine ⟨effect.clock.1.trans driven.runtime, ?_, ?_, ?_⟩
    · intro other member
      rcases List.mem_append.mp member with earlier | here
      · exact driven.layered other (List.mem_append_left _ earlier)
      · rcases List.mem_cons.mp here with rfl | later
        · exact effect.keeps_layered driven.runtime valid.sound own
        · exact driven.layered other (List.mem_append_right _ (List.mem_cons_of_mem _ later))
    · intro id member
      rcases mem_works_run.mp member with other | here
      · exact driven.scheduled id (mem_works_run.mpr (.inl other))
      · refine driven.scheduled id (mem_works_run.mpr (.inr ?_))
        rw [stack]
        exact List.mem_cons_of_mem _ (effect.keeps_scheduled driven.runtime here)
    · intro other member id turn
      rcases List.mem_append.mp member with earlier | here
      · exact driven.turns other (List.mem_append_left _ earlier) id turn
      · rcases List.mem_cons.mp here with rfl | later
        · exact absurd (effect.keeps_turns turn) (driven.turn_alone stack)
        · exact driven.turns other (List.mem_append_right _ (List.mem_cons_of_mem _ later)) id turn

/-- Under a runtime no panic comes out of a scheduler, so each of its steps is one of an orderly pool. -/
theorem Ticking.orderly (driven : Driven p) (next : Ticking p notes q) : Run Orderly p notes q := by
  cases next with
  | @call w threads t action stack => exact .step .refl (.spawn (.inl ⟨action, stack⟩))
  | @start w threads task rest ready =>
    have taken : Run Orderly ⟨w, threads⟩ ([] ++ []) ⟨{ w with ready := rest }, threads⟩ :=
      .step .refl (.wait w.now w.sleeping rest)
    exact taken.trans (.step .refl (.spawn (.inr (.inl ⟨task, rfl⟩))))
  | @wake w threads tick => exact .step .refl (.wait _ _ _)
  | @run w before t after work rest stack allowed =>
    have orderly : Orderly w t := by
      have own := driven.layered t (List.mem_append_right _ (List.mem_cons_self ..))
      rw [stack] at own
      unfold Orderly
      unfold Unforced at allowed
      rw [stack] at allowed ⊢
      split
      · next disarms =>
        cases disarms
        exact allowed
      · next panics =>
        cases panics
        intro f member
        exact own.1 rfl f ((List.takeWhile_sublist _).subset member)
      · trivial
    exact .step .refl (.run stack orderly)

theorem driven_of_ticking (run : Runs Ticking (start .runtime) h p) :
    Driven p ∧ Run Orderly (start .runtime) h p := by
  induction run with
  | refl => exact ⟨.initial, .refl⟩
  | step run next ih =>
    obtain ⟨driven, orderly⟩ := ih
    exact ⟨next.keeps_driven (.of_run orderly) driven, orderly.trans (next.orderly driven)⟩

end Pool
end Deferral.Simulation
