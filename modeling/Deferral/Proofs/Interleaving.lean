import Deferral.Proofs.Effects

/-! Runs of any number of threads in one world, each step of each thread in any order. A history tells
which requests were answered and which calls returned, oldest first; it is kept beside the world and
never read by it. -/

namespace Deferral.Simulation

/-- Threads that share a world. -/
structure Pool where
  world : World
  threads : List Thread := []

inductive Note where
  /-- A request was answered at a tick: refused, or granted together with the clock that it started. -/
  | served (tick r : Nat) (asked : Request) (verdict : Except TransitionError (Option Response.Arming))
  /-- A call that resolved a response has returned. -/
  | returned (r : Nat) (operation : Operation)

abbrev History := List Note

/-- What a history tells of the step that does some work. -/
def Work.notes (w : World) (work : Work) : History :=
  match work, work.request? with
  | .settled r operation, _ => [.returned r operation]
  | _, some (r, asked) =>
    match w.responses[r]? with
    | some x => [.served w.now r asked ((asked.grant r x).map (·.arms))]
    | none => []
  | _, none => []

theorem Work.notes_served {w : World} {work : Work} {r : Nat} {asked : Request} {x : Response String Listener}
    (asks : work.request? = some (r, asked)) (found : w.responses[r]? = some x) :
    work.notes w = [.served w.now r asked ((asked.grant r x).map (·.arms))] := by
  unfold notes
  split
  · cases asks
  · next same =>
    rw [asks] at same
    cases same
    simp [found]
  · next none =>
    rw [asks] at none
    cases none

theorem Work.notes_granted {w : World} {work : Work} {r : Nat} {asked : Request} {x : Response String Listener}
    {grant : Grant} (asks : work.request? = some (r, asked)) (found : w.responses[r]? = some x)
    (granted : asked.grant r x = .ok grant) : work.notes w = [.served w.now r asked (.ok grant.arms)] := by
  rw [notes_served asks found, granted]
  rfl

theorem Work.notes_unserved {w : World} {work : Work}
    (absent : ∀ r asked, work.request? = some (r, asked) → w.responses[r]? = none) (r : Nat) :
    ∀ tick asked verdict, .served tick r asked verdict ∉ work.notes w := by
  intro tick asked verdict
  unfold notes
  split
  · simp
  · next same => simp [absent _ _ same]
  · simp

/-- A thread before its first step: a client's call, a task of the runtime, or a timer that fires. -/
def Thread.Fresh (t : Thread) : Prop :=
  (∃ action, t.stack = [.call action]) ∨ (∃ task : Task, t.stack = task.thread.stack) ∨
    ∃ timer, t.stack = [.fireInline timer]

theorem Thread.Fresh.of_mem {t : Thread} (fresh : t.Fresh) {f : Work} (member : f ∈ t.stack) :
    (∃ action, f = .call action) ∨
      ∃ id, f = .timerDue id ∨ f = .enable id ∨ f = .readOutcome id ∨ f = .rouse id ∨ f = .fireInline id := by
  rcases fresh with ⟨action, stack⟩ | ⟨task, stack⟩ | ⟨timer, stack⟩ <;> rw [stack] at member
  · exact .inl ⟨action, List.mem_singleton.mp member⟩
  · cases task with
    | timer id => exact .inr ⟨id, .inl (List.mem_singleton.mp member)⟩
    | worker id => exact .inr ⟨id, .inr (.inr (.inr (.inl (List.mem_singleton.mp member))))⟩
    | waiter id =>
      simp only [Task.thread, List.mem_cons, List.not_mem_nil, or_false] at member
      exact .inr ⟨id, .inr (member.imp_right .inl)⟩
  · exact .inr ⟨timer, .inr (.inr (.inr (.inr (List.mem_singleton.mp member))))⟩

def World.response (w : World) (r : Nat) : Response String Listener := w.responses[r]?.getD {}

theorem World.response_found {w : World} {r : Nat} {x : Response String Listener} (found : w.responses[r]? = some x) :
    w.response r = x := by
  rw [response, found]
  rfl

theorem World.response_created {w w' : World} {count : Nat} {sink : FailureSink}
    (responses : w'.responses = w.responses ++ List.replicate count { sink := sink }) (r : Nat) :
    w'.response r = { w.response r with sink := (w'.response r).sink } := by
  simp only [World.response, responses]
  by_cases inside : r < w.responses.length
  · simp [List.getElem?_append_left inside]
  · rw [List.getElem?_append_right (by omega), List.getElem?_eq_none (l := w.responses) (by omega)]
    by_cases made : r - w.responses.length < count <;> simp [made]

namespace Pool

def start (drive : Drive) : Pool := { world := { drive } }

def works (p : Pool) : List Work := p.threads.flatMap (·.stack)

/-- One step: a thread goes on if the rule lets it, a thread starts, or time passes and tasks wake. -/
inductive Step (rule : World → Thread → Prop) : Pool → History → Pool → Prop where
  | run {w before t after work rest} (stack : t.stack = work :: rest) (allowed : rule w t) :
      Step rule ⟨w, before ++ t :: after⟩ (work.notes w) ⟨(step w t).1, before ++ (step w t).2 :: after⟩
  | spawn {w threads t} (fresh : t.Fresh) : Step rule ⟨w, threads⟩ [] ⟨w, threads ++ [t]⟩
  | wait {w threads} (now : Nat) (sleeping : List (Nat × Task)) (ready : List Task) :
      Step rule ⟨w, threads⟩ [] ⟨{ w with now, sleeping, ready }, threads⟩

/-- Runs of any length of some step, with all that its steps told. -/
inductive Runs (step : Pool → History → Pool → Prop) (p : Pool) : History → Pool → Prop where
  | refl : Runs step p [] p
  | step {h q notes last} (run : Runs step p h q) (next : step q notes last) : Runs step p (h ++ notes) last

abbrev Run (rule : World → Thread → Prop) := Runs (Step rule)

namespace Runs

variable {step : Pool → History → Pool → Prop} {p q last : Pool} {h notes : History}

theorem trans (first : Runs step p h q) (second : Runs step q notes last) : Runs step p (h ++ notes) last := by
  induction second with
  | refl => rw [List.append_nil]; exact first
  | step run next ih => rw [← List.append_assoc]; exact .step ih next

theorem goes {rule : World → Thread → Prop} (before after : List Thread) {w : World} {t : Thread} {work : Work}
    {rest : List Work} (run : Run rule p h ⟨w, before ++ t :: after⟩) (stack : t.stack = work :: rest)
    (allowed : rule w t) :
    Run rule p (h ++ work.notes w) ⟨(Simulation.step w t).1, before ++ (Simulation.step w t).2 :: after⟩ :=
  .step run (.run stack allowed)

end Runs

variable {rule : World → Thread → Prop} {p q : Pool} {notes : History}

theorem mem_works_run {w : World} {before after : List Thread} {t : Thread} {work : Work} :
    work ∈ (Pool.mk w (before ++ t :: after)).works ↔
      work ∈ (Pool.mk w (before ++ after)).works ∨ work ∈ t.stack := by
  simp only [works, List.flatMap_append, List.flatMap_cons, List.mem_append]
  exact ⟨fun | .inl a => .inl (.inl a) | .inr (.inl a) => .inr a | .inr (.inr a) => .inl (.inr a),
    fun | .inl (.inl a) => .inl a | .inl (.inr a) => .inr (.inr a) | .inr a => .inr (.inl a)⟩

theorem mem_works_here {w : World} {before after : List Thread} {t : Thread} {stack : List Work} {f : Work}
    (same : t.stack = stack) (member : f ∈ stack) : f ∈ (Pool.mk w (before ++ t :: after)).works := by
  apply mem_works_run.mpr
  right
  rw [same]
  exact member

theorem countP_works_run {w : World} {before after : List Thread} {t : Thread} (counted : Work → Bool) :
    (Pool.mk w (before ++ t :: after)).works.countP counted =
      (Pool.mk w (before ++ after)).works.countP counted + t.stack.countP counted := by
  simp only [works, List.flatMap_append, List.flatMap_cons, List.countP_append]
  omega

/-- What a step does to one response: it grants a request, or all but the sink of a new response is as
before. -/
inductive Touches (p : Pool) (r : Nat) (notes : History) (q : Pool) : Prop where
  | granted {asked x grant} (asks : ∃ work ∈ p.works, work.request? = some (r, asked))
      (found : p.world.responses[r]? = some x) (granted : asked.grant r x = .ok grant)
      (after : q.world.responses[r]? = some grant.response)
      (told : notes = [.served p.world.now r asked (.ok grant.arms)])
  | kept (same : q.world.response r = { p.world.response r with sink := (q.world.response r).sink })
      (stays : ∀ x, p.world.responses[r]? = some x → q.world.responses[r]? = some x)
      (untold : ∀ tick asked arms, .served tick r asked (.ok arms) ∉ notes)

private theorem touches_same {w w' : World} {r : Nat} {threads threads' : List Thread} {notes : History}
    (same : w'.responses[r]? = w.responses[r]?) (untold : ∀ tick asked arms, .served tick r asked (.ok arms) ∉ notes) :
    Touches ⟨w, threads⟩ r notes ⟨w', threads'⟩ :=
  .kept (by simp [World.response, same]) (fun _ found => same.trans found) untold

theorem Step.touches (step : Step rule p notes q) (r : Nat) : Touches p r notes q := by
  cases step with
  | spawn fresh => exact touches_same rfl (by simp)
  | wait now sleeping ready => exact touches_same rfl (by simp)
  | @run w before t after work rest stack allowed =>
    have effect := step_effect (w := w) stack
    generalize (step w t).2 = thread at effect ⊢
    generalize (step w t).1 = w' at effect ⊢
    generalize thread.stack = stack' at effect
    cases effect with
    | @refused _ _ _ s asked x error asks found refused responses =>
      apply touches_same (by rw [responses])
      simp [Work.notes_served asks found, refused, Except.map]
    | @granted _ _ _ s asked x grant asks found granted responses =>
      have told := Work.notes_granted asks found granted
      by_cases same : s = r
      · subst same
        refine .granted ⟨work, ?_, asks⟩ found granted ?_ told
        · exact mem_works_here stack (List.mem_cons_self ..)
        · obtain ⟨inside, -⟩ := List.getElem?_eq_some_iff.mp found
          simp [responses, inside]
      · refine touches_same (by rw [responses, List.getElem?_set_ne same]) ?_
        simp [told, Ne.symm same]
    | @created _ _ count sink responses =>
      refine .kept ?_ ?_ (fun _ _ _ => Work.notes_unserved (by simp [Work.request?, Action.request?]) r _ _ _)
      · exact World.response_created responses r
      · intro x found
        obtain ⟨inside, -⟩ := List.getElem?_eq_some_iff.mp found
        rw [responses, List.getElem?_append_left inside]
        exact found
    | armed _ scheduled =>
      exact touches_same (by rw [scheduled.responses]) fun _ _ _ =>
        Work.notes_unserved (by simp [Work.request?]) r _ _ _
    | scheduled _ scheduled =>
      exact touches_same (by rw [scheduled.responses]) fun _ _ _ =>
        Work.notes_unserved (by simp [Work.request?, Action.request?]) r _ _ _
    | disarmed asks _ responses =>
      refine touches_same (by rw [responses]) fun _ _ _ => Work.notes_unserved ?_ r _ _ _
      rcases asks with rfl | rfl <;> simp [Work.request?, Action.request?]
    | fired asks _ _ responses =>
      refine touches_same (by rw [responses]) fun _ _ _ => Work.notes_unserved ?_ r _ _ _
      rcases asks with ⟨rfl | rfl, -⟩ | ⟨force, rfl⟩ <;> simp [Work.request?, Action.request?]
    | unwound responses =>
      exact touches_same (by rw [responses]) fun _ _ _ =>
        Work.notes_unserved (by simp [Work.request?, Action.request?]) r _ _ _
    | quiet pushed absent _ _ _ responses =>
      exact touches_same (by rw [responses]) fun _ _ _ => Work.notes_unserved absent r _ _ _

theorem Step.inner (step : Step rule p notes q) {f : Work} (member : f ∈ q.works) (inner : f.isInner = true) :
    f ∈ p.works ∨ (∃ work ∈ p.works, Effect.Left p.world work f) ∨ ∃ id, f = .fireInline id ∨ f = .timerDue id := by
  cases step with
  | wait => exact .inl member
  | @spawn w threads t fresh =>
    simp only [works, List.flatMap_append, List.flatMap_singleton, List.mem_append] at member
    rcases member with old | new
    · exact .inl old
    · refine .inr (.inr ?_)
      rcases fresh with ⟨action, stack⟩ | ⟨task, stack⟩ | ⟨timer, stack⟩ <;> rw [stack] at new
      · rw [List.mem_singleton.mp new] at inner
        cases inner
      · cases task with
        | timer id => exact ⟨id, .inr (List.mem_singleton.mp new)⟩
        | waiter id =>
          simp only [Task.thread, List.mem_cons, List.not_mem_nil, or_false] at new
          rcases new with rfl | rfl <;> cases inner
        | worker id =>
          rw [List.mem_singleton.mp new] at inner
          cases inner
      · exact ⟨timer, .inl (List.mem_singleton.mp new)⟩
  | @run w before t after work rest stack allowed =>
    rcases mem_works_run.mp member with other | here
    · exact .inl (mem_works_run.mpr (.inl other))
    · rcases (step_effect (w := w) stack).inner here inner with old | left
      · exact .inl (mem_works_here stack (List.mem_cons_of_mem _ old))
      · exact .inr (.inl ⟨work, mem_works_here stack (List.mem_cons_self ..), left⟩)

end Pool
end Deferral.Simulation
