import Deferral.Proofs.ListenerOrder
import Deferral.Proofs.Tellings

/-! Counters, log and responses through a run, whatever its threads ask and in whatever order. A refusal is
counted and logged when it is made. A response that has ended is counted and logged once, or the work that
does so still stands on a stack. -/

namespace Deferral.Simulation

namespace Moment

def refuses (operation : Operation) (moment : Moment) : Bool :=
  moment.thread.stack.head?.any (·.refuses moment.world operation)

/-- How a call ends a response at a moment: the response, the kind of its outcome, and the number of its listeners. -/
def ending? (moment : Moment) : Option (Nat × OutcomeKind × Nat) :=
  moment.thread.stack.head?.bind (·.ending? moment.world)

end Moment

/-- The endings of responses in a chronicle, oldest first. -/
def conclusions (m : List Moment) : List (Nat × OutcomeKind × Nat) := m.filterMap Moment.ending?

theorem Thread.Fresh.untold {t : Thread} (fresh : t.Fresh) : ∀ f ∈ t.stack, f.isTelling = false := by
  intro f member
  rcases fresh.of_mem member with ⟨action, rfl⟩ | ⟨id, rfl | rfl | rfl | rfl | rfl⟩ <;> rfl

namespace Pool

/-- How counters, log and responses stand to what a chronicle tells. -/
structure Reconciled (m : List Moment) (p : Pool) : Prop where
  transitions : ∀ kind, p.world.metrics.count (.transitions kind) =
    (closings p.world.log.toList).countP (·.2.1 == kind)
  rejections : ∀ operation, p.world.metrics.count (.rejections operation) = m.countP (·.refuses operation)
  rejected : ∀ operation, p.world.log.toList.countP (·.rejects operation) = m.countP (·.refuses operation)
  closed : ∀ closing, (closings p.world.log.toList).count closing + p.works.countP (·.closes closing) =
    (conclusions m).count closing
  faithful : ∀ event, .record event ∈ p.works → event.opening?.isSome = true
  resolved : ∀ kind, p.world.resolved kind = (conclusions m).countP (·.2.1 == kind)
  outcome : ∀ r, ((conclusions m).filter (·.1 == r)).map (·.2.1) =
    (p.world.response r).outcome.toList.map Outcome.kind

namespace Reconciled

variable {m : List Moment} {p : Pool}

theorem initial (drive : Drive) : Reconciled [] (start drive) where
  transitions _ := rfl
  rejections _ := rfl
  rejected _ := rfl
  closed _ := rfl
  faithful _ member := by cases member
  resolved _ := rfl
  outcome _ := rfl

theorem spawn {w : World} {threads : List Thread} {t : Thread} (reconciled : Reconciled m ⟨w, threads⟩) (fresh : t.Fresh) :
    Reconciled m ⟨w, threads ++ [t]⟩ := by
  have works : (Pool.mk w (threads ++ [t])).works = (Pool.mk w threads).works ++ t.stack := by simp [Pool.works]
  obtain ⟨transitions, rejections, rejected, closed, faithful, resolved, outcome⟩ := reconciled
  refine ⟨transitions, rejections, rejected, fun closing => ?_, fun event member => ?_, resolved, outcome⟩
  · have none : t.stack.countP (·.closes closing) = 0 := by
      refine List.countP_eq_zero.mpr fun f member closes => ?_
      cases (fresh.untold f member).symm.trans (Work.telling_of_closes closes)
    rw [works, List.countP_append, none]
    exact closed closing
  · rw [works] at member
    rcases List.mem_append.mp member with old | new
    · exact faithful event old
    · cases fresh.untold _ new

theorem run {w : World} {before after : List Thread} {t : Thread} {work : Work} {rest : List Work}
    (reconciled : Reconciled m ⟨w, before ++ t :: after⟩) (stack : t.stack = work :: rest) (reported : Reported w t)
    (sound : ∀ s, Sound (w.response s)) :
    Reconciled (m ++ [⟨before.length, w, t⟩]) ⟨(step w t).1, before ++ (step w t).2 :: after⟩ := by
  have booking := step_booking (w := w) stack
  have telling := (step_effect (w := w) stack).telling
  have ends : conclusions (m ++ [⟨before.length, w, t⟩]) = conclusions m ++ (work.ending? w).toList := by
    cases ends : work.ending? w <;> simp [conclusions, Moment.ending?, stack, ends]
  have refuses (operation : Operation) : (m ++ [Moment.mk before.length w t]).countP (·.refuses operation) =
      m.countP (·.refuses operation) + if work.refuses w operation then 1 else 0 := by
    rw [List.countP_append]
    simp [Moment.refuses, stack, List.countP_cons]
  generalize (step w t).2 = thread at telling ⊢
  generalize (step w t).1 = w' at booking telling ⊢
  obtain ⟨transitions, rejections, rejected, closed, faithful, resolved, outcome⟩ := reconciled
  have others : (Pool.mk w' (before ++ after)).works = (Pool.mk w (before ++ after)).works := rfl
  have own : Booking.Faithful work := fun event same => faithful event (mem_works_here stack (by simp [same]))
  have logged := booking.closings own
  refine ⟨fun kind => ?_, fun operation => ?_, fun operation => ?_, fun closing => ?_, fun event member => ?_, fun kind => ?_,
    fun r => ?_⟩
  · rw [booking.transitions, logged, List.countP_append, transitions kind]
  · rw [booking.rejections, refuses, rejections operation]
  · rw [booking.rejected own, refuses, rejected operation]
  · have left := telling.countP_closes sound stack reported closing
    have before := closed closing
    have here : work.closing?.toList.count closing = if work.closes closing then 1 else 0 := by
      cases closes : work.closing? <;> simp [Work.closes, closes, List.count_singleton]
    rw [logged, ends, List.count_append, List.count_append, countP_works_run, others, here]
    rw [countP_works_run, stack, List.countP_cons] at before
    dsimp only at before
    omega
  · rcases mem_works_run.mp member with other | here
    · exact faithful event (mem_works_run.mpr (.inl other))
    · exact telling.faithful
        (fun event inside => faithful event (mem_works_here stack (List.mem_cons_of_mem _ inside))) event here
  · rw [ends, List.countP_append, telling.resolved sound kind, resolved kind]
  · rw [ends, List.filter_append, List.map_append, telling.outcome sound r, outcome r]

theorem of_chronicle {drive : Drive} (chronicle : Chronicle Reported (start drive) m p) : Reconciled m p := by
  induction chronicle with
  | refl => exact initial drive
  | move past next ih =>
    obtain ⟨h, valid⟩ := past.valid
    cases next with
    | run stack allowed => exact ih.run stack allowed valid.sound
    | spawn fresh =>
      rw [List.append_nil]
      exact ih.spawn fresh
    | wait now sleeping ready =>
      rw [List.append_nil]
      obtain ⟨transitions, rejections, rejected, closed, faithful, resolved, outcome⟩ := ih
      exact ⟨transitions, rejections, rejected, closed, faithful, resolved, outcome⟩

theorem unlogged (reconciled : Reconciled m p) {r : Nat} (unresolved : (p.world.response r).outcome = none) :
    (closings p.world.log.toList).filter (·.1 == r) = [] := by
  have none := reconciled.outcome r
  rw [unresolved, Option.toList_none, List.map_nil, List.map_eq_nil_iff, List.filter_eq_nil_iff] at none
  refine List.filter_eq_nil_iff.mpr fun closing logged own => ?_
  have counts := reconciled.closed closing
  have positive : 0 < (closings p.world.log.toList).count closing := List.count_pos_iff.mpr logged
  exact none closing (List.count_pos_iff.mp (by omega)) own

theorem logged (reconciled : Reconciled m p) (idle : p.works = []) : (closings p.world.log.toList).Perm (conclusions m) := by
  refine List.perm_iff_count.mpr fun closing => ?_
  rw [← reconciled.closed closing, idle, List.countP_nil, Nat.add_zero]

end Reconciled

variable {rule : World → Thread → Prop} {drive : Drive} {m past later : List Moment} {p : Pool} {moment : Moment}

theorem Chronicle.listed (chronicle : Chronicle rule (start drive) m p) (r : Nat) :
    ((p.world.response r).outcome = none → (p.world.response r).listeners = registered r m) ∧
      ((p.world.response r).outcome.isSome = true → (p.world.response r).listeners = []) := by
  induction chronicle with
  | refl => exact ⟨fun _ => rfl, fun _ => rfl⟩
  | move past next ih =>
    obtain ⟨kept, released⟩ := ih
    obtain ⟨h, valid⟩ := past.valid
    obtain ⟨notes, step⟩ := next.step
    cases next with
    | spawn fresh =>
      rw [List.append_nil]
      exact ⟨kept, released⟩
    | wait now sleeping ready =>
      rw [List.append_nil]
      exact ⟨kept, released⟩
    | run stack allowed =>
      have joins := (step_delivery stack).joins valid.sound released
      refine ⟨fun unresolved => ?_, joins.released⟩
      rw [joins.kept unresolved, registered_snoc stack, kept]
      refine Option.not_isSome_iff_eq_none.mp fun resolved => ?_
      have frozen := valid.outcome_frozen step resolved
      rw [unresolved] at frozen
      rw [← frozen] at resolved
      cases resolved

/-- The call that ends a response sets the outcome that the response has from then on, and finds the listeners
that were registered before. -/
theorem concluded (chronicle : Chronicle rule (start drive) (past ++ moment :: later) p)
    {ending : Nat × OutcomeKind × Nat} (ends : moment.ending? = some ending) :
    ∃ operation outcome rest, Ends ending.1 operation outcome rest moment ∧
      (p.world.response ending.1).outcome = some outcome ∧
      ending = (ending.1, outcome.kind, (registered ending.1 past).length) := by
  cases chronicle.cut with
  | @found w before t after work rest _ _ first stack allowed second =>
    have ends : work.ending? w = some ending := by simpa [Moment.ending?, stack] using ends
    obtain ⟨asked, x, g, operation, outcome, asks, found, granted, brings, kind, length⟩ := Work.ending?_eq_some ends
    obtain ⟨h, valid⟩ := first.valid
    have response := World.response_found found
    have sound := valid.sound ending.1
    rw [response] at sound
    have unresolved := ((valid.grants found granted).ends_work brings).1
    have none : x.outcome = none := by simpa [unresolved] using sound.agrees
    have published : ((step w t).1.response ending.1).outcome = some outcome := by
      have outcomes := (valid.grants found granted).outcome sound
      rw [none, brings] at outcomes
      rw [step_asks stack asks, World.serve_granted found granted,
        Delivery.granted_here (s := ending.1) found rfl]
      cases same : g.response.outcome with
      | none => simp [same] at outcomes
      | some other => simpa [same] using outcomes
    refine ⟨operation, outcome, rest, .granted stack asks brings found granted, ?_, ?_⟩
    · exact (first.move (.run stack allowed)).keeps_outcome second published
    · have kept := (first.listed ending.1).1
      rw [response] at kept
      rw [← kept none, length, kind]

end Pool
end Deferral.Simulation
