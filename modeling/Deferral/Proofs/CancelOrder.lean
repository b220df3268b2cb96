import Deferral.Proofs.OwnListeners

/-! Cancelling everything, in whatever order the registry is gone through. All that was tracked ends, and the
count is of what the call itself ended; and where listeners keep to their own responses, the order shows
nowhere. -/

namespace Deferral.Simulation

/-- No hook that waits for a timer to be disarmed acts on a response. A runtime has no hooks. -/
def World.Hushed (w : World) : Prop := w.drive = .runtime ∨ ∀ body ∈ w.cancelHooks, ∀ r, Action.allKeepTo r body = true

theorem World.disarm_hushed {w : World} {t : Thread} (hushed : w.Hushed) (id r : Nat) :
    (w.disarm t id).1.responses = w.responses ∧ (w.disarm t id).1.registry = w.registry ∧
      (w.disarm t id).1.timers = w.timers.disarm id ∧ (w.disarm t id).1.Hushed ∧
      ∃ pushed, (w.disarm t id).2.stack = pushed ++ t.stack ∧ ∀ f ∈ pushed, f.keepsTo r = true := by
  cases drive : w.drive with
  | runtime =>
    have same : (w.disarm t id).1 = if w.timers.isArmed id then
        { w with timers := w.timers.disarm id }.record (.timerCancelled id) else { w with timers := w.timers.disarm id } := by
      simp [disarm, drive]
    have pushed : (w.disarm t id).2.stack = [] ++ t.stack := by simp [disarm, drive, Thread.answer]
    rw [same]
    refine ⟨?_, ?_, ?_, ?_, [], pushed, by simp⟩
    · split <;> rfl
    · split <;> rfl
    · split <;> rfl
    · left
      split <;> exact drive
  | manual inlineZero =>
    have hooks : ∀ body ∈ w.cancelHooks, ∀ r, Action.allKeepTo r body = true := by
      rcases hushed with runtime | hooks
      · cases drive.symm.trans runtime
      · exact hooks
    simp only [disarm, drive, takeCancelHook, emit]
    cases waiting : w.cancelHooks with
    | nil => exact ⟨rfl, rfl, rfl, .inr (by simp), [.answer _], rfl, by simp [Work.keepsTo]⟩
    | cons body rest =>
      rw [waiting] at hooks
      refine ⟨rfl, rfl, rfl, .inr fun other member => hooks other (List.mem_cons_of_mem _ member),
        [.script .onCancel body, .answer _], rfl, ?_⟩
      have kept := hooks body (List.mem_cons_self ..) r
      simp [Work.keepsTo, kept]

namespace Pool

variable {drive : Drive} {m n others : List Moment} {w₀ w v v' : World} {t u u' : Thread}

/-- What has become of a world while some of its responses were cancelled and the timers of some disarmed. -/
structure Withdrawn (w₀ : World) (done disarmed : List Nat) (w : World) : Prop where
  cancelled : ∀ r ∈ done, (w.response r).outcome = some .cancelled
  others : ∀ r, r ∉ done → w.response r = { w₀.response r with sink := (w.response r).sink }
  table : ∀ r, r ∉ done → (r ∈ w.registry.ids ↔ r ∈ w₀.registry.ids)
  armed : ∀ id, w.timers.isArmed id = (w₀.timers.isArmed id && !disarmed.any fun r => (w₀.response r).timer == some id)
  hushed : w.Hushed

namespace Withdrawn

variable {done disarmed : List Nat}

theorem same (withdrawn : Withdrawn w₀ done disarmed w) (responses : v.responses = w.responses)
    (table : ∀ r, r ∈ v.registry.ids ↔ r ∈ w.registry.ids) (timers : v.timers = w.timers) (drive : v.drive = w.drive)
    (hooks : v.cancelHooks = w.cancelHooks) : Withdrawn w₀ done disarmed v := by
  have response (r : Nat) : v.response r = w.response r := by rw [World.response, responses, World.response]
  refine ⟨fun r member => ?_, fun r apart => ?_, fun r apart => ?_, fun id => ?_, ?_⟩
  · rw [response]
    exact withdrawn.cancelled r member
  · rw [response]
    exact withdrawn.others r apart
  · exact (table r).trans (withdrawn.table r apart)
  · rw [timers]
    exact withdrawn.armed id
  · unfold World.Hushed
    rw [drive, hooks]
    exact withdrawn.hushed

theorem kept {r : Nat} (withdrawn : Withdrawn w₀ done disarmed w) (member : r ∈ done) (kept : KeptTo r w v)
    (frozen : ∀ s, (w.response s).outcome = some .cancelled → (v.response s).outcome = some .cancelled) :
    Withdrawn w₀ done disarmed v := by
  have apart {s : Nat} (other : s ∉ done) : s ≠ r := fun same => other (same ▸ member)
  refine ⟨fun s cancelled => frozen s (withdrawn.cancelled s cancelled), fun s other => ?_, fun s other => ?_, fun id => ?_, ?_⟩
  · rw [kept.others s (apart other), withdrawn.others s other]
  · exact (kept.table s (apart other)).trans (withdrawn.table s other)
  · rw [kept.timers]
    exact withdrawn.armed id
  · unfold World.Hushed
    rw [kept.drive, kept.hooks]
    exact withdrawn.hushed

theorem cancel {r : Nat} {x : Response String Listener} (withdrawn : Withdrawn w₀ done disarmed w) (next : r ∉ done)
    (found : w.responses[r]? = some x) : Withdrawn w₀ (done ++ [r]) disarmed (w.setResponse r (x.resolved .cancelled)) := by
  have elsewhere {s : Nat} (apart : s ≠ r) : (w.setResponse r (x.resolved .cancelled)).response s = w.response s := by
    simp only [World.response, World.setResponse, List.getElem?_set_ne (Ne.symm apart)]
  have outside {s : Nat} (other : s ∉ done ++ [r]) : s ∉ done ∧ s ≠ r := by simpa using other
  refine ⟨fun s member => ?_, fun s other => ?_, fun s other => withdrawn.table s (outside other).1, withdrawn.armed, withdrawn.hushed⟩
  · rcases List.mem_append.mp member with old | new
    · rw [elsewhere fun same => next (same ▸ old)]
      exact withdrawn.cancelled s old
    · rw [List.mem_singleton.mp new, response_cancelled found]
      rfl
  · rw [elsewhere (outside other).2]
    exact withdrawn.others s (outside other).1

theorem disarm {r id : Nat} (withdrawn : Withdrawn w₀ done disarmed w) (timer : (w₀.response r).timer = some id)
    (responses : v.responses = w.responses) (registry : v.registry = w.registry) (timers : v.timers = w.timers.disarm id)
    (hushed : v.Hushed) : Withdrawn w₀ done (disarmed ++ [r]) v := by
  have response (s : Nat) : v.response s = w.response s := by rw [World.response, responses, World.response]
  refine ⟨fun s member => ?_, fun s other => ?_, fun s other => ?_, fun other => ?_, hushed⟩
  · rw [response]
    exact withdrawn.cancelled s member
  · rw [response]
    exact withdrawn.others s other
  · rw [registry]
    exact withdrawn.table s other
  · rw [timers, Timers.isArmed_disarm, withdrawn.armed]
    by_cases same : id = other
    · simp [timer, same]
    · have apart : (id == other) = false := by simpa using same
      simp [timer, bne, apart]

theorem undisarmed {r : Nat} (withdrawn : Withdrawn w₀ done disarmed w) (none : (w₀.response r).timer = none) :
    Withdrawn w₀ done (disarmed ++ [r]) w := by
  obtain ⟨cancelled, others, table, armed, hushed⟩ := withdrawn
  refine ⟨cancelled, others, table, fun id => ?_, hushed⟩
  rw [armed]
  simp [none]

end Withdrawn

structure Tame (w : World) : Prop where
  unresolved : ∀ r ∈ w.registry.ids, (w.response r).state.isTerminal = false
  distinct : w.registry.ids.Nodup
  own : ∀ r ∈ w.registry.ids, ∀ listener ∈ (w.response r).listeners, listener.2.keepsTo r = true

/-- Where a call that cancels everything is while each listener keeps to its own response. -/
inductive InTurn (w₀ w : World) (t : Thread) : Prop where
  | called (stack : t.stack = [.call .cancelAll]) (all : w.registry.ids.Perm w₀.registry.ids) (withdrawn : Withdrawn w₀ [] [] w)
  | each {done pending} (stack : t.stack = [.cancelEach pending done.length])
      (all : (done ++ pending).Perm w₀.registry.ids) (withdrawn : Withdrawn w₀ done done w)
  | cancel {r done pending} (stack : t.stack = [.call (.cancel r), .countCancelled pending done.length])
      (all : (done ++ r :: pending).Perm w₀.registry.ids) (withdrawn : Withdrawn w₀ done done w)
  | disarming {r id done pending above}
      (stack : t.stack = .disarm id :: (above ++ [.settled r .cancel, .countCancelled pending done.length]))
      (timer : (w₀.response r).timer = some id) (keeps : ∀ f ∈ above, f.keepsTo r = true)
      (all : (done ++ r :: pending).Perm w₀.registry.ids) (withdrawn : Withdrawn w₀ (done ++ [r]) done w)
  | inside {r done pending above} (stack : t.stack = above ++ [.settled r .cancel, .countCancelled pending done.length])
      (keeps : ∀ f ∈ above, f.keepsTo r = true) (all : (done ++ r :: pending).Perm w₀.registry.ids)
      (withdrawn : Withdrawn w₀ (done ++ [r]) (done ++ [r]) w)
  | back {r done pending} (stack : t.stack = [.countCancelled pending done.length]) (succeeded : t.result = .done)
      (all : (done ++ r :: pending).Perm w₀.registry.ids) (withdrawn : Withdrawn w₀ (done ++ [r]) (done ++ [r]) w)
  | returned {done} (stack : t.stack = []) (counted : t.result = .number done.length) (all : done.Perm w₀.registry.ids)
      (withdrawn : Withdrawn w₀ done done w)

namespace InTurn

theorem pause {ids : List Nat} (turn : InTurn w₀ w t) (now : Nat) (sleeping : List (Nat × Task)) (ready : List Task)
    (places : ids.Perm w.registry.ids) : InTurn w₀ { w with now, sleeping, ready, registry := ⟨ids⟩ } t := by
  have aside {done disarmed : List Nat} (withdrawn : Withdrawn w₀ done disarmed w) :
      Withdrawn w₀ done disarmed { w with now, sleeping, ready, registry := ⟨ids⟩ } :=
    withdrawn.same rfl (fun _ => places.mem_iff) rfl rfl rfl
  cases turn with
  | called stack all withdrawn => exact .called stack (places.trans all) (aside withdrawn)
  | each stack all withdrawn => exact .each stack all (aside withdrawn)
  | cancel stack all withdrawn => exact .cancel stack all (aside withdrawn)
  | disarming stack timer keeps all withdrawn => exact .disarming stack timer keeps all (aside withdrawn)
  | inside stack keeps all withdrawn => exact .inside stack keeps all (aside withdrawn)
  | back stack succeeded all withdrawn => exact .back stack succeeded all (aside withdrawn)
  | returned stack counted all withdrawn => exact .returned stack counted all (aside withdrawn)

section Phases

variable {r : Nat} {done pending : List Nat} {above : List Work}

theorem cancels {x : Response String Listener} (tame : Tame w₀)
    (stack : t.stack = [.call (.cancel r), .countCancelled pending done.length])
    (all : (done ++ r :: pending).Perm w₀.registry.ids) (withdrawn : Withdrawn w₀ done done w)
    (found : w.responses[r]? = some x) : InTurn w₀ (step w t).1 (step w t).2 := by
  have member : r ∈ w₀.registry.ids := all.mem_iff.mp (by simp)
  have next : r ∉ done := by
    have apart := all.nodup_iff.mpr tame.distinct
    rw [List.nodup_append] at apart
    exact fun here => apart.2.2 r here r (List.mem_cons_self ..) rfl
  have before := withdrawn.others r next
  rw [World.response_found found] at before
  have keeps : ∀ f ∈ [.notify r, .announce r .cancelled x.listeners.length] ++ notices r .cancelled x.listeners,
      f.keepsTo r = true := by
    intro f among
    simp only [List.mem_append, List.mem_cons, List.not_mem_nil, or_false, notices, List.mem_map] at among
    rcases among with (rfl | rfl) | ⟨listener, kept, rfl⟩
    · rfl
    · rfl
    · rw [before] at kept
      simpa [Work.keepsTo] using tame.own r member listener kept
  have unresolved : x.state.isTerminal = false := by
    rw [before]
    exact tame.unresolved r member
  have clock : x.timer = (w₀.response r).timer := congrArg (·.timer) before
  have cancelled := withdrawn.cancel next found
  rw [step_cancel_granted stack found unresolved, clock]
  cases timer : (w₀.response r).timer with
  | none => exact .inside rfl keeps all (cancelled.undisarmed timer)
  | some id => exact .disarming rfl timer keeps all cancelled

theorem disarms {id : Nat} (stack : t.stack = .disarm id :: (above ++ [.settled r .cancel, .countCancelled pending done.length]))
    (timer : (w₀.response r).timer = some id) (keeps : ∀ f ∈ above, f.keepsTo r = true)
    (all : (done ++ r :: pending).Perm w₀.registry.ids) (withdrawn : Withdrawn w₀ (done ++ [r]) done w) :
    InTurn w₀ (step w t).1 (step w t).2 := by
  have goes : step w t = w.disarm { t with stack := above ++ [.settled r .cancel, .countCancelled pending done.length] } id := by
    simp only [step, stack, World.perform]
  obtain ⟨responses, registry, timers, hushed, pushed, left, kept⟩ := World.disarm_hushed withdrawn.hushed id r
    (t := { t with stack := above ++ [.settled r .cancel, .countCancelled pending done.length] })
  have own : ∀ f ∈ pushed ++ above, f.keepsTo r = true := fun f among =>
    (List.mem_append.mp among).elim (kept f) (keeps f)
  rw [goes]
  refine .inside ?_ own all (withdrawn.disarm timer responses registry timers hushed)
  rw [left, List.append_assoc]

theorem listens {before after : List Thread} {work : Work} (upheld : Upheld m ⟨w, before ++ t :: after⟩) (allowed : Tracking w t)
    (stack : t.stack = work :: (above ++ [.settled r .cancel, .countCancelled pending done.length]))
    (keeps : ∀ f ∈ work :: above, f.keepsTo r = true) (all : (done ++ r :: pending).Perm w₀.registry.ids)
    (withdrawn : Withdrawn w₀ (done ++ [r]) (done ++ [r]) w) : InTurn w₀ (step w t).1 (step w t).2 := by
  have lasting : Lasting w (step w t).1 := upheld.lasting (.run stack allowed)
  have ended (s : Nat) (cancelled : (w.response s).outcome = some .cancelled) : (w.response s).state.isTerminal = true := by
    apply (upheld.outcome_iff s).mp
    rw [cancelled]
    rfl
  have terminal := ended r (withdrawn.cancelled r (by simp))
  have kept := step_keepsTo stack (keeps work (List.mem_cons_self ..)) upheld.sound terminal
  obtain ⟨above, left, keeps⟩ := step_above stack (allowed.1.caught stack) rfl rfl keeps (upheld.sound r) terminal
  refine .inside left keeps all (withdrawn.kept (by simp) kept fun s cancelled => ?_)
  rw [(lasting s (ended s cancelled)).2]
  exact cancelled

end Phases

theorem run {before after : List Thread} {work : Work} {rest : List Work} (turn : InTurn w₀ w t) (tame : Tame w₀)
    (upheld : Upheld m ⟨w, before ++ t :: after⟩) (stack : t.stack = work :: rest) (allowed : Tracking w t)
    (made : ∀ r ∈ w₀.registry.ids, ∃ x, w.responses[r]? = some x) : InTurn w₀ (step w t).1 (step w t).2 := by
  cases turn with
  | called now all withdrawn =>
    have begins : ([] ++ w.registry.ids).Perm w₀.registry.ids := all
    rw [step_cancelAll now]
    exact .each (by rfl) begins withdrawn
  | @each done pending now all withdrawn =>
    cases pending with
    | nil =>
      rw [step_cancelEach_nil now]
      refine .returned rfl rfl (by simpa using all) ?_
      split
      · exact withdrawn.same rfl (fun _ => .rfl) rfl rfl rfl
      · exact withdrawn
    | cons r pending =>
      rw [step_cancelEach_cons now]
      exact .cancel rfl all withdrawn
  | @cancel r done pending now all withdrawn =>
    obtain ⟨x, found⟩ := made r (all.mem_iff.mp (by simp))
    exact cancels tame now all withdrawn found
  | disarming now timer keeps all withdrawn => exact disarms now timer keeps all withdrawn
  | @inside r done pending above now keeps all withdrawn =>
    cases above with
    | nil =>
      rw [step_returns now rfl]
      exact .back rfl rfl all withdrawn
    | cons first above => exact listens upheld allowed now keeps all withdrawn
  | @back r done pending now succeeded all withdrawn =>
    have onward : ((done ++ [r]) ++ pending).Perm w₀.registry.ids := by simpa using all
    rw [step_countCancelled now succeeded]
    refine .each ?_ onward withdrawn
    rw [List.length_append]
    rfl
  | returned now => cases stack.symm.trans now

end InTurn

/-- What a call that cancels everything leaves where each listener keeps to its own response. -/
structure OrderFree (w v : World) (result : Result) : Prop where
  counted : result = .number w.registry.ids.length
  cancelled : ∀ r ∈ w.registry.ids, (v.response r).state = .cancelled ∧ (v.response r).outcome = some .cancelled
  others : ∀ r, r ∉ w.registry.ids → v.response r = { w.response r with sink := (v.response r).sink }
  table : v.registry.ids = []
  armed : ∀ id, v.timers.isArmed id =
    (w.timers.isArmed id && !w.registry.ids.any fun r => (w.response r).timer == some id)

theorem Solo.order_free {idles : List Thread} (upheld : Upheld m ⟨w, idles⟩) (idle : ∀ u ∈ idles, u.stack = [])
    (stack : t.stack = [.call .cancelAll]) (solo : Solo Tracking idles.length w t n v u) (returned : u.stack = [])
    (own : ∀ r ∈ w.registry.ids, ∀ listener ∈ (w.response r).listeners, listener.2.keepsTo r = true) (hushed : w.Hushed) :
    OrderFree w v u.result := by
  have begun : Upheld (m ++ []) ⟨w, idles ++ [t]⟩ := upheld.move (.spawn (.inl ⟨_, stack⟩))
  have tame : Tame w := ⟨fun r member => (upheld.table_of_idle idle member).1, (upheld.tracked 0).distinct, own⟩
  have turn : InTurn w v u := by
    clear returned
    induction solo with
    | refl => exact .called stack (.refl _) ⟨by simp, fun _ _ => rfl, fun _ _ => .rfl, by simp, hushed⟩
    | pause past now sleeping ready places ih => exact ih.pause now sleeping ready places
    | @run n v u work rest past top allowed ih =>
      have run : Reordered Tracking ⟨w, idles ++ [t]⟩ n ⟨v, idles ++ [u]⟩ := past.reordered
      refine ih.run tame (begun.reordered run) top allowed fun r member => ?_
      obtain ⟨x, found⟩ := (upheld.table_of_idle idle member).2
      exact run.found found
  have all := solo.cancelled_all upheld idle stack returned
  have run : Reordered Tracking ⟨w, idles ++ [t]⟩ n ⟨v, idles ++ [u]⟩ := solo.reordered
  have later := begun.reordered run
  cases turn with
  | called now | each now | cancel now | disarming now | back now => cases returned.symm.trans now
  | inside now =>
    rw [returned] at now
    simp at now
  | @returned done now counted each withdrawn =>
    refine ⟨by rw [counted, each.length_eq], fun r member => ?_, fun r apart => ?_, ?_, fun id => ?_⟩
    · have published := withdrawn.cancelled r (each.mem_iff.mpr member)
      exact ⟨later.state_of_outcome published, published⟩
    · exact withdrawn.others r fun here => apart (each.mem_iff.mp here)
    · refine List.eq_nil_iff_forall_not_mem.mpr fun r member => ?_
      have unresolved := ((all.table r).mp member).2
      have apart : r ∉ w.registry.ids := fun here => by
        rw [all.ended r here] at unresolved
        cases unresolved
      exact apart ((withdrawn.table r fun here => apart (each.mem_iff.mp here)).mp member)
    · rw [withdrawn.armed, each.any_eq]

structure SameEnd (v : World) (result : Result) (v' : World) (result' : Result) : Prop where
  counted : result' = result
  responses : ∀ r, (v'.response r).state = (v.response r).state ∧ (v'.response r).outcome = (v.response r).outcome
  table : v'.registry = v.registry
  armed : ∀ id, v'.timers.isArmed id = v.timers.isArmed id

theorem OrderFree.same {result result' : Result} (first : OrderFree w v result) (second : OrderFree w v' result') :
    SameEnd v result v' result' := by
  refine ⟨second.counted.trans first.counted.symm, fun r => ?_, ?_, fun id => (second.armed id).trans (first.armed id).symm⟩
  · by_cases member : r ∈ w.registry.ids
    · obtain ⟨state, outcome⟩ := first.cancelled r member
      obtain ⟨state', outcome'⟩ := second.cancelled r member
      exact ⟨state'.trans state.symm, outcome'.trans outcome.symm⟩
    · rw [second.others r member, first.others r member]
      exact ⟨rfl, rfl⟩
  · exact congrArg Registry.mk (second.table.trans first.table.symm)

/-- A client cancels everything while no other call is in progress. Whatever the order of the table, and
whatever listeners do meanwhile, all that was tracked is resolved when the call returns; it returns how many
of these its own cancels moved to their end, and these only; responses that were resolved before stay as they
were; and the table holds just what was registered during the call and is still unresolved. Where each
listener of a tracked response keeps to that response, and no hook acts on one, the count, the responses, the
table and the armed timers come to the same in every order. -/
theorem all_cancelled {idles : List Thread} (past : Reordered Tracking (start drive) m ⟨w, idles⟩)
    (idle : ∀ u ∈ idles, u.stack = []) (stack : t.stack = [.call .cancelAll])
    (solo : Solo Tracking idles.length w t n v u) (returned : u.stack = []) :
    CancelledAll w n v u.result ∧
    ((∀ r ∈ w.registry.ids, ∀ listener ∈ (w.response r).listeners, listener.2.keepsTo r = true) → w.Hushed →
      OrderFree w v u.result ∧
      ∀ n' v' u', Solo Tracking idles.length w t n' v' u' → u'.stack = [] → SameEnd v u.result v' u'.result) := by
  have upheld := Upheld.of_reordered past
  refine ⟨solo.cancelled_all upheld idle stack returned, fun own hushed => ?_⟩
  have free := solo.order_free upheld idle stack returned own hushed
  refine ⟨free, fun n' v' u' other returned' => ?_⟩
  exact free.same (other.order_free upheld idle stack returned' own hushed)

/-- A listener of the first of two tracked responses cancels the second and registers a third; and where the
listener keeps to its response instead, the two have changed places when they are cancelled. -/
theorem all_cancelled_reentrant :
    (∃ m w idles n v u, Reordered Tracking (start .runtime) m ⟨w, idles⟩ ∧ w.registry.ids = [0, 1] ∧
      Solo Tracking idles.length w { stack := [.call .cancelAll] } n v u ∧ CancelledAll w n v u.result ∧
      u.result = .number 1 ∧ v.registry.ids = [2]) ∧
    ∃ m w idles n v u, Reordered Tracking (start .runtime) m ⟨w, idles⟩ ∧ w.registry.ids = [0, 1] ∧
      Solo Tracking idles.length w { stack := [.call .cancelAll] } n v u ∧ OrderFree w v u.result ∧
      w.timers.isArmed 1 = true ∧ v.timers.isArmed 1 = false := by
  have idle (threads : List Thread) (all : threads.all (·.stack.isEmpty) = true) : ∀ u ∈ threads, u.stack = [] := by
    intro u member
    simpa using List.all_eq_true.mp all u member
  have begun : Run Tracking (start .runtime) [] (start .runtime) := .refl
  obtain ⟨_, made⟩ := begun.call (.create 3 .events) 9 (by decide)
  obtain ⟨_, first⟩ := made.call (.register 0) 9 (by decide)
  obtain ⟨_, second⟩ := first.call (.register 1) 9 (by decide)
  constructor
  · obtain ⟨_, heard⟩ := second.call (.onResolved 0 "next" [.cancel 1, .register 2]) 9 (by decide)
    obtain ⟨m, chronicle⟩ := Chronicle.of_run heard
    have past := chronicle.reordered
    obtain ⟨n, solo, -⟩ := past.call .cancelAll (.refl _) 60 (by decide)
    have told := all_cancelled past (idle _ rfl) rfl solo rfl
    exact ⟨m, _, _, n, _, _, past, rfl, solo, told.1, rfl, rfl⟩
  · obtain ⟨_, heard⟩ := second.call (.onResolved 0 "own" [.cancel 0, .register 0]) 9 (by decide)
    obtain ⟨_, clocked⟩ := heard.call (.setTimeout 1 (.ofSecs 1)) 9 (by decide)
    obtain ⟨m, chronicle⟩ := Chronicle.of_run clocked
    have past := chronicle.reordered
    have places : [1, 0].Perm [0, 1] := .swap 0 1 []
    obtain ⟨n, solo, -⟩ := past.call .cancelAll places 60 (by decide)
    have told := all_cancelled past (idle _ rfl) rfl solo rfl
    obtain ⟨free, -⟩ := told.2 (by decide) (.inl rfl)
    exact ⟨m, _, _, n, _, _, past, rfl, solo, free, rfl, rfl⟩

end Pool
end Deferral.Simulation
