import Deferral.Proofs.ListenerOrder

/-! Who takes a response from the registry. A response that is in the table has a listener that will take it
out, or a call that is about to register one, or one that is about to take it out. -/

namespace Deferral

namespace Registry

variable {g : Registry} {r s : Nat}

theorem mem_iff : r ∈ g.ids ↔ g.contains r = true := by
  simp [contains]

theorem mem_insert : s ∈ (g.insert r).ids ↔ s = r ∨ s ∈ g.ids := by
  rw [mem_iff, contains_insert, mem_iff, Bool.or_eq_true, beq_iff_eq]

theorem mem_remove : s ∈ (g.remove r).ids ↔ s ≠ r ∧ s ∈ g.ids := by
  rw [mem_iff, contains_remove, mem_iff, Bool.and_eq_true, bne_iff_ne]

theorem nodup_insert (distinct : g.ids.Nodup) : (g.insert r).ids.Nodup := by
  unfold insert
  split
  · exact distinct
  next absent =>
    rw [← mem_iff] at absent
    rw [List.nodup_append]
    refine ⟨distinct, by simp, fun s member other here => ?_⟩
    rw [List.mem_singleton.mp here]
    rintro rfl
    exact absent member

theorem nodup_remove (distinct : g.ids.Nodup) : (g.remove r).ids.Nodup := distinct.filter _

end Registry

namespace Simulation

/-- Whether the response that a thread registers, if it does, is one that was made. -/
def Thread.registersMade (w : World) (t : Thread) : Bool :=
  match t.stack with
  | .call (.register r) :: _ => decide (r < w.responses.length)
  | _ => true

/-- The rule that only listeners panic and that only responses that were made are registered. -/
def Pool.Tracking (w : World) (t : Thread) : Prop := Contained w t ∧ t.registersMade w = true

instance (w : World) (t : Thread) : Decidable (Pool.Tracking w t) :=
  inferInstanceAs (Decidable (Pool.Contained w t ∧ _ = true))

theorem Pool.Tracking.made {w : World} {t : Thread} {r : Nat} {rest : List Work} (tracking : Tracking w t)
    (stack : t.stack = .call (.register r) :: rest) : ∃ x, w.responses[r]? = some x := by
  have inside := tracking.2
  rw [Thread.registersMade, stack] at inside
  exact ⟨_, List.getElem?_eq_getElem (of_decide_eq_true inside)⟩

/-- What some work makes of the table: only a registration adds to it, and only a removal takes from it. -/
def Work.tabled (work : Work) (g : Registry) : Registry :=
  match work with
  | .call (.register r) => g.insert r
  | .untrack r => g.remove r
  | _ => g

theorem Work.mem_tabled {work : Work} {g : Registry} {r : Nat} :
    r ∈ (work.tabled g).ids ↔ work = .call (.register r) ∨ work ≠ .untrack r ∧ r ∈ g.ids := by
  unfold tabled
  split
  next s =>
    rw [Registry.mem_insert]
    simp [eq_comm]
  next s =>
    rw [Registry.mem_remove]
    simp [eq_comm]
  next other untracks =>
    have register : work ≠ .call (.register r) := other r
    have untrack : work ≠ .untrack r := untracks r
    simp [register, untrack]

theorem Work.nodup_tabled {work : Work} {g : Registry} (distinct : g.ids.Nodup) : (work.tabled g).ids.Nodup := by
  unfold tabled
  split
  · exact Registry.nodup_insert distinct
  · exact Registry.nodup_remove distinct
  · exact distinct

/-- A call that registers a response begins. -/
def Moment.tracks (r : Nat) (moment : Moment) : Prop := moment.thread.stack.head? = some (.call (.register r))

/-- Something that will take a response from the registry. -/
inductive Watched (w : World) (works : List Work) (r : Nat) : Prop where
  | kept (index : Nat) (listener : (index, .untrack) ∈ (w.response r).listeners)
  | subscribing (pending : .request r (.subscribe .untrack) ∈ works)
  | listening (index : Nat) (outcome : Outcome String) (pending : .listen r index .untrack outcome ∈ works)
  | untracking (pending : .untrack r ∈ works)

namespace Delivery

variable {w w' : World} {work : Work} {rest stack : List Work}

theorem stays (delivery : Delivery w work rest w' stack) (caught : Caught work rest) {f : Work} (member : f ∈ rest)
    (unscripted : f.isScripted = false) (unguarded : f.isGuard = false) : f ∈ stack := by
  obtain ⟨above, base, same⟩ := List.append_of_mem member
  obtain ⟨above, kept⟩ := delivery.keeps caught same unscripted unguarded
  rw [kept]
  simp

theorem listener_stays (delivery : Delivery w work rest w' stack) (caught : Caught work rest)
    (sound : ∀ r, Sound (w.response r)) {r : Nat} {listener : Nat × Listener}
    (here : listener ∈ (w.response r).listeners ∨ work.joins? w r = some listener) :
    listener ∈ (w'.response r).listeners ∨ ∃ outcome, .listen r listener.1 listener.2 outcome ∈ stack := by
  classical
  have counts := delivery.countP_listens sound r caught (· == listener)
  have positive : 0 < (w.response r).listeners.countP (· == listener) + (work.joins? w r).toList.countP (· == listener) := by
    rcases here with kept | joins
    · exact Nat.add_pos_left (List.countP_pos_iff.mpr ⟨listener, kept, by simp⟩) _
    · rw [joins]
      simp
  by_cases kept : 0 < (w'.response r).listeners.countP (· == listener)
  · obtain ⟨other, inside, same⟩ := List.countP_pos_iff.mp kept
    rw [← eq_of_beq same]
    exact .inl inside
  · have waits : 0 < stack.countP (·.listens r (· == listener)) := by omega
    obtain ⟨f, inside, listens⟩ := List.countP_pos_iff.mp waits
    cases f with
    | listen s index other outcome =>
      by_cases same : s = r
      · subst same
        have same : (index, other) = listener := by simpa [Work.listens, Work.hears?] using listens
        rw [← same]
        exact .inr ⟨outcome, inside⟩
      · simp [Work.listens, Work.hears?, same] at listens
    | _ => cases listens

theorem registry (delivery : Delivery w work rest w' stack) : w'.registry = work.tabled w.registry := by
  cases delivery with
  | granted asks _ _ _ registry =>
    rw [registry]
    unfold Work.tabled
    split <;> first | rfl | cases asks
  | listened _ registry | returned _ registry | panicked _ registry | misreported _ registry
  | registered _ registry | untracked _ registry => exact registry
  | passed _ other _ _ _ registry =>
    rw [registry]
    unfold Work.tabled
    split <;> first | rfl | cases other

theorem subscribes {r : Nat} (delivery : Delivery w (.call (.register r)) rest w' stack) :
    stack = .measure :: .request r (.subscribe .untrack) :: .answer .done :: rest := by
  cases delivery with
  | granted asks => cases asks
  | registered => rfl
  | passed _ other => cases other

theorem untracks {r index : Nat} {outcome : Outcome String}
    (delivery : Delivery w (.listen r index .untrack outcome) rest w' stack) :
    stack = .untrack r :: .guardListener r index :: rest := by
  cases delivery with
  | granted asks => cases asks
  | listened => rfl
  | passed _ other => cases other

theorem watched (delivery : Delivery w work rest w' stack) (caught : Caught work rest) (sound : ∀ s, Sound (w.response s))
    {r : Nat} {works works' : List Work}
    (kept : ∀ f ∈ works, f.isScripted = false → f.isGuard = false → f = work ∨ f ∈ works') (pushed : ∀ f ∈ stack, f ∈ works')
    (made : .request r (.subscribe .untrack) ∈ works → ∃ x, w.responses[r]? = some x) (unremoved : work ≠ .untrack r)
    (watched : Watched w works r) : Watched w' works' r := by
  have listens (index : Nat) (stays : (index, .untrack) ∈ (w'.response r).listeners ∨
      ∃ outcome, .listen r index .untrack outcome ∈ stack) : Watched w' works' r := by
    rcases stays with kept | ⟨outcome, pending⟩
    · exact .kept index kept
    · exact .listening index outcome (pushed _ pending)
  cases watched with
  | kept index listener => exact listens index (delivery.listener_stays caught sound (.inl listener))
  | subscribing pending =>
    rcases kept _ pending rfl rfl with rfl | still
    · obtain ⟨x, found⟩ := made pending
      refine listens x.nextListener (delivery.listener_stays caught sound (.inr ?_))
      rw [Work.joins?_request rfl found, if_pos rfl]
      rfl
    · exact .subscribing still
  | listening index outcome pending =>
    rcases kept _ pending rfl rfl with rfl | still
    · exact .untracking (pushed _ (by rw [delivery.untracks]; exact List.mem_cons_self ..))
    · exact .listening index outcome still
  | untracking pending =>
    rcases kept _ pending rfl rfl with rfl | still
    · exact absurd rfl unremoved
    · exact .untracking still

end Delivery

namespace Pool

/-- How the registry stands to a response at the end of a chronicle. -/
structure Tracked (m : List Moment) (p : Pool) (r : Nat) : Prop where
  distinct : p.world.registry.ids.Nodup
  inserted : r ∈ p.world.registry.ids → ∃ moment ∈ m, moment.tracks r
  present : (∃ moment ∈ m, moment.tracks r) → (p.world.response r).outcome = none → r ∈ p.world.registry.ids
  watched : r ∈ p.world.registry.ids → Watched p.world p.works r
  ended : .untrack r ∈ p.works → (p.world.response r).outcome.isSome = true
  made : .request r (.subscribe .untrack) ∈ p.works → ∃ x, p.world.responses[r]? = some x

namespace Tracked

variable {m : List Moment} {p : Pool} {r : Nat}

theorem initial (drive : Drive) (r : Nat) : Tracked [] (start drive) r := by
  have works : (start drive).works = [] := rfl
  have ids : (start drive).world.registry.ids = [] := rfl
  constructor <;> simp [works, ids]

theorem spawn {w : World} {threads : List Thread} {t : Thread} (tracked : Tracked m ⟨w, threads⟩ r) (fresh : t.Fresh) :
    Tracked m ⟨w, threads ++ [t]⟩ r := by
  have works : (Pool.mk w (threads ++ [t])).works = (Pool.mk w threads).works ++ t.stack := by simp [Pool.works]
  have old {f : Work} (member : f ∈ (Pool.mk w (threads ++ [t])).works) (attends : f.attends = true) :
      f ∈ (Pool.mk w threads).works := by
    rw [works, List.mem_append] at member
    rcases member with old | new
    · exact old
    · rw [fresh.unattended f new] at attends
      cases attends
  have kept {f : Work} (member : f ∈ (Pool.mk w threads).works) : f ∈ (Pool.mk w (threads ++ [t])).works := by
    rw [works]
    exact List.mem_append_left _ member
  obtain ⟨distinct, inserted, present, watched, ended, made⟩ := tracked
  refine ⟨distinct, inserted, present, fun member => ?_, fun pending => ended (old pending rfl), fun pending => made (old pending rfl)⟩
  cases watched member with
  | kept index listener => exact .kept index listener
  | subscribing pending => exact .subscribing (kept pending)
  | listening index outcome pending => exact .listening index outcome (kept pending)
  | untracking pending => exact .untracking (kept pending)

theorem run {w : World} {before after : List Thread} {t : Thread} {work : Work} {rest : List Work}
    (tracked : Tracked m ⟨w, before ++ t :: after⟩ r) (attended : Attended m ⟨w, before ++ t :: after⟩ r)
    (stack : t.stack = work :: rest) (allowed : Tracking w t) (sound : ∀ s, Sound (w.response s))
    (frozen : (w.response r).outcome.isSome = true → ((step w t).1.response r).outcome = (w.response r).outcome) :
    Tracked (m ++ [⟨before.length, w, t⟩]) ⟨(step w t).1, before ++ (step w t).2 :: after⟩ r := by
  have delivery := step_delivery (w := w) stack
  have caught := allowed.1.caught stack
  have moves : Moment.tracks r ⟨before.length, w, t⟩ ↔ work = .call (.register r) := by
    simp [Moment.tracks, stack]
  have named (same : work = .call (.register r)) : ∃ x, w.responses[r]? = some x := by
    rw [same] at stack
    exact allowed.made stack
  generalize (step w t).2 = thread at delivery ⊢
  generalize (step w t).1 = w' at delivery frozen ⊢
  obtain ⟨distinct, inserted, present, watched, ended, made⟩ := tracked
  have kept {f : Work} (member : f ∈ (Pool.mk w (before ++ t :: after)).works) (unscripted : f.isScripted = false)
      (unguarded : f.isGuard = false) : f = work ∨ f ∈ (Pool.mk w' (before ++ thread :: after)).works := by
    rcases mem_works_run.mp member with other | here
    · exact .inr (mem_works_run.mpr (.inl other))
    · rw [stack] at here
      rcases List.mem_cons.mp here with same | rested
      · exact .inl same
      · exact .inr (mem_works_run.mpr (.inr (delivery.stays caught rested unscripted unguarded)))
  have table (s : Nat) : s ∈ w'.registry.ids ↔ work = .call (.register s) ∨ work ≠ .untrack s ∧ s ∈ w.registry.ids := by
    rw [delivery.registry]
    exact Work.mem_tabled
  constructor
  case distinct =>
    rw [delivery.registry]
    exact Work.nodup_tabled distinct
  case inserted =>
    intro member
    rcases (table r).mp member with begins | ⟨-, here⟩
    · exact ⟨_, List.mem_append_right _ (List.mem_singleton.mpr rfl), moves.mpr begins⟩
    · obtain ⟨moment, among, tracks⟩ := inserted here
      exact ⟨moment, List.mem_append_left _ among, tracks⟩
  case present =>
    rintro ⟨moment, among, tracks⟩ none
    rw [table]
    rcases List.mem_append.mp among with older | newer
    · refine .inr ⟨?_, present ⟨moment, older, tracks⟩ (unresolved_before frozen none)⟩
      rintro rfl
      have some := ended (mem_works_here stack (List.mem_cons_self ..))
      rw [unresolved_before frozen none] at some
      cases some
    · rw [List.mem_singleton.mp newer, moves] at tracks
      exact .inl tracks
  case watched =>
    intro member
    rcases (table r).mp member with rfl | ⟨unremoved, here⟩
    · exact .subscribing (mem_works_here delivery.subscribes (by simp))
    · exact delivery.watched caught sound (fun _ => kept) (fun _ new => mem_works_run.mpr (.inr new)) made unremoved (watched here)
  case ended =>
    intro pending
    rcases old_or_left delivery stack pending rfl with before | left
    · have some := ended before
      rw [frozen some]
      exact some
    · cases left with
      | untrack =>
        have published := attended.published _ _ _ (mem_works_here stack (List.mem_cons_self ..))
        have some : (w.response r).outcome.isSome = true := by rw [published]; rfl
        rw [frozen some]
        exact some
  case made =>
    intro pending
    rcases old_or_left delivery stack pending rfl with before | left
    · obtain ⟨x, found⟩ := made before
      obtain ⟨x', found', -⟩ := delivery.sinks sound found
      exact ⟨x', found'⟩
    · cases left with
      | subscribe =>
        obtain ⟨x, found⟩ := named rfl
        obtain ⟨x', found', -⟩ := delivery.sinks sound found
        exact ⟨x', found'⟩

theorem of_chronicle {drive : Drive} (chronicle : Chronicle Tracking (start drive) m p) (r : Nat) : Tracked m p r := by
  induction chronicle with
  | refl => exact initial drive r
  | move past next ih =>
    obtain ⟨h, valid⟩ := past.valid
    obtain ⟨notes, step⟩ := next.step
    have attended := Attended.of_chronicle (past.mono fun _ _ => And.left) r
    cases next with
    | run stack allowed =>
      exact ih.run attended stack allowed valid.sound fun resolved => valid.outcome_frozen step resolved
    | spawn fresh =>
      rw [List.append_nil]
      exact ih.spawn fresh
    | wait now sleeping ready =>
      rw [List.append_nil]
      obtain ⟨distinct, inserted, present, watched, ended, made⟩ := ih
      refine ⟨distinct, inserted, present, fun member => ?_, ended, made⟩
      cases watched member with
      | kept index listener => exact .kept index listener
      | subscribing pending => exact .subscribing pending
      | listening index outcome pending => exact .listening index outcome pending
      | untracking pending => exact .untracking pending

end Tracked

end Pool
end Simulation
end Deferral
