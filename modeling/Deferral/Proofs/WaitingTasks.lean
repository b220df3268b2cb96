import Deferral.Proofs.Chronicle
import Deferral.Proofs.Waiting

/-! How many tasks a waiting call has. A waiter has one task from its call to its return, but for the time that
it is parked; and how one waiter moves is read off the step that moves it. -/

namespace Deferral.Simulation

/-- The work from which a waiting task has still to come back. -/
def Work.awaits (id : Nat) : Work → Bool
  | .readOutcome waiter | .park waiter => waiter == id
  | _ => false

/-- The call that some work makes to wait for a response: the response and the label. -/
def Work.begins? : Work → Option (Nat × String)
  | .call (.wait r label) => some (r, label)
  | _ => none

def Moment.begins? (moment : Moment) : Option (Nat × String) := moment.thread.stack.head?.bind (·.begins?)

/-- How many tasks a waiter has at a stage: none while it is parked or once it has returned. -/
def WaitStage.tasks : WaitStage → Nat
  | .parked | .finished => 0
  | .fresh | .enabled | .notified => 1

namespace Waiter

/-- The call of a client that started a waiting task: the response and the label. -/
def call? (waiter : Waiter) : Option (Nat × String) :=
  match waiter.role with
  | .observer label => some (waiter.r, label)
  | _ => none

def finishes (r : Nat) (label : String) (waiter : Waiter) : Bool :=
  decide (waiter.stage = .finished ∧ waiter.call? = some (r, label))

/-- The waiter asked to be notified and has not come back to ask again. -/
def Listens (waiter : Waiter) : Prop := waiter.stage = .enabled ∨ waiter.stage = .notified

theorem not_finishes {waiter : Waiter} (tasks : waiter.stage.tasks = 1) (r : Nat) (label : String) :
    waiter.finishes r label = false := by
  cases stage : waiter.stage <;> simp_all [finishes, WaitStage.tasks]

end Waiter

namespace World

def tasks (w : World) (id : Nat) : Nat := (w.waiters[id]?.map (·.stage.tasks)).getD 0

theorem tasks_le (w : World) (id : Nat) : w.tasks id ≤ 1 := by
  unfold tasks
  cases found : w.waiters[id]? with
  | none => exact Nat.zero_le 1
  | some waiter => cases stage : waiter.stage <;> simp [stage, WaitStage.tasks]

theorem exists_of_tasks {w : World} {id : Nat} (positive : 0 < w.tasks id) :
    ∃ waiter, w.waiters[id]? = some waiter ∧ waiter.stage.tasks = 1 := by
  have bounded := w.tasks_le id
  unfold tasks at positive bounded
  cases found : w.waiters[id]? with
  | none => simp [found] at positive
  | some waiter =>
    rw [found] at positive bounded
    exact ⟨waiter, rfl, Nat.le_antisymm bounded positive⟩

theorem setStage_waiter (w : World) (id other : Nat) (stage : WaitStage) :
    (w.setStage id stage).waiters[other]? =
      if id = other then w.waiters[other]?.map ({ · with stage }) else w.waiters[other]? := by
  simp only [setStage, List.getElem?_modify]
  split
  · rfl
  · exact congrFun Option.map_id _

theorem notified_waiter (w : World) (r id : Nat) : (w.notify r).waiters[id]? = w.waiters[id]?.map fun waiter =>
    if waiter.r = r ∧ (waiter.stage = .parked ∨ waiter.stage = .enabled) then { waiter with stage := .notified } else waiter := by
  simp only [notify, List.getElem?_map]

private theorem count_woken (r id start : Nat) (waiters : List Waiter) :
    ((waiters.zipIdx start).filterMap fun (waiter, id) =>
      if waiter.r = r ∧ waiter.stage = .parked then some (Task.waiter id) else none).count (.waiter (start + id)) =
      if waiters[id]?.any fun waiter => waiter.r = r ∧ waiter.stage = .parked then 1 else 0 := by
  induction waiters generalizing start id with
  | nil => rfl
  | cons waiter waiters ih =>
    rw [List.zipIdx_cons, List.filterMap_cons]
    cases id with
    | zero =>
      -- the later ones have greater numbers
      have none : ((waiters.zipIdx (start + 1)).filterMap fun (waiter, id) =>
          if waiter.r = r ∧ waiter.stage = .parked then some (Task.waiter id) else none).count (.waiter start) = 0 := by
        apply List.count_eq_zero.mpr
        intro member
        obtain ⟨⟨waiter, id⟩, among, same⟩ := List.mem_filterMap.mp member
        have later := List.le_snd_of_mem_zipIdx among
        dsimp only at same later
        split at same
        · cases same
          omega
        · cases same
      by_cases woken : waiter.r = r ∧ waiter.stage = .parked <;> simp [woken, none]
    | succ id =>
      have rest := ih id (start + 1)
      rw [show start + 1 + id = start + (id + 1) by omega] at rest
      have apart : start ≠ start + (id + 1) := by omega
      by_cases woken : waiter.r = r ∧ waiter.stage = .parked
      · simpa [woken, List.count_cons, apart] using rest
      · simpa [woken] using rest

theorem count_notify (w : World) (r id : Nat) : (w.notify r).ready.count (.waiter id) = w.ready.count (.waiter id) +
    if w.waiters[id]?.any fun waiter => waiter.r = r ∧ waiter.stage = .parked then 1 else 0 := by
  have woken := count_woken r id 0 w.waiters
  rw [Nat.zero_add] at woken
  rw [← woken]
  exact List.count_append

theorem tasks_notify (w : World) (r id : Nat) : (w.notify r).tasks id = w.tasks id +
    if w.waiters[id]?.any fun waiter => waiter.r = r ∧ waiter.stage = .parked then 1 else 0 := by
  unfold tasks
  rw [notified_waiter]
  cases w.waiters[id]? with
  | none => rfl
  | some waiter =>
    by_cases mine : waiter.r = r
    · cases stage : waiter.stage <;> simp [mine, stage, WaitStage.tasks]
    · simp [mine]

theorem tasks_setStage {w : World} {id : Nat} (other : Nat) (stage : WaitStage) (has : id = other → 0 < w.tasks id) :
    (w.setStage other stage).tasks id = if id = other then stage.tasks else w.tasks id := by
  unfold tasks
  rw [setStage_waiter]
  by_cases same : id = other
  · obtain ⟨waiter, found, -⟩ := exists_of_tasks (has same)
    rw [if_pos same.symm, if_pos same, found]
    rfl
  · rw [if_neg (Ne.symm same), if_neg same]

theorem tasks_began {w w' : World} {r : Nat} {role : Role} (waiters : w'.waiters = w.waiters ++ [{ r := r, role := role }]) (id : Nat) :
    w'.tasks id = w.tasks id + if id = w.waiters.length then 1 else 0 := by
  unfold tasks
  rw [waiters]
  by_cases inside : id < w.waiters.length
  · rw [List.getElem?_append_left inside, if_neg (by omega)]
    rfl
  · rw [List.getElem?_append_right (by omega), List.getElem?_eq_none (l := w.waiters) (by omega)]
    by_cases here : id = w.waiters.length
    · simp [here, WaitStage.tasks]
    · rw [if_neg here, List.getElem?_eq_none (by simp; omega)]
      rfl

end World

/-- The stack of a thread that is no waiting task, or of one on its way. -/
def Alone (stack : List Work) : Prop :=
  (∀ f ∈ stack, f.waits = false) ∨
    ∃ id, stack = [.enable id, .readOutcome id] ∨ stack = [.readOutcome id] ∨ stack = [.park id]

theorem Work.waits_of_awaits {f : Work} {id : Nat} (awaits : f.awaits id = true) : f.waits = true := by
  cases f <;> first | rfl | cases awaits

theorem countP_awaits {stack : List Work} (none : ∀ f ∈ stack, f.waits = false) (id : Nat) :
    stack.countP (·.awaits id) = 0 := by
  apply List.countP_eq_zero.mpr
  intro f member awaits
  have waits := Work.waits_of_awaits awaits
  rw [none f member] at waits
  cases waits

theorem countP_own {f : Work} (waiter : Nat) (own : ∀ id, f.awaits id = (waiter == id)) (id : Nat) :
    [f].countP (·.awaits id) = if id = waiter then 1 else 0 := by
  rw [List.countP_singleton, own]
  by_cases same : id = waiter <;> simp [same, Ne.symm]

/-- How one waiter moves in a step. -/
inductive Moved (before : World) (work : Work) (id : Nat) : Waiter → Prop where
  | still {waiter} (found : before.waiters[id]? = some waiter)
      (unmoved : work = .notify waiter.r → waiter.stage ≠ .parked ∧ waiter.stage ≠ .enabled)
      (unasked : work ≠ .enable id) : Moved before work id waiter
  | begun {waiter} (none : before.waiters[id]? = none) (fresh : waiter.stage = .fresh) : Moved before work id waiter
  | enabled {waiter} (found : before.waiters[id]? = some waiter) (does : work = .enable id) :
      Moved before work id { waiter with stage := .enabled }
  | returned {waiter} (found : before.waiters[id]? = some waiter) (does : work = .readOutcome id) :
      Moved before work id { waiter with stage := .finished }
  | parked {waiter} (found : before.waiters[id]? = some waiter) (does : work = .park id)
      (unnotified : waiter.stage ≠ .notified) : Moved before work id { waiter with stage := .parked }
  | notified {waiter} (found : before.waiters[id]? = some waiter) (does : work = .notify waiter.r) :
      Moved before work id { waiter with stage := .notified }

namespace Alone

variable {rest : List Work} {id : Nat}

theorem below_enable (own : Alone (.enable id :: rest)) : rest = [.readOutcome id] := by
  rcases own with none | ⟨other, same | same | same⟩
  · cases none _ (List.mem_cons_self ..)
  · cases same
    rfl
  · cases same
  · cases same

theorem below_readOutcome (own : Alone (.readOutcome id :: rest)) : rest = [] := by
  rcases own with none | ⟨other, same | same | same⟩
  · cases none _ (List.mem_cons_self ..)
  · cases same
  · cases same
    rfl
  · cases same

theorem below_park (own : Alone (.park id :: rest)) : rest = [] := by
  rcases own with none | ⟨other, same | same | same⟩
  · cases none _ (List.mem_cons_self ..)
  · cases same
  · cases same
  · cases same
    rfl

theorem of_idle {work : Work} (own : Alone (work :: rest)) (idle : work.waits = false) : ∀ f ∈ work :: rest, f.waits = false := by
  rcases own with none | ⟨id, same | same | same⟩
  · exact none
  all_goals
    cases same
    cases idle

end Alone

namespace Hearing

variable {w w' : World} {work : Work} {rest stack : List Work}

theorem unwaiting (own : Alone (work :: rest)) (other : work.moves = false) (heedless : Heedless w rest w' stack) :
    (∀ f ∈ work :: rest, f.waits = false) ∧ ∀ f ∈ stack, f.waits = false := by
  have idle : work.waits = false := by
    cases work <;> first | rfl | cases other
  have none := own.of_idle idle
  refine ⟨none, fun f member => ?_⟩
  cases waits : f.waits with
  | false => rfl
  | true => rw [← waits, none f (List.mem_cons_of_mem _ (heedless.stack f member waits))]

theorem keeps_alone (hearing : Hearing w work rest w' stack) (own : Alone (work :: rest)) : Alone stack := by
  cases hearing with
  | began | notified => exact .inl fun f member => own.of_idle rfl f (List.mem_cons_of_mem _ member)
  | enabled => exact .inr ⟨_, .inr (.inl own.below_enable)⟩
  | returned =>
    rw [own.below_readOutcome]
    exact .inl (by simp)
  | missed =>
    rw [own.below_readOutcome]
    exact .inr ⟨_, .inr (.inr rfl)⟩
  | renewed =>
    rw [own.below_park]
    exact .inr ⟨_, .inl rfl⟩
  | parked =>
    rw [own.below_park]
    exact .inl (by simp)
  | absent reads =>
    rcases reads with rfl | rfl
    · rw [own.below_readOutcome]
      exact .inl (by simp)
    · rw [own.below_park]
      exact .inl (by simp)
  | heedless other heedless => exact .inl (unwaiting own other heedless).2

/-- A waiter has one task until it parks or returns, and one again once it is notified. -/
theorem keeps_tasks (hearing : Hearing w work rest w' stack) (own : Alone (work :: rest)) {id others : Nat}
    (balanced : w.ready.count (.waiter id) + (others + (work :: rest).countP (·.awaits id)) = w.tasks id) :
    w'.ready.count (.waiter id) + (others + stack.countP (·.awaits id)) = w'.tasks id := by
  have bounded := w.tasks_le id
  cases hearing with
  | began waiters ready =>
    have none := own.of_idle rfl
    rw [countP_awaits none] at balanced
    rw [countP_awaits fun f member => none f (List.mem_cons_of_mem _ member), ready, World.tasks_began waiters,
      List.count_append, List.count_singleton]
    by_cases here : id = w.waiters.length
    · simp [here] at balanced ⊢
      omega
    · simp [here, Ne.symm here]
      omega
  | @enabled other =>
    rw [own.below_enable] at balanced ⊢
    have one := countP_own (f := .readOutcome other) other (fun _ => rfl) id
    have asks : (Work.enable other :: [.readOutcome other]).countP (·.awaits id) = [Work.readOutcome other].countP (·.awaits id) := rfl
    have unchanged : (w.setStage other .enabled).ready = w.ready := rfl
    rw [asks, one] at balanced
    rw [one, unchanged, World.tasks_setStage other .enabled (fun same => by rw [if_pos same] at balanced; omega)]
    split at balanced <;> simp_all [WaitStage.tasks]
    omega
  | @returned other _ _ _ _ _ _ _ _ waiters ready =>
    rw [own.below_readOutcome, countP_own other (fun _ => rfl) id] at balanced
    have finished : w'.tasks id = (w.setStage other .finished).tasks id := by rw [World.tasks, waiters, World.tasks]
    rw [own.below_readOutcome, ready, finished,
      World.tasks_setStage other .finished (fun same => by rw [if_pos same] at balanced; omega)]
    split at balanced <;> simp_all [WaitStage.tasks]
    omega
  | missed found =>
    rw [own.below_readOutcome] at balanced ⊢
    exact balanced
  | renewed found =>
    rw [own.below_park] at balanced ⊢
    exact balanced
  | @parked other =>
    rw [own.below_park, countP_own other (fun _ => rfl) id] at balanced
    have unchanged : (w.setStage other .parked).ready = w.ready := rfl
    rw [own.below_park, unchanged, World.tasks_setStage other .parked (fun same => by rw [if_pos same] at balanced; omega)]
    split at balanced <;> simp_all [WaitStage.tasks]
    omega
  | @notified r =>
    have none := own.of_idle rfl
    rw [countP_awaits none] at balanced
    rw [countP_awaits fun f member => none f (List.mem_cons_of_mem _ member), World.count_notify, World.tasks_notify]
    omega
  | @absent _ other _ reads none =>
    have apart : id ≠ other := by
      rintro rfl
      have zero : w.tasks id = 0 := by simp [World.tasks, none]
      rcases reads with rfl | rfl <;> simp [Work.awaits] at balanced <;> omega
    rcases reads with rfl | rfl
    · rw [own.below_readOutcome, countP_own other (fun _ => rfl) id, if_neg apart] at balanced
      rw [own.below_readOutcome]
      exact balanced
    · rw [own.below_park, countP_own other (fun _ => rfl) id, if_neg apart] at balanced
      rw [own.below_park]
      exact balanced
  | heedless other heedless =>
    obtain ⟨before, after⟩ := unwaiting own other heedless
    rw [countP_awaits before] at balanced
    rw [countP_awaits after, heedless.world.ready, World.tasks, heedless.world.waiters]
    exact balanced

theorem waiter (hearing : Hearing w work rest w' stack) {id : Nat} {waiter : Waiter} (found : w'.waiters[id]? = some waiter) :
    Moved w work id waiter := by
  have staged {other : Nat} {stage : WaitStage} (found : (w.setStage other stage).waiters[id]? = some waiter) :
      (∃ before, w.waiters[id]? = some before ∧ id = other ∧ waiter = { before with stage }) ∨
        w.waiters[id]? = some waiter ∧ id ≠ other := by
    rw [World.setStage_waiter] at found
    split at found
    · next same =>
      obtain ⟨before, seat, rfl⟩ := Option.map_eq_some_iff.mp found
      exact .inl ⟨before, seat, same.symm, rfl⟩
    · next apart => exact .inr ⟨found, Ne.symm apart⟩
  cases hearing with
  | began waiters =>
    rw [waiters] at found
    by_cases inside : id < w.waiters.length
    · rw [List.getElem?_append_left inside] at found
      exact .still found (by simp) (by simp)
    · rw [List.getElem?_append_right (by omega)] at found
      have fresh := List.mem_singleton.mp (List.mem_of_getElem? found)
      exact .begun (List.getElem?_eq_none (by omega)) (by rw [fresh])
  | enabled =>
    rcases staged found with ⟨before, seat, rfl, rfl⟩ | ⟨seat, apart⟩
    · exact .enabled seat rfl
    · exact .still seat (by simp) (by simp [Ne.symm apart])
  | returned _ _ _ waiters =>
    rw [waiters] at found
    rcases staged found with ⟨before, seat, rfl, rfl⟩ | ⟨seat, apart⟩
    · exact .returned seat rfl
    · exact .still seat (by simp) (by simp)
  | parked here unnotified =>
    rcases staged found with ⟨before, seat, rfl, rfl⟩ | ⟨seat, apart⟩
    · cases here.symm.trans seat
      exact .parked seat rfl unnotified
    · exact .still seat (by simp) (by simp)
  | @notified r =>
    rw [World.notified_waiter] at found
    obtain ⟨before, seat, same⟩ := Option.map_eq_some_iff.mp found
    split at same
    · next listens =>
      subst same
      exact .notified seat (by rw [listens.1])
    · next deaf =>
      subst same
      refine .still seat (fun mine => ?_) (by simp)
      cases mine
      simpa using deaf
  | missed | renewed => exact .still found (by simp) (by simp)
  | absent reads => rcases reads with rfl | rfl <;> exact .still found (by simp) (by simp)
  | heedless other heedless =>
    rw [heedless.world.waiters] at found
    refine .still found ?_ ?_ <;> rintro rfl <;> cases other

/-- A waiting task comes to park only after it has found no outcome. -/
theorem parks (hearing : Hearing w work rest w' stack) (own : Alone (work :: rest)) {id : Nat} (parks : .park id ∈ stack) :
    work = .readOutcome id ∧ w' = w ∧ ∃ waiter, w.waiters[id]? = some waiter ∧ (w.response waiter.r).outcome = none := by
  cases hearing with
  | began | notified => cases own.of_idle rfl _ (List.mem_cons_of_mem _ parks)
  | enabled =>
    rw [own.below_enable] at parks
    simp at parks
  | returned =>
    rw [own.below_readOutcome] at parks
    cases parks
  | missed found unpublished =>
    rw [own.below_readOutcome] at parks
    cases List.mem_singleton.mp parks
    exact ⟨rfl, rfl, _, found, unpublished⟩
  | renewed =>
    rw [own.below_park] at parks
    simp at parks
  | parked =>
    rw [own.below_park] at parks
    cases parks
  | absent reads =>
    rcases reads with rfl | rfl
    · rw [own.below_readOutcome] at parks
      cases parks
    · rw [own.below_park] at parks
      cases parks
  | heedless other heedless => cases (unwaiting own other heedless).2 _ parks

theorem reads (hearing : Hearing w work rest w' stack) (own : Alone (work :: rest)) {id : Nat} (reads : stack = [.readOutcome id]) :
    work = .enable id := by
  cases hearing with
  | began | notified =>
    cases own.of_idle rfl (.readOutcome id) (by simp [reads])
  | enabled =>
    rw [own.below_enable] at reads
    cases reads
    rfl
  | returned =>
    rw [own.below_readOutcome] at reads
    cases reads
  | parked =>
    rw [own.below_park] at reads
    cases reads
  | missed | renewed => cases reads
  | absent absent =>
    rcases absent with rfl | rfl
    · rw [own.below_readOutcome] at reads
      cases reads
    · rw [own.below_park] at reads
      cases reads
  | heedless other heedless => cases (unwaiting own other heedless).2 (.readOutcome id) (by simp [reads])

theorem calls (hearing : Hearing w work rest w' stack) :
    w'.waiters.map Waiter.call? = w.waiters.map Waiter.call? ++ work.begins?.toList.map some := by
  have staged (id : Nat) (stage : WaitStage) : (w.setStage id stage).waiters.map Waiter.call? = w.waiters.map Waiter.call? := by
    apply List.ext_getElem?
    intro n
    rw [List.getElem?_map, World.setStage_waiter, List.getElem?_map]
    split
    · cases w.waiters[n]? <;> rfl
    · rfl
  cases hearing with
  | began waiters => simp [waiters, Waiter.call?, Work.begins?]
  | enabled | parked => simp [staged, Work.begins?]
  | returned _ _ _ waiters => simp [waiters, staged, Work.begins?]
  | missed | renewed => simp [Work.begins?]
  | @notified r =>
    have kept : (w.notify r).waiters.map Waiter.call? = w.waiters.map Waiter.call? := by
      simp only [World.notify, List.map_map]
      congr 1
      funext waiter
      simp only [Function.comp_apply]
      split <;> rfl
    simp [kept, Work.begins?]
  | absent reads => rcases reads with rfl | rfl <;> simp [Work.begins?]
  | heedless other heedless =>
    have none : work.begins? = none := by
      unfold Work.begins?
      split
      · cases other
      · rfl
    simp [heedless.world.waiters, none]

theorem delivers (hearing : Hearing w work rest w' stack) {r : Nat} {delivery : String × Outcome String}
    (member : delivery ∈ w'.deliveries r) : delivery ∈ w.deliveries r ∨ (w.response r).outcome = some delivery.2 := by
  cases hearing with
  | began _ _ deliveries =>
    rw [deliveries] at member
    exact .inl member
  | returned _ _ published _ _ deliveries =>
    rw [deliveries] at member
    rcases List.mem_append.mp member with old | new
    · exact .inl old
    · split at new
      · next mine =>
        rw [List.mem_singleton.mp new, ← mine]
        exact .inr published
      · cases new
  | enabled | missed | renewed | parked | notified | absent => exact .inl member
  | heedless other heedless =>
    rw [heedless.world.deliveries] at member
    exact .inl member

end Hearing

private theorem countP_modify {l : List Waiter} {n : Nat} {waiter : Waiter} (f : Waiter → Waiter) (counted : Waiter → Bool)
    (found : l[n]? = some waiter) (uncounted : counted waiter = false) :
    (l.modify n f).countP counted = l.countP counted + if counted (f waiter) then 1 else 0 := by
  induction l generalizing n with
  | nil => cases found
  | cons head l ih =>
    cases n with
    | zero =>
      cases found
      simp [List.countP_cons, uncounted]
    | succ n =>
      have rest := ih (n := n) found
      simp only [List.modify_succ_cons, List.countP_cons]
      omega

theorem Hearing.tells {w w' : World} {work : Work} {rest stack : List Work} (hearing : Hearing w work rest w' stack)
    (has : ∀ id, 0 < (work :: rest).countP (·.awaits id) → 0 < w.tasks id) (own : Alone (work :: rest)) (r : Nat) (label : String)
    (told : ((w.deliveries r).map Prod.fst).count label = w.waiters.countP (·.finishes r label)) :
    ((w'.deliveries r).map Prod.fst).count label = w'.waiters.countP (·.finishes r label) := by
  have staged (id : Nat) (stage : WaitStage) (has : 0 < w.tasks id) : ∃ waiter, w.waiters[id]? = some waiter ∧
      (w.setStage id stage).waiters.countP (·.finishes r label) =
        w.waiters.countP (·.finishes r label) + if ({ waiter with stage } : Waiter).finishes r label then 1 else 0 := by
    obtain ⟨waiter, found, one⟩ := World.exists_of_tasks has
    exact ⟨waiter, found, countP_modify _ _ found (Waiter.not_finishes one r label)⟩
  cases hearing with
  | began waiters _ deliveries =>
    rw [deliveries, waiters, List.countP_append, told]
    simp [Waiter.finishes]
  | @enabled id =>
    obtain ⟨waiter, -, counts⟩ := staged id .enabled (has id (by rw [own.below_enable]; simp [Work.awaits]))
    have unchanged : (w.setStage id .enabled).deliveries = w.deliveries := rfl
    rw [unchanged, told, counts]
    simp [Waiter.finishes]
  | @returned id waiter observed outcome _ _ found role published waiters ready deliveries =>
    obtain ⟨before, found', counts⟩ := staged id .finished (has id (by simp [Work.awaits]))
    cases found.symm.trans found'
    rw [deliveries, waiters, counts, List.map_append, List.count_append, told]
    by_cases mine : waiter.r = r <;> simp [Waiter.finishes, Waiter.call?, role, mine, List.count_singleton]
  | missed | renewed => exact told
  | @parked id =>
    obtain ⟨waiter, -, counts⟩ := staged id .parked (has id (by simp [Work.awaits]))
    have unchanged : (w.setStage id .parked).deliveries = w.deliveries := rfl
    rw [unchanged, told, counts]
    simp [Waiter.finishes]
  | @notified s =>
    have unchanged : (w.notify s).deliveries = w.deliveries := rfl
    rw [unchanged, told]
    simp only [World.notify, List.countP_map]
    congr 1
    funext waiter
    simp only [Function.comp_apply]
    split
    · next listens => rcases listens.2 with stage | stage <;> simp [Waiter.finishes, stage]
    · rfl
  | absent => exact told
  | heedless other heedless => rw [heedless.world.deliveries, heedless.world.waiters, told]

end Deferral.Simulation
