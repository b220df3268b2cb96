import Deferral.Proofs.Execution
import Deferral.Proofs.PoolInvariant

/-! No timer of a response is lost and none is left behind. A timer is armed outside the lock and stored
later, so between the two it is known to nobody but the call that armed it; what the calls still have to
do makes up for that, and when no call has anything to do the stored timer is the only one armed. -/

namespace Deferral.Simulation
open Response (Arming)

/-- Work that has a timer of a response to disarm, to arm, to answer or to store. -/
def Work.tends : Work → Bool
  | .disarm _ | .arm _ _ | .request _ (.expire _ _) | .request _ (.keepTimer _ _) => true
  | _ => false

theorem Work.tends_outer {work : Work} (outer : work.isInner = false) : work.tends = false := by
  cases work with
  | request r asked => cases asked <;> first | rfl | cases outer
  | disarm | arm => cases outer
  | _ => rfl

/-- A response's timer is stored, or a call still stores it or disarms it. The one of the running clock is
armed or asks to time the response out, if it is not still to be armed; and what is still to be disarmed
belongs to a clock that runs no more. -/
structure Tended (works : List Work) (timers : Timers Callback) (r : Nat) (x : Response String Listener) : Prop where
  stored : ∀ id, x.timer = some id → x.state = .suspended ∧ ∃ window, x.active = some window ∧
    timers.callback? id = some (.expire r window x.generation)
  owned : ∀ id window generation, timers.callback? id = some (.expire r window generation) →
    timers.isArmed id = true →
    x.timer = some id ∨ .request r (.keepTimer id generation) ∈ works ∨ .disarm id ∈ works
  linked : ∀ id window, timers.callback? id = some (.expire r window x.generation) → x.state = .suspended →
    x.timer = some id ∨ .request r (.keepTimer id x.generation) ∈ works
  alive : ∀ window, x.state = .suspended → x.active = some window →
    .arm r ⟨window, x.generation⟩ ∈ works ∨ ∃ id, timers.callback? id = some (.expire r window x.generation) ∧
      (timers.isArmed id = true ∨ .request r (.expire window x.generation) ∈ works)
  disarms : ∀ id, .disarm id ∈ works → ∃ s window generation,
    timers.callback? id = some (.expire s window generation) ∧
      (s = r → generation ≠ x.generation ∨ x.state.isTerminal = true)
  stores : ∀ id generation, .request r (.keepTimer id generation) ∈ works →
    ∃ window, timers.callback? id = some (.expire r window generation)

/-- One work is done and some is added; what tends timers is not dropped. -/
structure Replaces (works : List Work) (work : Work) (pushed works' : List Work) : Prop where
  kept : ∀ f ∈ works, f.tends = true → f = work ∨ f ∈ works'
  left : ∀ f ∈ works', f ∈ works ∨ f ∈ pushed
  done : ∀ f ∈ pushed, f ∈ works'
  had : work ∈ works

theorem Replaces.keep {works works' pushed : List Work} {work f : Work} (replaces : Replaces works work pushed works')
    (member : f ∈ works) (tends : f.tends = true) (apart : f ≠ work) : f ∈ works' :=
  (replaces.kept f member tends).resolve_left apart

theorem Replaces.keep_outer {works works' pushed : List Work} {work f : Work}
    (replaces : Replaces works work pushed works') (outer : work.tends = false) (member : f ∈ works)
    (tends : f.tends = true) : f ∈ works' := by
  apply replaces.keep member tends
  rintro rfl
  rw [outer] at tends
  cases tends

theorem Replaces.old {works works' pushed : List Work} {work f : Work} (replaces : Replaces works work pushed works')
    (none : ∀ f ∈ pushed, f.tends = false) (member : f ∈ works') (tends : f.tends = true) : f ∈ works := by
  rcases replaces.left f member with old | new
  · exact old
  · rw [none f new] at tends
    cases tends

namespace Tended

variable {works works' pushed : List Work} {timers : Timers Callback} {r : Nat} {x y : Response String Listener}

theorem initial : Tended [] {} r {} := by
  constructor
  case stored =>
    intro id stored
    cases stored
  case owned =>
    intro id window generation found
    simp [Timers.callback?, Timers.get?] at found
  case linked =>
    intro id window found
    simp [Timers.callback?, Timers.get?] at found
  case alive =>
    intro window suspended
    cases suspended
  case disarms =>
    intro id member
    cases member
  case stores =>
    intro id generation member
    cases member

theorem frame (tended : Tended works timers r x)
    (same : y.timer = x.timer ∧ y.state = x.state ∧ y.active = x.active ∧ y.generation = x.generation)
    (more : ∀ f ∈ works, f.tends = true → (∀ s asked, f = .request s asked → s = r) → f ∈ works')
    (fewer : ∀ f ∈ works', f.tends = true → f ∈ works ∨ (∃ s arming, f = .arm s arming) ∨
      ∃ id s window generation, f = .disarm id ∧ timers.callback? id = some (.expire s window generation) ∧ s ≠ r) :
    Tended works' timers r y := by
  obtain ⟨timer, state, active, number⟩ := same
  have asks {f : Work} {asked : Request} (form : f = .request r asked) : ∀ s asked, f = .request s asked → s = r := by
    intro s other same
    rw [form] at same
    cases same
    rfl
  constructor
  case stored =>
    rw [timer, state, active, number]
    exact tended.stored
  case owned =>
    intro id window generation found armed
    rw [timer]
    rcases tended.owned id window generation found armed with stored | stores | disarms
    · exact .inl stored
    · exact .inr (.inl (more _ stores rfl (asks rfl)))
    · exact .inr (.inr (more _ disarms rfl (by simp)))
  case linked =>
    intro id window found suspended
    rw [number] at found ⊢
    rw [timer]
    rw [state] at suspended
    rcases tended.linked id window found suspended with stored | stores
    · exact .inl stored
    · exact .inr (more _ stores rfl (asks rfl))
  case alive =>
    intro window suspended runs
    rw [state] at suspended
    rw [active] at runs
    rw [number]
    rcases tended.alive window suspended runs with arm | ⟨id, found, armed | asked⟩
    · exact .inl (more _ arm rfl (by simp))
    · exact .inr ⟨id, found, .inl armed⟩
    · exact .inr ⟨id, found, .inr (more _ asked rfl (asks rfl))⟩
  case disarms =>
    intro id member
    rw [state, number]
    rcases fewer _ member rfl with old | ⟨s, arming, form⟩ | ⟨other, s, window, generation, form, found, apart⟩
    · exact tended.disarms id old
    · cases form
    · cases form
      exact ⟨s, window, generation, found, fun same => absurd same apart⟩
  case stores =>
    intro id generation member
    rcases fewer _ member rfl with old | ⟨s, arming, form⟩ | ⟨other, s, window, _, form, -, -⟩
    · exact tended.stores id generation old
    · cases form
    · cases form

theorem quiet (tended : Tended works timers r x) {work : Work} (replaces : Replaces works work pushed works')
    (same : y.timer = x.timer ∧ y.state = x.state ∧ y.active = x.active ∧ y.generation = x.generation)
    (outer : work.tends = false) (none : ∀ f ∈ pushed, f.tends = false) : Tended works' timers r y := by
  apply tended.frame same
  · intro f member tends _
    exact replaces.keep_outer outer member tends
  · intro f member tends
    exact .inl (replaces.old none member tends)

theorem scheduled (tended : Tended works timers r x) {after : Duration} {due : Option Nat} {body : List Action} :
    Tended works (timers.schedule after due (.script body)).1 r x := by
  have kept {id : Nat} {callback : Callback} (found : timers.callback? id = some callback) :
      (timers.schedule after due (.script body)).1.callback? id = some callback :=
    Timers.callback?_schedule_of_some found
  have old {id s generation : Nat} {window : Duration}
      (found : (timers.schedule after due (.script body)).1.callback? id = some (.expire s window generation)) :
      id ≠ timers.list.length + 1 ∧ timers.callback? id = some (.expire s window generation) := by
    rw [Timers.callback?_schedule] at found
    split at found
    · cases found
    next apart => exact ⟨apart, found⟩
  constructor
  case stored =>
    intro id stored
    obtain ⟨suspended, window, runs, found⟩ := tended.stored id stored
    exact ⟨suspended, window, runs, kept found⟩
  case owned =>
    intro id window generation found armed
    obtain ⟨apart, found⟩ := old found
    apply tended.owned id window generation found
    simpa [Timers.isArmed_schedule, apart] using armed
  case linked =>
    intro id window found
    exact tended.linked id window (old found).2
  case alive =>
    intro window suspended runs
    rcases tended.alive window suspended runs with arm | ⟨id, found, armed | asked⟩
    · exact .inl arm
    · exact .inr ⟨id, kept found, .inl (by simp [Timers.isArmed_schedule, armed])⟩
    · exact .inr ⟨id, kept found, .inr asked⟩
  case disarms =>
    intro id member
    obtain ⟨s, window, generation, found, stale⟩ := tended.disarms id member
    exact ⟨s, window, generation, kept found, stale⟩
  case stores =>
    intro id generation member
    obtain ⟨window, found⟩ := tended.stores id generation member
    exact ⟨window, kept found⟩

theorem armed (tended : Tended works timers r x) {s : Nat} {arming : Arming} {due : Option Nat} {extra : List Work}
    (replaces : Replaces works (.arm s arming)
      (extra ++ [.request s (.keepTimer (timers.list.length + 1) arming.generation)]) works')
    (none : ∀ f ∈ extra, f.tends = false) :
    Tended works' (timers.schedule arming.window due (.expire s arming.window arming.generation)).1 r x := by
  have store : .request s (.keepTimer (timers.list.length + 1) arming.generation) ∈ works' :=
    replaces.done _ (List.mem_append_right _ (List.mem_singleton.mpr rfl))
  have kept {id : Nat} {callback : Callback} (found : timers.callback? id = some callback) :
      (timers.schedule arming.window due (.expire s arming.window arming.generation)).1.callback? id = some callback :=
    Timers.callback?_schedule_of_some found
  have split {id generation : Nat} {window : Duration}
      (found : (timers.schedule arming.window due (.expire s arming.window arming.generation)).1.callback? id =
        some (.expire r window generation)) :
      (id = timers.list.length + 1 ∧ s = r ∧ arming = ⟨window, generation⟩) ∨
        id ≠ timers.list.length + 1 ∧ timers.callback? id = some (.expire r window generation) := by
    rw [Timers.callback?_schedule] at found
    split at found
    next new => cases found; exact .inl ⟨new, rfl, rfl⟩
    next apart => exact .inr ⟨apart, found⟩
  have older {f : Work} (member : f ∈ works') (tends : f.tends = true) :
      f ∈ works ∨ f = .request s (.keepTimer (timers.list.length + 1) arming.generation) := by
    rcases replaces.left f member with old | new
    · exact .inl old
    · rcases List.mem_append.mp new with hook | new
      · rw [none f hook] at tends
        cases tends
      · exact .inr (List.mem_singleton.mp new)
  constructor
  case stored =>
    intro id stored
    obtain ⟨suspended, window, runs, found⟩ := tended.stored id stored
    exact ⟨suspended, window, runs, kept found⟩
  case owned =>
    intro id window generation found armed
    rcases split found with ⟨rfl, rfl, rfl⟩ | ⟨apart, found⟩
    · exact .inr (.inl store)
    · have armed : timers.isArmed id = true := by simpa [Timers.isArmed_schedule, apart] using armed
      rcases tended.owned id window generation found armed with stored | stores | disarms
      · exact .inl stored
      · exact .inr (.inl (replaces.keep stores rfl (by simp)))
      · exact .inr (.inr (replaces.keep disarms rfl (by simp)))
  case linked =>
    intro id window found suspended
    rcases split found with ⟨rfl, rfl, rfl⟩ | ⟨apart, found⟩
    · exact .inr store
    · rcases tended.linked id window found suspended with stored | stores
      · exact .inl stored
      · exact .inr (replaces.keep stores rfl (by simp))
  case alive =>
    intro window suspended runs
    rcases tended.alive window suspended runs with arm | ⟨id, found, armed | asked⟩
    · rcases replaces.kept _ arm rfl with same | arm
      · cases same
        refine .inr ⟨timers.list.length + 1, ?_, .inl ?_⟩
        · rw [Timers.callback?_schedule, if_pos rfl]
        · simp [Timers.isArmed_schedule]
      · exact .inl arm
    · exact .inr ⟨id, kept found, .inl (by simp [Timers.isArmed_schedule, armed])⟩
    · exact .inr ⟨id, kept found, .inr (replaces.keep asked rfl (by simp))⟩
  case disarms =>
    intro id member
    rcases older member rfl with old | new
    · obtain ⟨s, window, generation, found, stale⟩ := tended.disarms id old
      exact ⟨s, window, generation, kept found, stale⟩
    · cases new
  case stores =>
    intro id generation member
    rcases older member rfl with old | new
    · obtain ⟨window, found⟩ := tended.stores id generation old
      exact ⟨window, kept found⟩
    · cases new
      refine ⟨arming.window, ?_⟩
      rw [Timers.callback?_schedule, if_pos rfl]

theorem disarmed (tended : Tended works timers r x) {work : Work} {id : Nat}
    (replaces : Replaces works work pushed works') (none : ∀ f ∈ pushed, f.tends = false)
    (asks : work = .disarm id ∨ work.tends = false)
    (stale : ∀ window, timers.callback? id = some (.expire r window x.generation) → x.state ≠ .suspended) :
    Tended works' (timers.disarm id) r x := by
  have keep {f : Work} (member : f ∈ works) (tends : f.tends = true) (apart : f ≠ .disarm id) : f ∈ works' := by
    rcases asks with rfl | outer
    · exact replaces.keep member tends apart
    · exact replaces.keep_outer outer member tends
  constructor <;> simp only [Timers.callback?_disarm]
  · exact tended.stored
  · intro other window generation found armed
    rw [Timers.isArmed_disarm, Bool.and_eq_true, bne_iff_ne] at armed
    rcases tended.owned other window generation found armed.2 with stored | stores | disarms
    · exact .inl stored
    · exact .inr (.inl (keep stores rfl (by simp)))
    · refine .inr (.inr (keep disarms rfl ?_))
      intro same
      cases same
      exact armed.1 rfl
  · intro other window found suspended
    rcases tended.linked other window found suspended with stored | stores
    · exact .inl stored
    · exact .inr (keep stores rfl (by simp))
  · intro window suspended runs
    rcases tended.alive window suspended runs with arm | ⟨other, found, armed | asked⟩
    · exact .inl (keep arm rfl (by simp))
    · have apart : id ≠ other := by
        rintro rfl
        exact stale window found suspended
      exact .inr ⟨other, found, .inl (by simp [Timers.isArmed_disarm, apart, armed])⟩
    · exact .inr ⟨other, found, .inr (keep asked rfl (by simp))⟩
  · intro other member
    exact tended.disarms other (replaces.old none member rfl)
  · intro other generation member
    exact tended.stores other generation (replaces.old none member rfl)

theorem fired (tended : Tended works timers r x) {work : Work} {id : Nat} {callback : Callback}
    (replaces : Replaces works work pushed works') (outer : work.tends = false)
    (found : timers.callback? id = some callback) (runs : ∀ f ∈ callback.work id, f ∈ pushed)
    (only : ∀ f ∈ pushed, f.tends = true → f ∈ callback.work id) : Tended works' (timers.spend id) r x := by
  have keep {f : Work} (member : f ∈ works) (tends : f.tends = true) : f ∈ works' :=
    replaces.keep_outer outer member tends
  have older {f : Work} (member : f ∈ works') (tends : f.tends = true)
      (apart : ∀ s window generation, f ≠ .request s (.expire window generation)) : f ∈ works := by
    rcases replaces.left f member with old | new
    · exact old
    · rcases Callback.mem_work (only f new tends) with ⟨s, window, generation, -, rfl | rfl⟩ | ⟨body, -, rfl⟩
      · exact absurd rfl (apart s window generation)
      · cases tends
      · cases tends
  constructor <;> simp only [Timers.callback?_spend]
  · exact tended.stored
  · intro other window generation given armed
    rw [Timers.isArmed_spend, Bool.and_eq_true] at armed
    rcases tended.owned other window generation given armed.2 with stored | stores | disarms
    · exact .inl stored
    · exact .inr (.inl (keep stores rfl))
    · exact .inr (.inr (keep disarms rfl))
  · intro other window given suspended
    rcases tended.linked other window given suspended with stored | stores
    · exact .inl stored
    · exact .inr (keep stores rfl)
  · intro window suspended active
    rcases tended.alive window suspended active with arm | ⟨other, given, armed | asked⟩
    · exact .inl (keep arm rfl)
    · refine .inr ⟨other, given, ?_⟩
      by_cases same : id = other
      · subst same
        rw [found] at given
        cases given
        exact .inr (replaces.done _ (runs _ (List.mem_cons_self ..)))
      · exact .inl (by simp [Timers.isArmed_spend, same, armed])
    · exact .inr ⟨other, given, .inr (keep asked rfl)⟩
  · intro other member
    exact tended.disarms other (older member rfl (by simp))
  · intro other generation member
    exact tended.stores other generation (older member rfl (by simp))

/-- A refusal loses nothing: a timer of the running clock is not refused by a suspended response. -/
theorem refused (tended : Tended works timers r x) {s : Nat} {asked : Request} {error : TransitionError}
    (replaces : Replaces works (.request s asked) [] works') (refused : s = r → asked.grant r x = .error error) :
    Tended works' timers r x := by
  have older {f : Work} (member : f ∈ works') : f ∈ works :=
    (replaces.left f member).resolve_right List.not_mem_nil
  have keeps {id generation : Nat} (member : .request r (.keepTimer id generation) ∈ works) :
      .request r (.keepTimer id generation) ∈ works' := by
    apply replaces.keep member rfl
    intro same
    cases same
    have := refused rfl
    simp only [Request.grant] at this
    split at this <;> cases this
  constructor
  case stored => exact tended.stored
  case owned =>
    intro id window generation found armed
    rcases tended.owned id window generation found armed with stored | stores | disarms
    · exact .inl stored
    · exact .inr (.inl (keeps stores))
    · exact .inr (.inr (replaces.keep disarms rfl (by simp)))
  case linked =>
    intro id window found suspended
    rcases tended.linked id window found suspended with stored | stores
    · exact .inl stored
    · exact .inr (keeps stores)
  case alive =>
    intro window suspended runs
    rcases tended.alive window suspended runs with arm | ⟨id, found, armed | asks⟩
    · exact .inl (replaces.keep arm rfl (by simp))
    · exact .inr ⟨id, found, .inl armed⟩
    · refine .inr ⟨id, found, .inr (replaces.keep asks rfl ?_)⟩
      intro same
      cases same
      have := refused rfl
      simp [Request.grant, Request.conclude, Response.resolve, suspended, Except.map] at this
  case disarms =>
    intro id member
    exact tended.disarms id (older member)
  case stores =>
    intro id generation member
    exact tended.stores id generation (older member)

end Tended

theorem Grant.work_tends {r : Nat} {x : Response String Listener} {asked : Request} {g : Grant}
    (granted : asked.grant r x = .ok g) {f : Work} (member : f ∈ g.work r) (tends : f.tends = true) :
    (∃ id, g.disarms = some id ∧ f = .disarm id) ∨ ∃ arming, g.arms = some arming ∧ f = .arm r arming := by
  cases inner : f.isInner with
  | false =>
    rw [Work.tends_outer inner] at tends
    cases tends
  | true =>
    rcases Request.grant_work granted member inner with disarm | arm | ⟨operation, rfl⟩
    · exact .inl disarm
    · exact .inr arm
    · cases tends

theorem Work.tends_request {work : Work} {r : Nat} {asked : Request} (asks : work.request? = some (r, asked))
    (unnamed : asked.generation? = none) : work.tends = false := by
  cases work with
  | request s other =>
    cases asks
    cases asked <;> first | rfl | cases unnamed
  | call => rfl
  | _ => cases asks

namespace Tended

variable {rule : World → Thread → Prop} {h : History} {p : Pool} {r : Nat} {x : Response String Listener}
  {asked : Request} {grant : Grant} {work : Work} {works' : List Work}

/-- A grant to one response disarms a timer of that response, of a clock that runs no more. -/
theorem grant_disarms (tended : Tended p.works p.world.timers r x) (granted : asked.grant r x = .ok grant)
    (grants : Grants r x asked grant) (asks : ∃ work ∈ p.works, work.request? = some (r, asked)) {id : Nat}
    (disarms : grant.disarms = some id) :
    ∃ window generation, p.world.timers.callback? id = some (.expire r window generation) ∧
      (generation ≠ grant.response.generation ∨ grant.response.state.isTerminal = true) := by
  cases grants with
  | declare | suspend | subscribe | store => cases disarms
  | start starts unresolved =>
    obtain ⟨-, window, -, found⟩ := tended.stored id disarms
    exact ⟨window, x.generation, found, .inl (by simp [Response.started])⟩
  | finish ends current unresolved =>
    obtain ⟨-, window, -, found⟩ := tended.stored id disarms
    exact ⟨window, x.generation, found, .inr (by simp [Response.resolved])⟩
  | stale stale =>
    cases disarms
    obtain ⟨work, member, asks⟩ := asks
    rw [Work.eq_request asks rfl] at member
    obtain ⟨window, found⟩ := tended.stores _ _ member
    exact ⟨window, _, found, stale.imp_left Ne.symm⟩

theorem granted_other (tended : Tended p.works p.world.timers r x) {s : Nat} {y : Response String Listener}
    (others : Tended p.works p.world.timers s y) (apart : s ≠ r) (granted : asked.grant s y = .ok grant)
    (grants : Grants s y asked grant) (asks : work.request? = some (s, asked))
    (replaces : Replaces p.works work (grant.work s) works') : Tended works' p.world.timers r x := by
  apply tended.frame ⟨rfl, rfl, rfl, rfl⟩
  · intro f member tends same
    apply replaces.keep member tends
    rintro rfl
    cases f with
    | request s' other =>
      cases asks
      exact apart (same _ _ rfl)
    | call => cases tends
    | _ => cases asks
  · intro f member tends
    rcases replaces.left f member with old | new
    · exact .inl old
    · rcases Grant.work_tends granted new tends with ⟨id, disarms, rfl⟩ | ⟨arming, -, rfl⟩
      · obtain ⟨window, generation, found, -⟩ := others.grant_disarms granted grants ⟨work, replaces.had, asks⟩ disarms
        exact .inr (.inr ⟨id, s, window, generation, rfl, found, apart⟩)
      · exact .inr (.inl ⟨s, arming, rfl⟩)

private theorem granted_disarms (tended : Tended p.works p.world.timers r x) (granted : asked.grant r x = .ok grant)
    (grants : Grants r x asked grant) (asks : work.request? = some (r, asked))
    (bounded : ∀ id window generation, p.world.timers.callback? id = some (.expire r window generation) →
      generation ≤ x.generation)
    (replaces : Replaces p.works work (grant.work r) works') (id : Nat) (member : .disarm id ∈ works') :
    ∃ s window generation, p.world.timers.callback? id = some (.expire s window generation) ∧
      (s = r → generation ≠ grant.response.generation ∨ grant.response.state.isTerminal = true) := by
  rcases replaces.left _ member with old | new
  · obtain ⟨s, window, generation, found, stale⟩ := tended.disarms id old
    refine ⟨s, window, generation, found, ?_⟩
    rintro rfl
    have below := bounded id window generation found
    rcases stale rfl with behind | terminal
    · left
      rcases grants.clock with ⟨-, -, -, number⟩ | ⟨-, -, number⟩ <;> omega
    · obtain ⟨state, -⟩ := grants.frozen terminal
      exact .inr (by rw [state]; exact terminal)
  · rcases Grant.work_tends granted new rfl with ⟨other, disarms, same⟩ | ⟨arming, -, same⟩
    · cases same
      obtain ⟨window, generation, found, stale⟩ := tended.grant_disarms granted grants ⟨work, replaces.had, asks⟩ disarms
      exact ⟨r, window, generation, found, fun _ => stale⟩
    · cases same

private theorem granted_stores (tended : Tended p.works p.world.timers r x) (granted : asked.grant r x = .ok grant)
    (replaces : Replaces p.works work (grant.work r) works') (id generation : Nat)
    (member : .request r (.keepTimer id generation) ∈ works') :
    ∃ window, p.world.timers.callback? id = some (.expire r window generation) := by
  rcases replaces.left _ member with old | new
  · exact tended.stores id generation old
  · rcases Grant.work_tends granted new rfl with ⟨other, -, same⟩ | ⟨arming, -, same⟩ <;> cases same

theorem started (tended : Tended p.works p.world.timers r x) {window : Duration} {event : LogEvent}
    (starts : asked.starts? x = some window) (unresolved : x.state.isTerminal = false)
    (granted : asked.grant r x = .ok {
      response := x.started window
      disarms := x.timer
      tells := [.record event]
      arms := some ⟨window, x.generation + 1⟩ })
    (bounded : ∀ id window generation, p.world.timers.callback? id = some (.expire r window generation) →
      generation ≤ x.generation)
    (asks : work.request? = some (r, asked))
    (replaces : Replaces p.works work (Grant.work {
      response := x.started window
      disarms := x.timer
      tells := [.record event]
      arms := some ⟨window, x.generation + 1⟩ } r) works') :
    Tended works' p.world.timers r (x.started window) := by
  have outer : work.tends = false := Work.tends_request asks (by cases asked <;> first | rfl | cases starts)
  have keep {f : Work} (member : f ∈ p.works) (tends : f.tends = true) : f ∈ works' :=
    replaces.keep_outer outer member tends
  have arm : .arm r ⟨window, x.generation + 1⟩ ∈ works' := replaces.done _ (by simp [Grant.work])
  refine ⟨?_, ?_, ?_, ?_, tended.granted_disarms granted (.start starts unresolved) asks bounded replaces,
    tended.granted_stores granted replaces⟩
  · intro id stored
    cases stored
  · intro id after generation found armed
    rcases tended.owned id after generation found armed with stored | stores | disarms
    · exact .inr (.inr (replaces.done _ (by simp [Grant.work, stored])))
    · exact .inr (.inl (keep stores rfl))
    · exact .inr (.inr (keep disarms rfl))
  · intro id after found suspended
    have := bounded id after _ found
    exact absurd this (by simp [Response.started])
  · intro after suspended runs
    cases runs
    exact .inl arm

theorem finished (tended : Tended p.works p.world.timers r x) {operation : Operation} {outcome : Outcome String}
    (grants : Grants r x asked grant) (granted : asked.grant r x = .ok grant)
    (ends : asked.ending? = some (operation, outcome)) (disarms : grant.disarms = x.timer)
    (response : grant.response = x.resolved outcome)
    (bounded : ∀ id window generation, p.world.timers.callback? id = some (.expire r window generation) →
      generation ≤ x.generation)
    (asks : work.request? = some (r, asked)) (replaces : Replaces p.works work (grant.work r) works') :
    Tended works' p.world.timers r grant.response := by
  have old := tended.granted_disarms granted grants asks bounded replaces
  rw [response] at old ⊢
  have terminal : (x.resolved outcome).state ≠ .suspended := by
    intro suspended
    have ended := outcome.isTerminal_state
    rw [show outcome.state = .suspended from suspended] at ended
    cases ended
  refine ⟨?_, ?_, ?_, ?_, old, tended.granted_stores granted replaces⟩
  · intro id stored
    cases stored
  · intro id window generation found armed
    rcases tended.owned id window generation found armed with stored | stores | disarm
    · exact .inr (.inr (replaces.done _ (by simp [Grant.work, disarms, stored])))
    · refine .inr (.inl (replaces.keep stores rfl ?_))
      rintro rfl
      cases asks
      cases ends
    · refine .inr (.inr (replaces.keep disarm rfl ?_))
      rintro rfl
      cases asks
  · intro id window found suspended
    exact absurd suspended terminal
  · intro window suspended
    exact absurd suspended terminal

theorem kept (valid : Pool.Valid h p) (tended : Tended p.works p.world.timers r (p.world.response r)) {id : Nat}
    (unresolved : (p.world.response r).state.isTerminal = false)
    (member : .request r (.keepTimer id (p.world.response r).generation) ∈ p.works)
    (kept : ∀ f ∈ p.works, f.tends = true → f = .request r (.keepTimer id (p.world.response r).generation) ∨ f ∈ works')
    (left : ∀ f ∈ works', f ∈ p.works) :
    Tended works' p.world.timers r { p.world.response r with timer := some id } := by
  obtain ⟨window, own⟩ := tended.stores id _ member
  obtain ⟨tick, started⟩ := valid.arming_of_callback (Timers.callback_mem own)
  have suspended : (p.world.response r).state = .suspended := by
    have pending := valid.not_pending started
    cases state : (p.world.response r).state <;> simp_all
  constructor
  case stored =>
    intro other same
    cases same
    exact ⟨suspended, window, valid.active_of_current started rfl, own⟩
  case owned =>
    intro other after generation found armed
    rcases tended.owned other after generation found armed with stored | stores | disarms
    · obtain ⟨-, last, -, current⟩ := tended.stored other stored
      exact .inl (congrArg some (valid.callback_unique own current))
    · rcases kept _ stores rfl with same | stores
      · cases same
        exact .inl rfl
      · exact .inr (.inl stores)
    · exact .inr (.inr ((kept _ disarms rfl).resolve_left (by simp)))
  case linked =>
    intro other after found _
    exact .inl (congrArg some (valid.callback_unique own found))
  case alive =>
    intro after suspended runs
    rcases tended.alive after suspended runs with arm | ⟨other, found, armed | asked⟩
    · exact .inl ((kept _ arm rfl).resolve_left (by simp))
    · exact .inr ⟨other, found, .inl armed⟩
    · exact .inr ⟨other, found, .inr ((kept _ asked rfl).resolve_left (by simp))⟩
  case disarms =>
    intro other member
    exact tended.disarms other (left _ member)
  case stores =>
    intro other generation member
    exact tended.stores other generation (left _ member)

theorem outdated (tended : Tended p.works p.world.timers r x) {id generation : Nat}
    (stale : x.generation ≠ generation ∨ x.state.isTerminal = true)
    (granted : (Request.keepTimer id generation).grant r x = .ok { response := x, disarms := some id, returns := [] })
    (bounded : ∀ id window generation, p.world.timers.callback? id = some (.expire r window generation) →
      generation ≤ x.generation)
    (replaces : Replaces p.works (.request r (.keepTimer id generation))
      (Grant.work { response := x, disarms := some id, returns := [] } r) works') :
    Tended works' p.world.timers r x := by
  have disarm : .disarm id ∈ works' := replaces.done _ (by simp [Grant.work])
  refine ⟨tended.stored, ?_, ?_, ?_, tended.granted_disarms granted (.stale stale) rfl bounded replaces,
    tended.granted_stores granted replaces⟩
  · intro other window number found armed
    rcases tended.owned other window number found armed with stored | stores | disarms
    · exact .inl stored
    · rcases replaces.kept _ stores rfl with same | stores
      · cases same
        exact .inr (.inr disarm)
      · exact .inr (.inl stores)
    · exact .inr (.inr (replaces.keep disarms rfl (by simp)))
  · intro other window found suspended
    rcases tended.linked other window found suspended with stored | stores
    · exact .inl stored
    · refine .inr (replaces.keep stores rfl ?_)
      intro same
      cases same
      rcases stale with behind | terminal
      · exact behind rfl
      · rw [suspended] at terminal
        cases terminal
  · intro window suspended runs
    rcases tended.alive window suspended runs with arm | ⟨other, found, armed | asked⟩
    · exact .inl (replaces.keep arm rfl (by simp))
    · exact .inr ⟨other, found, .inl armed⟩
    · exact .inr ⟨other, found, .inr (replaces.keep asked rfl (by simp))⟩

/-- A suspension without a window leaves no timer behind, for there was none. -/
theorem suspended (valid : Pool.Valid h p) (tended : Tended p.works p.world.timers r (p.world.response r))
    (pending : (p.world.response r).state = .pending) {pushed : List Work} (replaces : Replaces p.works work pushed works')
    (outer : work.tends = false) (none : ∀ f ∈ pushed, f.tends = false) :
    Tended works' p.world.timers r { p.world.response r with state := .suspended } := by
  have fresh := (valid.sound r).fresh pending
  have inactive : (p.world.response r).active = .none := (valid.sound r).running.mpr fresh.1
  have quiet := tended.quiet replaces (y := p.world.response r) ⟨rfl, rfl, rfl, rfl⟩ outer none
  refine ⟨?_, quiet.owned, ?_, ?_, ?_, quiet.stores⟩
  · intro id stored
    rw [show (p.world.response r).timer = .none from fresh.2] at stored
    cases stored
  · intro id window found _
    obtain ⟨tick, started⟩ := valid.arming_of_callback (Timers.callback_mem found)
    exact absurd pending (valid.not_pending started)
  · intro window _ runs
    rw [show (p.world.response r).active = .none from inactive] at runs
    cases runs
  · intro id member
    obtain ⟨s, window, generation, found, stale⟩ := quiet.disarms id member
    refine ⟨s, window, generation, found, ?_⟩
    intro same
    rcases stale same with behind | terminal
    · exact .inl behind
    · rw [pending] at terminal
      cases terminal

theorem granted_own (valid : Pool.Valid h p) (tended : Tended p.works p.world.timers r (p.world.response r))
    (granted : asked.grant r (p.world.response r) = .ok grant) (asks : work.request? = some (r, asked))
    (replaces : Replaces p.works work (grant.work r) works') : Tended works' p.world.timers r grant.response := by
  have bounded (id : Nat) (window : Duration) (generation : Nat)
      (found : p.world.timers.callback? id = some (.expire r window generation)) :
      generation ≤ (p.world.response r).generation := by
    obtain ⟨tick, started⟩ := valid.arming_of_callback (Timers.callback_mem found)
    exact (valid.generation_le started).2
  have none (disarms : grant.disarms = .none) (arms : grant.arms = .none) : ∀ f ∈ grant.work r, f.tends = false := by
    intro f member
    cases tends : f.tends with
    | false => rfl
    | true =>
      rcases Grant.work_tends granted member tends with ⟨id, disarm, -⟩ | ⟨arming, arm, -⟩
      · rw [disarms] at disarm; cases disarm
      · rw [arms] at arm; cases arm
  have grants := Request.grant_cases (valid.sound r) granted
  cases grants with
  | declare pending =>
    exact tended.quiet replaces ⟨rfl, rfl, rfl, rfl⟩ (Work.tends_request asks rfl) (none rfl rfl)
  | suspend pending undeclared =>
    exact suspended valid tended pending replaces (Work.tends_request asks rfl) (none rfl rfl)
  | start starts unresolved => exact tended.started starts unresolved granted bounded asks replaces
  | finish ends current unresolved =>
    exact tended.finished (.finish ends current unresolved) granted ends rfl rfl bounded asks replaces
  | subscribe =>
    refine tended.quiet replaces ?_ (Work.tends_request asks rfl) (none rfl rfl)
    unfold Response.subscribe
    split <;> exact ⟨rfl, rfl, rfl, rfl⟩
  | store unresolved =>
    cases Work.eq_request asks rfl
    apply kept valid tended unresolved replaces.had replaces.kept
    intro f member
    rcases replaces.left f member with old | new
    · exact old
    · exact absurd new (by simp [Grant.work])
  | stale stale =>
    cases Work.eq_request asks rfl
    exact tended.outdated stale granted bounded replaces

end Tended

end Deferral.Simulation
