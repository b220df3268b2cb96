import Deferral.Proofs.Armings
import Deferral.Proofs.Endings

/-! What holds of every pool that a run reaches, whatever its threads ask and in whatever order. The
history decides each response's outcome and clock, and every timer callback and every half-finished
arming is one of the starts that the history tells of. -/

namespace Deferral.Simulation
open Response (Arming)

namespace Grants

variable {r : Nat} {x : Response String Listener} {request : Request} {g : Grant}

theorem clock (grants : Grants r x request g) :
    (∃ window, g.arms = some ⟨window, x.generation + 1⟩ ∧ g.response.active = some window ∧
      g.response.generation = x.generation + 1) ∨
    (g.arms = none ∧ g.response.active = x.active ∧ g.response.generation = x.generation) := by
  cases grants with
  | @start _ window _ starts unresolved => exact .inl ⟨window, rfl, rfl, rfl⟩
  | subscribe =>
    right
    unfold Response.subscribe
    split <;> exact ⟨rfl, rfl, rfl⟩
  | declare | suspend | finish | store | stale => exact .inr ⟨rfl, rfl, rfl⟩

theorem outcome (grants : Grants r x request g) (sound : Sound x) :
    g.response.outcome.toList = x.outcome.toList ++ request.ending?.toList.map Prod.snd := by
  cases grants with
  | start starts unresolved =>
    have none : request.ending? = none := by
      cases request <;> first | rfl | cases starts
    simp [none, Response.started]
  | finish ends current unresolved =>
    have none : x.outcome = none := by
      simpa [unresolved] using sound.agrees
    simp [ends, none, Response.resolved]
  | subscribe =>
    unfold Response.subscribe
    split <;> simp [Request.ending?]
  | declare | suspend | store | stale => simp [Request.ending?]

end Grants

namespace Pool

structure Valid (h : History) (p : Pool) : Prop where
  sound : ∀ r, Sound (p.world.response r)
  ended : ∀ r, (endings r h).map Prod.snd = (p.world.response r).outcome.toList
  numbered : ∀ r, (armings r h).map (·.2.generation) = List.range' 1 (p.world.response r).generation
  current : ∀ r, (p.world.response r).active = (armings r h).getLast?.map (·.2.window)
  scheduled : ∀ r arming, p.inflight r arming ≤ ((armings r h).map Prod.snd).count arming
  attempts : ∀ r window generation, .request r (.expire window generation) ∈ p.works →
    ∃ tick, (tick, ⟨window, generation⟩) ∈ armings r h
  stores : ∀ r timer generation, .request r (.keepTimer timer generation) ∈ p.works →
    ∃ tick window, (tick, ⟨window, generation⟩) ∈ armings r h
  returns : ∀ r, p.works.countP (·.settles r) + h.countP (·.settles r) ≤ (endings r h).length

namespace Valid

variable {rule : World → Thread → Prop} {p q : Pool} {h notes : History}

theorem initial (drive : Drive) : Valid [] (start drive) := by
  have response (r : Nat) : (start drive).world.response r = {} := rfl
  have inflight (r : Nat) (arming : Arming) : (start drive).inflight r arming = 0 := rfl
  constructor <;> intro r
  · exact .initial _
  · simp [response, endings]
  · simp [response, armings]
  · simp [response, armings]
  · intro arming
    rw [inflight]
    exact Nat.zero_le _
  · intro window generation member
    cases member
  · intro timer generation member
    cases member
  · exact Nat.le_refl _

theorem arming_of_inflight (valid : Valid h p) {r : Nat} {arming : Arming} (flies : 0 < p.inflight r arming) :
    ∃ tick, (tick, arming) ∈ armings r h := by
  have started : 0 < ((armings r h).map Prod.snd).count arming := Nat.lt_of_lt_of_le flies (valid.scheduled r arming)
  obtain ⟨⟨tick, same⟩, member, rfl⟩ := List.mem_map.mp (List.count_pos_iff.mp started)
  exact ⟨tick, member⟩

theorem arming_of_arm (valid : Valid h p) {r : Nat} {arming : Arming} (member : .arm r arming ∈ p.works) :
    ∃ tick, (tick, arming) ∈ armings r h := by
  have counts : 0 < p.works.countP (·.arms r arming) :=
    List.countP_pos_iff.mpr ⟨_, member, by simp [Work.arms]⟩
  exact valid.arming_of_inflight (Nat.lt_of_lt_of_le counts (Nat.le_add_right _ _))

theorem arming_of_callback (valid : Valid h p) {r : Nat} {window : Duration} {generation : Nat}
    (member : .expire r window generation ∈ p.world.timers.callbacks) :
    ∃ tick, (tick, ⟨window, generation⟩) ∈ armings r h := by
  have counts : 0 < p.world.timers.callbacks.countP (·.expires r ⟨window, generation⟩) :=
    List.countP_pos_iff.mpr ⟨_, member, by simp [Callback.expires]⟩
  exact valid.arming_of_inflight (Nat.lt_of_lt_of_le counts (Nat.le_add_left _ _))

theorem generation_le (valid : Valid h p) {r tick : Nat} {arming : Arming} (member : (tick, arming) ∈ armings r h) :
    0 < arming.generation ∧ arming.generation ≤ (p.world.response r).generation := by
  have inside : arming.generation ∈ (armings r h).map (·.2.generation) := List.mem_map.mpr ⟨_, member, rfl⟩
  rw [valid.numbered r, List.mem_range'_1] at inside
  omega

theorem positive (valid : Valid h p) {r : Nat} {asked : Request} (asks : ∃ work ∈ p.works, work.request? = some (r, asked))
    (n : Nat) (named : asked.generation? = some n) : 0 < n := by
  obtain ⟨work, member, asks⟩ := asks
  rw [Work.eq_request asks named] at member
  cases asked with
  | expire window generation =>
    cases named
    obtain ⟨tick, started⟩ := valid.attempts r window _ member
    exact (valid.generation_le started).1
  | keepTimer timer generation =>
    cases named
    obtain ⟨tick, window, started⟩ := valid.stores r timer _ member
    exact (valid.generation_le started).1
  | _ => cases named

/-- A request is granted to a response that keeps its bounds, by one of the few ways there are. -/
theorem grants (valid : Valid h p) {r : Nat} {asked : Request} {x : Response String Listener} {grant : Grant}
    (found : p.world.responses[r]? = some x) (granted : asked.grant r x = .ok grant) : Grants r x asked grant := by
  have sound := valid.sound r
  rw [World.response_found found] at sound
  exact Request.grant_cases sound granted

private theorem attempts_preserves (valid : Valid h p) (step : Step rule p notes q) (r : Nat) (window : Duration)
    (generation : Nat) (member : .request r (.expire window generation) ∈ q.works) :
    ∃ tick, (tick, ⟨window, generation⟩) ∈ armings r (h ++ notes) := by
  rw [armings_append]
  rcases step.inner member rfl with old | ⟨work, present, left⟩ | ⟨id, same | same⟩
  · obtain ⟨tick, started⟩ := valid.attempts r window generation old
    exact ⟨tick, List.mem_append_left _ started⟩
  · obtain ⟨id, callback, -⟩ := left.expire
    obtain ⟨tick, started⟩ := valid.arming_of_callback (Timers.callback_mem callback)
    exact ⟨tick, List.mem_append_left _ started⟩
  · cases same
  · cases same

private theorem stores_preserves (valid : Valid h p) (step : Step rule p notes q) (r timer generation : Nat)
    (member : .request r (.keepTimer timer generation) ∈ q.works) :
    ∃ tick window, (tick, ⟨window, generation⟩) ∈ armings r (h ++ notes) := by
  rw [armings_append]
  rcases step.inner member rfl with old | ⟨work, present, left⟩ | ⟨id, same | same⟩
  · obtain ⟨tick, window, started⟩ := valid.stores r timer generation old
    exact ⟨tick, window, List.mem_append_left _ started⟩
  · obtain ⟨window, arms⟩ := left.keepTimer
    rw [arms] at present
    obtain ⟨tick, started⟩ := valid.arming_of_arm present
    exact ⟨tick, window, List.mem_append_left _ started⟩
  · cases same
  · cases same

theorem step_preserves (valid : Valid h p) (step : Step rule p notes q) : Valid (h ++ notes) q := by
  have response (r : Nat) : Sound (q.world.response r) ∧
      (endings r (h ++ notes)).map Prod.snd = (q.world.response r).outcome.toList ∧
      (armings r (h ++ notes)).map (·.2.generation) = List.range' 1 (q.world.response r).generation ∧
      (q.world.response r).active = (armings r (h ++ notes)).getLast?.map (·.2.window) := by
    have sound := valid.sound r
    have ended := valid.ended r
    have numbered := valid.numbered r
    have current := valid.current r
    rw [endings_append, armings_append]
    cases step.touches r with
    | @granted asked x grant asks found granted after told =>
      have grants := valid.grants found granted
      have before := World.response_found found
      have later := World.response_found after
      rw [before] at sound ended numbered current
      rw [later, told, endings_served, armings_served]
      refine ⟨grants.keeps_sound sound (valid.positive asks), ?_, ?_⟩
      · rw [List.map_append, ended, grants.outcome sound, List.map_map]
        rfl
      · rcases grants.clock with ⟨window, arms, active, generation⟩ | ⟨none, active, generation⟩
        · rw [arms, active, generation, List.range'_concat, ← numbered]
          simp [Nat.add_comm]
        · rw [none, active, generation]
          simpa using ⟨numbered, current⟩
    | kept same stays untold =>
      rw [same, endings_untold untold, armings_untold untold, List.append_nil, List.append_nil]
      exact ⟨⟨sound.agrees, sound.fresh, sound.disarmed, sound.running⟩, ended, numbered, current⟩
  refine ⟨fun r => (response r).1, fun r => (response r).2.1, fun r => (response r).2.2.1,
    fun r => (response r).2.2.2, ?_, valid.attempts_preserves step, valid.stores_preserves step, ?_⟩
  · intro r arming
    have flies := step.inflight_le r arming
    have old := valid.scheduled r arming
    rw [armings_append, List.map_append, List.count_append]
    omega
  · intro r
    have returns := step.settles_le r
    have old := valid.returns r
    rw [endings_append, List.countP_append, List.length_append]
    omega

theorem run_preserves (valid : Valid h p) (run : Run rule p notes q) : Valid (h ++ notes) q := by
  induction run with
  | refl =>
    rw [List.append_nil]
    exact valid
  | step run next ih =>
    rw [← List.append_assoc]
    exact ih.step_preserves next

theorem of_run {drive : Drive} (run : Run rule (start drive) h p) : Valid h p :=
  (initial drive).run_preserves run

theorem generation_getElem (valid : Valid h p) {r i tick : Nat} {arming : Arming}
    (found : (armings r h)[i]? = some (tick, arming)) :
    arming.generation = i + 1 ∧ i < (p.world.response r).generation := by
  have named : ((armings r h).map (·.2.generation))[i]? = some arming.generation := by
    rw [List.getElem?_map, found]
    rfl
  rw [valid.numbered r] at named
  obtain ⟨inside, same⟩ := List.getElem?_eq_some_iff.mp named
  rw [List.length_range'] at inside
  rw [List.getElem_range'] at same
  omega

theorem length_armings (valid : Valid h p) (r : Nat) :
    (armings r h).length = (p.world.response r).generation := by
  have numbered := congrArg List.length (valid.numbered r)
  rwa [List.length_map, List.length_range'] at numbered

/-- The last start of a clock is the one that took the current generation. -/
theorem last_iff (valid : Valid h p) {r tick : Nat} {arming : Arming} (member : (tick, arming) ∈ armings r h) :
    (∃ tick, (armings r h).getLast? = some (tick, arming)) ↔ arming.generation = (p.world.response r).generation := by
  obtain ⟨i, found⟩ := List.mem_iff_getElem?.mp member
  obtain ⟨number, inside⟩ := valid.generation_getElem found
  have length := valid.length_armings r
  rw [List.getLast?_eq_getElem?, length]
  constructor
  · rintro ⟨last, same⟩
    have := (valid.generation_getElem same).1
    omega
  · intro current
    refine ⟨tick, ?_⟩
    rw [show (p.world.response r).generation - 1 = i by omega]
    exact found

theorem armings_nodup (valid : Valid h p) (r : Nat) : ((armings r h).map Prod.snd).Nodup := by
  have numbers : (((armings r h).map Prod.snd).map (·.generation)).Nodup := by
    rw [List.map_map]
    have numbered := valid.numbered r
    rw [show (fun x : Nat × Arming => x.2.generation) = (·.generation) ∘ Prod.snd from rfl] at numbered
    rw [numbered]
    exact List.nodup_range'
  exact List.Pairwise.of_map (·.generation) (fun _ _ apart same => apart (congrArg _ same)) numbers

theorem inflight_le_one (valid : Valid h p) (r : Nat) (arming : Arming) : p.inflight r arming ≤ 1 :=
  Nat.le_trans (valid.scheduled r arming) (List.nodup_iff_count.mp (valid.armings_nodup r) arming)

theorem found (valid : Valid h p) {r tick : Nat} {arming : Arming} (member : (tick, arming) ∈ armings r h) :
    p.world.responses[r]? = some (p.world.response r) := by
  obtain ⟨positive, bounded⟩ := valid.generation_le member
  cases found : p.world.responses[r]? with
  | some x => rw [World.response, found]; rfl
  | none =>
    rw [World.response, found] at bounded
    exact absurd (Nat.lt_of_lt_of_le positive bounded) (Nat.lt_irrefl 0)

theorem not_pending (valid : Valid h p) {r tick : Nat} {arming : Arming} (member : (tick, arming) ∈ armings r h) :
    (p.world.response r).state ≠ .pending := by
  intro pending
  obtain ⟨positive, bounded⟩ := valid.generation_le member
  have := ((valid.sound r).fresh pending).1
  omega

theorem arming_unique (valid : Valid h p) {r tick other : Nat} {arming another : Arming}
    (first : (tick, arming) ∈ armings r h) (second : (other, another) ∈ armings r h)
    (same : arming.generation = another.generation) : tick = other ∧ arming = another := by
  obtain ⟨i, found⟩ := List.mem_iff_getElem?.mp first
  obtain ⟨j, found'⟩ := List.mem_iff_getElem?.mp second
  have number := (valid.generation_getElem found).1
  have number' := (valid.generation_getElem found').1
  rw [show i = j by omega, found'] at found
  cases found
  exact ⟨rfl, rfl⟩

theorem callback_unique (valid : Valid h p) {r i j generation : Nat} {window other : Duration}
    (first : p.world.timers.callback? i = some (.expire r window generation))
    (second : p.world.timers.callback? j = some (.expire r other generation)) : i = j := by
  obtain ⟨tick, started⟩ := valid.arming_of_callback (Timers.callback_mem first)
  obtain ⟨tick', started'⟩ := valid.arming_of_callback (Timers.callback_mem second)
  cases (valid.arming_unique started started' rfl).2
  have once : p.world.timers.callbacks.countP (·.expires r ⟨window, generation⟩) ≤ 1 :=
    Nat.le_trans (Nat.le_add_left _ _) (valid.inflight_le_one r ⟨window, generation⟩)
  exact Timers.callback?_unique once first second (by simp [Callback.expires]) (by simp [Callback.expires])

/-- The window that runs is that of the start which took the current generation. -/
theorem active_of_current (valid : Valid h p) {r tick : Nat} {arming : Arming} (member : (tick, arming) ∈ armings r h)
    (current : arming.generation = (p.world.response r).generation) :
    (p.world.response r).active = some arming.window := by
  obtain ⟨tick, last⟩ := (valid.last_iff member).mpr current
  rw [valid.current r, last]
  rfl

end Valid
end Pool
end Deferral.Simulation
