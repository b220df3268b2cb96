import Deferral.Proofs.Punctuality
import Deferral.Proofs.TerminalTransition

/-! What turns of timers and calls of producers tell of the clocks: a response times out when the last
start of its clock is due, and a producer that succeeds does so before the turns that are still to come. -/

namespace Deferral.Simulation
open Response (Arming)

/-- Whether a note tells of a resume or a cancel of a response that was granted. -/
def Note.produces (r : Nat) : Note → Bool
  | .served _ s (.produce _) (.ok _) | .served _ s .cancel (.ok _) => s == r
  | _ => false

def Note.turns (r generation : Nat) : Note → Bool
  | .served _ s (.expire _ n) _ => s == r && n == generation
  | _ => false

/-- What a history tells of the time before a timer's turn. -/
def beforeTurn (r generation : Nat) (h : History) : History := h.takeWhile (!·.turns r generation)

theorem beforeTurn_mono {r generation : Nat} {h : History} {note : Note} (member : note ∈ beforeTurn r generation h)
    (notes : History) : note ∈ beforeTurn r generation (h ++ notes) := by
  unfold beforeTurn at member ⊢
  rw [List.takeWhile_append]
  split
  · exact List.mem_append_left _ ((List.takeWhile_sublist _).subset member)
  · exact member

theorem mem_beforeTurn {r generation : Nat} {h : History} {note : Note}
    (none : ∀ turn ∈ h, turn.turns r generation = false) (own : note.turns r generation = false) :
    note ∈ beforeTurn r generation (h ++ [note]) := by
  unfold beforeTurn
  rw [List.takeWhile_append_of_pos fun turn member => by rw [none turn member]; rfl]
  apply List.mem_append_right _
  rw [List.takeWhile_cons, own]
  exact List.mem_cons_self ..

theorem Note.not_turns_of_produces {r : Nat} {note : Note} (produces : note.produces r = true) (generation : Nat) :
    note.turns r generation = false := by
  cases note with
  | returned => rfl
  | served tick s asked verdict => cases asked <;> first | rfl | cases produces

theorem Note.ending_of_produces {r : Nat} {note : Note} (produces : note.produces r = true) :
    ∃ tick outcome, note.ending? r = some (tick, outcome) ∧ ∀ window, outcome ≠ .timedOut window := by
  cases note with
  | returned => cases produces
  | served tick s asked verdict =>
    cases verdict with
    | error => cases asked <;> cases produces
    | ok arms =>
      cases asked with
      | produce result =>
        refine ⟨tick, .ofResult result, ?_, ?_⟩
        · have same : s = r := beq_iff_eq.mp produces
          simp [Note.ending?, Request.ending?, same]
        · cases result <;> simp [Outcome.ofResult]
      | cancel =>
        refine ⟨tick, .cancelled, ?_, by simp⟩
        have same : s = r := beq_iff_eq.mp produces
        simp [Note.ending?, Request.ending?, same]
      | _ => cases produces

theorem Request.eq_expire {asked : Request} {operation : Operation} {window : Duration}
    (ends : asked.ending? = some (operation, .timedOut window)) : ∃ generation, asked = .expire window generation := by
  cases asked with
  | produce result => cases result <;> cases ends
  | expire other generation =>
    cases ends
    exact ⟨generation, rfl⟩
  | _ => cases ends

theorem produces_of_ending {r tick : Nat} {outcome : Outcome String} {h : History}
    (member : (tick, outcome) ∈ endings r h) (other : ∀ window, outcome ≠ .timedOut window) :
    ∃ note ∈ h, note.produces r = true := by
  obtain ⟨note, told, ends⟩ := List.mem_filterMap.mp member
  refine ⟨note, told, ?_⟩
  cases note with
  | returned => cases ends
  | served tick s asked verdict =>
    cases verdict with
    | error => cases ends
    | ok arms =>
      by_cases same : s = r
      · cases asked with
        | produce | cancel => simp [Note.produces, same]
        | expire window generation =>
          simp [Note.ending?, Request.ending?, same] at ends
          exact absurd ends.2.symm (other window)
        | _ => simp [Note.ending?, Request.ending?] at ends
      · simp [Note.ending?, same] at ends

theorem Work.notes_turns {w : World} {work : Work} {r generation : Nat} {note : Note} (member : note ∈ work.notes w)
    (turns : note.turns r generation = true) :
    ∃ window x, work = .request r (.expire window generation) ∧ w.responses[r]? = some x := by
  unfold Work.notes at member
  split at member
  · rw [List.mem_singleton.mp member] at turns
    cases turns
  · next s asked _ asks =>
    split at member
    next x found =>
      rw [List.mem_singleton.mp member] at turns
      cases asked with
      | expire window n =>
        have same : s = r ∧ n = generation := by simpa [Note.turns] using turns
        obtain ⟨rfl, rfl⟩ := same
        exact ⟨window, x, Work.eq_request asks rfl, found⟩
      | _ => cases turns
    next => cases member
  · cases member

namespace Pool

variable {h notes : History} {p q : Pool}

/-- A response's clock never goes back, and stands still once the response is resolved. -/
theorem Valid.grows {rule : World → Thread → Prop} (valid : Valid h p) (step : Step rule p notes q) (r : Nat) :
    (p.world.response r).generation ≤ (q.world.response r).generation ∧
      ((p.world.response r).state.isTerminal = true → (q.world.response r).state.isTerminal = true ∧
        armings r (h ++ notes) = armings r h) := by
  rw [armings_append]
  cases step.touches r with
  | @granted asked x grant asks found granted after told =>
    have before := World.response_found found
    have later := World.response_found after
    have grants := valid.grants found granted
    rw [before, later, told, armings_served]
    refine ⟨?_, ?_⟩
    · rcases grants.clock with ⟨window, -, -, number⟩ | ⟨-, -, number⟩ <;> omega
    · intro terminal
      obtain ⟨state, -, -, number⟩ := grants.frozen terminal
      refine ⟨by rw [state]; exact terminal, ?_⟩
      rcases grants.clock with ⟨window, -, -, next⟩ | ⟨none, -, -⟩
      · omega
      · rw [none]
        exact List.append_nil _
  | kept same stays untold =>
    rw [same, armings_untold untold, List.append_nil]
    exact ⟨Nat.le_refl _, fun terminal => ⟨terminal, rfl⟩⟩

/-- What turns and endings tell of the clocks: a timer's turn comes once, a response times out when its last
clock is due, and what a producer did before the turn of a timer it did before the turn of every later one. -/
structure Timely (h : History) (p : Pool) : Prop where
  expired : ∀ r tick window, (tick, .timedOut window) ∈ endings r h →
    ∃ start generation, (armings r h).getLast? = some (start, ⟨window, generation⟩) ∧
      Drive.runtime.due start window = some tick ∧ tick ≤ p.world.now
  turned : ∀ r generation, ∀ note ∈ h, note.turns r generation = true →
    generation < (p.world.response r).generation ∨ (p.world.response r).state.isTerminal = true
  hindered : ∀ r generation, ∀ note ∈ h, note.produces r = true → (p.world.response r).generation ≤ generation →
    ∃ earlier ∈ beforeTurn r generation h, earlier.produces r = true

namespace Timely

theorem initial : Timely [] (start .runtime) := by
  constructor
  · intro r tick window member
    cases member
  · intro r generation note member
    cases member
  · intro r generation note member
    cases member

theorem silent (timely : Timely h p) (responses : q.world.responses = p.world.responses)
    (later : p.world.now ≤ q.world.now) : Timely h q := by
  have same (r : Nat) : q.world.response r = p.world.response r := by rw [World.response, responses, World.response]
  refine ⟨?_, ?_, ?_⟩
  · intro r tick window member
    obtain ⟨start, generation, last, due, reached⟩ := timely.expired r tick window member
    exact ⟨start, generation, last, due, Nat.le_trans reached later⟩
  · intro r
    rw [same]
    exact timely.turned r
  · intro r
    rw [same]
    exact timely.hindered r

variable {w : World} {before after : List Thread} {t : Thread} {work : Work} {rest : List Work}

private theorem expired_preserves (valid : Valid h ⟨w, before ++ t :: after⟩)
    (punctual : Punctual h ⟨w, before ++ t :: after⟩) (timely : Timely h ⟨w, before ++ t :: after⟩)
    (step : Step Freely ⟨w, before ++ t :: after⟩ notes q) (now : q.world.now = w.now) (r tick : Nat) (window : Duration)
    (member : (tick, .timedOut window) ∈ endings r (h ++ notes)) :
    ∃ start generation, (armings r (h ++ notes)).getLast? = some (start, ⟨window, generation⟩) ∧
      Drive.runtime.due start window = some tick ∧ tick ≤ q.world.now := by
  rw [endings_append] at member
  rcases List.mem_append.mp member with old | new
  · obtain ⟨start, generation, last, due, reached⟩ := timely.expired r tick window old
    have terminal : (w.response r).state.isTerminal = true := by
      rcases valid.ended_cases r with ⟨none, -⟩ | ⟨ended, outcome, -, agrees⟩
      · rw [none] at old
        cases old
      · rw [← agrees]
        exact outcome.isTerminal_state
    rw [((valid.grows step r).2 terminal).2, now]
    exact ⟨start, generation, last, due, reached⟩
  · cases step.touches r with
    | kept same stays untold =>
      rw [endings_untold untold] at new
      cases new
    | @granted asked x grant asks found granted _ told =>
      rw [told, endings_served] at new
      obtain ⟨⟨operation, outcome⟩, ends, same⟩ := List.mem_map.mp new
      cases same
      obtain ⟨generation, rfl⟩ := Request.eq_expire (Option.mem_toList.mp ends)
      obtain ⟨work, present, asks⟩ := asks
      rw [Work.eq_request asks rfl] at present
      obtain ⟨start, started, due⟩ := punctual.asks r window generation present
      have here := World.response_found found
      have current : generation = (w.response r).generation := by
        rw [here]
        cases valid.grants found granted with
        | start starts => cases starts
        | finish _ current => exact current generation rfl
      obtain ⟨last, latest⟩ := (valid.last_iff started).mpr current
      have unchanged : armings r notes = [] := by
        rw [told, armings_served]
        cases valid.grants found granted with
        | start starts => cases starts
        | finish => rfl
      have same := (valid.arming_unique (List.mem_of_getLast? latest) started rfl).1
      subst same
      rw [armings_append, unchanged, List.append_nil, now]
      exact ⟨last, generation, latest, due, Nat.le_refl _⟩

private theorem turned_preserves (valid : Valid h ⟨w, before ++ t :: after⟩) (timely : Timely h ⟨w, before ++ t :: after⟩)
    (stack : t.stack = work :: rest) (r generation : Nat) (note : Note) (member : note ∈ h ++ work.notes w)
    (turns : note.turns r generation = true) :
    generation < ((step w t).1.response r).generation ∨ ((step w t).1.response r).state.isTerminal = true := by
  have next : Step Freely ⟨w, before ++ t :: after⟩ (work.notes w) ⟨(step w t).1, before ++ (step w t).2 :: after⟩ :=
    .run stack trivial
  obtain ⟨grows, stays⟩ := valid.grows next r
  have kept (past : generation < (w.response r).generation ∨ (w.response r).state.isTerminal = true) :
      generation < ((step w t).1.response r).generation ∨ ((step w t).1.response r).state.isTerminal = true :=
    past.imp (fun behind => Nat.lt_of_lt_of_le behind grows) fun terminal => (stays terminal).1
  rcases List.mem_append.mp member with old | new
  · exact kept (timely.turned r generation note old turns)
  · obtain ⟨window, x, rfl, found⟩ := Work.notes_turns new turns
    have present : .request r (.expire window generation) ∈ (Pool.mk w (before ++ t :: after)).works :=
      mem_works_here stack (List.mem_cons_self ..)
    obtain ⟨tick, started⟩ := valid.attempts r window generation present
    have bounded := (valid.generation_le started).2
    by_cases current : generation = (w.response r).generation ∧ (w.response r).state.isTerminal = false
    · right
      have here := World.response_found found
      rw [here] at current
      have granted : ∃ grant, (Request.expire window generation).grant r x = .ok grant ∧
          grant.response.state.isTerminal = true := by
        simp only [Request.grant, Request.conclude, Response.resolve]
        rw [if_neg (by simp [current])]
        exact ⟨_, rfl, rfl⟩
      obtain ⟨grant, granted, terminal⟩ := granted
      obtain ⟨inside, -⟩ := List.getElem?_eq_some_iff.mp found
      rw [step_serve stack, World.serve_granted found granted]
      simpa [World.response, World.setResponse, inside] using terminal
    · apply kept
      rcases Nat.lt_or_ge generation (w.response r).generation with behind | reached
      · exact .inl behind
      · right
        have same : generation = (w.response r).generation := Nat.le_antisymm bounded reached
        simpa [same] using current

/-- A producer that succeeds before a timer's turn succeeds before that of any timer armed later. -/
private theorem hindered_preserves (valid : Valid h p) (timely : Timely h p) (next : Step Freely p notes q)
    (r generation : Nat) (note : Note) (member : note ∈ h ++ notes) (produces : note.produces r = true)
    (ahead : (q.world.response r).generation ≤ generation) :
    ∃ earlier ∈ beforeTurn r generation (h ++ notes), earlier.produces r = true := by
  have grows := (valid.grows next r).1
  rcases List.mem_append.mp member with old | new
  · obtain ⟨earlier, before, produced⟩ := timely.hindered r generation note old produces (Nat.le_trans grows ahead)
    exact ⟨earlier, beforeTurn_mono before notes, produced⟩
  · obtain ⟨tick, outcome, ends, -⟩ := Note.ending_of_produces produces
    have told : (tick, outcome) ∈ endings r notes := List.mem_filterMap.mpr ⟨note, new, ends⟩
    cases next.touches r with
    | kept same stays untold =>
      rw [endings_untold untold] at told
      cases told
    | @granted asked x grant asks found granted after tells =>
      rw [tells, endings_served] at told
      obtain ⟨⟨operation, final⟩, ended, -⟩ := List.mem_map.mp told
      have ended := Option.mem_toList.mp ended
      have unresolved : x.state.isTerminal = false := by
        cases valid.grants found granted with
        | start _ unresolved | finish _ _ unresolved | store unresolved => exact unresolved
        | declare | suspend | subscribe | stale => cases ended
      have here := World.response_found found
      have none : ∀ turn ∈ h, turn.turns r generation = false := by
        intro turn inside
        cases turns : turn.turns r generation with
        | false => rfl
        | true =>
          rcases timely.turned r generation turn inside turns with behind | terminal
          · omega
          · rw [here, unresolved] at terminal
            cases terminal
      rw [tells] at new ⊢
      have same := List.mem_singleton.mp new
      subst same
      exact ⟨_, mem_beforeTurn none (Note.not_turns_of_produces produces generation), produces⟩

theorem step_preserves (valid : Valid h p) (punctual : Punctual h p) (timely : Timely h p) (next : Ticking p notes q) :
    Timely (h ++ notes) q := by
  cases next with
  | call stack =>
    rw [List.append_nil]
    exact timely.silent rfl (Nat.le_refl _)
  | start ready =>
    rw [List.append_nil]
    exact timely.silent rfl (Nat.le_refl _)
  | wake tick =>
    rw [List.append_nil]
    exact timely.silent rfl (Nat.le_max_left ..)
  | @run w before t after work rest stack allowed =>
    have next : Step Freely ⟨w, before ++ t :: after⟩ (work.notes w) ⟨(step w t).1, before ++ (step w t).2 :: after⟩ :=
      .run stack trivial
    have now := (step_effect (w := w) stack).clock.2
    exact ⟨expired_preserves valid punctual timely next now, turned_preserves valid timely stack,
      hindered_preserves valid timely next⟩

theorem of_run (run : Runs Ticking (start .runtime) h p) : Timely h p := by
  induction run with
  | refl => exact initial
  | step run next timely =>
    have valid := Valid.of_run (driven_of_ticking run).2
    exact timely.step_preserves valid (.of_run run) next

end Timely

end Pool
end Deferral.Simulation
