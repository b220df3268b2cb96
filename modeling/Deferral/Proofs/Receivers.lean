import Mathlib.Data.Set.Card
import Deferral.Shutdown

/-! The receivers of the shutdown signal, each on its own. What one read, what it was told that it missed and what it
has not read yet add up to the triggers since it subscribed, and what it reads depends on the triggers and on its own
calls alone. The receivers that are counted are those that were subscribed and not dropped since. -/

namespace Deferral

namespace Receiver
open Shutdown

/-- What a read of a receiver answers. -/
def reads (r : Receiver) : Received :=
  if !r.held then .dropped
  else if r.unread = 0 then .empty
  else if r.unread = 1 then .signal
  else .lagged (r.unread - 1)

def step (k : Nat) (r : Receiver) : Call → Receiver
  | .subscribe => r
  | .trigger => if r.held then { r with unread := r.unread + 1 } else r
  | .drop j => if j = k then { r with held := false } else r
  | .tryReceive j => if j = k ∧ r.held = true then { r with unread := if r.unread ≤ 1 then 0 else 1 } else r

variable {r : Receiver}

theorem held_step (k : Nat) (r : Receiver) (c : Call) :
    (r.step k c).held = true ↔ r.held = true ∧ c ≠ .drop k := by
  cases c with
  | subscribe => simp [step]
  | trigger => simp only [step]; split <;> simp
  | drop j => by_cases here : j = k <;> simp [step, here]
  | tryReceive j => simp only [step]; split <;> simp

theorem reads_empty_iff (held : r.held = true) : r.reads = .empty ↔ r.unread = 0 := by
  simp only [reads, held]
  split_ifs <;> simp_all

theorem reads_signal_iff (held : r.held = true) : r.reads = .signal ↔ r.unread = 1 := by
  simp only [reads, held]
  split_ifs <;> simp_all

theorem reads_lagged_iff (held : r.held = true) {n : Nat} : r.reads = .lagged n ↔ 1 < r.unread ∧ n + 1 = r.unread := by
  simp only [reads, held]
  split_ifs <;> simp_all
  omega

end Receiver

namespace Shutdown

def Call.joins : Call → List Receiver
  | .subscribe => [{}]
  | _ => []

/-- Whether a call can matter to the receiver with a number. -/
def Call.concerns (k : Nat) : Call → Bool
  | .subscribe | .trigger => true
  | .drop j | .tryReceive j => j == k

def Received.missed : Received → Nat
  | .lagged n => n
  | _ => 0

/-- The signals that some answers account for. -/
def accounted (answers : List Received) : Nat := answers.count .signal + (answers.map Received.missed).sum

/-- What is left after some calls. -/
def after (s : Shutdown) (calls : List Call) : Shutdown := calls.foldl (fun s c => (s.call c).1) s

/-- What a receiver read in the course of some calls, oldest first. -/
def readings (s : Shutdown) (k : Nat) (calls : List Call) : List Received :=
  (calls.zip (s.runFrom calls).1).filterMap fun
    | (.tryReceive j, .received what, _) => if j = k then some what else none
    | _ => none

def heard (s : Shutdown) (k : Nat) (c : Call) : List Received := if c = .tryReceive k then [(s.tryReceive k).2] else []

/-- A receiver is held after some calls if it was subscribed and not dropped since. -/
def Held (calls : List Call) (k : Nat) : Prop :=
  ∃ earlier later, calls = earlier ++ .subscribe :: later ∧ earlier.count .subscribe = k ∧ .drop k ∉ later

variable {s t : Shutdown} {j k : Nat} {r : Receiver} {c : Call} {calls : List Call}

@[simp] theorem after_nil : s.after [] = s := rfl

@[simp] theorem after_cons : s.after (c :: calls) = (s.call c).1.after calls := rfl

@[simp] theorem after_append (s : Shutdown) (earlier later : List Call) :
    s.after (earlier ++ later) = (s.after earlier).after later := List.foldl_append

theorem accounted_append (first second : List Received) :
    accounted (first ++ second) = accounted first + accounted second := by
  simp only [accounted, List.count_append, List.map_append, List.sum_append]
  omega

theorem runFrom_append (s : Shutdown) (earlier later : List Call) :
    (s.runFrom (earlier ++ later)).1 = (s.runFrom earlier).1 ++ ((s.after earlier).runFrom later).1 := by
  induction earlier generalizing s with
  | nil => rfl
  | cons c rest ih => exact congrArg (_ :: ·) (ih _)

theorem length_runFrom (s : Shutdown) (calls : List Call) : (s.runFrom calls).1.length = calls.length := by
  induction calls generalizing s with
  | nil => rfl
  | cons c rest ih => exact congrArg (· + 1) (ih _)

theorem runFrom_at (s : Shutdown) (earlier : List Call) (c : Call) (later : List Call) :
    (s.runFrom (earlier ++ c :: later)).1[earlier.length]? =
      some (((s.after earlier).call c).2.1, (s.after (earlier ++ [c])).receiverCount) := by
  rw [runFrom_append, ← length_runFrom s earlier, List.getElem?_append_right (Nat.le_refl _), Nat.sub_self,
    after_append]
  rfl

theorem readings_cons (s : Shutdown) (k : Nat) (c : Call) (calls : List Call) :
    s.readings k (c :: calls) = s.heard k c ++ (s.call c).1.readings k calls := by
  cases c with
  | tryReceive j =>
    by_cases here : j = k
    · subst here
      simp [readings, heard, runFrom, call]
    · simp [readings, heard, runFrom, call, here]
  | _ => rfl

theorem readings_append (s : Shutdown) (k : Nat) (earlier later : List Call) :
    s.readings k (earlier ++ later) = s.readings k earlier ++ (s.after earlier).readings k later := by
  induction earlier generalizing s with
  | nil => rfl
  | cons c rest ih => rw [List.cons_append, readings_cons, readings_cons, ih, List.append_assoc, after_cons]

theorem tryReceive_receivers (s : Shutdown) (j k : Nat) :
    (s.tryReceive j).1.receivers[k]? = s.receivers[k]?.map (·.step k (.tryReceive j)) := by
  rcases eq_or_ne j k with rfl | other
  · unfold tryReceive
    cases found : s.receivers[j]? with
    | none => simp [found]
    | some r => cases r with | mk held unread => match held, unread with
      | false, _ | true, 0 | true, 1 | true, n + 2 => simp [Receiver.step, found]
  · have same (r : Receiver) : r.step k (.tryReceive j) = r := by simp [Receiver.step, other]
    have kept (f : Receiver → Receiver) : (s.receivers.modify j f)[k]? = s.receivers[k]? := by simp [other]
    simp only [same, Option.map_id']
    unfold tryReceive
    split
    · rfl
    · split_ifs <;> first | rfl | exact kept _

theorem tryReceive_reads (found : s.receivers[k]? = some r) : (s.tryReceive k).2 = r.reads := by
  simp only [tryReceive, found, Receiver.reads]
  split_ifs <;> rfl

theorem receivers_call (s : Shutdown) (c : Call) (k : Nat) :
    (s.call c).1.receivers[k]? = (s.receivers ++ c.joins)[k]?.map (·.step k c) := by
  cases c with
  | subscribe => exact Option.map_id'.symm ▸ rfl
  | trigger => simp [call, trigger, Call.joins, Receiver.step]
  | drop j => by_cases here : j = k <;> simp [call, drop, Call.joins, Receiver.step, here]
  | tryReceive j =>
    rw [show (Call.tryReceive j).joins = [] from rfl, List.append_nil, ← tryReceive_receivers]
    rfl

theorem length_call (s : Shutdown) (c : Call) :
    (s.call c).1.receivers.length = s.receivers.length + [c].count .subscribe := by
  cases c with
  | subscribe => simp [call, subscribe]
  | trigger => simp [call, trigger]
  | drop j => simp [call, drop]
  | tryReceive j =>
    simp only [call, tryReceive]
    split
    · simp
    · split_ifs <;> simp

theorem receiver_call (c : Call) (found : s.receivers[k]? = some r) :
    (s.call c).1.receivers[k]? = some (r.step k c) := by
  obtain ⟨inside, _⟩ := List.getElem?_eq_some_iff.mp found
  rw [receivers_call, List.getElem?_append_left inside, found, Option.map_some]

/-- A call adds to what a receiver has to read, or moves it to what the receiver read. -/
theorem call_balance (found : s.receivers[k]? = some r) (held : r.held = true) (c : Call) :
    accounted (s.heard k c) + (r.step k c).unread = r.unread + [c].count .trigger := by
  obtain ⟨_, unread⟩ := r
  cases held
  cases c with
  | tryReceive j =>
    by_cases here : j = k
    · subst here
      rw [heard, if_pos rfl, tryReceive_reads found]
      match unread with
      | 0 | 1 | n + 2 => simp [accounted, Receiver.reads, Receiver.step, Received.missed]
    · simp [heard, accounted, Receiver.step, here]
  | drop j => by_cases here : j = k <;> simp [heard, accounted, Receiver.step, here]
  | _ => simp [heard, accounted, Receiver.step]

theorem run_balance (found : s.receivers[k]? = some r) (held : r.held = true) (kept : .drop k ∉ calls) :
    ∃ next, (s.after calls).receivers[k]? = some next ∧ next.held = true ∧
      accounted (s.readings k calls) + next.unread = r.unread + calls.count .trigger := by
  induction calls generalizing s r with
  | nil => exact ⟨r, found, held, Nat.add_comm ..⟩
  | cons c rest ih =>
    obtain ⟨here, later⟩ := not_or.mp (List.mem_cons.not.mp kept)
    obtain ⟨next, there, stays, balance⟩ :=
      ih (receiver_call c found) ((Receiver.held_step k r c).mpr ⟨held, fun same => here same.symm⟩) later
    refine ⟨next, there, stays, ?_⟩
    have step := call_balance found held c
    rw [readings_cons, accounted_append, ← List.singleton_append (l := rest), List.count_append]
    omega

theorem accounted_before (absent : (s.after calls).receivers.length ≤ k) : accounted (s.readings k calls) = 0 := by
  have grows (s : Shutdown) (calls : List Call) : s.receivers.length ≤ (s.after calls).receivers.length := by
    induction calls generalizing s with
    | nil => exact Nat.le_refl _
    | cons c rest ih => exact Nat.le_trans (length_call s c ▸ Nat.le_add_right ..) (ih _)
  induction calls generalizing s with
  | nil => rfl
  | cons c rest ih =>
    have none : s.receivers[k]? = none := List.getElem?_eq_none (Nat.le_trans (grows s (c :: rest)) absent)
    have silent : accounted (s.heard k c) = 0 := by
      unfold heard
      split
      · simp only [tryReceive, none]
        rfl
      · rfl
    rw [readings_cons, accounted_append, silent, ih absent]

theorem signal_first (found : s.receivers[k]? = some r) (held : r.held = true) (owed : 0 < r.unread)
    (kept : .drop k ∉ calls) {seen rest : List Received} (read : s.readings k calls = seen ++ .empty :: rest) :
    .signal ∈ seen := by
  induction calls generalizing s r seen with
  | nil => simp [readings, runFrom] at read
  | cons c calls ih =>
    obtain ⟨here, later⟩ := not_or.mp (List.mem_cons.not.mp kept)
    have ih := @ih _ _ (receiver_call c found) ((Receiver.held_step k r c).mpr ⟨held, fun same => here same.symm⟩)
    rw [readings_cons] at read
    by_cases own : c = .tryReceive k
    · subst own
      rw [heard, if_pos rfl, tryReceive_reads found, List.singleton_append] at read
      cases seen with
      | nil => exact absurd ((Receiver.reads_empty_iff held).mp (List.cons.inj read).1) owed.ne'
      | cons first seen =>
        obtain ⟨rfl, next⟩ := List.cons.inj read
        rcases Nat.lt_or_ge 1 r.unread with behind | newest
        · exact List.mem_cons_of_mem _ (ih (by simp [Receiver.step, held, behind.not_ge]) later next)
        · rw [(Receiver.reads_signal_iff held).mpr (Nat.le_antisymm newest owed)]
          exact List.mem_cons_self
    · rw [heard, if_neg own] at read
      refine ih ?_ later read
      cases c with
      | tryReceive j => simpa [Receiver.step, show j ≠ k from fun same => own (same ▸ rfl)] using owed
      | trigger => simp [Receiver.step, held]
      | drop j => simpa [Receiver.step, show j ≠ k from fun same => here (same ▸ rfl)] using owed
      | subscribe => exact owed

/-- Two coordinators that a receiver cannot tell apart. -/
def Alike (k : Nat) (s t : Shutdown) : Prop :=
  s.receivers.length = t.receivers.length ∧ s.receivers[k]? = t.receivers[k]?

theorem Alike.call (alike : Alike k s t) (c : Call) : Alike k (s.call c).1 (t.call c).1 := by
  refine ⟨by rw [length_call, length_call, alike.1], ?_⟩
  rw [receivers_call, receivers_call, List.getElem?_append, List.getElem?_append, alike.1, alike.2]

theorem Alike.aside (alike : Alike k s t) (other : c.concerns k = false) : Alike k (s.call c).1 t := by
  have same : (fun r => Receiver.step k r c) = id := by
    funext r
    cases c <;> simp_all [Call.concerns, Receiver.step]
  have joins : c.joins = [] ∧ [c].count .subscribe = 0 := by cases c <;> simp_all [Call.concerns, Call.joins]
  refine ⟨by rw [length_call, joins.2, alike.1, Nat.add_zero], ?_⟩
  rw [receivers_call, joins.1, List.append_nil, same, Option.map_id, alike.2]
  rfl

theorem Alike.heard (alike : Alike k s t) (c : Call) : s.heard k c = t.heard k c := by
  have read : (s.tryReceive k).2 = (t.tryReceive k).2 := by
    simp only [tryReceive, alike.2]
    split
    · rfl
    · split_ifs <;> rfl
  rw [Shutdown.heard, Shutdown.heard, read]

theorem readings_filter (alike : Alike k s t) (calls : List Call) :
    s.readings k (calls.filter (·.concerns k)) = t.readings k calls := by
  induction calls generalizing s t with
  | nil => rfl
  | cons c rest ih =>
    rw [readings_cons t]
    by_cases concerns : c.concerns k = true
    · rw [List.filter_cons_of_pos concerns, readings_cons, alike.heard, ih (alike.call c)]
    · have other : c.concerns k = false := Bool.eq_false_iff.mpr concerns
      have silent : t.heard k c = [] := if_neg fun same => concerns (by simp [same, Call.concerns])
      have aside : Alike k (t.call c).1 s := Alike.aside ⟨alike.1.symm, alike.2.symm⟩ other
      rw [List.filter_cons_of_neg concerns, silent, ih ⟨aside.1.symm, aside.2.symm⟩, List.nil_append]

theorem length_after (calls : List Call) : (({} : Shutdown).after calls).receivers.length = calls.count .subscribe := by
  induction calls using List.reverseRecOn with
  | nil => rfl
  | append_singleton calls c ih => rw [after_append, after_cons, after_nil, length_call, ih, List.count_append]

theorem held_snoc : Held (calls ++ [c]) k ↔
    Held calls k ∧ c ≠ .drop k ∨ c = .subscribe ∧ calls.count .subscribe = k := by
  constructor
  · rintro ⟨earlier, later, split, number, kept⟩
    rcases List.eq_nil_or_concat later with rfl | ⟨later, last, rfl⟩
    · obtain ⟨rfl, same⟩ := List.append_inj' split rfl
      exact .inr ⟨(List.cons.inj same).1, number⟩
    · rw [List.concat_eq_append] at split kept
      have split : calls ++ [c] = earlier ++ .subscribe :: later ++ [last] := by rw [split, List.append_assoc]; rfl
      obtain ⟨rfl, same⟩ := List.append_inj' split rfl
      obtain ⟨before, here⟩ := not_or.mp (List.mem_append.not.mp kept)
      refine .inl ⟨⟨earlier, later, rfl, number, before⟩, fun drop => here ?_⟩
      rw [← (List.cons.inj same).1, drop]
      exact List.mem_singleton_self _
  · rintro (⟨⟨earlier, later, rfl, number, kept⟩, stays⟩ | ⟨rfl, number⟩)
    · refine ⟨earlier, later ++ [c], by simp, number, fun drop => ?_⟩
      rcases List.mem_append.mp drop with before | here
      · exact kept before
      · exact stays (List.mem_singleton.mp here).symm
    · exact ⟨calls, [], rfl, number, List.not_mem_nil⟩

theorem held_after (calls : List Call) (k : Nat) :
    (∃ r, (({} : Shutdown).after calls).receivers[k]? = some r ∧ r.held = true) ↔ Held calls k := by
  induction calls using List.reverseRecOn with
  | nil =>
    refine ⟨fun ⟨r, found, _⟩ => ?_, fun ⟨earlier, later, split, _⟩ => ?_⟩
    · cases found
    · cases earlier <;> cases split
  | append_singleton calls c ih =>
    rw [held_snoc, ← ih, after_append, after_cons, after_nil, receivers_call, ← length_after]
    generalize ({} : Shutdown).after calls = s
    have stepped (o : Option Receiver) : (∃ r, o.map (·.step k c) = some r ∧ r.held = true) ↔
        ∃ r, o = some r ∧ r.held = true ∧ c ≠ .drop k := by
      simp only [Option.map_eq_some_iff]
      constructor
      · rintro ⟨_, ⟨r, found, rfl⟩, held⟩
        exact ⟨r, found, (r.held_step k c).mp held⟩
      · rintro ⟨r, found, held⟩
        exact ⟨_, ⟨r, found, rfl⟩, (r.held_step k c).mpr held⟩
    rw [stepped]
    by_cases joined : c = .subscribe
    · subst joined
      rw [show Call.joins .subscribe = [{}] from rfl, List.getElem?_append]
      by_cases inside : k < s.receivers.length
      · simp [inside, inside.ne']
      · rw [if_neg inside, List.getElem?_singleton, List.getElem?_eq_none (Nat.le_of_not_lt inside)]
        constructor
        · rintro ⟨r, found, _⟩
          split at found
          · exact .inr ⟨rfl, by omega⟩
          · cases found
        · rintro (⟨⟨r, none, _⟩, _⟩ | ⟨_, rfl⟩)
          · cases none
          · exact ⟨{}, by simp⟩
    · have joins : c.joins = [] := by cases c <;> simp_all [Call.joins]
      rw [joins, List.append_nil]
      simp [joined, ← and_assoc, exists_and_right]

theorem receiverCount_after (calls : List Call) :
    (({} : Shutdown).after calls).receiverCount = {k | Held calls k}.ncard := by
  generalize reached : ({} : Shutdown).after calls = s
  have ids : {k | Held calls k} = (((s.receivers.zipIdx.filter (·.1.held)).map Prod.snd).toFinset : Set Nat) := by
    ext k
    rw [Set.mem_ofPred_eq, ← held_after, reached]
    simp [List.mem_zipIdx_iff_getElem?]
  have distinct : ((s.receivers.zipIdx.filter (·.1.held)).map Prod.snd).Nodup :=
    (List.zipIdx_map_snd 0 s.receivers ▸ List.nodup_range').sublist (List.filter_sublist.map _)
  rw [ids, Set.ncard_coe_finset, List.toFinset_card_of_nodup distinct, List.length_map, ← List.countP_eq_length_filter]
  unfold receiverCount
  conv_lhs => rw [← List.zipIdx_map_fst 0 s.receivers, List.countP_map]
  rfl

end Shutdown
end Deferral
