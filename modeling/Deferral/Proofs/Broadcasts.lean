import Deferral.Proofs.Receivers

/-! The shutdown signal as a broadcast channel that keeps one signal. The channel goes by positions: each receiver has
the one that it reads next, and moves to the oldest that is kept when it has fallen behind. Its answers are those of
the coordinator, so that the signal is never lost, only coalesced. -/

namespace Deferral.Shutdown

variable {s : Shutdown} {j k : Nat} {r : Receiver} {c : Call}

/-- A broadcast channel, by positions: how many signals were sent, and the one that each receiver reads next. -/
structure Channel where
  sent : Nat := 0
  next : List (Option Nat) := []

namespace Channel

/-- A channel keeps the newest signals, as many as its capacity. Nothing is sent when nobody receives. -/
def call (capacity : Nat) (channel : Channel) : Call → Channel × Answer
  | .subscribe => ({ channel with next := channel.next ++ [some channel.sent] }, .number channel.next.length)
  | .trigger =>
    let receivers := channel.next.countP (·.isSome)
    (if receivers = 0 then channel else { channel with sent := channel.sent + 1 }, .number receivers)
  | .drop k => ({ channel with next := channel.next.set k none }, .flag (channel.next[k]?.join.isSome))
  | .tryReceive k =>
    let move (position : Nat) : Channel := { channel with next := channel.next.set k (some position) }
    match channel.next[k]?.join with
    | none => (channel, .received .dropped)
    | some position =>
      let oldest := channel.sent - capacity
      if position = channel.sent then (channel, .received .empty)
      else if position < oldest then (move oldest, .received (.lagged (oldest - position)))
      else (move (position + 1), .received .signal)

def answers (capacity : Nat) (channel : Channel) : List Call → List Answer
  | [] => []
  | c :: rest => (channel.call capacity c).2 :: answers capacity (channel.call capacity c).1 rest

def after (capacity : Nat) (channel : Channel) (calls : List Call) : Channel :=
  calls.foldl (fun channel c => (channel.call capacity c).1) channel

/-- How many signals a receiver has not read. -/
def unread? (channel : Channel) (k : Nat) : Option Nat := channel.next[k]?.join.map (channel.sent - ·)

end Channel

def position? (sent : Nat) (r : Receiver) : Option Nat := if r.held then some (sent - r.unread) else none

/-- The coordinator and a channel, receiver by receiver. -/
structure Mirrors (s : Shutdown) (channel : Channel) : Prop where
  next (k : Nat) : channel.next[k]? = s.receivers[k]?.map (position? channel.sent)
  bounded (k : Nat) (r : Receiver) : s.receivers[k]? = some r → r.held = true → r.unread ≤ channel.sent

variable {channel : Channel}

theorem Mirrors.map (mirrors : Mirrors s channel) : channel.next = s.receivers.map (position? channel.sent) :=
  List.ext_getElem? fun k => (mirrors.next k).trans List.getElem?_map.symm

theorem Mirrors.length (mirrors : Mirrors s channel) : channel.next.length = s.receivers.length := by
  rw [mirrors.map, List.length_map]

theorem Mirrors.count (mirrors : Mirrors s channel) : channel.next.countP (·.isSome) = s.receiverCount := by
  rw [mirrors.map, List.countP_map, receiverCount]
  refine List.countP_congr fun r _ => ?_
  cases held : r.held <;> simp [position?, held]

theorem Mirrors.of_step (joins : c.joins = [])
    (next : ∀ k, channel.next[k]? = s.receivers[k]?.map fun (r : Receiver) => position? channel.sent (r.step k c))
    (bounded : ∀ k (r : Receiver), s.receivers[k]? = some r → r.held = true → c ≠ .drop k →
      (r.step k c).unread ≤ channel.sent) :
    Mirrors (s.call c).1 channel := by
  have stepped (k : Nat) : (s.call c).1.receivers[k]? = s.receivers[k]?.map (·.step k c) := by
    rw [receivers_call, joins, List.append_nil]
  refine ⟨fun k => ?_, fun k r found held => ?_⟩
  · rw [next, stepped, Option.map_map]
    rfl
  · rw [stepped, Option.map_eq_some_iff] at found
    obtain ⟨before, found, rfl⟩ := found
    obtain ⟨held, kept⟩ := (before.held_step k c).mp held
    exact bounded k before found held kept

theorem Mirrors.stay (mirrors : Mirrors s channel) (joins : c.joins = [])
    (still : ∀ k (r : Receiver), s.receivers[k]? = some r → r.step k c = r) : Mirrors (s.call c).1 channel := by
  refine .of_step joins (fun k => ?_) fun k r found held _ => (still k r found).symm ▸ mirrors.bounded k r found held
  rw [mirrors.next]
  exact Option.map_congr fun r found => by rw [still k r found]

theorem Mirrors.subscribe (mirrors : Mirrors s channel) :
    Mirrors (s.call .subscribe).1 (channel.call 1 .subscribe).1 := by
  have next : (channel.call 1 .subscribe).1.next = (s.receivers ++ [({} : Receiver)]).map (position? channel.sent) := by
    rw [List.map_append, ← mirrors.map]
    rfl
  refine ⟨fun k => ?_, fun k r found held => ?_⟩
  · rw [next, List.getElem?_map]
    rfl
  · rcases List.mem_append.mp (List.mem_of_getElem? found) with before | new
    · obtain ⟨k, found⟩ := List.mem_iff_getElem?.mp before
      exact mirrors.bounded k r found held
    · rw [List.mem_singleton.mp new]
      exact Nat.zero_le _

theorem Mirrors.trigger (mirrors : Mirrors s channel) : Mirrors (s.call .trigger).1 (channel.call 1 .trigger).1 := by
  by_cases none : s.receiverCount = 0
  · have same : (channel.call 1 .trigger).1 = channel := by simp only [Channel.call, mirrors.count, none, if_true]
    rw [same]
    exact mirrors.stay rfl fun k r found => if_neg (List.countP_eq_zero.mp none r (List.mem_of_getElem? found))
  · have more : (channel.call 1 .trigger).1 = { channel with sent := channel.sent + 1 } := by
      simp only [Channel.call, mirrors.count, if_neg none]
    rw [more]
    refine .of_step rfl (fun k => ?_) fun k r found held _ => ?_
    · rw [mirrors.next k]
      refine congrArg (Option.map · _) (funext fun r => ?_)
      cases held : r.held <;> simp [Receiver.step, position?, held]
    · have := mirrors.bounded k r found held
      simp only [Receiver.step, held, if_true]
      omega

theorem Mirrors.drop (mirrors : Mirrors s channel) (j : Nat) :
    Mirrors (s.call (.drop j)).1 (channel.call 1 (.drop j)).1 := by
  refine .of_step rfl (fun k => ?_) fun k r found held kept => ?_
  · by_cases here : j = k
    · subst here
      simp only [Channel.call, List.getElem?_set_self', mirrors.next]
      cases s.receivers[j]? <;> simp [Receiver.step, position?]
    · simp only [Channel.call, List.getElem?_set_ne here, mirrors.next, Receiver.step, if_neg here]
  · have other : j ≠ k := fun same => kept (congrArg Call.drop same)
    simp only [Receiver.step, if_neg other]
    exact mirrors.bounded k r found held

theorem Mirrors.moved (mirrors : Mirrors s channel) (found : s.receivers[j]? = some r) (held : r.held = true) :
    Mirrors (s.call (.tryReceive j)).1
      { channel with next := channel.next.set j (some (channel.sent - if r.unread ≤ 1 then 0 else 1)) } := by
  refine .of_step rfl (fun k => ?_) fun k x there kept _ => ?_
  · by_cases here : j = k
    · subst here
      rw [List.getElem?_set_self (mirrors.length ▸ (List.getElem?_eq_some_iff.mp found).1), found]
      simp [Receiver.step, position?, held]
    · simp only [List.getElem?_set_ne here, mirrors.next, Receiver.step, here, false_and, if_false]
  · have := mirrors.bounded k x there kept
    simp only [Receiver.step, apply_ite Receiver.unread]
    split_ifs <;> omega

theorem Mirrors.tryReceive (mirrors : Mirrors s channel) (j : Nat) :
    Mirrors (s.call (.tryReceive j)).1 (channel.call 1 (.tryReceive j)).1 ∧
      .received (s.tryReceive j).2 = (channel.call 1 (.tryReceive j)).2 := by
  have next := mirrors.next j
  -- what does not find its receiver held changes nothing
  have dropped (unheld : ∀ r, s.receivers[j]? = some r → ¬r.held = true) :
      Mirrors (s.call (.tryReceive j)).1 channel :=
    mirrors.stay rfl fun k r found => if_neg fun ⟨same, held⟩ => unheld r (same ▸ found) held
  cases found : s.receivers[j]? with
  | none =>
    rw [found] at next dropped
    have answer : channel.call 1 (.tryReceive j) = (channel, .received .dropped) := by simp [Channel.call, next]
    rw [answer, Shutdown.tryReceive, found]
    exact ⟨dropped fun r none => absurd none (by simp), rfl⟩
  | some r =>
    rw [tryReceive_reads found]
    rw [found] at next dropped
    obtain ⟨held, unread⟩ := r
    cases held with
    | false =>
      have answer : channel.call 1 (.tryReceive j) = (channel, .received .dropped) := by
        simp [Channel.call, next, position?]
      rw [answer]
      exact ⟨dropped fun r same => Option.some.inj same ▸ Bool.false_ne_true, rfl⟩
    | true =>
      have moved := mirrors.moved found rfl
      have bound : unread ≤ channel.sent := mirrors.bounded j _ found rfl
      obtain rfl | rfl | ⟨n, rfl⟩ : unread = 0 ∨ unread = 1 ∨ ∃ n, unread = n + 2 := by
        rcases unread with - | - | n <;> simp
      · have answer : channel.call 1 (.tryReceive j) = (channel, .received .empty) := by
          simp [Channel.call, next, position?]
        rw [answer]
        refine ⟨mirrors.stay rfl fun k r there => ?_, rfl⟩
        by_cases here : j = k
        · subst here
          cases found.symm.trans there
          simp [Receiver.step]
        · exact if_neg fun both => here both.1
      · have answer : channel.call 1 (.tryReceive j) =
            ({ channel with next := channel.next.set j (some (channel.sent - 0)) }, .received .signal) := by
          simp only [Channel.call, next, position?, Option.map_some, Option.join_some, if_true, Nat.lt_irrefl,
            if_neg (show ¬channel.sent - 1 = channel.sent by omega), if_false, Nat.sub_add_cancel bound, Nat.sub_zero]
        rw [answer]
        exact ⟨moved, rfl⟩
      · have answer : channel.call 1 (.tryReceive j) =
            ({ channel with next := channel.next.set j (some (channel.sent - 1)) }, .received (.lagged (n + 1))) := by
          simp only [Channel.call, next, position?, Option.map_some, Option.join_some, if_true,
            if_neg (show ¬channel.sent - (n + 2) = channel.sent by omega),
            if_pos (show channel.sent - (n + 2) < channel.sent - 1 by omega),
            show channel.sent - 1 - (channel.sent - (n + 2)) = n + 1 by omega]
        rw [answer]
        exact ⟨moved, rfl⟩

theorem Mirrors.call (mirrors : Mirrors s channel) (c : Call) :
    Mirrors (s.call c).1 (channel.call 1 c).1 ∧ (s.call c).2.1 = (channel.call 1 c).2 := by
  cases c with
  | subscribe => exact ⟨mirrors.subscribe, congrArg Answer.number mirrors.length.symm⟩
  | trigger => exact ⟨mirrors.trigger, congrArg Answer.number mirrors.count.symm⟩
  | drop j =>
    refine ⟨mirrors.drop j, congrArg Answer.flag ?_⟩
    rw [mirrors.next]
    cases s.receivers[j]? with
    | none => rfl
    | some r => cases held : r.held <;> simp [position?, held]
  | tryReceive j => exact mirrors.tryReceive j

theorem Mirrors.answers (mirrors : Mirrors s channel) (calls : List Call) :
    (s.runFrom calls).1.map Prod.fst = channel.answers 1 calls := by
  induction calls generalizing s channel with
  | nil => rfl
  | cons c rest ih =>
    obtain ⟨next, answer⟩ := mirrors.call c
    exact congr (congrArg List.cons answer) (ih next)

theorem Mirrors.after (mirrors : Mirrors s channel) (calls : List Call) :
    Mirrors (s.after calls) (channel.after 1 calls) := by
  induction calls generalizing s channel with
  | nil => exact mirrors
  | cons c rest ih => exact ih (mirrors.call c).1

theorem Mirrors.unread (mirrors : Mirrors s channel) (found : s.receivers[k]? = some r) (held : r.held = true) :
    channel.unread? k = some r.unread := by
  have bound := mirrors.bounded k r found held
  simp only [Channel.unread?, mirrors.next, found, Option.map_some, position?, held, if_true, Option.join_some,
    Nat.sub_sub_self bound]

theorem Mirrors.fresh : Mirrors {} {} := ⟨fun _ => rfl, nofun⟩

/-- The signal is never lost, only coalesced. A receiver that is still held has read, was told that it missed, or has
not read each trigger since it subscribed; a read finds nothing only if there is nothing to read, and tells of a gap
only if more than one signal is there, of which it leaves one. -/
theorem signals_coalesced (calls : List Call) :
    (∀ earlier later k n, calls = earlier ++ .subscribe :: later →
      (run calls).1[earlier.length]? = some (.number k, n) → .drop k ∉ later →
      ∃ unread, (Channel.after 1 {} calls).unread? k = some unread ∧
        (readings {} k calls).count .signal + ((readings {} k calls).map Received.missed).sum + unread =
          later.count .trigger ∧
        (((after {} calls).tryReceive k).2 = .empty ↔ unread = 0) ∧
        (∀ missed, ((after {} calls).tryReceive k).2 = .lagged missed ↔ 1 < unread ∧ missed + 1 = unread) ∧
        (1 < unread → (Channel.after 1 {} (calls ++ [.tryReceive k])).unread? k = some 1) ∧
        ∀ before since seen rest, later = before ++ .trigger :: since →
          readings (after {} (earlier ++ .subscribe :: before ++ [.trigger])) k since = seen ++ .empty :: rest →
          .signal ∈ seen) ∧
    (∀ earlier c later, calls = earlier ++ c :: later →
      ∃ answer, (run calls).1[earlier.length]? = some (answer, {k | Held (earlier ++ [c]) k}.ncard) ∧
        (c = .trigger → answer = .number {k | Held earlier k}.ncard)) ∧
    (∀ k, readings {} k (calls.filter (·.concerns k)) = readings {} k calls) ∧
    (run calls).1.map Prod.fst = Channel.answers 1 {} calls := by
  refine ⟨fun earlier later k n split subscribed kept => ?_, fun earlier c later split => ?_,
    fun k => readings_filter ⟨rfl, rfl⟩ calls, Mirrors.fresh.answers calls⟩
  · subst split
    obtain ⟨number, _⟩ := Prod.mk.inj (Option.some.inj ((runFrom_at {} earlier .subscribe later).symm.trans subscribed))
    have number : (after {} earlier).receivers.length = k := Answer.number.inj number
    have fresh : ((after {} earlier).call .subscribe).1.receivers[k]? = some {} := by
      rw [← number]
      exact List.getElem?_concat_length
    obtain ⟨r, found, held, balance⟩ := run_balance fresh rfl kept
    have there : (after {} (earlier ++ .subscribe :: later)).receivers[k]? = some r := by rwa [after_append]
    have read := tryReceive_reads there
    refine ⟨r.unread, (Mirrors.fresh.after _).unread there held, ?_, ?_, fun missed => ?_, fun behind => ?_, ?_⟩
    · have before := accounted_before (Nat.le_of_eq number)
      have total := accounted_append (readings {} k earlier) (((after {} earlier).call .subscribe).1.readings k later)
      rw [before, Nat.zero_add] at total
      rw [readings_append, readings_cons]
      exact (congrArg (· + r.unread) total).trans (balance.trans (Nat.zero_add _))
    · rw [read, Receiver.reads_empty_iff held]
    · rw [read, Receiver.reads_lagged_iff held]
    · have left := receiver_call (.tryReceive k) there
      have stays := (r.held_step k (.tryReceive k)).mpr ⟨held, by simp⟩
      rw [(Mirrors.fresh.after _).unread (by rw [after_append]; exact left) stays]
      simp [Receiver.step, held, behind.not_ge]
    · intro before since seen rest split next
      subst split
      obtain ⟨before_kept, rest_kept⟩ := not_or.mp (List.mem_append.not.mp kept)
      obtain ⟨r, found, held, _⟩ := run_balance fresh rfl before_kept
      have triggered := receiver_call .trigger found
      have stays := (r.held_step k .trigger).mpr ⟨held, by simp⟩
      have owed : 0 < (r.step k .trigger).unread := by simp [Receiver.step, held]
      exact signal_first (by rw [after_append, after_append]; exact triggered) stays owed
        (fun drop => rest_kept (List.mem_cons_of_mem _ drop)) next
  · subst split
    refine ⟨_, (runFrom_at {} earlier c later).trans (by rw [receiverCount_after]), ?_⟩
    rintro rfl
    exact congrArg Answer.number (receiverCount_after earlier)

/-- A receiver that lags, catches up and has one more signal to read. -/
theorem signals_coalesced_lagging :
    let later : List Call :=
      [.trigger, .trigger, .subscribe, .tryReceive 0, .tryReceive 0, .drop 1, .tryReceive 0, .trigger]
    (readings {} 0 (.subscribe :: later)).count .signal +
        ((readings {} 0 (.subscribe :: later)).map Received.missed).sum + 1 = later.count .trigger ∧
      ((after {} (.subscribe :: later)).tryReceive 0).2 ≠ .empty ∧
      Received.signal ∈ [.lagged 1, .signal] := by
  intro later
  obtain ⟨unread, left, total, empty, _, _, first⟩ :=
    (signals_coalesced (.subscribe :: later)).1 [] later 0 1 rfl rfl (by decide)
  obtain rfl : 1 = unread := Option.some.inj left
  exact ⟨total, fun none => absurd (empty.mp none) (by decide), first [] later.tail _ [] rfl rfl⟩

end Deferral.Shutdown
