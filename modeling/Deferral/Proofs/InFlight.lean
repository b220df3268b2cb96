import Deferral.Proofs.Metering
import Deferral.Proofs.SequentialLog

/-! What the gauge of responses in flight shows. A thread that has changed the table reads its size and then
sets the gauge, and other threads may go on in between; so the gauge shows what the thread that set it last
had read, and a change that came between is not in it. With one call in progress at a time none comes
between. -/

namespace Deferral.Simulation

namespace Metering

variable {before after : World} {work : Work} {rest stack : List Work}

theorem topped (metering : Metering before work rest after stack) (clear : ∀ f ∈ rest, f.meters = false) :
    ∀ f ∈ stack.tail, f.meters = false := by
  have unmetered {below : List Work} (ungauged : Ungauged before rest after below) {f : Work} (member : f ∈ below) :
      f.meters = false := by
    cases meters : f.meters with
    | false => rfl
    | true => rw [← meters, clear f (ungauged.stack f member meters)]
  intro f member
  cases metering with
  | changed tables ungauged => exact unmetered ungauged member
  | read => exact clear f member
  | wrote => exact clear f (List.mem_of_mem_tail member)
  | passed untabled other ungauged => exact unmetered ungauged (List.mem_of_mem_tail member)

theorem next (metering : Metering before work rest after stack) (clear : ∀ f ∈ rest, f.meters = false) {f : Work}
    (member : f ∈ stack) (meters : f.meters = true) : ∃ below, stack = f :: below := by
  have topped := metering.topped clear
  cases stack with
  | nil => cases member
  | cons first below =>
    rcases List.mem_cons.mp member with rfl | waits
    · exact ⟨below, rfl⟩
    · rw [topped f waits] at meters
      cases meters

theorem reads (metering : Metering before work rest after stack) (clear : ∀ f ∈ rest, f.meters = false) {size : Nat}
    {below : List Work} (gauges : stack = .gauge size :: below) :
    work = .measure ∧ size = before.registry.size ∧ below = rest := by
  cases metering with
  | changed => cases gauges
  | read =>
    cases gauges
    exact ⟨rfl, rfl, rfl⟩
  | wrote =>
    have none := clear (.gauge size) (by simp [gauges])
    cases none
  | passed untabled other ungauged =>
    have none := clear _ (ungauged.stack (.gauge size) (by simp [gauges]) rfl)
    cases none

theorem owes (metering : Metering before work rest after stack) (starts : work.tables = true ∨ work = .measure) :
    ∃ f ∈ stack, f.meters = true := by
  cases metering with
  | changed => exact ⟨.measure, List.mem_cons_self .., rfl⟩
  | read => exact ⟨_, List.mem_cons_self .., rfl⟩
  | wrote => rcases starts with tables | same <;> contradiction
  | passed untabled other =>
    rcases starts with tables | rfl
    · rw [untabled] at tables
      cases tables
    · cases other

theorem inFlight (metering : Metering before work rest after stack) (unwritten : ∀ size, work ≠ .gauge size) :
    after.inFlight? = before.inFlight? := by
  cases metering with
  | changed tables ungauged => exact ungauged.inFlight
  | read => rfl
  | wrote => exact absurd rfl (unwritten _)
  | passed untabled other ungauged => exact ungauged.inFlight

theorem writes {size : Nat} (metering : Metering before (.gauge size) rest after stack) : after.inFlight? = some size := by
  cases metering with
  | changed tables => cases tables
  | wrote inFlight => exact inFlight
  | passed untabled other => cases other

end Metering

namespace Moment

def tabled (moment : Moment) (g : Registry) : Registry := moment.thread.stack.head?.elim g (·.tabled g)

def Changes (moment : Moment) : Prop := ∃ work rest, moment.thread.stack = work :: rest ∧ work.tables = true

def Gauges (moment : Moment) : Prop := ∃ size rest, moment.thread.stack = .gauge size :: rest

variable {place : Nat} {w : World} {t : Thread} {work : Work} {rest : List Work}

theorem tabled_eq (stack : t.stack = work :: rest) (g : Registry) : tabled ⟨place, w, t⟩ g = work.tabled g := by
  simp [tabled, stack]

theorem changes_iff (stack : t.stack = work :: rest) : Changes ⟨place, w, t⟩ ↔ work.tables = true := by
  simp [Changes, stack]

theorem gauges_iff (stack : t.stack = work :: rest) : Gauges ⟨place, w, t⟩ ↔ ∃ size, work = .gauge size := by
  simp [Gauges, stack]

theorem tabled_of_not_changes {moment : Moment} (keeps : ¬ moment.Changes) (g : Registry) : moment.tabled g = g := by
  obtain ⟨place, w, t⟩ := moment
  cases stack : t.stack with
  | nil => simp [tabled, stack]
  | cons work rest =>
    rw [changes_iff stack, Bool.not_eq_true] at keeps
    rw [tabled_eq stack, Work.tabled_of_not_tables keeps]

theorem Gauges.not_changes {moment : Moment} (gauges : moment.Gauges) : ¬ moment.Changes := by
  obtain ⟨size, below, stack⟩ := gauges
  rintro ⟨work, rest, same, tables⟩
  cases stack.symm.trans same
  cases tables

theorem tracks_changes {moment : Moment} {r : Nat} (tracks : moment.tracks r) : moment.Changes := by
  obtain ⟨rest, stack⟩ := List.head?_eq_some_iff.mp tracks
  exact ⟨_, rest, stack, rfl⟩

end Moment

namespace Pool

variable {rule : World → Thread → Prop} {drive : Drive} {m n : List Moment} {p q : Pool}

/-- A thread reads the size of the table at one moment and sets the gauge to it at another; the moments
between are those of other threads. -/
structure Update (read : Moment) (between : List Moment) (write : Moment) : Prop where
  thread : write.place = read.place
  carries : ∃ below, read.thread.stack = .measure :: below ∧
    write.thread.stack = .gauge read.world.registry.size :: below
  others : ∀ moment ∈ between, moment.place ≠ read.place

/-- The last step of a thread was to read the size of the table. -/
def LastRead (m : List Moment) (place size : Nat) (below : List Work) : Prop :=
  ∃ past read since, m = past ++ read :: since ∧ read.place = place ∧ read.thread.stack = .measure :: below ∧
    read.world.registry.size = size ∧ ∀ moment ∈ since, moment.place ≠ place

theorem LastRead.later {place size : Nat} {below : List Work} {moment : Moment} (last : LastRead m place size below)
    (other : moment.place ≠ place) : LastRead (m ++ [moment]) place size below := by
  obtain ⟨past, read, since, rfl, same, measures, found, others⟩ := last
  have apart : ∀ next ∈ since ++ [moment], next.place ≠ place :=
    List.forall_mem_append.mpr ⟨others, List.forall_mem_singleton.mpr other⟩
  exact ⟨past, read, since ++ [moment], by simp, same, measures, found, apart⟩

/-- What the gauge shows: nothing before it is first set, and then what the last update read. -/
inductive Shown (m : List Moment) : Option Nat → Prop where
  | unset (unwritten : ∀ moment ∈ m, ¬ moment.Gauges) : Shown m none
  | set {past read between write later} (told : m = past ++ read :: (between ++ write :: later))
      (update : Update read between write) (last : ∀ moment ∈ later, ¬ moment.Gauges) :
      Shown m (some read.world.registry.size)

theorem Shown.later {shown : Option Nat} {moment : Moment} (past : Shown m shown) (keeps : ¬ moment.Gauges) :
    Shown (m ++ [moment]) shown := by
  have unwritten {moments : List Moment} (none : ∀ other ∈ moments, ¬ other.Gauges) :
      ∀ other ∈ moments ++ [moment], ¬ other.Gauges :=
    List.forall_mem_append.mpr ⟨none, List.forall_mem_singleton.mpr keeps⟩
  cases past with
  | unset none => exact .unset (unwritten none)
  | @set past read between write later told update last =>
    have told : m ++ [moment] = past ++ read :: (between ++ write :: (later ++ [moment])) := by simp [told]
    exact .set told update (unwritten last)

/-- How far the updates of the gauge have come at the end of a chronicle. -/
structure Metered (m : List Moment) (p : Pool) : Prop where
  /-- Work that has to do with the gauge is the next of its thread. -/
  topped : ∀ t ∈ p.threads, ∀ f ∈ t.stack.tail, f.meters = false
  reading : ∀ place t size below, p.threads[place]? = some t → t.stack = .gauge size :: below → LastRead m place size below
  shown : Shown m p.world.inFlight?
  /-- After a change of the table the gauge was set, or it is still to be set. -/
  owed : ∀ past change later, m = past ++ change :: later → change.Changes →
    (∃ write ∈ later, write.Gauges) ∨ ∃ f ∈ p.works, f.meters = true

namespace Metered

theorem initial (drive : Drive) : Metered [] (start drive) := by
  refine ⟨fun t member => ?_, fun place t size below found => ?_, .unset (by simp), fun past change later told => ?_⟩
  · cases member
  · simp [start] at found
  · simp at told

theorem spawn {w : World} {threads : List Thread} {t : Thread} (metered : Metered m ⟨w, threads⟩) (fresh : t.Fresh) :
    Metered m ⟨w, threads ++ [t]⟩ := by
  have works : (Pool.mk w (threads ++ [t])).works = (Pool.mk w threads).works ++ t.stack := by simp [Pool.works]
  refine ⟨fun u among f member => ?_, fun place u size below found gauges => ?_, metered.shown,
    fun past change later told changes => ?_⟩
  · rcases List.mem_append.mp among with old | new
    · exact metered.topped u old f member
    · rw [List.mem_singleton.mp new] at member
      exact fresh.unmetered f (List.mem_of_mem_tail member)
  · rcases Nat.lt_or_ge place threads.length with old | new
    · exact metered.reading place u size below ((List.getElem?_append_left old).symm.trans found) gauges
    · have own : u ∈ [t] := List.mem_of_getElem? ((List.getElem?_append_right new).symm.trans found)
      rw [List.mem_singleton.mp own] at gauges
      have none := fresh.unmetered (.gauge size) (by simp [gauges])
      cases none
  · rcases metered.owed past change later told changes with written | ⟨f, member, meters⟩
    · exact .inl written
    · refine .inr ⟨f, ?_, meters⟩
      rw [works]
      exact List.mem_append_left _ member

section Run

variable {w w' : World} {before after : List Thread} {t thread : Thread} {work : Work} {rest : List Work}

theorem clear (metered : Metered m ⟨w, before ++ t :: after⟩) (stack : t.stack = work :: rest) :
    ∀ f ∈ rest, f.meters = false := by
  intro f member
  exact metered.topped t (by simp) f (by rw [stack]; exact member)

theorem shown_run (metered : Metered m ⟨w, before ++ t :: after⟩) (stack : t.stack = work :: rest)
    (metering : Metering w work rest w' thread.stack) : Shown (m ++ [⟨before.length, w, t⟩]) w'.inFlight? := by
  by_cases gauges : Moment.Gauges ⟨before.length, w, t⟩
  · obtain ⟨size, rfl⟩ := (Moment.gauges_iff stack).mp gauges
    obtain ⟨past, read, since, rfl, place, measures, rfl, others⟩ :=
      metered.reading before.length t size rest (by simp) stack
    have update : Update read since ⟨before.length, w, t⟩ :=
      ⟨place.symm, ⟨rest, measures, stack⟩, fun moment member => by rw [place]; exact others moment member⟩
    rw [metering.writes]
    exact .set (List.append_assoc ..) update (by simp)
  · have kept : w'.inFlight? = w.inFlight? :=
      metering.inFlight fun size same => gauges ((Moment.gauges_iff stack).mpr ⟨size, same⟩)
    rw [kept]
    exact metered.shown.later gauges

/-- What is owed to the gauge is paid by a write, or goes on to the next step of the thread. -/
theorem owed_run (metered : Metered m ⟨w, before ++ t :: after⟩) (stack : t.stack = work :: rest)
    (metering : Metering w work rest w' thread.stack) {past later : List Moment} {change : Moment}
    (told : m ++ [⟨before.length, w, t⟩] = past ++ change :: later) (changes : change.Changes) :
    (∃ write ∈ later, write.Gauges) ∨ ∃ f ∈ (Pool.mk w' (before ++ thread :: after)).works, f.meters = true := by
  have owes (starts : work.tables = true ∨ work = .measure) :
      ∃ f ∈ (Pool.mk w' (before ++ thread :: after)).works, f.meters = true := by
    obtain ⟨f, member, meters⟩ := metering.owes starts
    exact ⟨f, mem_works_run.mpr (.inr member), meters⟩
  rcases List.eq_nil_or_concat later with rfl | ⟨later, moment, rfl⟩
  · obtain ⟨-, same⟩ := List.append_inj' told rfl
    cases same
    exact .inr (owes (.inl ((Moment.changes_iff stack).mp changes)))
  · rw [List.concat_eq_append] at told ⊢
    rw [← List.cons_append, ← List.append_assoc] at told
    obtain ⟨older, same⟩ := List.append_inj' told rfl
    cases same
    rcases metered.owed past change later older changes with ⟨write, member, gauges⟩ | ⟨f, member, meters⟩
    · exact .inl ⟨write, List.mem_append_left _ member, gauges⟩
    · rcases mem_works_run.mp member with other | here
      · exact .inr ⟨f, mem_works_run.mpr (.inl other), meters⟩
      · rw [stack] at here
        rcases List.mem_cons.mp here with rfl | below
        · cases f with
          | measure => exact .inr (owes (.inr rfl))
          | gauge size => exact .inl ⟨_, List.mem_append_right _ (List.mem_singleton.mpr rfl), size, rest, stack⟩
          | _ => cases meters
        · rw [metered.clear stack f below] at meters
          cases meters

theorem run (metered : Metered m ⟨w, before ++ t :: after⟩) (stack : t.stack = work :: rest) :
    Metered (m ++ [⟨before.length, w, t⟩]) ⟨(step w t).1, before ++ (step w t).2 :: after⟩ := by
  have metering := step_metering (w := w) stack
  have clear := metered.clear stack
  refine ⟨fun u among f member => ?_, fun place u size below found gauges => ?_, metered.shown_run stack metering,
    fun past change later => metered.owed_run stack metering⟩
  · rcases List.mem_append.mp among with left | right
    · exact metered.topped u (List.mem_append_left _ left) f member
    · rcases List.mem_cons.mp right with rfl | right
      · exact metering.topped clear f member
      · exact metered.topped u (List.mem_append_right _ (List.mem_cons_of_mem _ right)) f member
  · by_cases here : place = before.length
    · subst here
      obtain rfl : (step w t).2 = u := by simpa using found
      obtain ⟨rfl, rfl, rfl⟩ := metering.reads clear gauges
      exact ⟨m, _, [], rfl, rfl, stack, rfl, by simp⟩
    · have old := (elsewhere (t := t) (u := (step w t).2) here).1.symm.trans found
      exact (metered.reading place u size below old gauges).later (Ne.symm here)

end Run

theorem of_chronicle (chronicle : Chronicle rule (start drive) m p) : Metered m p := by
  induction chronicle with
  | refl => exact initial drive
  | move past next ih =>
    cases next with
    | run stack allowed => exact ih.run stack
    | spawn fresh =>
      rw [List.append_nil]
      exact ih.spawn fresh
    | wait now sleeping ready =>
      rw [List.append_nil]
      exact ⟨ih.topped, ih.reading, ih.shown, ih.owed⟩

end Metered

/-- The table at the end of a run is the one at its start with all changes made. -/
theorem Chronicle.registry (chronicle : Chronicle rule p m q) :
    q.world.registry = m.foldl (fun g moment => moment.tabled g) p.world.registry := by
  induction chronicle with
  | refl => rfl
  | move past next ih =>
    cases next with
    | @run w before t after work rest stack allowed =>
      rw [List.foldl_append, ← ih, List.foldl_cons, List.foldl_nil, Moment.tabled_eq stack]
      exact (step_delivery stack).registry
    | spawn fresh =>
      rw [List.append_nil]
      exact ih
    | wait now sleeping ready =>
      rw [List.append_nil]
      exact ih

theorem foldl_tabled {m : List Moment} (keeps : ∀ moment ∈ m, ¬ moment.Changes) (g : Registry) :
    m.foldl (fun g moment => moment.tabled g) g = g := by
  induction m with
  | nil => rfl
  | cons moment m ih =>
    rw [List.foldl_cons, Moment.tabled_of_not_changes (keeps moment (List.mem_cons_self ..))]
    exact ih fun other member => keeps other (List.mem_cons_of_mem _ member)

theorem Chronicle.thread (before after : List Thread) {w : World} {t : Thread}
    (past : Chronicle rule p m ⟨w, before ++ t :: after⟩) (fuel : Nat) (obeys : Obeys rule fuel w t) :
    ∃ n, Chronicle rule p (m ++ n) ⟨(runThread fuel w t).1, before ++ (runThread fuel w t).2 :: after⟩ := by
  obtain ⟨h, run⟩ := Runs.thread before after obeys
  obtain ⟨n, later⟩ := of_run run
  exact ⟨n, past.trans later⟩

theorem Chronicle.call {w : World} {threads : List Thread} (past : Chronicle rule p m ⟨w, threads⟩) (action : Action)
    (fuel : Nat) (obeys : Obeys rule fuel w { stack := [.call action] }) :
    ∃ n, Chronicle rule p (m ++ n) ⟨(runThread fuel w { stack := [.call action] }).1,
      threads ++ [(runThread fuel w { stack := [.call action] }).2]⟩ := by
  have begun : Chronicle rule p (m ++ []) ⟨w, threads ++ [{ stack := [.call action] }]⟩ :=
    past.move (.spawn (.inl ⟨action, rfl⟩))
  rw [List.append_nil] at begun
  exact begun.thread threads [] fuel obeys

/-- The last update of the gauge, and what it makes of the gauge and the table when no call is in progress. -/
structure LastUpdate (m : List Moment) (p : Pool) (read : Moment) (between : List Moment) : Prop where
  told : ∃ past write later, m = past ++ read :: (between ++ write :: later) ∧ Update read between write ∧
    ∀ moment ∈ later, ¬ moment.Gauges ∧ ¬ moment.Changes
  shows : p.world.inFlight? = some read.world.registry.size
  /-- The table is the one that was read, with the changes that other threads made before the gauge was set. -/
  table : p.world.registry = between.foldl (fun g moment => moment.tabled g) read.world.registry
  agrees : (∀ moment ∈ between, ¬ moment.Changes) → p.world.inFlight? = some p.world.registry.size

theorem Metered.last_update (metered : Metered m p) (chronicle : Chronicle rule (start drive) m p) (idle : p.works = [])
    (changed : ∃ moment ∈ m, moment.Changes) : ∃ read between, LastUpdate m p read between := by
  have settled {past later : List Moment} {change : Moment} (told : m = past ++ change :: later)
      (changes : change.Changes) : ∃ write ∈ later, write.Gauges :=
    (metered.owed past change later told changes).resolve_right (by simp [idle])
  have shown := metered.shown
  generalize same : p.world.inFlight? = size at shown
  cases shown with
  | unset unwritten =>
    obtain ⟨change, among, changes⟩ := changed
    obtain ⟨past, later, told⟩ := List.append_of_mem among
    obtain ⟨write, member, gauges⟩ := settled told changes
    refine absurd gauges (unwritten write ?_)
    rw [told]
    exact List.mem_append_right _ (List.mem_cons_of_mem _ member)
  | @set past read between write later told update last =>
    obtain ⟨below, measures, gauges⟩ := update.carries
    -- a change after the last write would have been followed by another one
    have after : ∀ moment ∈ later, ¬ moment.Changes := by
      intro moment member changes
      obtain ⟨early, late, rfl⟩ := List.append_of_mem member
      have whole : m = (past ++ read :: (between ++ write :: early)) ++ moment :: late := by simp [told]
      obtain ⟨other, among, again⟩ := settled whole changes
      exact last other (by simp [among]) again
    have unchanging : ∀ moment ∈ write :: later, ¬ moment.Changes :=
      List.forall_mem_cons.mpr ⟨Moment.Gauges.not_changes ⟨_, below, gauges⟩, after⟩
    have table : p.world.registry = between.foldl (fun g moment => moment.tabled g) read.world.registry := by
      rw [told] at chronicle
      cases chronicle.cut with
      | @found w before t rest' work rest n q first stack allowed second =>
        obtain ⟨rfl, rfl⟩ := List.cons.inj (stack.symm.trans measures)
        have read : (step w t).1.registry = w.registry := (step_delivery stack).registry
        rw [second.registry, List.foldl_append, foldl_tabled unchanging, read]
    have quiet : ∀ moment ∈ later, ¬ moment.Gauges ∧ ¬ moment.Changes :=
      fun moment member => ⟨last moment member, after moment member⟩
    refine ⟨read, between, ⟨past, write, later, told, update, quiet⟩, same, table, fun keeps => ?_⟩
    rw [same, table, foldl_tabled keeps]

/-- Whenever a response was registered and no call is in progress, the gauge shows how many responses the table
held when the thread that set the gauge last had read it. It holds as many now, unless other threads changed it
between that reading and that write. -/
theorem gauge_shows_last_reading (chronicle : Chronicle rule (start drive) m p) (idle : p.works = [])
    (registered : ∃ r, ∃ moment ∈ m, moment.tracks r) : ∃ read between, LastUpdate m p read between := by
  obtain ⟨r, moment, among, tracks⟩ := registered
  exact (Metered.of_chronicle chronicle).last_update chronicle idle ⟨moment, among, Moment.tracks_changes tracks⟩

/-- Two threads end the two responses that are registered. The first one has read that one response is left when
the second one takes that out and sets the gauge to none; then the first one sets it to one. -/
theorem gauge_shows_last_reading_overtaken : ∃ m p, Chronicle Tracking (start .runtime) m p ∧ p.works = [] ∧
    p.world.inFlight? = some 1 ∧ p.world.registry.size = 0 ∧
    ∃ read between, LastUpdate m p read between ∧ ∃ moment ∈ between, moment.Changes := by
  have begun : Chronicle Tracking (start .runtime) [] (start .runtime) := .refl
  obtain ⟨_, made⟩ := begun.call (.create 2 .events) 9 (by decide)
  obtain ⟨_, one⟩ := made.call (.register 0) 9 (by decide)
  obtain ⟨_, two⟩ := one.call (.register 1) 9 (by decide)
  obtain ⟨moment, among, tracks⟩ := (Tracked.of_chronicle two 0).inserted (by decide)
  obtain ⟨_, reading⟩ := two.call (.resume 0 "first") 6 (by decide)
  obtain ⟨_, overtaken⟩ := reading.call (.resume 1 "second") 20 (by decide)
  obtain ⟨_, wrote⟩ := overtaken.thread [_, _, _] [_] 9 (by decide)
  obtain ⟨read, between, last⟩ := gauge_shows_last_reading wrote rfl
    ⟨0, moment, List.mem_append_left _ (List.mem_append_left _ (List.mem_append_left _ among)), tracks⟩
  refine ⟨_, _, wrote, rfl, rfl, rfl, read, between, last, Classical.byContradiction fun none => ?_⟩
  have agrees : some 1 = some 0 := last.agrees fun moment member changes => none ⟨moment, member, changes⟩
  cases agrees

/-- The gauge can show a response in flight for good when none is registered. Two threads register a response that
has ended: one takes it out, the other one puts it in again, the first one reads that there is one, and sets the
gauge to that when the other one has taken the response out and set the gauge to none. -/
theorem gauge_outlives_responses : ∃ m p, Chronicle Tracking (start (.manual false)) m p ∧ p.works = [] ∧
    (∃ moment ∈ m, moment.tracks 0) ∧ p.world.inFlight? = some 1 ∧ p.world.registry.size = 0 := by
  have begun : Chronicle Tracking (start (.manual false)) [] (start (.manual false)) := .refl
  obtain ⟨_, made⟩ := begun.call (.create 1 .events) 9 (by decide)
  obtain ⟨_, ended⟩ := made.call (.resume 0 "v") 9 (by decide)
  obtain ⟨_, removed⟩ := ended.call (.register 0) 6 (by decide)
  obtain ⟨_, inserted⟩ := removed.call (.register 0) 1 (by decide)
  obtain ⟨moment, among, tracks⟩ := (Tracked.of_chronicle inserted 0).inserted (by decide)
  obtain ⟨_, read⟩ := inserted.thread [_, _] [_] 1 (by decide)
  obtain ⟨_, emptied⟩ := read.thread [_, _, _] [] 20 (by decide)
  obtain ⟨_, wrote⟩ := emptied.thread [_, _] [_] 9 (by decide)
  exact ⟨_, _, wrote, rfl, ⟨moment, List.mem_append_left _ (List.mem_append_left _ (List.mem_append_left _ among)), tracks⟩,
    rfl, rfl⟩

/-- How the gauge stands to the table while one call is in progress at a time. -/
structure Exact (m : List Moment) (p : Pool) : Prop where
  writing : ∀ size, .gauge size ∈ p.works → size = p.world.registry.size
  agrees : (∃ moment ∈ m, moment.Changes) → (∀ f ∈ p.works, f.meters = false) →
    p.world.inFlight? = some p.world.registry.size

namespace Exact

theorem initial (drive : Drive) : Exact [] (start drive) := by
  refine ⟨fun size member => ?_, fun changed => ?_⟩
  · cases member
  · obtain ⟨moment, member, -⟩ := changed
    cases member

theorem spawn {w : World} {threads : List Thread} {t : Thread} (exact : Exact m ⟨w, threads⟩) (fresh : t.Fresh) :
    Exact m ⟨w, threads ++ [t]⟩ := by
  have works : (Pool.mk w (threads ++ [t])).works = (Pool.mk w threads).works ++ t.stack := by simp [Pool.works]
  refine ⟨fun size member => ?_, fun changed none => exact.agrees changed fun f member => none f ?_⟩
  · rw [works] at member
    rcases List.mem_append.mp member with old | new
    · exact exact.writing size old
    · cases fresh.unmetered _ new
  · rw [works]
    exact List.mem_append_left _ member

theorem run {w : World} {before after : List Thread} {t : Thread} {work : Work} {rest : List Work}
    (exact : Exact m ⟨w, before ++ t :: after⟩) (metered : Metered m ⟨w, before ++ t :: after⟩)
    (stack : t.stack = work :: rest) (single : Single ⟨w, before ++ t :: after⟩) :
    Exact (m ++ [⟨before.length, w, t⟩]) ⟨(step w t).1, before ++ (step w t).2 :: after⟩ := by
  have metering := step_metering (w := w) stack
  have registry := (step_delivery (w := w) stack).registry
  have clear := metered.clear stack
  have changes : Moment.Changes ⟨before.length, w, t⟩ ↔ work.tables = true := Moment.changes_iff stack
  have mine {v : World} {u : Thread} {f : Work} : f ∈ (Pool.mk v (before ++ u :: after)).works ↔ f ∈ u.stack := by
    rw [mem_works_run]
    refine or_iff_right fun member => ?_
    obtain ⟨other, among, inside⟩ := List.mem_flatMap.mp member
    rw [single.idle stack among] at inside
    cases inside
  generalize (step w t).2 = thread at metering ⊢
  generalize (step w t).1 = w' at metering registry ⊢
  refine ⟨fun size member => ?_, fun changed none => ?_⟩
  · obtain ⟨below, gauges⟩ := metering.next clear (mine.mp member) rfl
    obtain ⟨rfl, rfl, -⟩ := metering.reads clear gauges
    exact (congrArg Registry.size registry).symm
  · have pending {f : Work} (member : f ∈ thread.stack) : f.meters = false := none f (mine.mpr member)
    generalize thread.stack = stack' at metering pending
    cases metering with
    | changed => cases pending (List.mem_cons_self ..)
    | read => cases pending (List.mem_cons_self ..)
    | @wrote size _ _ inFlight =>
      have measured := exact.writing size (mem_works_here stack (List.mem_cons_self ..))
      rw [inFlight, measured, registry]
      rfl
    | passed untabled unmetered ungauged =>
      have same : w'.registry = w.registry := registry.trans (Work.tabled_of_not_tables untabled _)
      rw [ungauged.inFlight, same]
      refine exact.agrees ?_ fun f member => ?_
      · obtain ⟨moment, member, changed⟩ := changed
        rcases List.mem_append.mp member with old | new
        · exact ⟨moment, old, changed⟩
        · rw [List.mem_singleton.mp new, changes, untabled] at changed
          cases changed
      · rw [mine, stack] at member
        rcases List.mem_cons.mp member with rfl | below
        · exact unmetered
        · exact clear f below

theorem of_sequential (run : Sequential rule (start drive) m p) : Exact m p := by
  induction run with
  | refl => exact initial drive
  | move past next single ih =>
    cases next with
    | run stack allowed => exact ih.run (.of_chronicle past.chronicle) stack (past.single (.start drive))
    | spawn fresh =>
      rw [List.append_nil]
      exact ih.spawn fresh
    | wait now sleeping ready =>
      rw [List.append_nil]
      exact ⟨ih.writing, ih.agrees⟩

end Exact

/-- While one call is in progress at a time, the gauge shows the size of the table whenever none is in progress. -/
theorem gauge_exact_in_sequence (run : Sequential rule (start drive) m p) (idle : p.works = [])
    (registered : ∃ r, ∃ moment ∈ m, moment.tracks r) : p.world.inFlight? = some p.world.registry.size := by
  obtain ⟨r, moment, among, tracks⟩ := registered
  exact (Exact.of_sequential run).agrees ⟨moment, among, Moment.tracks_changes tracks⟩ (by simp [idle])

end Pool
end Deferral.Simulation
