import Deferral.Duration

/-!
Timers of one scheduler, numbered from 1 in the order of scheduling. A timer is armed until it fires
or is cancelled, whichever comes first; its callback runs at most once.
-/

namespace Deferral

structure Timer (κ : Type) where
  after : Duration
  /-- The tick at which it is due; none lies beyond the range of the clock. -/
  due : Option Nat
  callback : κ
  armed : Bool := true
  ran : Bool := false

structure Timers (κ : Type) where
  list : List (Timer κ) := []

namespace Timers

variable {κ : Type}

def get? (ts : Timers κ) (id : Nat) : Option (Timer κ) :=
  if id = 0 then none else ts.list[id - 1]?

def modify (ts : Timers κ) (id : Nat) (f : Timer κ → Timer κ) : Timers κ :=
  if id = 0 then ts else ⟨ts.list.modify (id - 1) f⟩

def schedule (ts : Timers κ) (after : Duration) (due : Option Nat) (callback : κ) : Timers κ × Nat :=
  (⟨ts.list ++ [{ after := after, due := due, callback := callback }]⟩, ts.list.length + 1)

def isArmed (ts : Timers κ) (id : Nat) : Bool := (ts.get? id).any (·.armed)

def callbacks (ts : Timers κ) : List κ := ts.list.map (·.callback)

def callback? (ts : Timers κ) (id : Nat) : Option κ := (ts.get? id).map (·.callback)

def due? (ts : Timers κ) (id : Nat) : Option Nat := (ts.get? id).bind (·.due)

def disarm (ts : Timers κ) (id : Nat) : Timers κ := ts.modify id fun t => { t with armed := false }

/-- Disarms a timer and takes its callback to run it. -/
def spend (ts : Timers κ) (id : Nat) : Timers κ :=
  ts.modify id fun t => { t with armed := false, ran := true }

theorem get?_modify (ts : Timers κ) (id other : Nat) (f : Timer κ → Timer κ) :
    (ts.modify id f).get? other = if id = other then (ts.get? other).map f else ts.get? other := by
  by_cases none : other = 0
  · simp [get?, none]
  by_cases absent : id = 0
  · simp [modify, absent, Ne.symm none]
  by_cases same : id = other
  · simp [modify, get?, same, none]
  · have apart : id - 1 ≠ other - 1 := by omega
    simp [modify, get?, absent, none, same, apart]

theorem get?_schedule (ts : Timers κ) (after : Duration) (due : Option Nat) (callback : κ) (id : Nat) :
    (ts.schedule after due callback).1.get? id =
      if id = ts.list.length + 1 then some { after, due, callback } else ts.get? id := by
  by_cases none : id = 0
  · simp [get?, none]
  by_cases new : id = ts.list.length + 1
  · simp [get?, schedule, new]
  · simp only [get?, none, if_false, new, schedule]
    by_cases inside : id - 1 < ts.list.length
    · rw [List.getElem?_append_left inside]
    · rw [List.getElem?_eq_none (by simp; omega), List.getElem?_eq_none (by omega)]

theorem get?_disarm (ts : Timers κ) (id other : Nat) :
    (ts.disarm id).get? other =
      if id = other then (ts.get? other).map ({ · with armed := false }) else ts.get? other :=
  get?_modify ..

theorem get?_spend (ts : Timers κ) (id other : Nat) :
    (ts.spend id).get? other =
      if id = other then (ts.get? other).map ({ · with armed := false, ran := true }) else ts.get? other :=
  get?_modify ..

theorem get?_lt {ts : Timers κ} {id : Nat} {timer : Timer κ} (found : ts.get? id = some timer) :
    0 < id ∧ id ≤ ts.list.length := by
  unfold get? at found
  split at found
  · cases found
  next positive =>
    obtain ⟨inside, -⟩ := List.getElem?_eq_some_iff.mp found
    omega

theorem callbacks_modify (ts : Timers κ) (id : Nat) {f : Timer κ → Timer κ}
    (same : ∀ timer, (f timer).callback = timer.callback) : (ts.modify id f).callbacks = ts.callbacks := by
  unfold modify callbacks
  split
  · rfl
  · apply List.ext_getElem?
    intro n
    by_cases changed : id - 1 = n
    · cases found : ts.list[n]? <;> simp [changed, found, same]
    · simp [changed]

@[simp] theorem callbacks_disarm (ts : Timers κ) (id : Nat) : (ts.disarm id).callbacks = ts.callbacks :=
  ts.callbacks_modify id fun _ => rfl

@[simp] theorem callbacks_spend (ts : Timers κ) (id : Nat) : (ts.spend id).callbacks = ts.callbacks :=
  ts.callbacks_modify id fun _ => rfl

@[simp] theorem callbacks_schedule (ts : Timers κ) (after : Duration) (due : Option Nat) (callback : κ) :
    (ts.schedule after due callback).1.callbacks = ts.callbacks ++ [callback] := by
  simp [schedule, callbacks]

@[simp] theorem callback?_disarm (ts : Timers κ) (id other : Nat) :
    (ts.disarm id).callback? other = ts.callback? other := by
  rw [callback?, get?_disarm, callback?]
  split
  · cases ts.get? other <;> rfl
  · rfl

@[simp] theorem callback?_spend (ts : Timers κ) (id other : Nat) :
    (ts.spend id).callback? other = ts.callback? other := by
  rw [callback?, get?_spend, callback?]
  split
  · cases ts.get? other <;> rfl
  · rfl

theorem callback?_schedule (ts : Timers κ) (after : Duration) (due : Option Nat) (callback : κ) (id : Nat) :
    (ts.schedule after due callback).1.callback? id =
      if id = ts.list.length + 1 then some callback else ts.callback? id := by
  rw [callback?, get?_schedule]
  split <;> rfl

theorem callback?_le {ts : Timers κ} {id : Nat} {callback : κ} (found : ts.callback? id = some callback) :
    id ≤ ts.list.length := by
  obtain ⟨timer, present, -⟩ := Option.map_eq_some_iff.mp found
  exact (get?_lt present).2

theorem callback?_schedule_of_some {ts : Timers κ} {after : Duration} {due : Option Nat} {callback given : κ} {id : Nat}
    (found : ts.callback? id = some given) : (ts.schedule after due callback).1.callback? id = some given := by
  have older := callback?_le found
  rw [callback?_schedule, if_neg (by omega)]
  exact found

@[simp] theorem due?_disarm (ts : Timers κ) (id other : Nat) : (ts.disarm id).due? other = ts.due? other := by
  rw [due?, get?_disarm, due?]
  split
  · cases ts.get? other <;> rfl
  · rfl

@[simp] theorem due?_spend (ts : Timers κ) (id other : Nat) : (ts.spend id).due? other = ts.due? other := by
  rw [due?, get?_spend, due?]
  split
  · cases ts.get? other <;> rfl
  · rfl

theorem due?_schedule (ts : Timers κ) (after : Duration) (due : Option Nat) (callback : κ) (id : Nat) :
    (ts.schedule after due callback).1.due? id = if id = ts.list.length + 1 then due else ts.due? id := by
  rw [due?, get?_schedule]
  split <;> rfl

theorem due?_le {ts : Timers κ} {id tick : Nat} (found : ts.due? id = some tick) : id ≤ ts.list.length := by
  obtain ⟨timer, present, -⟩ := Option.bind_eq_some_iff.mp found
  exact (get?_lt present).2

theorem due?_schedule_of_some {ts : Timers κ} {after : Duration} {due : Option Nat} {callback : κ} {id tick : Nat}
    (found : ts.due? id = some tick) : (ts.schedule after due callback).1.due? id = some tick := by
  have older := due?_le found
  rw [due?_schedule, if_neg (by omega)]
  exact found

theorem isArmed_found {ts : Timers κ} {id : Nat} {timer : Timer κ} (found : ts.get? id = some timer) :
    ts.isArmed id = timer.armed := by
  rw [isArmed, found]
  rfl

theorem isArmed_disarm (ts : Timers κ) (id other : Nat) :
    (ts.disarm id).isArmed other = (id != other && ts.isArmed other) := by
  rw [isArmed, get?_disarm, isArmed]
  by_cases same : id = other
  · cases ts.get? other <;> simp [same]
  · simp [same]

theorem isArmed_spend (ts : Timers κ) (id other : Nat) :
    (ts.spend id).isArmed other = (id != other && ts.isArmed other) := by
  rw [isArmed, get?_spend, isArmed]
  by_cases same : id = other
  · cases ts.get? other <;> simp [same]
  · simp [same]

theorem isArmed_schedule (ts : Timers κ) (after : Duration) (due : Option Nat) (callback : κ) (id : Nat) :
    (ts.schedule after due callback).1.isArmed id = (id == ts.list.length + 1 || ts.isArmed id) := by
  rw [isArmed, get?_schedule, isArmed]
  by_cases new : id = ts.list.length + 1 <;> simp [new]

theorem callback_mem {ts : Timers κ} {id : Nat} {callback : κ} (found : ts.callback? id = some callback) :
    callback ∈ ts.callbacks := by
  obtain ⟨timer, present, rfl⟩ := Option.map_eq_some_iff.mp found
  unfold get? at present
  split at present
  · cases present
  · exact List.mem_map.mpr ⟨timer, List.mem_of_getElem? present, rfl⟩

private theorem index_unique {l : List κ} {counted : κ → Bool} (once : l.countP counted ≤ 1) {i j : Nat} {a b : κ}
    (first : l[i]? = some a) (second : l[j]? = some b) (counts : counted a = true) (same : counted b = true) : i = j := by
  induction l generalizing i j with
  | nil => cases first
  | cons c l ih =>
    rw [List.countP_cons] at once
    have rest {k : Nat} {d : κ} (found : l[k]? = some d) (counts : counted d = true) : 0 < l.countP counted :=
      List.countP_pos_iff.mpr ⟨d, List.mem_of_getElem? found, counts⟩
    match i, j with
    | 0, 0 => rfl
    | 0, j + 1 =>
      cases first
      have := rest second same
      rw [if_pos counts] at once
      omega
    | i + 1, 0 =>
      cases second
      have := rest first counts
      rw [if_pos same] at once
      omega
    | i + 1, j + 1 => exact congrArg (· + 1) (ih (by omega) first second)

/-- A callback that was scheduled once belongs to one timer. -/
theorem callback?_unique {ts : Timers κ} {counted : κ → Bool} (once : ts.callbacks.countP counted ≤ 1) {i j : Nat} {a b : κ}
    (first : ts.callback? i = some a) (second : ts.callback? j = some b) (counts : counted a = true)
    (same : counted b = true) : i = j := by
  have index {id : Nat} {callback : κ} (found : ts.callback? id = some callback) :
      0 < id ∧ ts.callbacks[id - 1]? = some callback := by
    obtain ⟨timer, present, rfl⟩ := Option.map_eq_some_iff.mp found
    have positive := (get?_lt present).1
    rw [get?, if_neg (by omega)] at present
    exact ⟨positive, by rw [callbacks, List.getElem?_map, present]; rfl⟩
  obtain ⟨positive, first⟩ := index first
  obtain ⟨positive', second⟩ := index second
  have := index_unique once first second counts same
  omega

theorem disarm_spend (ts : Timers κ) (id : Nat) : (ts.spend id).disarm id = ts.spend id := by
  unfold disarm spend modify
  split
  · rfl
  · simp [List.modify_modify_eq, Function.comp_def]

def armed (ts : Timers κ) : Nat := ts.list.countP (·.armed)

private theorem countP_modify {l : List (Timer κ)} {n : Nat} {timer : Timer κ} (f : Timer κ → Timer κ)
    (found : l[n]? = some timer) (armed : timer.armed = true) (disarms : (f timer).armed = false) :
    (l.modify n f).countP (·.armed) + 1 = l.countP (·.armed) := by
  induction l generalizing n with
  | nil => cases found
  | cons head l ih =>
    cases n with
    | zero =>
      cases found
      simp [armed, disarms]
    | succ n =>
      have rest := ih (n := n) found
      simp only [List.modify_succ_cons, List.countP_cons]
      omega

theorem armed_modify {ts : Timers κ} {id : Nat} (f : Timer κ → Timer κ) (disarms : ∀ timer, (f timer).armed = false)
    (armed : ts.isArmed id = true) : (ts.modify id f).armed + 1 = ts.armed := by
  unfold isArmed get? at armed
  unfold modify
  split at armed
  · cases armed
  · next positive =>
    rw [if_neg positive]
    cases found : ts.list[id - 1]? with
    | none => simp [found] at armed
    | some timer =>
      rw [found] at armed
      exact countP_modify f found armed (disarms timer)

theorem armed_disarm {ts : Timers κ} {id : Nat} (armed : ts.isArmed id = true) : (ts.disarm id).armed + 1 = ts.armed :=
  armed_modify _ (fun _ => rfl) armed

theorem armed_spend {ts : Timers κ} {id : Nat} (armed : ts.isArmed id = true) : (ts.spend id).armed + 1 = ts.armed :=
  armed_modify _ (fun _ => rfl) armed

theorem armed_schedule (ts : Timers κ) (after : Duration) (due : Option Nat) (callback : κ) :
    (ts.schedule after due callback).1.armed = ts.armed + 1 := by
  simp [armed, schedule]

/-- As many timers are armed as there are numbers of armed timers. -/
theorem armed_eq_countP (ts : Timers κ) : ts.armed = (List.range' 1 ts.list.length).countP ts.isArmed := by
  have same : ts.list.map (·.armed) = (List.range' 1 ts.list.length).map ts.isArmed := by
    apply List.ext_getElem
    · simp
    · intro n inside _
      have inside : n < ts.list.length := by simpa using inside
      simp [isArmed, get?, inside]
  have counts := congrArg (List.countP id) same
  rw [List.countP_map, List.countP_map] at counts
  exact counts

private def earlier (a b : Nat × Nat) : Bool := a.1 < b.1 || (a.1 == b.1 && a.2 ≤ b.2)

def deadlines (ts : Timers κ) : List (Nat × Nat) :=
  (ts.list.zipIdx 1).filterMap fun (t, id) => if t.armed then t.due.map (·, id) else none

/-- The armed timer due first by `limit`, with its tick; of several the one scheduled first. -/
def next? (ts : Timers κ) (limit : Nat) : Option (Nat × Nat) :=
  (ts.deadlines.filter (·.1 ≤ limit)).foldl (fun best d =>
    match best with
    | none => some d
    | some b => if earlier b d then some b else some d) none

end Timers
end Deferral
