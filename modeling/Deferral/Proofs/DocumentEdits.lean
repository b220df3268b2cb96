import Deferral.Proofs.EntryOrder
import Mathlib.Data.List.Nodup
import Mathlib.Logic.Relation

/-! What a document may change without changing what is read from it. The entries of a table may stand in any order, and
what a structure does not know may be added; a section that gives its first fields may give them as a sequence; and a
route's policy is read from beside its name as it is read alone. -/

namespace Deferral.Config

/-- Where a tree holds the structures of a configuration. -/
inductive Shape where
  | leaf
  | list (item : Shape)
  | record (fields : List (String × Shape))

namespace Shape

/-- The shape of an entry of a table. What is not a known field has no structure. -/
def field : Shape → String → Shape
  | .record fields, name => (fields.lookup name).getD .leaf
  | _, _ => .leaf

/-- The shape of the elements of a sequence. A structure that is given as one is not looked into. -/
def item? : Shape → Option Shape
  | .leaf => some .leaf
  | .list item => some item
  | .record _ => none

end Shape

/-- One change at one place of a tree: the entries of a table stand in another order, or a structure has an entry more
that it does not know. -/
inductive Edit : Shape → Value → Value → Prop where
  | permute {shape : Shape} {entries reordered : List (String × Value)} (perm : entries.Perm reordered) :
      Edit shape (.table entries) (.table reordered)
  | insert {fields : List (String × Shape)} {before after : List (String × Value)} {name : String} {v : Value}
      (unknown : name ∉ fields.map Prod.fst) :
      Edit (.record fields) (.table (before ++ after)) (.table (before ++ (name, v) :: after))
  | entry {shape : Shape} {before after : List (String × Value)} {name : String} {v w : Value}
      (inside : Edit (shape.field name) v w) :
      Edit shape (.table (before ++ (name, v) :: after)) (.table (before ++ (name, w) :: after))
  | item {shape inner : Shape} {before after : List Value} {v w : Value} (items : shape.item? = some inner)
      (inside : Edit inner v w) : Edit shape (.sequence (before ++ v :: after)) (.sequence (before ++ w :: after))
  | table {shape inner : Shape} {before after : List Value} {v w : Value} (items : shape.item? = some inner)
      (inside : Edit inner v w) : Edit shape (.tables (before ++ v :: after)) (.tables (before ++ w :: after))

/-- A decoder that edits make no difference to. -/
def Blind {α : Type} (shape : Shape) (decode : Decoder α) : Prop :=
  ∀ v w, Edit shape v w → ∀ a, decode v = .ok a ↔ decode w = .ok a

section
variable {α σ : Type} {shape : Shape} {decode : Decoder α} {content : Decoder Unit}

theorem Blind.update (blind : Blind shape decode) (set : α → σ → σ) :
    Blind shape fun v => do let a ← decode v; return set a := by
  intro v w edit f
  simp only [bind_ok_iff, blind v w edit]

theorem decodeText_blind : Blind .leaf decodeText := by
  intro v w edit a
  cases edit <;> simp [decodeText]

theorem decodeFlag_blind : Blind .leaf decodeFlag := by
  intro v w edit a
  cases edit <;> simp [decodeFlag]

theorem decodeWord_blind : Blind .leaf decodeWord := by
  intro v w edit a
  cases edit <;> simp [decodeWord]

theorem decodeWindow_blind : Blind .leaf (decodeOptional decodeWord) := by
  intro v w edit a
  cases edit <;> simp [decodeOptional, decodeWord]

theorem decodeUnit_blind : Blind .leaf decodeUnit := by
  intro v w edit a
  cases edit <;> simp [decodeUnit]

theorem decodeBufferedUnit_blind : Blind .leaf decodeBufferedUnit := by
  have table (entries : List (String × Value)) : decodeBufferedUnit (.table entries) = .ok () ↔ entries = [] := by
    cases entries <;> simp [decodeBufferedUnit]
  intro v w edit a
  cases edit with
  | permute perm =>
    rw [table, table]
    exact ⟨fun none => List.nil_perm.mp (none ▸ perm), fun none => List.perm_nil.mp (none ▸ perm)⟩
  | entry => simp [table]
  | item | table => simp [decodeBufferedUnit]

theorem decodeEmpty_blind : Blind .leaf decodeEmpty := by
  have table (entries : List (String × Value)) : decodeEmpty (.table entries) = .ok () ↔ entries = [] := by
    cases entries <;> simp [decodeEmpty]
  intro v w edit a
  cases edit with
  | permute perm =>
    rw [table, table]
    exact ⟨fun none => List.nil_perm.mp (none ▸ perm), fun none => List.perm_nil.mp (none ▸ perm)⟩
  | entry => simp [table]
  | @item _ _ before => cases before <;> simp [decodeEmpty]
  | @table _ _ before => cases before <;> simp [decodeEmpty]

/-- A choice is read from a table of one entry, so there is nothing to put in another order. -/
theorem Blind.choice (blind : Blind .leaf content) (known : String → Except DecodeError α)
    (table : ∀ entries a, decode (.table entries) = .ok a ↔
      ∃ name v, entries = [(name, v)] ∧ known name = .ok a ∧ content v = .ok ())
    (sequence : ∀ items a, decode (.sequence items) ≠ .ok a) (tables : ∀ items a, decode (.tables items) ≠ .ok a) :
    Blind .leaf decode := by
  intro v w edit a
  cases edit with
  | @permute _ entries reordered perm =>
    have single (entry : String × Value) : entries = [entry] ↔ reordered = [entry] :=
      ⟨fun one => List.perm_singleton.mp (one ▸ perm.symm), fun one => List.perm_singleton.mp (one ▸ perm)⟩
    simp only [table, single]
  | @entry _ before after name v w inside =>
    have alone (x y : Value) (other : String) : before ++ (name, x) :: after = [(other, y)] ↔
        before = [] ∧ after = [] ∧ name = other ∧ x = y := by
      cases before <;> cases after <;> simp
    have same := blind v w inside ()
    simp only [table, alone]
    constructor
    · rintro ⟨other, _, ⟨none, nothing, named, rfl⟩, chosen, held⟩
      exact ⟨other, w, ⟨none, nothing, named, rfl⟩, chosen, same.mp held⟩
    · rintro ⟨other, _, ⟨none, nothing, named, rfl⟩, chosen, held⟩
      exact ⟨other, v, ⟨none, nothing, named, rfl⟩, chosen, same.mpr held⟩
  | item => simp [sequence]
  | table => simp [tables]

theorem chosen_iff {known : String → Except DecodeError α} {name : String} {v : Value} {a : α} :
    (do let b ← known name; content v; return b) = .ok a ↔
      ∃ other w, [(name, v)] = [(other, w)] ∧ known other = .ok a ∧ content w = .ok () := by
  simp only [bind_ok_iff]
  constructor
  · rintro ⟨b, chosen, ⟨⟩, held, same⟩
    cases same
    exact ⟨name, v, rfl, chosen, held⟩
  · rintro ⟨_, _, one, chosen, held⟩
    cases one
    exact ⟨a, chosen, (), held, rfl⟩

theorem decodeChoice_blind {known : List String} {ofName? : String → Option α} (blind : Blind .leaf content) :
    Blind .leaf (decodeChoice known ofName? content) := by
  refine .choice blind (decodeVariant known ofName?) (fun entries a => ?_) nofun nofun
  match entries with
  | [] | _ :: _ :: _ => simp [decodeChoice]
  | [(name, v)] => exact chosen_iff

theorem decodeFileChoice_blind {known : List String} {ofName? : String → Option α} :
    Blind .leaf (decodeFileChoice known ofName?) := by
  refine .choice decodeEmpty_blind (decodeVariant known ofName?) (fun entries a => ?_) nofun nofun
  match entries with
  | [] | _ :: _ :: _ => simp [decodeFileChoice]
  | [(name, v)] => exact chosen_iff

theorem decodeLogFormat_blind (source : Source) : Blind .leaf (decodeLogFormat source) := by
  cases source with
  | interchange => exact decodeChoice_blind decodeUnit_blind
  | file => exact decodeFileChoice_blind

theorem decodeSequence_blind (blind : Blind shape decode) : Blind (.list shape) (decodeSequence decode) := by
  have elements {before after : List Value} {v w : Value} (edit : Edit shape v w) (out : List α) :
      (before ++ v :: after).mapM decode = .ok out ↔ (before ++ w :: after).mapM decode = .ok out := by
    simp only [List.mapM_append, List.mapM_cons, bind_ok_iff, blind v w edit]
  intro v w edit out
  cases edit with
  | permute => simp [decodeSequence]
  | entry => simp [decodeSequence]
  | item items inside =>
    cases items
    exact elements inside out
  | table items inside =>
    cases items
    exact elements inside out

/-- The fields of a structure of some shape: they write apart, and none looks at what an edit may change. -/
structure Fits (shapes : List (String × Shape)) (fields : List (Field σ)) : Prop where
  named : ∀ field ∈ fields, field.name ∈ shapes.map Prod.fst
  blind : ∀ field ∈ fields, Blind ((Shape.record shapes).field field.name) field.update
  independent : Independent fields

variable {shapes : List (String × Shape)} {fields : List (Field σ)} {start state : σ}
  {entries edited : List (String × Value)}

theorem foldlM_split (fields : List (Field σ)) (x read : σ × List String) (before after : List (String × Value)) :
    (before ++ after).foldlM (readEntry fields) x = .ok read ↔
      ∃ y, before.foldlM (readEntry fields) x = .ok y ∧ after.foldlM (readEntry fields) y = .ok read := by
  rw [List.foldlM_append, bind_ok_iff]

theorem decodeEntries_replace {before after : List (String × Value)} {name : String} {v w : Value}
    (same : ∀ field, fields.find? (·.name == name) = some field → ∀ f, field.update v = .ok f → field.update w = .ok f)
    (decoded : decodeEntries fields start (before ++ (name, v) :: after) = .ok state) :
    decodeEntries fields start (before ++ (name, w) :: after) = .ok state := by
  have replaced (x y : σ × List String) (done : readEntry fields x (name, v) = .ok y) :
      readEntry fields x (name, w) = .ok y := by
    cases known : fields.find? (·.name == name) with
    | none => rwa [readEntry_unknown known] at done ⊢
    | some field =>
      obtain ⟨fresh, update, decoded, read⟩ := (readEntry_ok_iff known).mp done
      exact (readEntry_ok_iff known).mpr ⟨fresh, update, same field known update decoded, read⟩
  obtain ⟨read, done, rfl⟩ := decodeEntries_ok_iff.mp decoded
  obtain ⟨x, first, done⟩ := (foldlM_split ..).mp done
  obtain ⟨y, here, done⟩ := bind_ok_iff.mp done
  exact decodeEntries_ok_iff.mpr
    ⟨read, (foldlM_split ..).mpr ⟨x, first, bind_ok_iff.mpr ⟨y, replaced x y here, done⟩⟩, rfl⟩

theorem Fits.decodeEntries (fits : Fits shapes fields) (edit : Edit (.record shapes) (.table entries) (.table edited)) :
    decodeEntries fields start entries = .ok state ↔ decodeEntries fields start edited = .ok state := by
  cases edit with
  | permute perm => exact decodeEntries_perm fits.independent perm
  | @insert _ before after name v unknown =>
    have skipped (x : σ × List String) : readEntry fields x (name, v) = .ok x := by
      refine readEntry_unknown (List.find?_eq_none.mpr fun field member same => unknown ?_)
      have named : field.name = name := eq_of_beq same
      exact named ▸ fits.named field member
    simp only [decodeEntries_ok_iff, foldlM_split, List.foldlM_cons, skipped]
    rfl
  | @entry _ before after name v w inside =>
    have same (field : Field σ) (known : fields.find? (·.name == name) = some field) :
        ∀ f, field.update v = .ok f ↔ field.update w = .ok f := by
      have named := List.find?_some known
      rw [beq_iff_eq] at named
      exact fits.blind field (List.mem_of_find?_eq_some known) v w (named ▸ inside)
    exact ⟨decodeEntries_replace fun field known f => (same field known f).mp,
      decodeEntries_replace fun field known f => (same field known f).mpr⟩

theorem Fits.decodeStructure (fits : Fits shapes fields) (source : Source) (name : String) :
    Blind (.record shapes) (decodeStructure source name fields start) := by
  intro v w edit state
  cases edit with
  | permute perm => exact fits.decodeEntries (.permute perm)
  | insert unknown => exact fits.decodeEntries (.insert unknown)
  | entry inside => exact fits.decodeEntries (.entry inside)
  | item items => cases items
  | table items => cases items

end

/-! ### The structures of a configuration -/

def listenerShape : List (String × Shape) := [("bind_address", .leaf)]

def timeoutShape : List (String × Shape) := [("default_secs", .leaf), ("shutdown_grace_ms", .leaf)]

/-- The policy of a route stands beside its name. -/
def routeShape : List (String × Shape) := [("name", .leaf), ("timeout", .leaf), ("unit", .leaf)]

def observabilityShape : List (String × Shape) :=
  [("log_level", .leaf), ("log_format", .leaf), ("metrics_enabled", .leaf), ("metrics_address", .leaf)]

def serviceShape : List (String × Shape) := [
  ("listener", .record listenerShape),
  ("timeouts", .record timeoutShape),
  ("routes", .list (.record routeShape)),
  ("observability", .record observabilityShape)]

theorem listenerFields_fit : Fits listenerShape listenerFields where
  named := by simp [listenerFields, listenerShape]
  blind := by
    simp only [listenerFields, List.forall_mem_cons, List.not_mem_nil, false_imp_iff, implies_true, and_true]
    exact decodeText_blind.update _
  independent := listenerFields_independent

theorem timeoutFields_fit : Fits timeoutShape timeoutFields where
  named := by simp [timeoutFields, timeoutShape]
  blind := by
    simp only [timeoutFields, List.forall_mem_cons, List.not_mem_nil, false_imp_iff, implies_true, and_true]
    exact ⟨decodeWindow_blind.update _, decodeWord_blind.update _⟩
  independent := timeoutFields_independent

theorem observabilityFields_fit (source : Source) : Fits observabilityShape (observabilityFields source) where
  named := by simp [observabilityFields, observabilityShape]
  blind := by
    simp only [observabilityFields, List.forall_mem_cons, List.not_mem_nil, false_imp_iff, implies_true, and_true]
    exact ⟨decodeText_blind.update _, (decodeLogFormat_blind source).update _, decodeFlag_blind.update _,
      decodeText_blind.update _⟩
  independent := observabilityFields_independent source

theorem routeNameField_fit : Fits routeShape [routeNameField] where
  named := by simp [routeNameField, routeShape]
  blind := by
    simp only [List.forall_mem_cons, List.not_mem_nil, false_imp_iff, implies_true, and_true]
    exact decodeText_blind.update _
  independent := routeNameField_independent

theorem policyFields_fit : Fits routeShape (policyFields decodeBufferedTimeUnit) where
  named := by simp [policyFields, routeShape]
  blind := by
    simp only [policyFields, List.forall_mem_cons, List.not_mem_nil, false_imp_iff, implies_true, and_true]
    exact ⟨decodeWord_blind.update _, (decodeChoice_blind decodeBufferedUnit_blind).update _⟩
  independent := policyFields_independent _

theorem decodeRoute_named {entries : List (String × Value)} {name : String}
    (named : decodeEntries [routeNameField] none entries = .ok (some name)) : decodeRoute (.table entries) =
      RoutePolicy.mk name <$> (decodeEntries (policyFields decodeBufferedTimeUnit) {} entries >>= PolicyFields.build) := by
  rw [decodeRoute, named]
  cases decodeEntries (policyFields decodeBufferedTimeUnit) {} entries with
  | error e => rfl
  | ok p => cases built : p.build <;> simp [bind, Except.bind, built, Functor.map, Except.map, pure, Except.pure]

theorem decodeRoute_ok_iff {entries : List (String × Value)} {route : RoutePolicy} :
    decodeRoute (.table entries) = .ok route ↔ decodeEntries [routeNameField] none entries = .ok (some route.name) ∧
      ∃ p, decodeEntries (policyFields decodeBufferedTimeUnit) {} entries = .ok p ∧ p.build = .ok route.policy := by
  have mapped {name : String} {x : Except DecodeError SuspendPolicy} :
      RoutePolicy.mk name <$> x = .ok route ↔ name = route.name ∧ x = .ok route.policy := by
    cases x <;> cases route <;> simp [Functor.map, Except.map]
  match named : decodeEntries [routeNameField] none entries with
  | .error e => simp [decodeRoute, named, bind, Except.bind]
  | .ok none => simp [decodeRoute, named, bind, Except.bind]
  | .ok (some name) => simp [decodeRoute_named named, mapped, bind_ok_iff, and_left_comm]

theorem decodeRoute_blind : Blind (.record routeShape) decodeRoute := by
  have tables {entries edited : List (String × Value)} (route : RoutePolicy)
      (edit : Edit (.record routeShape) (.table entries) (.table edited)) :
      decodeRoute (.table entries) = .ok route ↔ decodeRoute (.table edited) = .ok route := by
    simp only [decodeRoute_ok_iff, routeNameField_fit.decodeEntries edit, policyFields_fit.decodeEntries edit]
  intro v w edit route
  cases edit with
  | permute perm => exact tables route (.permute perm)
  | insert unknown => exact tables route (.insert unknown)
  | entry inside => exact tables route (.entry inside)
  | item items => cases items
  | table items => cases items

theorem serviceFields_fit (source : Source) : Fits serviceShape (serviceFields source) where
  named := by simp [serviceFields, serviceShape]
  blind := by
    simp only [serviceFields, List.forall_mem_cons, List.not_mem_nil, false_imp_iff, implies_true, and_true]
    exact ⟨(listenerFields_fit.decodeStructure source _).update _,
      (timeoutFields_fit.decodeStructure source _).update _,
      (decodeSequence_blind decodeRoute_blind).update _,
      ((observabilityFields_fit source).decodeStructure source _).update _⟩
  independent := serviceFields_independent source

theorem decodeService_blind (source : Source) : Blind (.record serviceShape) (decodeService source) :=
  (serviceFields_fit source).decodeStructure source _

/-! ### Sections as sequences -/

section
variable {σ : Type} {fields : List (Field σ)} {start state : σ} {entries : List (String × Value)} {values : List Value}

theorem decodeEntries_known (fields : List (Field σ)) (start : σ) (entries : List (String × Value)) :
    decodeEntries fields start entries =
      decodeEntries fields start (entries.filter ((fields.map (·.name)).contains ·.1)) := by
  have read (x : σ × List String) : entries.foldlM (readEntry fields) x =
      (entries.filter ((fields.map (·.name)).contains ·.1)).foldlM (readEntry fields) x := by
    induction entries generalizing x with
    | nil => rfl
    | cons entry rest ih =>
      by_cases known : (fields.map (·.name)).contains entry.1 = true
      · rw [List.filter_cons, if_pos known, List.foldlM_cons, List.foldlM_cons]
        exact bind_congr fun y => ih y
      · have unknown : fields.find? (·.name == entry.1) = none := by
          refine List.find?_eq_none.mpr fun field member same => known ?_
          rw [← eq_of_beq same]
          exact List.contains_iff_mem.mpr (List.mem_map_of_mem member)
        rw [List.filter_cons, if_neg known, List.foldlM_cons, readEntry_unknown unknown]
        exact ih x
  simp only [decodeEntries, read]

theorem foldlM_zip {later : List (Field σ)} {seen : List String} {read : σ × List String}
    (known : ∀ field ∈ later, fields.find? (·.name == field.name) = some field)
    (distinct : (later.map (·.name)).Nodup) (fits : values.length ≤ later.length)
    (done : ((later.map (·.name)).zip values).foldlM (readEntry fields) (start, seen) = .ok read) :
    ∃ rest, decodeItems later start values = .ok (read.1, rest, []) := by
  induction later generalizing start seen values with
  | nil =>
    obtain rfl := List.eq_nil_of_length_eq_zero (Nat.le_zero.mp fits)
    cases done
    exact ⟨[], rfl⟩
  | cons field later ih =>
    cases values with
    | nil =>
      cases done
      exact ⟨field :: later, rfl⟩
    | cons v values =>
      rw [List.map_cons, List.zip_cons_cons, List.foldlM_cons] at done
      obtain ⟨x, first, done⟩ := bind_ok_iff.mp done
      obtain ⟨_, update, decoded, rfl⟩ := (readEntry_ok_iff (known field List.mem_cons_self)).mp first
      obtain ⟨rest, items⟩ := ih (fun f member => known f (List.mem_cons_of_mem _ member))
        (List.nodup_cons.mp distinct).2 (Nat.le_of_succ_le_succ fits) done
      exact ⟨rest, bind_ok_iff.mpr ⟨update, decoded, items⟩⟩

theorem decodeStructure_listed (independent : Independent fields) (distinct : (fields.map (·.name)).Nodup)
    (source : Source) (name : String) (fits : values.length ≤ (fields.map (·.name)).length)
    (given : (entries.filter ((fields.map (·.name)).contains ·.1)).Perm ((fields.map (·.name)).zip values))
    (decoded : decodeStructure source name fields start (.table entries) = .ok state) :
    decodeStructure source name fields start (.sequence values) = .ok state := by
  have decoded : decodeEntries fields start entries = .ok state := decoded
  rw [decodeEntries_known, decodeEntries_perm independent given] at decoded
  obtain ⟨read, done, rfl⟩ := decodeEntries_ok_iff.mp decoded
  have known (field : Field σ) (member : field ∈ fields) : fields.find? (·.name == field.name) = some field := by
    cases found : fields.find? (·.name == field.name) with
    | none => exact absurd (beq_self_eq_true _) (List.find?_eq_none.mp found field member)
    | some other =>
      have named := List.find?_some found
      rw [beq_iff_eq] at named
      rw [List.inj_on_of_nodup_map distinct (List.mem_of_find?_eq_some found) member named]
  obtain ⟨rest, items⟩ := foldlM_zip known distinct (by simpa using fits) done
  exact bind_ok_iff.mpr ⟨_, items, bind_ok_iff.mpr ⟨(), if_neg fun surplus => surplus.2 rfl, rfl⟩⟩

end

/-- The fields of a policy are read the same beside a name as alone, as long as the unit is given by its name. -/
theorem decodeEntries_buffered {entries : List (String × Value)}
    (plain : ∀ v, ("unit", v) ∈ entries → ∃ s, v = .text s) (start : PolicyFields) :
    decodeEntries (policyFields decodeBufferedTimeUnit) start entries =
      decodeEntries (policyFields decodeTimeUnit) start entries := by
  have read (x : PolicyFields × List String) : entries.foldlM (readEntry (policyFields decodeBufferedTimeUnit)) x =
      entries.foldlM (readEntry (policyFields decodeTimeUnit)) x := by
    induction entries generalizing x with
    | nil => rfl
    | cons entry rest ih =>
      have same : readEntry (policyFields decodeBufferedTimeUnit) x entry =
          readEntry (policyFields decodeTimeUnit) x entry := by
        obtain ⟨name, v⟩ := entry
        by_cases unit : name = "unit"
        · subst unit
          obtain ⟨s, rfl⟩ := plain v List.mem_cons_self
          rfl
        · by_cases timeout : name = "timeout"
          · subst timeout
            rfl
          · have unknown (decode : Decoder TimeUnit) : (policyFields decode).find? (·.name == name) = none := by
              simp [policyFields, Ne.symm unit, Ne.symm timeout]
            rw [readEntry_unknown (unknown _), readEntry_unknown (unknown _)]
      rw [List.foldlM_cons, List.foldlM_cons, same]
      exact bind_congr fun y => ih (fun v member => plain v (List.mem_cons_of_mem _ member)) y
  simp only [decodeEntries, read]

/-- The sections of a configuration and the fields that each declares. -/
def sections (source : Source) : List (String × List String) := [
  ("listener", listenerFields.map (·.name)),
  ("timeouts", timeoutFields.map (·.name)),
  ("observability", (observabilityFields source).map (·.name))]

theorem section_listed {source : Source} {name : String} {declared : List String}
    (member : (name, declared) ∈ sections source) {before after entries : List (String × Value)} {values : List Value}
    {c : ServiceConfig} (fits : values.length ≤ declared.length)
    (given : (entries.filter (declared.contains ·.1)).Perm (declared.zip values))
    (decoded : decodeService source (.table (before ++ (name, .table entries) :: after)) = .ok c) :
    decodeService source (.table (before ++ (name, .sequence values) :: after)) = .ok c := by
  refine decodeEntries_replace (fun field known f read => ?_) decoded
  simp only [sections, List.mem_cons, List.not_mem_nil, or_false, Prod.mk.injEq] at member
  rcases member with ⟨rfl, rfl⟩ | ⟨rfl, rfl⟩ | ⟨rfl, rfl⟩
  · cases known
    obtain ⟨l, read, same⟩ := bind_ok_iff.mp read
    exact bind_ok_iff.mpr
      ⟨l, decodeStructure_listed listenerFields_independent (by decide) source _ fits given read, same⟩
  · cases known
    obtain ⟨t, read, same⟩ := bind_ok_iff.mp read
    exact bind_ok_iff.mpr
      ⟨t, decodeStructure_listed timeoutFields_independent (by decide) source _ fits given read, same⟩
  · cases known
    obtain ⟨o, read, same⟩ := bind_ok_iff.mp read
    have distinct : ((observabilityFields source).map (·.name)).Nodup := by
      show ["log_level", "log_format", "metrics_enabled", "metrics_address"].Nodup
      decide
    exact bind_ok_iff.mpr
      ⟨o, decodeStructure_listed (observabilityFields_independent source) distinct source _ fits given read, same⟩

/-- Only the values of the fields that are known decide what is read. The entries of any table may change places and a
structure may be given more than it knows; a section may give its first fields as a sequence; and the policy beside a
route's name is the one that is read alone. -/
theorem known_fields_decide (source : Source) :
    (∀ v w, Relation.ReflTransGen (Edit (.record serviceShape)) v w →
      (∀ c, decodeService source v = .ok c ↔ decodeService source w = .ok c) ∧
      ((∃ e, decodeService source v = .error e) ↔ ∃ e, decodeService source w = .error e)) ∧
    (∀ name declared, (name, declared) ∈ sections source → ∀ before after entries values c,
      values.length ≤ declared.length → (entries.filter (declared.contains ·.1)).Perm (declared.zip values) →
      decodeService source (.table (before ++ (name, .table entries) :: after)) = .ok c →
      decodeService source (.table (before ++ (name, .sequence values) :: after)) = .ok c) ∧
    (∀ entries, (∀ v, ("unit", v) ∈ entries → ∃ s, v = .text s) →
      (∀ route, decodeRoute (.table entries) = .ok route → decodePolicy (.table entries) = .ok route.policy) ∧
      ∀ name, decodeEntries [routeNameField] none entries = .ok (some name) →
        decodeRoute (.table entries) = RoutePolicy.mk name <$> decodePolicy (.table entries)) := by
  refine ⟨fun v w edits => ?_, fun name declared member before after entries values c => ?_, fun entries plain => ?_⟩
  · have same (c : ServiceConfig) : decodeService source v = .ok c ↔ decodeService source w = .ok c := by
      induction edits with
      | refl => rfl
      | tail _ edit ih => exact ih.trans (decodeService_blind source _ _ edit c)
    have rejected (x : Except DecodeError ServiceConfig) : (∃ e, x = .error e) ↔ ∀ c, x ≠ .ok c := by cases x <;> simp
    exact ⟨same, by simp only [rejected, ne_eq, same]⟩
  · exact section_listed member
  · have policy : decodePolicy (.table entries) =
        decodeEntries (policyFields decodeBufferedTimeUnit) {} entries >>= PolicyFields.build := by
      rw [decodeEntries_buffered plain]
      rfl
    refine ⟨fun route read => ?_, fun name named => by rw [policy, decodeRoute_named named]⟩
    obtain ⟨_, p, fields, built⟩ := decodeRoute_ok_iff.mp read
    exact policy.trans (bind_ok_iff.mpr ⟨p, fields, built⟩)

/-- A section whose entries change places while the document is given more than is known, the same section as a
sequence, and a policy beside a name. -/
theorem known_fields_decide_moved :
    decodeService .file (.table [("extra", .float 0), ("timeouts",
        .table [("shutdown_grace_ms", .integer 7), ("default_secs", .integer 5)])]) = .ok { timeouts := ⟨some 5, 7⟩ } ∧
      decodeService .file (.table [("timeouts", .sequence [.integer 5, .integer 7])]) =
        .ok { timeouts := ⟨some 5, 7⟩ } ∧
      decodePolicy (.table [("unit", .text "days"), ("name", .text "r"), ("timeout", .integer 5)]) =
        .ok ⟨5, .days⟩ := by
  obtain ⟨edited, listed, beside⟩ := known_fields_decide .file
  let ordered : Value := .table [("default_secs", .integer 5), ("shutdown_grace_ms", .integer 7)]
  let moved : Value := .table [("shutdown_grace_ms", .integer 7), ("default_secs", .integer 5)]
  have given : decodeService .file (.table ([] ++ ("timeouts", ordered) :: [])) = .ok { timeouts := ⟨some 5, 7⟩ } := rfl
  have insert : Edit (.record serviceShape) (.table ([] ++ [("timeouts", ordered)]))
      (.table ([] ++ ("extra", .float 0) :: [("timeouts", ordered)])) := .insert (by decide)
  have permute : Edit (.record serviceShape) (.table ([("extra", .float 0)] ++ ("timeouts", ordered) :: []))
      (.table ([("extra", .float 0)] ++ ("timeouts", moved) :: [])) := .entry (.permute (.swap ..))
  refine ⟨((edited _ _ (.tail (.single insert) permute)).1 _).mp given, ?_, (beside _ ?_).1 ⟨"r", 5, .days⟩ rfl⟩
  · exact listed "timeouts" ["default_secs", "shutdown_grace_ms"] (by simp [sections, timeoutFields]) [] [] _
      [.integer 5, .integer 7] _ (by decide) (.refl _) given
  · simp

end Deferral.Config
