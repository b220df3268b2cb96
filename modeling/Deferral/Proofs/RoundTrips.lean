import Deferral.Config.Encode
import Deferral.Proofs.LoadedConfigs
import Mathlib

/-! A configuration that is written and read again. What is written names every field, so no default
comes in its place, but for a window that is left out; and a writer of documents may move the entries
of a table and write a list of tables under headers, which changes nothing that is read. -/

namespace Deferral.Config

/-- Two trees that say the same: the first may have the entries of its tables in another order, and
lists of tables in place of sequences. -/
inductive Value.Alike : Value → Value → Prop where
  | refl (v : Value) : Alike v v
  | sequence {items items' : List Value} (length : items.length = items'.length)
      (alike : ∀ pair ∈ items.zip items', Alike pair.1 pair.2) : Alike (.sequence items) (.sequence items')
  | tables {items items' : List Value} (length : items.length = items'.length)
      (alike : ∀ pair ∈ items.zip items', Alike pair.1 pair.2) : Alike (.tables items) (.sequence items')
  | table {entries ordered entries' : List (String × Value)} (perm : entries.Perm ordered)
      (length : ordered.length = entries'.length) (names : ∀ pair ∈ ordered.zip entries', pair.1.1 = pair.2.1)
      (alike : ∀ pair ∈ ordered.zip entries', Alike pair.1.2 pair.2.2) : Alike (.table entries) (.table entries')

namespace Value.Alike

variable {v : Value}

theorem of_text {s : String} (alike : v.Alike (.text s)) : v = .text s := by
  cases alike
  rfl

theorem of_integer {n : Int} (alike : v.Alike (.integer n)) : v = .integer n := by
  cases alike
  rfl

theorem of_boolean {b : Bool} (alike : v.Alike (.boolean b)) : v = .boolean b := by
  cases alike
  rfl

theorem of_null (alike : v.Alike .null) : v = .null := by
  cases alike
  rfl

theorem of_sequence {items' : List Value} (alike : v.Alike (.sequence items')) :
    ∃ items, (v = .sequence items ∨ v = .tables items) ∧ List.Forall₂ Alike items items' := by
  cases alike with
  | refl => exact ⟨items', .inl rfl, List.forall₂_same.mpr fun item _ => .refl item⟩
  | sequence length alike => exact ⟨_, .inl rfl, List.forall₂_iff_zip.mpr ⟨length, fun pair => alike _ pair⟩⟩
  | tables length alike => exact ⟨_, .inr rfl, List.forall₂_iff_zip.mpr ⟨length, fun pair => alike _ pair⟩⟩

/-- Entries that say the same, one by one. -/
abbrev Entries (ordered entries : List (String × Value)) : Prop :=
  List.Forall₂ (fun a b => a.1 = b.1 ∧ Alike a.2 b.2) ordered entries

theorem of_table {entries' : List (String × Value)} (alike : v.Alike (.table entries')) :
    ∃ entries ordered, v = .table entries ∧ entries.Perm ordered ∧ Entries ordered entries' := by
  cases alike with
  | refl => exact ⟨entries', entries', rfl, .refl _, List.forall₂_same.mpr fun entry _ => ⟨rfl, .refl entry.2⟩⟩
  | table perm length names alike =>
    exact ⟨_, _, rfl, perm, List.forall₂_iff_zip.mpr ⟨length, fun pair => ⟨names _ pair, alike _ pair⟩⟩⟩

theorem Entries.head {ordered rest : List (String × Value)} {name : String} {w : Value}
    (alike : Entries ordered ((name, w) :: rest)) :
    ∃ v more, ordered = (name, v) :: more ∧ v.Alike w ∧ Entries more rest := by
  obtain ⟨⟨_, v⟩, more, ⟨rfl, first⟩, later, rfl⟩ := List.forall₂_cons_right_iff.mp alike
  exact ⟨v, more, rfl, first, later⟩

end Value.Alike

/-- A configuration all of whose amounts stay below a bound. -/
structure Within (bound : Nat) (c : ServiceConfig) : Prop where
  window : ∀ secs, c.timeouts.defaultSecs = some secs → secs < bound
  grace : c.timeouts.shutdownGraceMs < bound
  routes : ∀ route ∈ c.routes, route.policy.timeout < bound

theorem Within.mono {bound wider : Nat} {c : ServiceConfig} (within : Within bound c) (le : bound ≤ wider) :
    Within wider c where
  window secs given := Nat.lt_of_lt_of_le (within.window secs given) le
  grace := Nat.lt_of_lt_of_le within.grace le
  routes route member := Nat.lt_of_lt_of_le (within.routes route member) le

theorem decodeWord_encodeWord {n : Nat} (small : n < 0x10000000000000000) : decodeWord (encodeWord n) = .ok n := by
  rw [encodeWord, decodeWord, if_neg (by omega)]
  rfl

theorem decodeSequence_ok {α : Type} {decode : Decoder α} {items : List Value} {out : List α}
    (each : List.Forall₂ (fun item a => decode item = .ok a) items out) : items.mapM decode = .ok out := by
  induction each with
  | nil => rfl
  | cons first _ ih =>
    rw [List.mapM_cons, first, ih]
    rfl

theorem decodeListener_alike {source : Source} {v : Value} {l : ListenerConfig}
    (alike : v.Alike (.table [("bind_address", .text l.bindAddress)])) :
    decodeStructure source "ListenerConfig" listenerFields {} v = .ok l := by
  obtain ⟨entries, ordered, rfl, perm, same⟩ := alike.of_table
  obtain ⟨address, _, rfl, addressAlike, same⟩ := same.head
  obtain rfl := List.forall₂_nil_right_iff.mp same
  obtain rfl := addressAlike.of_text
  apply (decodeEntries_perm listenerFields_independent perm).mpr
  rfl

/-- A window that is left out reads as the default one, so it must be written in a document. -/
theorem decodeTimeouts_alike {source : Source} {v : Value} {t : TimeoutConfig}
    (alike : v.Alike (encodeTimeouts source t)) (given : source = .file → t.defaultSecs ≠ none)
    (window : ∀ secs, t.defaultSecs = some secs → secs < 0x10000000000000000)
    (grace : t.shutdownGraceMs < 0x10000000000000000) :
    decodeStructure source "TimeoutConfig" timeoutFields {} v = .ok t := by
  have graceWord := decodeWord_encodeWord grace
  rw [encodeWord] at graceWord
  obtain ⟨defaultSecs, graceMs⟩ := t
  cases defaultSecs with
  | some secs =>
    have windowWord := decodeWord_encodeWord (window secs rfl)
    rw [encodeWord] at windowWord
    obtain ⟨entries, ordered, rfl, perm, same⟩ := alike.of_table
    obtain ⟨window, _, rfl, windowAlike, same⟩ := same.head
    obtain ⟨grace, _, rfl, graceAlike, same⟩ := same.head
    obtain rfl := List.forall₂_nil_right_iff.mp same
    obtain rfl := windowAlike.of_integer
    obtain rfl := graceAlike.of_integer
    apply (decodeEntries_perm timeoutFields_independent perm).mpr
    simp [decodeEntries, readEntry, timeoutFields, decodeOptional, windowWord, graceWord, bind, Except.bind, pure,
      Except.pure, Functor.map, Except.map]
  | none =>
    cases source with
    | file => exact absurd rfl (given rfl)
    | interchange =>
      obtain ⟨entries, ordered, rfl, perm, same⟩ := alike.of_table
      obtain ⟨window, _, rfl, windowAlike, same⟩ := same.head
      obtain ⟨grace, _, rfl, graceAlike, same⟩ := same.head
      obtain rfl := List.forall₂_nil_right_iff.mp same
      obtain rfl := windowAlike.of_null
      obtain rfl := graceAlike.of_integer
      apply (decodeEntries_perm timeoutFields_independent perm).mpr
      simp [decodeEntries, readEntry, timeoutFields, decodeOptional, graceWord, bind, Except.bind, pure, Except.pure,
        Functor.map, Except.map]

theorem decodeLogFormat_name (source : Source) (format : LogFormat) :
    decodeLogFormat source (.text format.name) = .ok format := by
  cases source <;> simp [decodeLogFormat, decodeChoice, decodeFileChoice, decodeVariant]

theorem decodeObservability_alike {source : Source} {v : Value} {o : ObservabilityConfig}
    (alike : v.Alike (encodeObservability o)) :
    decodeStructure source "ObservabilityConfig" (observabilityFields source) {} v = .ok o := by
  obtain ⟨entries, ordered, rfl, perm, same⟩ := alike.of_table
  obtain ⟨level, _, rfl, levelAlike, same⟩ := same.head
  obtain ⟨format, _, rfl, formatAlike, same⟩ := same.head
  obtain ⟨enabled, _, rfl, enabledAlike, same⟩ := same.head
  obtain ⟨address, _, rfl, addressAlike, same⟩ := same.head
  obtain rfl := List.forall₂_nil_right_iff.mp same
  obtain rfl := levelAlike.of_text
  obtain rfl := formatAlike.of_text
  obtain rfl := enabledAlike.of_boolean
  obtain rfl := addressAlike.of_text
  apply (decodeEntries_perm (observabilityFields_independent source) perm).mpr
  simp [decodeEntries, readEntry, observabilityFields, decodeText, decodeFlag, decodeLogFormat_name, bind, Except.bind,
    pure, Except.pure, Functor.map, Except.map]

theorem decodeRoute_alike {v : Value} {route : RoutePolicy} (alike : v.Alike (encodeRoute route))
    (small : route.policy.timeout < 0x10000000000000000) : decodeRoute v = .ok route := by
  obtain ⟨entries, ordered, rfl, perm, same⟩ := alike.of_table
  obtain ⟨name, _, rfl, nameAlike, same⟩ := same.head
  obtain ⟨timeout, _, rfl, timeoutAlike, same⟩ := same.head
  obtain ⟨unit, _, rfl, unitAlike, same⟩ := same.head
  obtain rfl := List.forall₂_nil_right_iff.mp same
  obtain rfl := nameAlike.of_text
  obtain rfl := timeoutAlike.of_integer
  obtain rfl := unitAlike.of_text
  have named : decodeEntries [routeNameField] none entries = .ok (some route.name) := by
    apply (decodeEntries_perm routeNameField_independent perm).mpr
    rfl
  have policy : decodeEntries (policyFields decodeBufferedTimeUnit) {} entries =
      .ok { timeout := some route.policy.timeout, unit := some route.policy.unit } := by
    apply (decodeEntries_perm (policyFields_independent _) perm).mpr
    have word := decodeWord_encodeWord small
    have unit : decodeBufferedTimeUnit (.text route.policy.unit.name) = .ok route.policy.unit := by
      simp [decodeBufferedTimeUnit, decodeChoice, decodeVariant]
    rw [encodeWord] at word
    simp [decodeEntries, readEntry, policyFields, word, unit, bind, Except.bind, pure, Except.pure, Functor.map, Except.map]
  simp [decodeRoute, named, policy, PolicyFields.build, bind, Except.bind, pure, Except.pure]

theorem decodeRoutes_alike {v : Value} {routes : List RoutePolicy} (alike : v.Alike (.sequence (routes.map encodeRoute)))
    (small : ∀ route ∈ routes, route.policy.timeout < 0x10000000000000000) :
    decodeSequence decodeRoute v = .ok routes := by
  obtain ⟨items, form, same⟩ := alike.of_sequence
  obtain ⟨length, each⟩ := List.forall₂_iff_zip.mp (List.forall₂_map_right_iff.mp same)
  have decoded : items.mapM decodeRoute = .ok routes := by
    apply decodeSequence_ok
    apply List.forall₂_iff_zip.mpr
    exact ⟨length, fun pair => decodeRoute_alike (each pair) (small _ (List.of_mem_zip pair).2)⟩
  rcases form with rfl | rfl
  · exact decoded
  · exact decoded

theorem decodeService_alike {source : Source} {v : Value} {c : ServiceConfig} (alike : v.Alike (encodeService source c))
    (given : source = .file → c.timeouts.defaultSecs ≠ none) (within : Within 0x10000000000000000 c) :
    decodeService source v = .ok c := by
  obtain ⟨entries, ordered, rfl, perm, same⟩ := alike.of_table
  obtain ⟨listener, _, rfl, listenerAlike, same⟩ := same.head
  obtain ⟨timeouts, _, rfl, timeoutsAlike, same⟩ := same.head
  obtain ⟨routes, _, rfl, routesAlike, same⟩ := same.head
  obtain ⟨observability, _, rfl, observabilityAlike, same⟩ := same.head
  obtain rfl := List.forall₂_nil_right_iff.mp same
  have listenerRead := @decodeListener_alike source _ _ listenerAlike
  have timeoutsRead := decodeTimeouts_alike timeoutsAlike given within.window within.grace
  have routesRead := decodeRoutes_alike routesAlike within.routes
  have observabilityRead := @decodeObservability_alike source _ _ observabilityAlike
  apply (decodeEntries_perm (serviceFields_independent source) perm).mpr
  simp [decodeEntries, readEntry, serviceFields, listenerRead, timeoutsRead, routesRead, observabilityRead, bind,
    Except.bind, pure, Except.pure, Functor.map, Except.map]

/-! ### What a document can hold -/

theorem decodeWord_plain {v : Value} {n : Nat} (plain : v.Plain) (decoded : decodeWord v = .ok n) :
    n < 0x8000000000000000 := by
  cases plain with
  | integer low high =>
    rw [decodeWord] at decoded
    split at decoded
    · cases decoded
    · cases decoded
      omega
  | _ => cases decoded

theorem decodeOptional_word {v : Value} {found : Option Nat} (plain : v.Plain)
    (decoded : decodeOptional decodeWord v = .ok found) : ∀ n, found = some n → n < 0x8000000000000000 := by
  rintro n rfl
  have given : some <$> decodeWord v = .ok (some n) := by cases plain <;> exact decoded
  cases word : decodeWord v with
  | error e => simp [word] at given
  | ok m =>
    obtain rfl : m = n := by simpa [word] using given
    exact decodeWord_plain plain word

theorem decodePolicy_plain {unit : Decoder TimeUnit} {entries : List (String × Value)} {p : PolicyFields}
    (plain : ∀ entry ∈ entries, entry.2.Plain) (decoded : decodeEntries (policyFields unit) {} entries = .ok p) :
    ∀ n, p.timeout = some n → n < 0x8000000000000000 := by
  refine decodeEntries_keeps (fun p => ∀ n, p.timeout = some n → n < 0x8000000000000000) ?_ plain nofun decoded
  intro field among v update state plain read kept
  simp only [policyFields, List.mem_cons, List.not_mem_nil, or_false] at among
  rcases among with rfl | rfl
  · obtain ⟨n, found, h⟩ := bind_ok_iff.mp read
    cases h
    intro m given
    cases given
    exact decodeWord_plain plain found
  · obtain ⟨_, -, h⟩ := bind_ok_iff.mp read
    cases h
    exact kept

theorem decodeRoute_plain {v : Value} {route : RoutePolicy} (plain : v.Plain) (decoded : decodeRoute v = .ok route) :
    route.policy.timeout < 0x8000000000000000 := by
  cases plain with
  | table plain =>
    obtain ⟨name, -, decoded⟩ := bind_ok_iff.mp decoded
    cases name with
    | none => cases decoded
    | some name =>
      obtain ⟨fields, read, decoded⟩ := bind_ok_iff.mp decoded
      obtain ⟨policy, built, h⟩ := bind_ok_iff.mp decoded
      cases h
      rw [PolicyFields.build] at built
      split at built
      case h_1 timeout given =>
        cases built
        exact decodePolicy_plain plain read timeout given
      case h_2 => cases built
  | _ => cases decoded

theorem mem_of_mapM_ok {α : Type} {decode : Decoder α} {items : List Value} {out : List α}
    (decoded : items.mapM decode = .ok out) : ∀ a ∈ out, ∃ item ∈ items, decode item = .ok a := by
  induction items generalizing out with
  | nil =>
    cases decoded
    nofun
  | cons item rest ih =>
    rw [List.mapM_cons] at decoded
    obtain ⟨first, here, decoded⟩ := bind_ok_iff.mp decoded
    obtain ⟨more, later, h⟩ := bind_ok_iff.mp decoded
    cases h
    intro a member
    rcases List.mem_cons.mp member with rfl | member
    · exact ⟨item, List.mem_cons_self, here⟩
    · obtain ⟨item, among, found⟩ := ih later a member
      exact ⟨item, List.mem_cons_of_mem _ among, found⟩

theorem decodeRoutes_plain {v : Value} {routes : List RoutePolicy} (plain : v.Plain)
    (decoded : decodeSequence decodeRoute v = .ok routes) :
    ∀ route ∈ routes, route.policy.timeout < 0x8000000000000000 := by
  intro route member
  cases plain with
  | sequence plain | tables plain =>
    obtain ⟨item, among, found⟩ := mem_of_mapM_ok decoded route member
    exact decodeRoute_plain (plain item among) found
  | _ => cases decoded

theorem decodeTimeouts_plain {source : Source} {v : Value} {t : TimeoutConfig} (plain : v.Plain)
    (decoded : decodeStructure source "TimeoutConfig" timeoutFields {} v = .ok t) :
    (∀ secs, t.defaultSecs = some secs → secs < 0x8000000000000000) ∧ t.shutdownGraceMs < 0x8000000000000000 := by
  refine decodeStructure_keeps
    (fun t => (∀ secs, t.defaultSecs = some secs → secs < 0x8000000000000000) ∧ t.shutdownGraceMs < 0x8000000000000000)
    ?_ plain ⟨?_, by decide⟩ decoded
  · intro field among v update state plain read kept
    simp only [timeoutFields, List.mem_cons, List.not_mem_nil, or_false] at among
    rcases among with rfl | rfl
    · obtain ⟨secs, found, h⟩ := bind_ok_iff.mp read
      cases h
      exact ⟨decodeOptional_word plain found, kept.2⟩
    · obtain ⟨grace, found, h⟩ := bind_ok_iff.mp read
      cases h
      exact ⟨kept.1, decodeWord_plain plain found⟩
  · intro secs given
    cases given
    decide

/-- The amounts of a configuration that was read from a document can be written to one. -/
theorem decodeService_plain {source : Source} {tree : Value} {c : ServiceConfig} (plain : tree.Plain)
    (decoded : decodeService source tree = .ok c) : Within 0x8000000000000000 c := by
  refine decodeStructure_keeps (Within 0x8000000000000000) ?_ plain ⟨?_, by decide, by simp⟩ decoded
  · intro field among v update state plain read kept
    simp only [serviceFields, List.mem_cons, List.not_mem_nil, or_false] at among
    rcases among with rfl | rfl | rfl | rfl
    case inr.inl =>
      obtain ⟨timeouts, found, h⟩ := bind_ok_iff.mp read
      cases h
      obtain ⟨window, grace⟩ := decodeTimeouts_plain plain found
      exact ⟨window, grace, kept.routes⟩
    case inr.inr.inl =>
      obtain ⟨routes, found, h⟩ := bind_ok_iff.mp read
      cases h
      exact ⟨kept.window, kept.grace, decodeRoutes_plain plain found⟩
    all_goals
      obtain ⟨_, -, h⟩ := bind_ok_iff.mp read
      cases h
      exact ⟨kept.window, kept.grace, kept.routes⟩
  · intro secs given
    cases given
    decide

theorem encodeWord_plain {n : Nat} (small : n < 0x8000000000000000) : (encodeWord n).Plain :=
  .integer (by omega) (by omega)

theorem encodeRoute_plain {route : RoutePolicy} (small : route.policy.timeout < 0x8000000000000000) :
    (encodeRoute route).Plain := by
  apply Value.Plain.table
  simp only [List.forall_mem_cons, List.not_mem_nil, false_imp_iff, implies_true, and_true]
  exact ⟨.text _, encodeWord_plain small, .text _⟩

theorem encodeTimeouts_plain {t : TimeoutConfig}
    (window : ∀ secs, t.defaultSecs = some secs → secs < 0x8000000000000000)
    (grace : t.shutdownGraceMs < 0x8000000000000000) : (encodeTimeouts .file t).Plain := by
  obtain ⟨defaultSecs, graceMs⟩ := t
  apply Value.Plain.table
  cases defaultSecs with
  | none =>
    simp only [List.forall_mem_cons, List.not_mem_nil, false_imp_iff, implies_true, and_true]
    exact encodeWord_plain grace
  | some secs =>
    simp only [List.forall_mem_cons, List.not_mem_nil, false_imp_iff, implies_true, and_true]
    exact ⟨encodeWord_plain (window secs rfl), encodeWord_plain grace⟩

theorem encodeObservability_plain (o : ObservabilityConfig) : (encodeObservability o).Plain := by
  apply Value.Plain.table
  simp only [List.forall_mem_cons, List.not_mem_nil, false_imp_iff, implies_true, and_true]
  exact ⟨.text _, .text _, .boolean _, .text _⟩

theorem encodeService_plain {c : ServiceConfig} (within : Within 0x8000000000000000 c) :
    (encodeService .file c).Plain := by
  have listener : (Value.table [("bind_address", .text c.listener.bindAddress)]).Plain := by
    apply Value.Plain.table
    simp only [List.forall_mem_cons, List.not_mem_nil, false_imp_iff, implies_true, and_true]
    exact .text _
  have routes : (Value.sequence (c.routes.map encodeRoute)).Plain := by
    apply Value.Plain.sequence
    rw [List.forall_mem_map]
    exact fun route member => encodeRoute_plain (within.routes route member)
  apply Value.Plain.table
  simp only [List.forall_mem_cons, List.not_mem_nil, false_imp_iff, implies_true, and_true]
  exact ⟨listener, encodeTimeouts_plain within.window within.grace, routes, encodeObservability_plain _⟩

/-- What is assumed of whoever writes documents: a tree that a document can hold is written, as a document
whose own tree says the same. -/
def Writes (write : Value → Option String) (v : Value) : Prop :=
  v.Plain → ∃ text tree, write v = some text ∧ Toml.parse? text = some tree ∧ tree.Alike v

/-- A configuration is read back as it was from the interchange tree that is written for it; and one that
was loaded from a document is read back as it was, and accepted, from the document that is written for it. -/
theorem survives_writing :
    (∀ c, Within 0x10000000000000000 c → decodeService .interchange (encodeService .interchange c) = .ok c) ∧
    ∀ (write : Value → Option String) (document : String) (c : ServiceConfig), parse document = .ok c →
      Writes write (encodeService .file c) →
      ∃ text, write (encodeService .file c) = some text ∧ parse text = .ok c := by
  constructor
  · intro c within
    exact decodeService_alike (.refl _) nofun within
  · intro write document c parsed writes
    obtain ⟨tree, read, decoded, sound⟩ := parse_ok_iff.mp parsed
    have plain := Toml.parse_plain read
    have within := decodeService_plain plain decoded
    have default := decodeService_default plain decoded
    obtain ⟨text, copy, written, readBack, alike⟩ := writes (encodeService_plain within)
    have again := decodeService_alike alike (fun _ => default) (within.mono (by decide))
    exact ⟨text, written, parse_ok_iff.mpr ⟨copy, readBack, again, sound⟩⟩

/-- One route and nothing else. -/
def oneRoute : String := "[[routes]]\nname = \"a\"\ntimeout = 2\nunit = \"minutes\"\n"

def oneRouteConfig : ServiceConfig where
  routes := [⟨"a", ⟨2, .minutes⟩⟩]

/-- The same configuration with every field, the routes under headers. -/
def oneRouteWritten : String :=
  "[listener]\nbind_address = \"0.0.0.0:8080\"\n\n[timeouts]\ndefault_secs = 30\nshutdown_grace_ms = 500\n\n" ++
  "[[routes]]\nname = \"a\"\ntimeout = 2\nunit = \"minutes\"\n\n" ++
  "[observability]\nlog_level = \"info\"\nlog_format = \"pretty\"\nmetrics_enabled = false\n" ++
  "metrics_address = \"0.0.0.0:9090\"\n"

def oneRouteTree : Value :=
  .table [("listener", .table [("bind_address", .text "0.0.0.0:8080")]), ("timeouts", encodeTimeouts .file {}),
    ("routes", .tables [encodeRoute ⟨"a", ⟨2, .minutes⟩⟩]), ("observability", encodeObservability {})]

set_option maxRecDepth 20000 in
theorem parse_oneRouteWritten : Toml.parse? oneRouteWritten = some oneRouteTree := by
  cbv

theorem oneRouteTree_alike : oneRouteTree.Alike (encodeService .file oneRouteConfig) := by
  refine .table (.refl _) rfl (by decide) ?_
  simp only [List.zip_cons_cons, List.zip_nil_left, List.forall_mem_cons, List.not_mem_nil, false_imp_iff, implies_true,
    and_true]
  refine ⟨.refl _, .refl _, .tables rfl ?_, .refl _⟩
  intro pair member
  obtain rfl := List.mem_singleton.mp member
  exact .refl _

theorem survives_writing_one :
    decodeService .interchange (encodeService .interchange {}) = .ok {} ∧ parse oneRoute = .ok oneRouteConfig ∧
      Writes (fun _ => some oneRouteWritten) (encodeService .file oneRouteConfig) ∧
      ∃ text, some oneRouteWritten = some text ∧ parse text = .ok oneRouteConfig := by
  obtain ⟨interchange, document⟩ := survives_writing
  have parsed : parse oneRoute = .ok oneRouteConfig := ok_of_toOption (by decide +kernel)
  have writes : Writes (fun _ => some oneRouteWritten) (encodeService .file oneRouteConfig) :=
    fun _ => ⟨oneRouteWritten, oneRouteTree, rfl, parse_oneRouteWritten, oneRouteTree_alike⟩
  have within : Within 0x10000000000000000 {} := ⟨fun secs given => by cases given; decide, by decide, by simp⟩
  exact ⟨interchange {} within, parsed, writes, document _ oneRoute oneRouteConfig parsed writes⟩

end Deferral.Config
