import Deferral.Config.Load
import Deferral.Proofs.EntryOrder
import Deferral.Proofs.PlainValues
import Deferral.Proofs.PolicyTables
import Deferral.Proofs.Validation

/-!
What a configuration that was loaded promises to the server. Decoding keeps the default window, for
only `null` could take it away; validation leaves routes with distinct names and no window of zero;
and of distinct routes the policy table loses none.
-/

namespace Deferral

namespace Config

theorem mapError_ok_iff {ε ε' α : Type} {x : Except ε α} {f : ε → ε'} {a : α} :
    x.mapError f = .ok a ↔ x = .ok a := by
  cases x <;> simp [Except.mapError]

theorem ok_of_toOption {ε α : Type} {x : Except ε α} {a : α} (found : x.toOption = some a) : x = .ok a := by
  cases x with
  | error e => cases found
  | ok b =>
    cases found
    rfl

theorem parse_ok_iff {document : String} {config : ServiceConfig} :
    parse document = .ok config ↔
      ∃ tree, Toml.parse? document = some tree ∧ decodeService .file tree = .ok config ∧
        validate config = [] := by
  constructor
  · intro parsed
    rw [parse] at parsed
    split at parsed
    case h_2 => cases parsed
    case h_1 tree read =>
      obtain ⟨found, decoded, done⟩ := bind_ok_iff.mp parsed
      split at done
      case h_2 => cases done
      case h_1 sound =>
        cases done
        exact ⟨tree, read, mapError_ok_iff.mp decoded, sound⟩
  · rintro ⟨tree, read, decoded, sound⟩
    simp only [parse, read]
    refine bind_ok_iff.mpr ⟨config, mapError_ok_iff.mpr decoded, ?_⟩
    rw [sound]
    rfl

section
variable {σ : Type} (keep : σ → Prop) {fields : List (Field σ)} {start state : σ}
  (keeps : ∀ field ∈ fields, ∀ v update state,
    v.Plain → field.update v = .ok update → keep state → keep (update state))
include keeps

theorem readEntry_keeps {read next : σ × List String} {entry : String × Value} (plain : entry.2.Plain)
    (kept : keep read.1) (done : readEntry fields read entry = .ok next) : keep next.1 := by
  rw [readEntry] at done
  split at done
  case h_1 =>
    cases done
    exact kept
  case h_2 field found =>
    split at done
    · cases done
    · obtain ⟨update, decoded, h⟩ := bind_ok_iff.mp done
      cases h
      exact keeps field (List.mem_of_find?_eq_some found) _ _ _ plain decoded kept

theorem decodeEntries_keeps {entries : List (String × Value)} (plain : ∀ entry ∈ entries, entry.2.Plain)
    (kept : keep start) (decoded : decodeEntries fields start entries = .ok state) : keep state := by
  have fold : ∀ read next, keep read.1 → entries.foldlM (readEntry fields) read = .ok next → keep next.1 := by
    clear decoded
    induction entries with
    | nil =>
      intro read next kept done
      cases done
      exact kept
    | cons entry rest ih =>
      obtain ⟨first, plain⟩ := List.forall_mem_cons.mp plain
      intro read next kept done
      obtain ⟨between, here, done⟩ := bind_ok_iff.mp done
      exact ih plain between next (readEntry_keeps keep keeps first kept here) done
  rw [decodeEntries] at decoded
  cases done : entries.foldlM (readEntry fields) (start, []) with
  | error e => simp [done] at decoded
  | ok next =>
    obtain rfl : next.1 = state := by simpa [done] using decoded
    exact fold _ next kept done

theorem decodeItems_keeps {items surplus : List Value} {rest : List (Field σ)} (plain : ∀ item ∈ items, item.Plain)
    (kept : keep start) (decoded : decodeItems fields start items = .ok (state, rest, surplus)) : keep state := by
  induction fields generalizing start items with
  | nil =>
    rw [decodeItems.eq_def] at decoded
    cases decoded
    exact kept
  | cons field fields ih =>
    obtain ⟨here, keeps⟩ := List.forall_mem_cons.mp keeps
    cases items with
    | nil =>
      rw [decodeItems.eq_def] at decoded
      cases decoded
      exact kept
    | cons item items =>
      obtain ⟨first, plain⟩ := List.forall_mem_cons.mp plain
      obtain ⟨update, read, decoded⟩ := bind_ok_iff.mp decoded
      exact ih keeps plain (here item update start first read kept) decoded

/-- What the start of a structure satisfies and each of its fields keeps, the whole structure
satisfies, whichever of its fields are given and in which form. -/
theorem decodeStructure_keeps {source : Source} {name : String} {v : Value} (plain : v.Plain)
    (kept : keep start) (decoded : decodeStructure source name fields start v = .ok state) : keep state := by
  rw [decodeStructure.eq_def] at decoded
  split at decoded
  case h_1 =>
    cases plain with
    | table plain => exact decodeEntries_keeps keep keeps plain kept decoded
  case h_2 | h_3 =>
    obtain ⟨⟨out, rest, surplus⟩, items, decoded⟩ := bind_ok_iff.mp decoded
    obtain ⟨-, -, h⟩ := bind_ok_iff.mp decoded
    cases h
    cases plain with | _ plain => exact decodeItems_keeps keep keeps plain kept items
  case h_4 =>
    cases decoded
    exact kept
  case h_5 => cases decoded

end

theorem decodeOptional_plain {α : Type} {decode : Decoder α} {v : Value} {found : Option α} (plain : v.Plain)
    (decoded : decodeOptional decode v = .ok found) : found ≠ none := by
  have given : some <$> decode v = .ok found := by cases plain <;> exact decoded
  cases inner : decode v with
  | error e => simp [inner] at given
  | ok a =>
    obtain rfl : some a = found := by simpa [inner] using given
    nofun

theorem decodeTimeouts_default {source : Source} {v : Value} {t : TimeoutConfig} (plain : v.Plain)
    (decoded : decodeStructure source "TimeoutConfig" timeoutFields {} v = .ok t) : t.defaultSecs ≠ none := by
  refine decodeStructure_keeps (fun t => t.defaultSecs ≠ none) ?_ plain (Option.some_ne_none 30) decoded
  intro field among v update state plain read kept
  simp only [timeoutFields, List.mem_cons, List.not_mem_nil, or_false] at among
  rcases among with rfl | rfl
  · obtain ⟨secs, found, h⟩ := bind_ok_iff.mp read
    cases h
    exact decodeOptional_plain plain found
  · obtain ⟨grace, found, h⟩ := bind_ok_iff.mp read
    cases h
    exact kept

/-- A document without `null` never loses the default window. -/
theorem decodeService_default {source : Source} {tree : Value} {config : ServiceConfig} (plain : tree.Plain)
    (decoded : decodeService source tree = .ok config) : config.timeouts.defaultSecs ≠ none := by
  refine decodeStructure_keeps (fun c => c.timeouts.defaultSecs ≠ none) ?_ plain (Option.some_ne_none 30) decoded
  intro field among v update state plain read kept
  simp only [serviceFields, List.mem_cons, List.not_mem_nil, or_false] at among
  rcases among with rfl | rfl | rfl | rfl
  case inr.inl =>
    obtain ⟨timeouts, found, h⟩ := bind_ok_iff.mp read
    cases h
    exact decodeTimeouts_default plain found
  all_goals
    obtain ⟨_, -, h⟩ := bind_ok_iff.mp read
    cases h
    exact kept

theorem validate_eq_nil {config : ServiceConfig} (sound : validate config = []) :
    config.timeouts.defaultSecs ≠ some 0 ∧ (config.routes.map (·.name)).Nodup ∧
      ∀ r ∈ config.routes, r.policy.duration.isZero = false := by
  simp only [validate, List.append_eq_nil_iff] at sound
  obtain ⟨⟨⟨⟨-, default⟩, routes⟩, -⟩, -⟩ := sound
  obtain ⟨each, distinct⟩ := routeErrors_eq_nil_iff.mp routes
  exact ⟨fun zero => by simp [zero] at default, distinct, fun r held => (each r held).2.2⟩

end Config

/-- A loaded configuration keeps every route under its own name, and there is no route, declared or
not, that a request could wait on without a window or with a window of zero. -/
theorem windows_given {document : String} {config : ServiceConfig} (loaded : Config.parse document = .ok config) :
    (∀ route ∈ config.routes, (PolicyTable.ofConfig config).policy? route.name = some route.policy) ∧
      (PolicyTable.ofConfig config).routeNames.length = config.routes.length ∧
      ∀ name, ∃ policy, (PolicyTable.ofConfig config).resolve name = some policy ∧
        0 < policy.duration.totalNanos := by
  obtain ⟨tree, read, decoded, sound⟩ := Config.parse_ok_iff.mp loaded
  obtain ⟨nonzero, distinct, positive⟩ := Config.validate_eq_nil sound
  have default := Config.decodeService_default (Toml.parse_plain read) decoded
  refine ⟨fun route held => PolicyTable.policy?_of_mem distinct held, ?_, ?_⟩
  · rw [(PolicyTable.routeNames_perm distinct).length_eq, List.length_map]
  · intro name
    cases declared : (PolicyTable.ofConfig config).policy? name with
    | some policy =>
      refine ⟨policy, by simp [PolicyTable.resolve, declared], ?_⟩
      obtain ⟨route, held, rfl⟩ := PolicyTable.policy?_declared declared
      have running := positive route held
      rw [Bool.eq_false_iff, ne_eq, Duration.isZero_iff] at running
      exact Nat.pos_of_ne_zero running
    | none =>
      obtain ⟨secs, given⟩ := Option.ne_none_iff_exists'.mp default
      refine ⟨⟨secs, .seconds⟩, by rw [PolicyTable.resolve_ofConfig_undeclared declared, given]; rfl, ?_⟩
      have counts : secs ≠ 0 := by
        rintro rfl
        exact nonzero given
      simp only [SuspendPolicy.duration, TimeUnit.toDuration, Duration.ofSecs, Duration.totalNanos,
        Duration.nanosPerSecond]
      omega

/-- Two routes, one of them without a unit, and no section for the default window. -/
def twoRoutes : String :=
  "[[routes]]\nname = \"a b\"\ntimeout = 250\n[[routes]]\nname = \"c\"\ntimeout = 2\nunit = \"minutes\"\n"

def twoRoutesConfig : ServiceConfig where
  routes := [⟨"a b", ⟨250, .milliseconds⟩⟩, ⟨"c", ⟨2, .minutes⟩⟩]

theorem parse_twoRoutes : Config.parse twoRoutes = .ok twoRoutesConfig :=
  Config.ok_of_toOption (by decide +kernel)

theorem windows_given_two : Config.parse twoRoutes = .ok twoRoutesConfig ∧
    (PolicyTable.ofConfig twoRoutesConfig).policy? "c" = some ⟨2, .minutes⟩ ∧
      (PolicyTable.ofConfig twoRoutesConfig).routeNames.length = 2 ∧
      ∃ policy, (PolicyTable.ofConfig twoRoutesConfig).resolve "d" = some policy ∧
        0 < policy.duration.totalNanos := by
  obtain ⟨own, listed, given⟩ := windows_given parse_twoRoutes
  exact ⟨parse_twoRoutes, own ⟨"c", ⟨2, .minutes⟩⟩ (by decide), listed, given "d"⟩

end Deferral
