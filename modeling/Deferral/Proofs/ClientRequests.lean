import Deferral.Client.Command
import Deferral.Proofs.Addresses
import Deferral.Proofs.LoadedConfigs
import Deferral.Proofs.PolicyTables

/-! What the server reads of a request that the client makes. The query comes back as it was written. The name of a route
stands in the address as it is, so it comes back only if an address takes it literally. -/

namespace Deferral

namespace Http

variable {path query : List UInt8} {target : Target}

theorem Target.ofPath?_query (plain : ∀ b ∈ path, (isPathByte b && isVisible b) = true) (query : List UInt8) :
    Target.ofPath? (path ++ questionMark :: query) =
      if (Text.cut numberSign query).1.all isQueryByte then some ⟨path, (Text.cut numberSign query).1⟩ else none := by
  have outside {sign : UInt8} (out : (isPathByte sign && isVisible sign) = false) : sign ∉ path := fun member =>
    Bool.false_ne_true (out.symm.trans (plain sign member))
  have all : path.all isPathByte = true :=
    List.all_eq_true.mpr fun b member => (Bool.and_eq_true_iff.mp (plain b member)).1
  have fragment : Text.cut numberSign (questionMark :: query) =
      (questionMark :: (Text.cut numberSign query).1, (Text.cut numberSign query).2) := by
    rw [Text.cut, if_neg (by decide)]
  simp only [ofPath?]
  rw [Text.cut_append (outside (by decide)), fragment]
  simp only [Text.cut_append (@outside questionMark (by decide)), Text.cut_cons_self, List.append_nil, all,
    Bool.true_and]

theorem Target.parse_ok_iff {bytes : List UInt8} (starts : bytes.head? = some slash) : Target.parse bytes = .ok target ↔
    bytes.all isVisible = true ∧ bytes.length ≤ targetLimit ∧ Target.ofPath? bytes = some target := by
  have full : bytes.isEmpty = false := by
    cases bytes with
    | nil => cases starts
    | cons => rfl
  unfold Target.parse
  by_cases visible : bytes.all isVisible = true
  · by_cases short : bytes.length ≤ targetLimit
    · simp only [full, visible, starts, if_neg (Nat.not_lt.mpr short), if_true]
      cases Target.ofPath? bytes <;> simp [short]
    · simp [full, visible, if_pos (Nat.lt_of_not_le short), short]
  · simp [full, visible]

theorem Endpoint.ofPath?_deferred {route : List UInt8} : Endpoint.ofPath? path = some (.deferred route) ↔
    Text.splitOn slash path = [[], Text.toBytes "deferred", route] ∧ route ≠ [] := by
  unfold ofPath?
  split
  next parts =>
    rw [parts]
    split <;> simp
  next first second parts =>
    rw [parts]
    by_cases named : first = Text.toBytes "deferred"
    · by_cases given : second = []
      · simp +contextual [named, given, eq_comm]
      · simp +contextual [named, given, eq_comm]
    · simp [named]
  next parts =>
    rw [parts]
    split <;> simp
  next other _ =>
    simp only [reduceCtorEq, false_iff, not_and]
    exact fun parts => absurd parts (other _ _)

theorem deferredArguments_ok_iff {segment query : List UInt8} {route : String} {params : Params} :
    deferredArguments segment query = .ok (route, params) ↔
      Text.fromBytes? (Percent.decode segment) = some route ∧ Params.decode (Form.decode query) = .ok params := by
  unfold deferredArguments pathText
  cases Text.fromBytes? (Percent.decode segment) with
  | none => simp [bind, Except.bind]
  | some text =>
    cases Params.decode (Form.decode query) <;> simp [bind, Except.bind, pure, Except.pure, Except.mapError]

theorem dispatch_deferred {bytes : List UInt8} {route : String} {params : Params} :
    Request.dispatch ⟨.get, bytes⟩ = .deferred route params ↔
      ∃ target segment, Target.parse bytes = .ok target ∧ Endpoint.ofPath? target.path = some (.deferred segment) ∧
        deferredArguments segment target.query = .ok (route, params) := by
  unfold Request.dispatch
  cases Target.parse bytes with
  | error error => cases error <;> simp
  | ok target =>
    simp only [Target.dispatch]
    cases found : Endpoint.ofPath? target.path with
    | none => simp [found]
    | some endpoint =>
      cases endpoint with
      | deferred segment =>
        cases read : deferredArguments segment target.query with
        | error reply => simp [found, read, Endpoint.methods]
        | ok arguments => simp [found, read, Endpoint.methods, Prod.ext_iff]
      | cancel id => simp [found, Endpoint.methods]
      | status => simp [found, Endpoint.methods]

end Http

namespace Client

open Url (IsHost)

/-- A name that an address takes literally: no slash of either kind, no start of a query or a fragment, no tab, line
break or blank at the end, which are dropped, no dots, which are resolved, and no escape, which is read. -/
structure Literal (name : String) : Prop where
  plain : ∀ c ∈ name.toList, c ∉ ['/', '\\', '?', '#', '\t', '\n', '\r']
  ends : ∃ c ∈ name.toList.getLast?, 0x20 < c.toNat
  undotted : name ≠ "." ∧ name ≠ ".."
  unescaped : Http.Percent.decode (Text.toBytes name) = Text.toBytes name

theorem literal_iff {name : String} : Literal name ↔
    name.toList.all (fun c => !(['/', '\\', '?', '#', '\t', '\n', '\r'].contains c)) = true ∧
      name.toList.getLast?.any (0x20 < ·.toNat) = true ∧ (name ≠ "." ∧ name ≠ "..") ∧
      Http.Percent.decode (Text.toBytes name) = Text.toBytes name := by
  simp only [List.all_eq_true, Bool.not_eq_true', List.contains_eq_mem, decide_eq_false_iff_not,
    Option.any_eq_true, decide_eq_true_eq]
  exact ⟨fun ⟨plain, ends, undotted, unescaped⟩ => ⟨plain, ends, undotted, unescaped⟩,
    fun ⟨plain, ends, undotted, unescaped⟩ => ⟨plain, ends, undotted, unescaped⟩⟩

instance (name : String) : Decidable (Literal name) := decidable_of_iff _ literal_iff.symm

namespace Literal

variable {name : String}

theorem trim (literal : Literal name) : Url.trim name.toList = name.toList := by
  refine Url.trim_eq_self_iff.mpr ⟨fun c member => ?_, fun c last => ?_⟩
  · have := literal.plain c member
    simp_all [Url.isIgnored]
  · obtain ⟨d, final, visible⟩ := literal.ends
    obtain rfl := Option.some.inj (final.symm.trans last)
    simpa [Url.isBlank] using visible

theorem pathOf (literal : Literal name) : Url.pathOf name.toList = name.toList := by
  rw [Url.pathOf, literal.trim, List.takeWhile_eq_self_iff]
  intro c member
  have := literal.plain c member
  simp_all

theorem map_toSlash (literal : Literal name) : name.toList.map Url.toSlash = name.toList := by
  refine (List.map_congr_left fun c member => ?_).trans (List.map_id _)
  have := literal.plain c member
  simp_all [Url.toSlash, Url.isSlash]

theorem not_dots (literal : Literal name) : Url.dot name.toList = false ∧ Url.twoDots name.toList = false := by
  have undotted {texts : List String} (dots : ∀ text ∈ texts, ¬Literal text) :
      name.toList ∉ texts.map String.toList := by
    intro member
    obtain ⟨text, listed, same⟩ := List.mem_map.mp member
    exact dots text listed (String.toList_inj.mp same ▸ literal)
  exact ⟨Bool.eq_false_iff.mpr (mt Url.dot_iff.mp (undotted (by decide +kernel))),
    Bool.eq_false_iff.mpr (mt Url.twoDots_iff.mp (undotted (by decide +kernel)))⟩

theorem segmentsOf (literal : Literal name) : Url.segmentsOf name.toList = ["deferred".toList, name.toList] := by
  have clear : '/' ∉ name.toList := fun member => literal.plain '/' member (by decide)
  obtain ⟨one, two⟩ := literal.not_dots
  rw [Url.segmentsOf, literal.map_toSlash, List.splitOn_eq_singleton clear]
  have deferred : Url.dot "deferred".toList = false ∧ Url.twoDots "deferred".toList = false := by decide
  simp only [Url.resolveDots, deferred, one, two]
  rfl

end Literal

namespace Url

theorem size_map_toSlash (cs : List Char) : Text.size (cs.map toSlash) = Text.size cs := by
  have same (c : Char) : Text.width (toSlash c).toNat = Text.width c.toNat := by
    unfold toSlash
    split
    next slashed =>
      simp only [isSlash, Bool.or_eq_true, decide_eq_true_eq] at slashed
      rcases slashed with rfl | rfl <;> rfl
    · rfl
  simp only [Text.size_eq, List.map_map, Function.comp_def, same]

theorem pathOf_sublist (cs : List Char) : (pathOf cs).Sublist (trim cs) := List.takeWhile_sublist _

section
variable {name : String} {segment : List Char}
  (last : (((pathOf name.toList).map toSlash).splitOn '/').getLast? = some segment)
  (read : Text.fromBytes? (Http.Percent.decode (Text.toBytes (String.ofList segment))) = some name)
include last read

/-- No step from a name to what is read at the end of its path makes it longer. So where the name is read in the end, no
step changes it. -/
theorem unchanged_of_read : segment = name.toList ∧ trim name.toList = name.toList ∧
    pathOf name.toList = name.toList ∧ name.toList.map toSlash = name.toList ∧
    Http.Percent.decode (Text.toBytes name) = Text.toBytes name := by
  have inside : segment.Sublist ((pathOf name.toList).map toSlash) := by
    rcases of_getLast?_splitOn last with whole | ⟨before, parts⟩
    · rw [whole]
    · rw [parts]
      exact (List.sublist_cons_self _ _).trans (List.sublist_append_right _ _)
  have named : Text.size name.toList = (Http.Percent.decode (Text.toBytes (String.ofList segment))).length := by
    rw [Text.size, String.ofList_toList, Text.length_of_fromBytes? read]
  have decoded : (Http.Percent.decode (Text.toBytes (String.ofList segment))).length ≤ Text.size segment :=
    Http.Percent.length_decode_le _
  have cut := Text.size_le inside
  have path := Text.size_le (pathOf_sublist name.toList)
  have trimmed := Text.size_le (trim_sublist name.toList)
  rw [size_map_toSlash] at cut
  have unescaped := Http.Percent.decode_eq_of_length (show _ = Text.size segment by omega)
  have mapped := Text.eq_of_size inside (by rw [size_map_toSlash]; omega)
  have pathOf_eq := Text.eq_of_size (pathOf_sublist name.toList) (by omega)
  have trim_eq := Text.eq_of_size (trim_sublist name.toList) (by omega)
  rw [unescaped, Text.fromBytes?_toBytes] at read
  obtain rfl := Option.some.inj read
  rw [String.toList_ofList] at pathOf_eq trim_eq mapped ⊢
  rw [pathOf_eq, trim_eq] at mapped
  exact ⟨rfl, trim_eq, pathOf_eq.trans trim_eq, mapped.symm, unescaped⟩

theorem literal_of_read (filled : segment ≠ []) (undotted : (dot segment || twoDots segment) = false) :
    Literal name := by
  obtain ⟨rfl, trimmed, path, mapped, unescaped⟩ := unchanged_of_read last read
  have clear : '/' ∉ name.toList := not_mem_of_mem_splitOn (List.mem_of_getLast? last)
  obtain ⟨kept, ends⟩ := trim_eq_self_iff.mp trimmed
  rw [pathOf, trimmed, List.takeWhile_eq_self_iff] at path
  refine ⟨fun c member => ?_, ?_, ?_, unescaped⟩
  · have question := path c member
    have ignored := kept c member
    have forward : c ≠ '/' := fun same => clear (same ▸ member)
    have backward : c ≠ '\\' := by
      rintro rfl
      rw [← mapped] at clear
      exact clear (List.mem_map_of_mem member)
    simp only [isIgnored, Bool.or_eq_false_iff, decide_eq_false_iff_not] at ignored
    simp only [Bool.not_eq_true', Bool.or_eq_false_iff, decide_eq_false_iff_not] at question
    simp only [List.mem_cons, List.not_mem_nil, or_false, not_or]
    exact ⟨forward, backward, question.1, question.2, ignored.1.1, ignored.1.2, ignored.2⟩
  · have final := List.getLast?_eq_some_getLast filled
    exact ⟨_, final, by simpa [isBlank] using ends _ final⟩
  · constructor
    · rintro rfl
      cases undotted
    · rintro rfl
      cases undotted

end

open Http (Endpoint Request Target questionMark slash)

theorem target_addQuery (url : Url) (pairs : List (String × String)) :
    ∃ query, (url.addQuery pairs).target = url.path ++ questionMark :: query ∧
      (url.query = none → query = Http.Form.encode pairs) := by
  obtain ⟨authority, path, query⟩ := url
  match query with
  | none => exact ⟨_, List.append_assoc .., fun _ => rfl⟩
  | some [] => exact ⟨_, List.append_assoc .., nofun⟩
  | some (b :: query) => exact ⟨_, List.append_assoc .., nofun⟩

variable {name : String} {params : Http.Params} {path : List Char}

theorem encodePath_bytes (path : List Char) : ∀ b ∈ encodePath ("/deferred/".toList ++ path),
    (Http.isPathByte b && Http.isVisible b) = true := by
  rw [encodePath_deferred]
  intro b member
  rcases List.mem_cons.mp member with rfl | inside
  · decide
  · rcases Text.mem_intercalate inside with rfl | ⟨part, inside, here⟩
    · decide
    · obtain ⟨segment, _, rfl⟩ := List.mem_map.mp inside
      exact encodeSegment_bytes segment b here

theorem ofPath?_encodePath {second : List UInt8} :
    Endpoint.ofPath? (encodePath ("/deferred/".toList ++ path)) = some (.deferred second) ↔
      (segmentsOf path).map encodeSegment = [Text.toBytes "deferred", second] ∧ second ≠ [] := by
  rw [Endpoint.ofPath?_deferred, encodePath_deferred, splitOn_path, List.cons_inj_right]

theorem head?_target (path : List Char) (query : List UInt8) :
    (encodePath ("/deferred/".toList ++ path) ++ questionMark :: query).head? = some slash := by
  rw [encodePath_deferred]
  rfl

theorem of_dispatch {query : List UInt8}
    (reached : Request.dispatch ⟨.get, encodePath ("/deferred/".toList ++ path) ++ questionMark :: query⟩ =
      .deferred name params) :
    ∃ segment, ((path.map toSlash).splitOn '/').getLast? = some segment ∧ segment ≠ [] ∧
      (dot segment || twoDots segment) = false ∧
      Text.fromBytes? (Http.Percent.decode (Text.toBytes (String.ofList segment))) = some name := by
  obtain ⟨target, second, parsed, endpoint, arguments⟩ := Http.dispatch_deferred.mp reached
  obtain ⟨-, -, parsed⟩ := (Target.parse_ok_iff (head?_target path query)).mp parsed
  rw [Target.ofPath?_query (encodePath_bytes path)] at parsed
  split at parsed
  case isFalse => cases parsed
  cases parsed
  obtain ⟨parts, filled⟩ := ofPath?_encodePath.mp endpoint
  obtain ⟨read, -⟩ := Http.deferredArguments_ok_iff.mp arguments
  obtain ⟨segment, last, ends⟩ := getLast?_segmentsOf path
  have final : (segmentsOf path).getLast?.map encodeSegment = some second := by
    rw [← List.getLast?_map, parts]
    rfl
  rw [ends] at final
  split at final
  · exact absurd (Option.some.inj final).symm filled
  next undotted =>
    obtain rfl := Option.some.inj final
    rw [decode_encodeSegment] at read
    refine ⟨segment, last, ?_, by simpa using undotted, read⟩
    rintro rfl
    exact filled rfl

theorem dispatch_of_literal (literal : Literal name) (delay : params.delayMs < 2 ^ 64)
    (window : ∀ ms, params.timeoutMs = some ms → ms < 2 ^ 64)
    (short : (encodePath ("/deferred/".toList ++ name.toList) ++ questionMark :: Http.Form.encode params.encode).length ≤
      Http.targetLimit) :
    Request.dispatch ⟨.get, encodePath ("/deferred/".toList ++ name.toList) ++
      questionMark :: Http.Form.encode params.encode⟩ = .deferred name params := by
  have query := Http.Form.encode_bytes params.encode
  have decoded : Http.Percent.decode (encodeSegment name.toList) = Text.toBytes name := by
    rw [decode_encodeSegment, String.ofList_toList, literal.unescaped]
  have visible : (encodePath ("/deferred/".toList ++ name.toList) ++
      questionMark :: Http.Form.encode params.encode).all Http.isVisible = true := by
    refine List.all_eq_true.mpr fun b member => ?_
    rcases List.mem_append.mp member with inside | inside
    · exact (Bool.and_eq_true_iff.mp (encodePath_bytes _ b inside)).2
    · rcases List.mem_cons.mp inside with rfl | inside
      · decide
      · exact (Bool.and_eq_true_iff.mp (query b inside)).2
  have unfragmented : Http.numberSign ∉ Http.Form.encode params.encode := fun member =>
    absurd (query _ member) (by decide)
  have asked : (Http.Form.encode params.encode).all Http.isQueryByte = true :=
    List.all_eq_true.mpr fun b member => (Bool.and_eq_true_iff.mp (query b member)).1
  refine Http.dispatch_deferred.mpr ⟨⟨encodePath ("/deferred/".toList ++ name.toList), Http.Form.encode params.encode⟩,
    encodeSegment name.toList, ?_, ?_, ?_⟩
  · refine (Target.parse_ok_iff (head?_target _ _)).mpr ⟨visible, short, ?_⟩
    rw [Target.ofPath?_query (encodePath_bytes _), Text.cut_of_not_mem unfragmented, if_pos asked]
  · refine ofPath?_encodePath.mpr ⟨?_, fun nothing => ?_⟩
    · rw [literal.segmentsOf]
      rfl
    · obtain ⟨c, last, _⟩ := literal.ends
      rw [nothing, Text.toBytes] at decoded
      have filled := List.flatMap_eq_nil_iff.mp decoded.symm c (List.mem_of_getLast? last)
      exact absurd filled (String.utf8EncodeChar_ne_nil)
  · exact Http.deferredArguments_ok_iff.mpr ⟨by rw [decoded, Text.fromBytes?_toBytes],
      by rw [Http.Form.decode_encode, Http.Params.decode_encode delay window]⟩

end Url

section
variable {authority name : String} {params : Http.Params}

/-- The address of a request for a name. The parameters are its query, unless the name brings one. -/
theorem target?_get (host : IsHost authority) (name : String) (params : Http.Params) :
    ∃ url query, (Invocation.mk ("http://" ++ authority) (.get name params)).target? = some url ∧
      url.authority = authority ∧
      url.target = Url.encodePath ("/deferred/".toList ++ Url.pathOf name.toList) ++ Http.questionMark :: query ∧
      (Url.pathOf name.toList = Url.trim name.toList → query = Http.Form.encode params.encode) := by
  obtain ⟨own, address, unqueried⟩ := Url.parse?_deferred host name
  let url : Url := { authority, path := Url.encodePath ("/deferred/".toList ++ Url.pathOf name.toList), query := own }
  obtain ⟨query, target, last⟩ := Url.target_addQuery url params.encode
  refine ⟨url.addQuery params.encode, query, ?_, ?_, target, fun whole => last (unqueried whole)⟩
  · simp only [Invocation.target?, address, Option.map_some, url]
  · unfold Url.addQuery
    split <;> rfl

theorem request?_eq_some_iff {invocation : Invocation} {request : Http.Request} :
    invocation.request? = some (authority, request) ↔ ∃ url, invocation.target? = some url ∧ url.fits = true ∧
      url.authority = authority ∧ request = ⟨invocation.method, url.target⟩ := by
  simp only [Invocation.request?, Option.map_eq_some_iff, Option.filter_eq_some_iff, Prod.mk.injEq, and_assoc,
    @eq_comm _ _ request]

/-- A request for a name reaches the handler of requests with that name and the parameters it was given if and only if
an address takes the name literally and is not too long. Where a valid configuration declares the name, a server looks
up the policy that is declared under it. -/
theorem get_dispatched_iff (host : IsHost authority) (name : String) (delay : params.delayMs < 2 ^ 64)
    (window : ∀ ms, params.timeoutMs = some ms → ms < 2 ^ 64) :
    let invocation := Invocation.mk ("http://" ++ authority) (.get name params)
    ((∃ request, invocation.request? = some (authority, request) ∧ request.dispatch = .deferred name params) ↔
      Literal name ∧ ∃ url, invocation.target? = some url ∧ url.fits = true) ∧
    ∀ config policy, Config.validate config = [] → ⟨name, policy⟩ ∈ config.routes → Literal name →
      ∀ server : Http.Server, server.running = true → server.table = .ofConfig config →
      ∀ request, invocation.request? = some (authority, request) →
        server.handle request =
          Http.Server.handleDeferred { server with requests := server.requests + 1 } server.requests .get name params ∧
        server.table.resolve name = some policy := by
  intro invocation
  obtain ⟨url, query, asked, there, target, whole⟩ := target?_get host name params
  have reached (literal : Literal name) (fits : url.fits = true) :
      Http.Request.dispatch ⟨.get, url.target⟩ = .deferred name params := by
    have short : url.target.length ≤ Http.targetLimit := by
      have := of_decide_eq_true fits
      omega
    rw [whole (literal.pathOf.trans literal.trim.symm), literal.pathOf] at target
    rw [target] at short ⊢
    exact Url.dispatch_of_literal literal delay window short
  have sent {request : Http.Request} (requested : invocation.request? = some (authority, request)) :
      url.fits = true ∧ request = ⟨.get, url.target⟩ := by
    obtain ⟨other, found, fits, -, same⟩ := request?_eq_some_iff.mp requested
    obtain rfl := Option.some.inj (asked.symm.trans found)
    exact ⟨fits, same⟩
  refine ⟨⟨?_, ?_⟩, ?_⟩
  · rintro ⟨request, requested, dispatched⟩
    obtain ⟨fits, rfl⟩ := sent requested
    rw [target] at dispatched
    obtain ⟨segment, last, filled, undotted, read⟩ := Url.of_dispatch dispatched
    exact ⟨Url.literal_of_read last read filled undotted, url, asked, fits⟩
  · rintro ⟨literal, other, found, fits⟩
    obtain rfl := Option.some.inj (asked.symm.trans found)
    exact ⟨_, request?_eq_some_iff.mpr ⟨url, asked, fits, there, rfl⟩, reached literal fits⟩
  · intro config policy valid declared literal server running table request requested
    obtain ⟨fits, rfl⟩ := sent requested
    constructor
    · simp only [Http.Server.handle, running, reached literal fits]
      rfl
    · rw [table, PolicyTable.resolve, PolicyTable.policy?_of_mem (Config.validate_eq_nil valid).2.1 declared]
      rfl

theorem get_dispatched_spaced :
    let params : Http.Params := { delayMs := 250, value := some "50% & more", timeoutMs := some 1000 }
    let invocation := Invocation.mk ("http://" ++ "localhost:8080") (.get "daily report" params)
    let config : ServiceConfig := { routes := [⟨"daily report", ⟨30, .seconds⟩⟩] }
    let server := Http.Server.start "127.0.0.1:8080" config
    ∃ request, invocation.request? = some ("localhost:8080", request) ∧
      request.dispatch = .deferred "daily report" params ∧
      server.handle request = Http.Server.handleDeferred { server with requests := 1 } 0 .get "daily report" params ∧
      server.table.resolve "daily report" = some ⟨30, .seconds⟩ := by
  intro params invocation config server
  have literal : Literal "daily report" := by decide +kernel
  have valid : Config.validate config = [] := by decide +kernel
  obtain ⟨reaches, handles⟩ := get_dispatched_iff (show IsHost "localhost:8080" by decide) "daily report"
    (show params.delayMs < 2 ^ 64 by decide) (by rintro _ ⟨⟩; decide)
  have short : ∃ url, invocation.target? = some url ∧ url.fits = true :=
    (Option.any_eq_true ..).mp (show invocation.target?.any (·.fits) = true by decide +kernel)
  obtain ⟨request, requested, dispatched⟩ := reaches.mpr ⟨literal, short⟩
  obtain ⟨handled, resolved⟩ :=
    handles config ⟨30, .seconds⟩ valid (List.mem_singleton.mpr rfl) literal server rfl rfl request requested
  exact ⟨request, requested, dispatched, handled, resolved⟩

/-- A slash in a name leads to an address that the server does not know. -/
theorem get_misses_slashed :
    let invocation := Invocation.mk "http://localhost:8080" (.get "daily/report" {})
    let config : ServiceConfig := { routes := [⟨"daily/report", ⟨30, .seconds⟩⟩] }
    Config.validate config = [] ∧ invocation.request?.map (fun (host, request) => (host, request.dispatch)) =
      some ("localhost:8080", .answered { status := 404 }) := by
  decide +kernel

end

end Client
end Deferral
