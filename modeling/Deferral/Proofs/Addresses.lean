import Deferral.Client.Url
import Deferral.Http.Dispatch
import Deferral.Proofs.Escapes
import Mathlib.Data.List.TakeWhile

/-! The addresses that the client calls. A name that is put at the end of an address goes through the rules for
addresses: what of it the path keeps, and which bytes of the path stand for it. -/

namespace Deferral.Client.Url

open Http (slash questionMark numberSign)

/-- Hosts are written in lower-case letters, digits, dots and hyphens; a colon stands before a port. -/
def isHostChar (c : Char) : Bool :=
  (0x61 ≤ c.toNat && c.toNat ≤ 0x7A) || (0x30 ≤ c.toNat && c.toNat ≤ 0x39) || ['.', '-', ':'].contains c

/-- A host with a port or without. -/
def IsHost (authority : String) : Prop := authority ≠ "" ∧ authority.toList.all isHostChar = true

instance (authority : String) : Decidable (IsHost authority) := inferInstanceAs (Decidable (_ ∧ _))

/-- A character that means nothing of its own in an address. -/
def isOrdinary (c : Char) : Bool := !isBlank c && !isSlash c && c ≠ '?' && c ≠ '#' && c ≠ '@'

theorem IsHost.ordinary {authority : String} (host : IsHost authority) :
    ∀ c ∈ authority.toList, isOrdinary c = true := by
  intro c member
  have code : 0x61 ≤ c.toNat ∧ c.toNat ≤ 0x7A ∨ 0x30 ≤ c.toNat ∧ c.toNat ≤ 0x39 ∨ c ∈ ['.', '-', ':'] := by
    simpa [isHostChar, or_assoc] using List.all_eq_true.mp host.2 c member
  have apart {d : Char} (outside : d.toNat ∉ List.range' 0x61 26 ∧ d.toNat ∉ List.range' 0x30 10 ∧ d ∉ ['.', '-', ':']) :
      c ≠ d := by
    rintro rfl
    simp only [List.mem_range'_1] at outside
    rcases code with lower | digit | sign
    · exact outside.1 (by omega)
    · exact outside.2.1 (by omega)
    · exact outside.2.2 sign
  have visible : 0x20 < c.toNat := by
    rcases code with lower | digit | sign
    · omega
    · omega
    · simp only [List.mem_cons, List.not_mem_nil, or_false] at sign
      rcases sign with rfl | rfl | rfl <;> decide
  simp only [isOrdinary, isBlank, isSlash, Bool.and_eq_true, Bool.not_eq_true', Bool.or_eq_false_iff,
    decide_eq_true_eq, decide_eq_false_iff_not]
  exact ⟨⟨⟨⟨by omega, apart (by decide), apart (by decide)⟩, apart (by decide)⟩, apart (by decide)⟩, apart (by decide)⟩

/-- What is kept of the end of an address. -/
def trim (cs : List Char) : List Char := ((cs.reverse.dropWhile isBlank).reverse).filter (!isIgnored ·)

theorem reverse_dropWhile_sublist (cs : List Char) : ((cs.reverse.dropWhile isBlank).reverse).Sublist cs := by
  rw [← List.reverse_sublist, List.reverse_reverse]
  exact List.dropWhile_sublist _

theorem trim_sublist (cs : List Char) : (trim cs).Sublist cs :=
  List.filter_sublist.trans (reverse_dropWhile_sublist cs)

theorem trim_eq_self_iff {cs : List Char} : trim cs = cs ↔
    (∀ c ∈ cs, isIgnored c = false) ∧ ∀ c, cs.getLast? = some c → isBlank c = false := by
  have ends : (cs.reverse.dropWhile isBlank).reverse = cs ↔ ∀ c, cs.getLast? = some c → isBlank c = false := by
    rw [List.reverse_eq_iff, ← List.head?_reverse]
    cases cs.reverse with
    | nil => simp
    | cons c rest => simp [List.dropWhile_eq_self_iff]
  have kept : cs.filter (!isIgnored ·) = cs ↔ ∀ c ∈ cs, isIgnored c = false := by simp
  rw [← ends, ← kept]
  refine ⟨fun same => ?_, fun ⟨filtered, ends⟩ => by rw [trim, ends, filtered]⟩
  have part : cs.Sublist ((cs.reverse.dropWhile isBlank).reverse) := by
    conv_lhs => rw [← same]
    exact List.filter_sublist
  have ends := (reverse_dropWhile_sublist cs).antisymm part
  rw [trim, ends] at same
  exact ⟨same, ends⟩

theorem isIgnored_of_visible {c : Char} (visible : isBlank c = false) : isIgnored c = false := by
  by_contra ignored
  simp only [isIgnored, Bool.not_eq_false, Bool.or_eq_true, decide_eq_true_eq] at ignored
  rcases ignored with (rfl | rfl) | rfl <;> exact absurd visible (by decide)

theorem clean_append {before : List Char} (some : before ≠ []) (plain : ∀ c ∈ before, isBlank c = false) (s : String) :
    clean (String.ofList before ++ s) = before ++ trim s.toList := by
  have keep {cs : List Char} (plain : ∀ c ∈ cs, isBlank c = false) : cs.dropWhile isBlank = cs := by
    cases cs with
    | nil => rfl
    | cons c cs => rw [List.dropWhile_cons_of_neg (by simp [plain c List.mem_cons_self])]
  have start (rest : List Char) : (before ++ rest).dropWhile isBlank = before ++ rest := by
    rw [List.dropWhile_append, keep plain, if_neg (by simpa using some)]
  have ending : before.reverse.dropWhile isBlank = before.reverse :=
    keep fun c member => plain c (List.mem_reverse.mp member)
  have kept : before.filter (!isIgnored ·) = before :=
    List.filter_eq_self.mpr fun c member => by rw [isIgnored_of_visible (plain c member)]; rfl
  rw [clean, String.toList_append, String.toList_ofList, start, List.reverse_append, List.dropWhile_append, ending, trim]
  by_cases blank : (s.toList.reverse.dropWhile isBlank).isEmpty = true
  · rw [if_pos blank, List.isEmpty_iff.mp blank, List.reverse_reverse, kept]
    simp
  · rw [if_neg blank, List.reverse_append, List.reverse_reverse, List.filter_append, kept]

/-- What of the end of an address belongs to the path. -/
def pathOf (cs : List Char) : List Char := (trim cs).takeWhile fun c => !(c = '?' || c = '#')

theorem clean_deferred {authority : String} (host : IsHost authority) (route : String) :
    clean ("http://" ++ authority ++ "/deferred/" ++ route) =
      "http://".toList ++ (authority.toList ++ ("/deferred/".toList ++ trim route.toList)) := by
  have visible {c : Char} {cs : List Char} (all : cs.all (!isBlank ·) = true) (member : c ∈ cs) : isBlank c = false :=
    (Bool.not_eq_true' _).mp (List.all_eq_true.mp all c member)
  have before (c : Char) (member : c ∈ "http://".toList ++ authority.toList ++ "/deferred/".toList) :
      isBlank c = false := by
    rcases List.mem_append.mp member with member | member
    · rcases List.mem_append.mp member with member | member
      · exact visible (show "http://".toList.all (!isBlank ·) = true by decide) member
      · have ordinary := host.ordinary c member
        simp only [isOrdinary, Bool.and_eq_true, Bool.not_eq_true'] at ordinary
        exact ordinary.1.1.1.1
    · exact visible (show "/deferred/".toList.all (!isBlank ·) = true by decide) member
  have written : "http://" ++ authority ++ "/deferred/" =
      String.ofList ("http://".toList ++ authority.toList ++ "/deferred/".toList) := by
    rw [← String.toList_inj, String.toList_ofList, String.toList_append, String.toList_append]
  rw [written, clean_append (by simp) before]
  simp only [List.append_assoc]

/-- The address of a name below a host, whatever the name. -/
theorem parse?_deferred {authority : String} (host : IsHost authority) (route : String) :
    ∃ query, parse? ("http://" ++ authority ++ "/deferred/" ++ route) =
      some { authority, path := encodePath ("/deferred/".toList ++ pathOf route.toList), query } ∧
      (pathOf route.toList = trim route.toList → query = none) := by
  have ordinary (c : Char) (member : c ∈ authority.toList) := host.ordinary c member
  simp only [isOrdinary, Bool.and_eq_true, Bool.not_eq_true', decide_eq_true_eq] at ordinary
  have scheme (rest : List Char) : afterScheme? ("http://".toList ++ rest) = some ('/' :: '/' :: rest) := by
    rw [show "http://".toList = ['h', 't', 't', 'p', ':', '/', '/'] by decide]
    rfl
  have slashes (rest : List Char) :
      ('/' :: '/' :: (authority.toList ++ rest)).dropWhile isSlash = authority.toList ++ rest := by
    cases written : authority.toList with
    | nil => exact absurd (String.toList_eq_nil_iff.mp written) host.1
    | cons c others =>
      have plain := (ordinary c (written ▸ List.mem_cons_self)).1.1.1.2
      simp [plain, show isSlash '/' = true by decide]
  have inside : ∀ c ∈ authority.toList, (!(isSlash c || c = '?' || c = '#')) = true := by
    intro c member
    obtain ⟨⟨⟨⟨_, slash⟩, question⟩, number⟩, _⟩ := ordinary c member
    simp [slash, question, number]
  have split (rest : List Char) : upTo (fun c => isSlash c || c = '?' || c = '#')
      (authority.toList ++ ("/deferred/".toList ++ rest)) = (authority.toList, "/deferred/".toList ++ rest) := by
    have stop : "/deferred/".toList = '/' :: "deferred/".toList := by decide
    rw [upTo, List.takeWhile_append_of_pos inside, List.dropWhile_append_of_pos inside, stop, List.cons_append,
      List.takeWhile_cons_of_neg (by decide), List.dropWhile_cons_of_neg (by decide), List.append_nil]
  have host_eq : (authority.toList.reverse.takeWhile (· != '@')).reverse = authority.toList := by
    have all : ∀ c ∈ authority.toList.reverse, (c != '@') = true := fun c member => by
      simpa using (ordinary c (List.mem_reverse.mp member)).2
    rw [List.takeWhile_eq_self_iff.mpr all, List.reverse_reverse]
  have path (rest : List Char) : upTo (fun c => c = '?' || c = '#') ("/deferred/".toList ++ rest) =
      ("/deferred/".toList ++ rest.takeWhile fun c => !(c = '?' || c = '#'),
        rest.dropWhile fun c => !(c = '?' || c = '#')) := by
    have plain := List.all_eq_true.mp (show "/deferred/".toList.all (fun c => !(c = '?' || c = '#')) = true by decide)
    rw [upTo, List.takeWhile_append_of_pos plain, List.dropWhile_append_of_pos plain]
  unfold parse?
  rw [clean_deferred host route, scheme]
  simp only [Option.bind_eq_bind, Option.bind_some, slashes, split, host_eq, path]
  rw [if_neg (by simpa using host.1)]
  refine ⟨_, by rw [String.ofList_toList]; rfl, fun whole => ?_⟩
  have nothing : (trim route.toList).dropWhile (fun c => !(c = '?' || c = '#')) = [] := by
    have parts := List.takeWhile_append_dropWhile (p := fun c => !(c = '?' || c = '#')) (l := trim route.toList)
    rw [show (trim route.toList).takeWhile (fun c => !(c = '?' || c = '#')) = trim route.toList from whole] at parts
    exact List.append_right_eq_self.mp parts
  simp only [nothing]

theorem toLower_eq {c d : Char} (same : c.toLower = d) :
    c = d ∨ c.toNat + 32 = d.toNat ∧ 65 ≤ c.toNat ∧ c.toNat ≤ 90 := by
  unfold Char.toLower at same
  split at same
  next upper =>
    subst same
    have lower : 65 ≤ c.toNat := upper.1
    have above : c.toNat ≤ 90 := upper.2
    refine .inr ⟨?_, lower, above⟩
    show c.val.toNat + 32 = (c.val + 32).toNat
    rw [UInt32.toNat_add, Char.toNat_val]
    exact (Nat.mod_eq_of_lt (show c.toNat + 32 < 4294967296 by omega)).symm
  · exact .inl same

theorem toLower_eq_iff {c d : Char} (sign : d.toNat < 65) : c.toLower = d ↔ c = d := by
  refine ⟨fun same => ?_, ?_⟩
  · rcases toLower_eq same with same | ⟨shifted, lower, _⟩
    · exact same
    · omega
  · rintro rfl
    refine dif_neg fun upper => ?_
    have lower : 65 ≤ c.toNat := upper.1
    omega

theorem toLower_eq_letter (c : Char) : c.toLower = 'e' ↔ c = 'e' ∨ c = 'E' := by
  refine ⟨fun same => ?_, by rintro (rfl | rfl) <;> decide⟩
  refine (toLower_eq same).imp_right fun ⟨shifted, _⟩ => ?_
  rw [← Char.ofNat_toNat c, show c.toNat = 'E'.toNat from Nat.add_right_cancel shifted]
  rfl

theorem dot_iff {cs : List Char} : dot cs = true ↔ cs ∈ [".", "%2e", "%2E"].map String.toList := by
  have sign {c d : Char} (sign : d.toNat < 65) : c.toLower = d ↔ c = d := toLower_eq_iff sign
  simp [dot, List.map_eq_cons_iff, toLower_eq_letter, @sign _ '.' (by decide), @sign _ '%' (by decide),
    @sign _ '2' (by decide), or_and_right, and_or_left, exists_or]

theorem twoDots_iff {cs : List Char} : twoDots cs = true ↔ cs ∈
    ["..", ".%2e", ".%2E", "%2e.", "%2E.", "%2e%2e", "%2E%2e", "%2e%2E", "%2E%2E"].map String.toList := by
  have sign {c d : Char} (sign : d.toNat < 65) : c.toLower = d ↔ c = d := toLower_eq_iff sign
  simp [twoDots, List.map_eq_cons_iff, toLower_eq_letter, @sign _ '.' (by decide), @sign _ '%' (by decide),
    @sign _ '2' (by decide), or_and_right, and_or_left, exists_or, or_assoc]

section
variable {before segments : List (List Char)} {segment : List Char}

theorem mem_resolveDots (member : segment ∈ resolveDots before segments) :
    segment ∈ before ∨ segment ∈ segments ∨ segment = [] := by
  fun_induction resolveDots before segments with
  | case1 => exact .inl member
  | case2 before last | case3 before last | case4 before last =>
    have := @List.dropLast_subset _ before segment
    simp only [List.mem_append, List.mem_singleton] at member ⊢
    tauto
  | case5 before next rest _ _ ih =>
    have := @List.dropLast_subset _ before segment
    have := ih member
    rw [List.mem_cons]
    tauto
  | case6 before next rest _ _ _ ih | case7 before next rest _ _ _ ih =>
    have := ih member
    simp only [List.mem_append, List.mem_cons, List.not_mem_nil, or_false] at this ⊢
    tauto

/-- Dots are resolved up to the last segment, which stays unless it is dots. -/
theorem getLast?_resolveDots (last : segments.getLast? = some segment) : (resolveDots before segments).getLast? =
    if dot segment || twoDots segment then some [] else some segment := by
  fun_induction resolveDots before segments with
  | case1 => cases last
  | case2 before final two =>
    obtain rfl : final = segment := Option.some.inj last
    simp [two]
  | case3 before final _ one =>
    obtain rfl : final = segment := Option.some.inj last
    simp [one]
  | case4 before final two one =>
    obtain rfl : final = segment := Option.some.inj last
    simp [two, one]
  | case5 before next rest more _ ih | case6 before next rest more _ _ ih | case7 before next rest more _ _ ih =>
    cases rest with
    | nil => exact absurd rfl more
    | cons first rest => exact ih (by rwa [List.getLast?_cons_cons] at last)

end

section
variable {α : Type} [DecidableEq α] {separator : α} {xs part : List α}

theorem not_mem_of_mem_splitOn (member : part ∈ xs.splitOn separator) : separator ∉ part := by
  induction xs generalizing part with
  | nil =>
    rw [List.splitOn_nil] at member
    rw [List.mem_singleton.mp member]
    exact List.not_mem_nil
  | cons x xs ih =>
    rw [List.splitOn_cons_eq_if_modifyHead] at member
    split at member
    · rcases List.mem_cons.mp member with rfl | later
      · exact List.not_mem_nil
      · exact ih later
    next other =>
      cases parts : xs.splitOn separator with
      | nil => exact absurd parts (List.splitOn_ne_nil separator xs)
      | cons first rest =>
        rw [parts] at member ih
        rcases List.mem_cons.mp member with rfl | later
        · refine List.not_mem_cons_of_ne_of_not_mem (fun same => other ?_) (ih List.mem_cons_self)
          simp [same]
        · exact ih (List.mem_cons_of_mem _ later)

theorem of_getLast?_splitOn (last : (xs.splitOn separator).getLast? = some part) :
    xs = part ∨ ∃ before, xs = before ++ separator :: part := by
  obtain ⟨parts, split⟩ := List.getLast?_eq_some_iff.mp last
  have whole : [separator].intercalate (parts ++ [part]) = xs := split ▸ List.intercalate_splitOn separator
  rw [← whole]
  clear whole split last
  induction parts with
  | nil => exact .inl (List.intercalate_singleton ..)
  | cons first parts ih =>
    right
    rw [List.cons_append, List.intercalate_cons_of_ne_nil (by simp)]
    rcases ih with same | ⟨before, same⟩
    · exact ⟨first, by rw [same, List.append_assoc]; rfl⟩
    · exact ⟨first ++ [separator] ++ before, by rw [same]; simp only [List.append_assoc]⟩

end

theorem decode_encodeSegment (segment : List Char) : Http.Percent.decode (encodeSegment segment) =
    Http.Percent.decode (Text.toBytes (String.ofList segment)) := by
  refine Http.Percent.decode_encode ?_ _
  rw [Http.forall_byte_iff]
  decide +kernel

theorem encodeSegment_bytes (segment : List Char) : ∀ b ∈ encodeSegment segment, Http.isPathByte b && Http.isVisible b := by
  have each : ∀ byte : UInt8, (if escapedInPath byte then Http.Percent.escape byte else [byte]).all
      (fun b => Http.isPathByte b && Http.isVisible b) = true := by
    rw [Http.forall_byte_iff]
    decide +kernel
  intro b member
  obtain ⟨byte, _, here⟩ := List.mem_flatMap.mp member
  exact List.all_eq_true.mp (each byte) b here

theorem slash_not_mem_encodeSegment {segment : List Char} (clear : '/' ∉ segment) : slash ∉ encodeSegment segment := by
  have each : ∀ byte : UInt8, slash ∈ (if escapedInPath byte then Http.Percent.escape byte else [byte]) →
      byte = slash := by
    rw [Http.forall_byte_iff]
    decide +kernel
  intro member
  obtain ⟨byte, inside, here⟩ := List.mem_flatMap.mp member
  obtain rfl := each byte here
  have := Text.mem_toBytes inside (by decide)
  rw [String.toList_ofList] at this
  exact clear this

/-- A backslash is a slash. -/
def toSlash (c : Char) : Char := if isSlash c then '/' else c

/-- The segments of the path of a name. -/
def segmentsOf (path : List Char) : List (List Char) :=
  resolveDots [] ("deferred".toList :: (path.map toSlash).splitOn '/')

theorem encodePath_deferred (path : List Char) : encodePath ("/deferred/".toList ++ path) =
    slash :: [slash].intercalate ((segmentsOf path).map encodeSegment) := by
  have mapped : ("/deferred/".toList ++ path).map (fun c => if isSlash c then '/' else c) =
      '/' :: ("deferred".toList ++ '/' :: path.map toSlash) := by
    have fixed : "/deferred/".toList.map (fun c => if isSlash c then '/' else c) = '/' :: ("deferred".toList ++ ['/']) := by
      decide
    rw [List.map_append, fixed, List.cons_append, List.append_assoc]
    rfl
  have parts : Text.splitOn '/' ('/' :: ("deferred".toList ++ '/' :: path.map toSlash)) =
      [] :: "deferred".toList :: (path.map toSlash).splitOn '/' := by
    rw [Text.splitOn_eq, List.splitOn_cons_eq_if_modifyHead, if_pos (by decide),
      List.splitOn_append_cons_self_of_not_mem (by decide)]
  simp only [encodePath, mapped, parts]
  rfl

theorem clear_of_mem_segmentsOf {path segment : List Char} (member : segment ∈ segmentsOf path) : '/' ∉ segment := by
  rcases mem_resolveDots member with nothing | inside | rfl
  · cases nothing
  · rcases List.mem_cons.mp inside with rfl | inside
    · decide
    · exact not_mem_of_mem_splitOn inside
  · exact List.not_mem_nil

theorem getLast?_segmentsOf (path : List Char) : ∃ segment, ((path.map toSlash).splitOn '/').getLast? = some segment ∧
    (segmentsOf path).getLast? = if dot segment || twoDots segment then some [] else some segment := by
  cases parts : (path.map toSlash).splitOn '/' with
  | nil => exact absurd parts (List.splitOn_ne_nil '/' (path.map toSlash))
  | cons first rest =>
    refine ⟨_, List.getLast?_cons, ?_⟩
    rw [segmentsOf, parts]
    exact getLast?_resolveDots (List.getLast?_cons_cons.trans List.getLast?_cons)

theorem splitOn_path (path : List Char) :
    Text.splitOn slash (slash :: [slash].intercalate ((segmentsOf path).map encodeSegment)) =
      [] :: (segmentsOf path).map encodeSegment := by
  have some : (segmentsOf path).map encodeSegment ≠ [] := by
    obtain ⟨segment, _, last⟩ := getLast?_segmentsOf path
    intro nothing
    rw [List.map_eq_nil_iff.mp nothing] at last
    split at last <;> cases last
  rw [Text.splitOn_eq, List.splitOn_cons_eq_if_modifyHead, if_pos (by decide),
    List.splitOn_intercalate slash (fun part member => ?_) some]
  obtain ⟨segment, inside, rfl⟩ := List.mem_map.mp member
  exact slash_not_mem_encodeSegment (clear_of_mem_segmentsOf inside)

end Deferral.Client.Url
