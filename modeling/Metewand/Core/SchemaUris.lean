import Metewand.Core.Encoding
import Metewand.Core.Spelling
import Metewand.Lib.Uri

/-!
# URIs of schema documents

`repository_uri` and `resolve_uri` of `core/schema.rs`.  Parsing and resolution belong to the URI
library and are the parameters of a `UriLibrary`, which `Rfc3986` says to follow RFC 3986.  A reference
that `resolveUri` accepts from a base inside the repository has no `..` to drop at the root, and leads
inside the repository again (`resolveUri_inside`).
-/

namespace Metewand.Schema

open Lib Lib.Check Lib.Uri

def repositorySchemaBaseUri : String := "metewand://repository/"

/-- `fluent_uri`: the parsers of references and of URIs, and the resolution of a reference against a base. -/
structure UriLibrary where
  parseReference : String → Except String Reference
  parse : String → Except String Reference
  resolve : Reference → Reference → Except String String

/-- The library parses into the components of RFC 3986 and resolves by its algorithm. -/
structure UriLibrary.Rfc3986 (library : UriLibrary) : Prop where
  reference : ∀ text reference, library.parseReference text = .ok reference → reference = split text.toList
  absolute : ∀ text base, library.parse text = .ok base → base = split text.toList ∧ base.scheme.isSome
  resolution : ∀ reference base text, library.resolve reference base = .ok text →
    text.toList = recompose (apart (resolved base reference))

inductive SchemaCatalogError where
  | invalidPath (path : String)
  | compilation (path message : String)
  deriving DecidableEq, Repr

def SchemaCatalogError.message : SchemaCatalogError → String
  | .invalidPath path => "schema path `" ++ path ++ "` must be a normalized, relative UTF-8 repository path"
  | .compilation path message => "schema `" ++ path ++ "` could not be compiled offline: " ++ message

def validateRepositoryPath (path : String) : Except SchemaCatalogError Unit :=
  if path.toList ≠ [] ∧ path.toList.head? ≠ some '/' ∧ '\\' ∉ path.toList ∧
      ∀ component ∈ path.toList.splitOn '/', component ≠ [] ∧ component ≠ ['.'] ∧ component ≠ ['.', '.'] then
    .ok ()
  else .error (.invalidPath path)

/-- An uppercase hexadecimal digit. -/
def upperHexDigit (n : Nat) : Char := if n < 10 then Char.ofNat (48 + n) else Char.ofNat (55 + n)

def unreserved (byte : UInt8) : Bool :=
  let n := byte.toNat
  (48 ≤ n && n ≤ 57) || (65 ≤ n && n ≤ 90) || (97 ≤ n && n ≤ 122) || [45, 46, 95, 126, 47].contains n

/-- A byte of a path in a URI. -/
def percentEncode (byte : UInt8) : List Char :=
  if unreserved byte then [Char.ofNat byte.toNat]
  else ['%', upperHexDigit (byte.toNat / 16), upperHexDigit (byte.toNat % 16)]

def repositoryUri (path : String) : String :=
  String.ofList (repositorySchemaBaseUri.toList ++ (utf8 path).flatMap percentEncode)

/-- How many directories a base stands below the root, empty ones not counted. -/
def baseDepth (path : List Char) : Nat :=
  let parts := ((path.splitOn '/').filter (· ≠ [])).length
  if path.getLast? = some '/' then parts else parts - 1

/-- Follow the parts of a path; refuse the one that leaves the repository. -/
def climb : List (List Char) → Nat → Except String Nat
  | [], depth => .ok depth
  | part :: rest, depth =>
      if part = ['.', '.'] then
        if depth = 0 then .error "schema reference escapes the repository" else climb rest (depth - 1)
      else if part = [] ∨ part = ['.'] then climb rest depth
      else climb rest (depth + 1)

def resolveUri (library : UriLibrary) (reference base : String) : Except String String := do
  let target ← library.parseReference reference
  let origin ← library.parse base
  if startsWith repositorySchemaBaseUri base ∧ target.scheme = none ∧ target.authority = none then
    reject (target.path.head? = some '/') "schema references must stay relative to the repository"
    let _ ← climb (target.path.splitOn '/') (baseDepth origin.path)
  library.resolve target origin

/-- The bases a document can have: its own URI, and what an `$id` resolves to from one of them. -/
inductive Reached (library : UriLibrary) (path : String) : String → Prop
  | document : Reached library path (repositoryUri path)
  | nested {base id own : String} : Reached library path base → resolveUri library id base = .ok own →
      Reached library path own

/-! ## Paths in a URI -/

/-- A character of a path in a URI. -/
def encodeChar (c : Char) : List Char := (String.utf8EncodeChar c).flatMap percentEncode

theorem repositoryUri_toList (path : String) :
    (repositoryUri path).toList = repositorySchemaBaseUri.toList ++ path.toList.flatMap encodeChar := by
  have bytes := Json.utf8_ofList path.toList
  rw [String.ofList_toList] at bytes
  rw [repositoryUri, String.toList_ofList, bytes, List.flatMap_assoc]
  rfl

theorem percentEncode_chars (byte : UInt8) : '?' ∉ percentEncode byte ∧ '#' ∉ percentEncode byte ∧
    (percentEncode byte = [Char.ofNat byte.toNat] ∧ byte.toNat < 128 ∨
      (percentEncode byte).head? = some '%' ∧ '/' ∉ percentEncode byte) := by
  have all : ∀ n < 256, '?' ∉ percentEncode (UInt8.ofNat n) ∧ '#' ∉ percentEncode (UInt8.ofNat n) ∧
      (percentEncode (UInt8.ofNat n) = [Char.ofNat (UInt8.ofNat n).toNat] ∧ (UInt8.ofNat n).toNat < 128 ∨
        (percentEncode (UInt8.ofNat n)).head? = some '%' ∧ '/' ∉ percentEncode (UInt8.ofNat n)) := by
    decide +kernel
  have here := all byte.toNat (UInt8.toNat_lt byte)
  rwa [UInt8.ofNat_toNat] at here

theorem encodeChar_ascii {c : Char} (small : c.toNat < 128) : encodeChar c = percentEncode (UInt8.ofNat c.toNat) := by
  have one : String.utf8EncodeChar c = [UInt8.ofNat c.toNat] := by
    unfold String.utf8EncodeChar
    exact if_pos (Nat.le_of_lt_succ small)
  rw [encodeChar, one, List.flatMap_singleton]

theorem utf8EncodeChar_large {c : Char} (large : 128 ≤ c.toNat) :
    String.utf8EncodeChar c ≠ [] ∧ ∀ byte ∈ String.utf8EncodeChar c, 128 ≤ byte.toNat := by
  have value : 128 ≤ c.val.toNat := large
  have above : ∀ n, 128 ≤ n → n < 256 → 128 ≤ (UInt8.ofNat n).toNat := by
    intro n low high
    rw [UInt8.toNat_ofNat', Nat.mod_eq_of_lt high]
    exact low
  unfold String.utf8EncodeChar
  dsimp only
  rw [if_neg (by omega)]
  split
  · refine ⟨List.cons_ne_nil _ _, fun byte member => ?_⟩
    simp only [List.mem_cons, List.not_mem_nil, or_false] at member
    rcases member with rfl | rfl
    all_goals exact above _ (by omega) (by omega)
  split
  · refine ⟨List.cons_ne_nil _ _, fun byte member => ?_⟩
    simp only [List.mem_cons, List.not_mem_nil, or_false] at member
    rcases member with rfl | rfl | rfl
    all_goals exact above _ (by omega) (by omega)
  · refine ⟨List.cons_ne_nil _ _, fun byte member => ?_⟩
    simp only [List.mem_cons, List.not_mem_nil, or_false] at member
    rcases member with rfl | rfl | rfl | rfl
    all_goals exact above _ (by omega) (by omega)

/-- A character stands for itself, or is encoded. -/
theorem encodeChar_cases (c : Char) :
    encodeChar c = [c] ∨ (encodeChar c).head? = some '%' ∧ '/' ∉ encodeChar c := by
  by_cases small : c.toNat < 128
  · rw [encodeChar_ascii small]
    have same : (UInt8.ofNat c.toNat).toNat = c.toNat := by
      rw [UInt8.toNat_ofNat', Nat.mod_eq_of_lt (by omega)]
    rcases (percentEncode_chars (UInt8.ofNat c.toNat)).2.2 with ⟨plain, -⟩ | encoded
    · left
      rw [plain, same, Char.ofNat_toNat]
    · exact .inr encoded
  · obtain ⟨filled, large⟩ := utf8EncodeChar_large (Nat.le_of_not_lt small)
    have encoded : ∀ byte ∈ String.utf8EncodeChar c,
        (percentEncode byte).head? = some '%' ∧ '/' ∉ percentEncode byte := by
      intro byte member
      rcases (percentEncode_chars byte).2.2 with ⟨-, ascii⟩ | encoded
      · exact absurd ascii (Nat.not_lt_of_le (large byte member))
      · exact encoded
    refine .inr ⟨?_, ?_⟩
    · obtain ⟨byte, rest, shape⟩ := List.exists_cons_of_ne_nil filled
      have first := (encoded byte (by rw [shape]; exact List.mem_cons_self)).1
      rw [encodeChar, shape, List.flatMap_cons, List.head?_append, first]
      rfl
    · intro member
      obtain ⟨byte, inside, here⟩ := List.mem_flatMap.mp member
      exact (encoded byte inside).2 here

theorem encodeChar_plain (c : Char) : '?' ∉ encodeChar c ∧ '#' ∉ encodeChar c := by
  constructor
  · intro member
    obtain ⟨byte, -, here⟩ := List.mem_flatMap.mp member
    exact (percentEncode_chars byte).1 here
  · intro member
    obtain ⟨byte, -, here⟩ := List.mem_flatMap.mp member
    exact (percentEncode_chars byte).2.1 here

/-- Dots are written only for dots. -/
theorem dots_of_encoded : ∀ (n : Nat) (text : List Char), text.flatMap encodeChar = List.replicate n '.' →
    text = List.replicate n '.' := by
  intro n text
  induction text generalizing n with
  | nil =>
      intro same
      exact same
  | cons c text ih =>
      intro same
      rw [List.flatMap_cons] at same
      rcases encodeChar_cases c with plain | ⟨head, -⟩
      · rw [plain] at same
        cases n with
        | zero => cases same
        | succ n =>
            rw [List.replicate_succ] at same ⊢
            obtain ⟨rfl, rest⟩ := List.cons.inj same
            rw [ih n rest]
      · have first := congrArg List.head? same
        rw [List.head?_append, head] at first
        cases n with
        | zero => cases first
        | succ n => exact absurd (Option.some.inj first) (by decide)

theorem clean_encoded : ∀ (n : Nat) (text : List Char), text.length ≤ n →
    (∀ component ∈ text.splitOn '/', ¬Dot component) → Clean (text.flatMap encodeChar) := by
  intro n
  induction n with
  | zero =>
      intro text short _
      rw [List.length_eq_zero_iff.mp (Nat.le_zero.mp short)]
      exact clean_nil
  | succ n ih =>
      intro text short plain
      rcases exists_last text with none | ⟨before, segment, rfl, last⟩
      · rw [splitOn_plain none] at plain
        refine clean_segment ?_ ?_
        · intro member
          obtain ⟨c, inside, here⟩ := List.mem_flatMap.mp member
          rcases encodeChar_cases c with is | ⟨-, not⟩
          · rw [is] at here
            exact none (List.mem_singleton.mp here ▸ inside)
          · exact not here
        · rintro (one | two)
          · exact plain text List.mem_cons_self (.inl (dots_of_encoded 1 text one))
          · exact plain text List.mem_cons_self (.inr (dots_of_encoded 2 text two))
      · rw [List.length_append, List.length_cons] at short
        rw [splitOn_slash] at plain
        have slash : encodeChar '/' = ['/'] := by decide
        rw [List.flatMap_append, List.flatMap_cons, slash]
        exact clean_append.mpr
          ⟨ih before (by omega) fun part member => plain part (List.mem_append_left _ member),
            ih segment (by omega) fun part member => plain part (List.mem_append_right _ member)⟩

/-! ## The repository -/

/-- The components of a URI of the repository. -/
def Inside (reference : Reference) : Prop :=
  reference.scheme = some "metewand".toList ∧ reference.authority = some "repository".toList ∧
    reference.path.head? = some '/'

theorem split_repository (rest : List Char) : split (repositorySchemaBaseUri.toList ++ rest) =
    { split (repositorySchemaBaseUri.toList ++ rest) with
      scheme := some "metewand".toList
      authority := some "repository".toList
      path := '/' :: upTo ['?', '#'] rest } := by
  have text : repositorySchemaBaseUri.toList ++ rest =
      "metewand".toList ++ ':' :: ('/' :: '/' :: ("repository".toList ++ '/' :: rest)) := by
    rw [repositorySchemaBaseUri]
    rfl
  have letters : ∀ text : String, (text.toList.all fun c => 97 ≤ c.toNat) = true → ∀ ends : List Char,
      (ends.all fun c => c.toNat < 97) = true → ∀ c ∈ text.toList, c ∉ ends := by
    intro text low ends high c member ending
    have above : 97 ≤ c.toNat := by simpa using List.all_eq_true.mp low c member
    have below : c.toNat < 97 := by simpa using List.all_eq_true.mp high c ending
    omega
  have named : splitScheme ("metewand".toList ++ ':' :: ('/' :: '/' :: ("repository".toList ++ '/' :: rest))) =
      (some "metewand".toList, '/' :: '/' :: ("repository".toList ++ '/' :: rest)) := by
    obtain ⟨own, others⟩ := @upTo_part [':', '/', '?', '#'] "metewand".toList
      (':' :: ('/' :: '/' :: ("repository".toList ++ '/' :: rest))) (letters "metewand" rfl _ rfl)
      (.inr ⟨':', by simp, rfl⟩)
    rw [splitScheme, own, others]
    rfl
  obtain ⟨own, others⟩ := @upTo_part ['/', '?', '#'] "repository".toList ('/' :: rest)
    (letters "repository" rfl _ rfl) (.inr ⟨'/', by simp, rfl⟩)
  have authority : splitAuthority ('/' :: '/' :: ("repository".toList ++ '/' :: rest)) =
      (some "repository".toList, '/' :: rest) := by
    change (some (upTo ['/', '?', '#'] ("repository".toList ++ _)), after ['/', '?', '#'] _) = _
    rw [own, others]
  rw [text, split, named]
  dsimp only
  rw [authority]
  rfl

theorem startsWith_iff {start text : String} : startsWith start text = true ↔ ∃ rest, text.toList = start.toList ++ rest := by
  rw [startsWith, List.isPrefixOf_iff_prefix]
  exact ⟨fun ⟨rest, same⟩ => ⟨rest, same.symm⟩, fun ⟨rest, same⟩ => ⟨rest, same.symm⟩⟩

theorem inside_of_starts {text : String} (starts : startsWith repositorySchemaBaseUri text = true) :
    Inside (split text.toList) := by
  obtain ⟨rest, same⟩ := startsWith_iff.mp starts
  rw [same, split_repository]
  exact ⟨rfl, rfl, rfl⟩

/-- The text of such components begins with the repository's. -/
theorem starts_of_inside {reference : Reference} (inside : Inside reference) {text : String}
    (written : text.toList = recompose reference) : startsWith repositorySchemaBaseUri text = true := by
  obtain ⟨scheme, authority, head⟩ := inside
  obtain ⟨path, rooted⟩ : ∃ path, reference.path = '/' :: path := by
    cases shape : reference.path with
    | nil =>
        rw [shape] at head
        cases head
    | cons c path =>
        rw [shape] at head
        exact ⟨path, by rw [Option.some.inj head]⟩
  refine startsWith_iff.mpr ⟨path ++ (reference.query.elim [] fun query => '?' :: query) ++
    reference.fragment.elim [] fun fragment => '#' :: fragment, ?_⟩
  rw [written, recompose, scheme, authority, rooted, repositorySchemaBaseUri]
  simp

theorem repositoryUri_inside (path : String) : startsWith repositorySchemaBaseUri (repositoryUri path) = true :=
  startsWith_iff.mpr ⟨_, repositoryUri_toList path⟩

theorem repositoryUri_clean {path : String} (valid : validateRepositoryPath path = .ok ()) :
    Clean (split (repositoryUri path).toList).path := by
  unfold validateRepositoryPath at valid
  split at valid
  · rename_i held
    obtain ⟨-, -, -, components⟩ := held
    have clean := clean_encoded _ path.toList le_rfl fun component member =>
      not_or.mpr (components component member).2
    have all : ∀ c ∈ path.toList.flatMap encodeChar, (fun c => decide (c ∉ ['?', '#'])) c = true := by
      intro c member
      obtain ⟨d, -, here⟩ := List.mem_flatMap.mp member
      obtain ⟨question, hash⟩ := encodeChar_plain d
      have one : c ≠ '?' := fun same => question (same ▸ here)
      have two : c ≠ '#' := fun same => hash (same ▸ here)
      simp [one, two]
    rw [repositoryUri_toList, split_repository]
    dsimp only
    rw [upTo, List.takeWhile_eq_self_iff.mpr all]
    have rooted := clean_append.mpr ⟨clean_nil, clean⟩
    rwa [List.nil_append] at rooted
  · cases valid

/-! ## References -/

/-- The count of directories stays below the stack of the walk. -/
theorem climb_walk {segments : List (List Char)} : ∀ {depth final : Nat} {stack : List (List Char)} (dropped : Nat),
    climb segments depth = .ok final → depth ≤ stack.length → (walk segments stack dropped).2 = dropped := by
  induction segments with
  | nil =>
      intro depth final stack dropped _ _
      rfl
  | cons segment rest ih =>
      intro depth final stack dropped climbed below
      have grows : ∀ last : List (List Char), depth ≤ (stack ++ last).length := by
        intro last
        rw [List.length_append]
        omega
      rw [climb] at climbed
      rw [walk]
      split at climbed
      · rename_i dots
        subst dots
        rw [if_neg (by decide), if_pos rfl]
        split at climbed
        · cases climbed
        · rename_i positive
          have filled : stack ≠ [] := by
            rintro rfl
            exact positive (Nat.le_zero.mp below)
          rw [if_neg filled]
          refine ih dropped climbed ?_
          rw [List.length_append, List.length_dropLast]
          omega
      · rename_i notDots
        rw [if_neg notDots]
        split at climbed
        · split
          · exact ih dropped climbed (grows _)
          · exact ih dropped climbed (grows _)
        · rename_i some
          rw [if_neg fun dot => some (.inr dot)]
          refine ih dropped climbed ?_
          rw [List.length_append, List.length_singleton]
          omega

theorem baseDepth_le {path : List Char} (rooted : path.head? = some '/') :
    baseDepth path ≤ (directory path).length := by
  obtain ⟨last, plain, shape, parts⟩ := exists_directory rooted
  have few := List.length_filter_le (· ≠ []) (directory path)
  have count : ((path.splitOn '/').filter (· ≠ [])).length =
      ((directory path).filter (· ≠ [])).length + if last = [] then 0 else 1 := by
    rw [parts, List.cons_append, List.filter_cons_of_neg (by simp), List.filter_append, List.length_append]
    by_cases empty : last = []
    · simp [empty]
    · simp [empty]
  unfold baseDepth
  dsimp only
  rw [count]
  split
  · rename_i ends
    have empty : last = [] := by
      rcases List.eq_nil_or_concat last with rfl | ⟨front, c, rfl⟩
      · rfl
      · rw [List.concat_eq_append] at shape plain
        have final : path.getLast? = some c := by
          rw [shape, ← List.cons_append, ← List.append_assoc, List.getLast?_concat]
        rw [final] at ends
        exact absurd (Option.some.inj ends ▸ List.mem_append_right _ List.mem_cons_self) plain
    rw [if_pos empty]
    omega
  · split
    · omega
    · omega

section

variable {library : UriLibrary}

/-- What an accepted reference was parsed into and resolved to. -/
theorem resolveUri_ok (rfc : library.Rfc3986) {reference base text : String}
    (accepted : resolveUri library reference base = .ok text) :
    (split base.toList).scheme.isSome ∧
      text.toList = recompose (apart (resolved (split base.toList) (split reference.toList))) ∧
      (startsWith repositorySchemaBaseUri base = true → (split reference.toList).scheme = none →
        (split reference.toList).authority = none →
        (split reference.toList).path.head? ≠ some '/' ∧
          ∃ depth, climb ((split reference.toList).path.splitOn '/') (baseDepth (split base.toList).path) = .ok depth) := by
  simp only [resolveUri, ok_bind] at accepted
  obtain ⟨target, parsed, origin, absolute, checked⟩ := accepted
  obtain rfl := rfc.reference _ _ parsed
  obtain ⟨rfl, schemed⟩ := rfc.absolute _ _ absolute
  split at checked
  · rename_i relative
    simp only [ok_bind, ok_reject] at checked
    obtain ⟨-, notRooted, depth, climbed, resolves⟩ := checked
    exact ⟨schemed, rfc.resolution _ _ _ resolves, fun _ _ _ => ⟨notRooted, depth, climbed⟩⟩
  · rename_i other
    exact ⟨schemed, rfc.resolution _ _ _ checked, fun starts none alone => absurd ⟨starts, none, alone⟩ other⟩

/-- The components of the text that a reference resolves to. -/
theorem split_resolveUri (rfc : library.Rfc3986) {reference base text : String}
    (accepted : resolveUri library reference base = .ok text) :
    split text.toList = apart (resolved (split base.toList) (split reference.toList)) := by
  obtain ⟨absolute, written, -⟩ := resolveUri_ok rfc accepted
  rw [written, split_resolved absolute]

/-- Where the path of a base inside the repository has no dot segments, neither has one resolved from it. -/
theorem resolveUri_clean (rfc : library.Rfc3986) {reference base text : String}
    (accepted : resolveUri library reference base = .ok text)
    (clean : Inside (split base.toList) → Clean (split base.toList).path) (inside : Inside (split text.toList)) :
    Clean (split text.toList).path := by
  rw [split_resolveUri rfc accepted] at inside ⊢
  have single : apart (resolved (split base.toList) (split reference.toList)) =
      resolved (split base.toList) (split reference.toList) := by
    unfold apart at inside ⊢
    split
    · rename_i both
      rw [if_pos both] at inside
      exact absurd (both.1.symm.trans inside.2.1) (Option.some_ne_none _).symm
    · rfl
  rw [single] at inside ⊢
  cases path : dotted (split base.toList) (split reference.toList) with
  | some path' =>
      change Clean ((dotted _ _).elim _ _)
      rw [path]
      exact clean_removeDots _ _ _ clean_nil (.inr (.inr rfl))
  | none =>
      obtain ⟨scheme, authority, head⟩ := inside
      unfold dotted at path
      split at path
      · cases path
      · rename_i relative
        obtain ⟨noScheme, noAuthority⟩ := not_or.mp relative
        have own : dotted (split base.toList) (split reference.toList) = none := by
          unfold dotted
          rw [if_neg relative]
          exact path
        change Option.or _ _ = _ at scheme
        rw [Option.not_isSome_iff_eq_none.mp noScheme, Option.none_or] at scheme
        change (if _ then _ else _) = _ at authority
        rw [if_neg noScheme, Option.not_isSome_iff_eq_none.mp noAuthority, Option.none_or] at authority
        change List.head? ((dotted _ _).elim _ _) = _ at head
        change Clean ((dotted _ _).elim _ _)
        rw [own] at head ⊢
        exact clean ⟨scheme, authority, head⟩

/-- A base inside the repository has no dot segments. -/
theorem Reached.clean (rfc : library.Rfc3986) {path : String} (valid : validateRepositoryPath path = .ok ()) {base : String}
    (reached : Reached library path base) (inside : Inside (split base.toList)) : Clean (split base.toList).path := by
  induction reached with
  | document => exact repositoryUri_clean valid
  | nested _ resolves ih => exact resolveUri_clean rfc resolves ih inside

/-- A relative reference from inside the repository drops nothing at the root and stays inside. -/
theorem resolveUri_inside (rfc : library.Rfc3986) {reference base text : String}
    (starts : startsWith repositorySchemaBaseUri base = true) (clean : Clean (split base.toList).path)
    (accepted : resolveUri library reference base = .ok text) (noScheme : (split reference.toList).scheme = none)
    (noAuthority : (split reference.toList).authority = none) :
    dropped (split base.toList) (split reference.toList) = 0 ∧
      startsWith repositorySchemaBaseUri text = true := by
  obtain ⟨absolute, written, checked⟩ := resolveUri_ok rfc accepted
  obtain ⟨notRooted, depth, climbed⟩ := checked starts noScheme noAuthority
  obtain ⟨scheme, authority, rooted⟩ := inside_of_starts starts
  have walked := removeDots_merge clean rooted (split reference.toList).path
  have relative : ¬((split reference.toList).scheme.isSome ∨ (split reference.toList).authority.isSome) := by
    rw [noScheme, noAuthority]
    simp
  have shape : dotted (split base.toList) (split reference.toList) =
      if (split reference.toList).path = [] then none
      else some (merge (split base.toList) (split reference.toList).path) := by
    rw [dotted, if_neg relative, if_neg notRooted]
  have inside : Inside (resolved (split base.toList) (split reference.toList)) := by
    refine ⟨?_, ?_, ?_⟩
    · change Option.or _ _ = _
      rw [noScheme, Option.none_or, scheme]
    · change (if _ then _ else _) = _
      rw [if_neg (by rw [noScheme]; simp), noAuthority, Option.none_or, authority]
    · change List.head? ((dotted _ _).elim _ _) = _
      rw [shape]
      split
      · exact rooted
      · change (removeDots _ _ _).1.head? = _
        rw [walked]
        have filled := walk_ne_nil _ (directory (split base.toList).path) 0 (splitOn_ne_nil (split reference.toList).path)
        obtain ⟨segment, rest, more⟩ := List.exists_cons_of_ne_nil filled
        rw [more]
        rfl
  constructor
  · rw [dropped, shape]
    split
    · rfl
    · change (removeDots _ _ _).2 = 0
      rw [walked]
      exact climb_walk 0 climbed (baseDepth_le rooted)
  · refine starts_of_inside inside (written.trans (congrArg recompose ?_))
    rw [apart, if_neg fun both => by rw [inside.2.1] at both; cases both.1]

end

end Metewand.Schema
