import Metewand.Core.Bytes
import Metewand.Core.Identity
import Metewand.Core.Parameters
import Metewand.Core.Profile
import Mathlib.Data.List.Forall2
import Mathlib.Data.List.Perm.Basic
import Mathlib.Data.List.Sort

/-!
# Canonical JSON text

The RFC 8785 text of a value: strings with the short escapes, integers in decimal, and
objects with their members in the UTF-16 order of the keys.  The text of a fractional
number and the reader of documents belong to the JSON libraries and are the parameters of
a `JsonLibrary`.

`Lighter` compares two values by the length of their canonical text.  It is proved field
by field (`lighter_object`, `lighter_arr`), so a bound on a document follows from bounds
on its parts.
-/

namespace Metewand

open Lib Lib.Check

/-- The libraries below the canonical values: number text, and the reader of a document. -/
structure JsonLibrary where
  fractionText : UInt64 → List Char
  parse : List UInt8 → Option Json

namespace Json

/-! ## Text -/

/-- A character inside a JSON string. -/
def escape (c : Char) : List Char :=
  if c.toNat = 34 then ['\\', c]
  else if c.toNat = 92 then ['\\', c]
  else if c.toNat = 8 then ['\\', 'b']
  else if c.toNat = 9 then ['\\', 't']
  else if c.toNat = 10 then ['\\', 'n']
  else if c.toNat = 12 then ['\\', 'f']
  else if c.toNat = 13 then ['\\', 'r']
  else if c.toNat < 32 then
    ['\\', 'u', '0', '0', hexDigit (c.toNat / 16), hexDigit (c.toNat % 16)]
  else [c]

/-- The quotation mark. -/
def quoteMark : Char := Char.ofNat 34

def quote (text : String) : List Char :=
  quoteMark :: text.toList.flatMap escape ++ [quoteMark]

def intText (value : Int) : List Char :=
  (if value < 0 then ['-'] else []) ++ Nat.toDigits 10 value.natAbs

/-- UTF-16 code units, by which the keys of an object are ordered. -/
def utf16 (text : String) : List Nat :=
  text.toList.flatMap fun c =>
    if c.toNat < 0x10000 then [c.toNat]
    else [0xD800 + (c.toNat - 0x10000) / 1024, 0xDC00 + (c.toNat - 0x10000) % 1024]

def keyOrder {α : Type} (a b : String × α) : Prop := utf16 a.1 ≤ utf16 b.1

instance {α : Type} : DecidableRel (@keyOrder α) :=
  fun a b => inferInstanceAs (Decidable (utf16 a.1 ≤ utf16 b.1))

/-- Parts with commas between them. -/
def joined : List (List Char) → List Char
  | [] => []
  | part :: rest => part ++ rest.flatMap (',' :: ·)

/-- A member of an object. -/
def entryText (member : String × List Char) : List Char := quote member.1 ++ ':' :: member.2

/-! ## Shape -/

mutual

/-- Objects have one member for each key, in ascending order. -/
def Ordered : Json → Prop
  | .arr items => OrderedItems items
  | .obj members => Ascending members ∧ OrderedMembers members
  | _ => True

def OrderedItems : List Json → Prop
  | [] => True
  | item :: rest => item.Ordered ∧ OrderedItems rest

def OrderedMembers : List (String × Json) → Prop
  | [] => True
  | (_, value) :: rest => value.Ordered ∧ OrderedMembers rest

end

mutual

/-- How deep arrays and objects nest. -/
def depth : Json → Nat
  | .arr items => depthItems items + 1
  | .obj members => depthMembers members + 1
  | _ => 0

def depthItems : List Json → Nat
  | [] => 0
  | item :: rest => max item.depth (depthItems rest)

def depthMembers : List (String × Json) → Nat
  | [] => 0
  | (_, value) :: rest => max value.depth (depthMembers rest)

end

end Json

/-- The reader's recursion limit. -/
def recursionLimit : Nat := 128

namespace JsonLibrary

open Json

variable (lib : JsonLibrary)

mutual

/-- The canonical text of a normalized value. -/
def text : Json → List Char
  | .null => ['n', 'u', 'l', 'l']
  | .bool true => ['t', 'r', 'u', 'e']
  | .bool false => ['f', 'a', 'l', 's', 'e']
  | .num (.int value) => intText value
  | .num (.float bits) => lib.fractionText bits
  | .str s => quote s
  | .arr items => '[' :: joined (itemTexts items) ++ [']']
  | .obj members =>
      '{' :: joined (((memberTexts members).insertionSort keyOrder).map entryText) ++ ['}']

def itemTexts : List Json → List (List Char)
  | [] => []
  | item :: rest => text item :: itemTexts rest

def memberTexts : List (String × Json) → List (String × List Char)
  | [] => []
  | (key, value) :: rest => (key, text value) :: memberTexts rest

end

/-- `to_canonical_bytes`, on a value that is normalized already. -/
def encode (v : Json) : List UInt8 := utf8 (String.ofList (lib.text v))

/-- The canonical bytes of any value. -/
def bytes (v : Json) : Except CanonicalValueViolation (List UInt8) := v.normalize.map lib.encode

/-- `CanonicalValue::from_slice`. -/
def fromSlice (input : List UInt8) : Option CanonicalValue :=
  (lib.parse input).bind fun v => (CanonicalValue.tryFrom v).toOption

/-- What a fractional number may be spelled with. -/
def numeric (c : Char) : Bool := isAsciiDigit c || c ∈ ['+', '-', '.', 'e']

/-- What the libraries document: numbers are spelled with digits, signs, a point and an
exponent, and the reader returns a canonical document whose nesting is below its limit. -/
structure Documented : Prop where
  fraction : ∀ bits, ∀ c ∈ lib.fractionText bits, numeric c
  reads : ∀ w : Json, w.normalize = .ok w → w.Ordered →
    lib.parse (lib.encode w) = if w.depth < recursionLimit then some w else none

/-! ## Length of a text -/

end JsonLibrary

namespace Json

/-- Bytes of a text. -/
def width (text : List Char) : Nat := (text.map Char.utf8Size).sum

@[simp]
theorem width_nil : width [] = 0 := rfl

@[simp]
theorem width_cons (c : Char) (text : List Char) :
    width (c :: text) = c.utf8Size + width text := rfl

@[simp]
theorem width_append (a b : List Char) : width (a ++ b) = width a + width b := by
  simp [width]

theorem utf8_ofList (text : List Char) :
    utf8 (String.ofList text) = text.flatMap String.utf8EncodeChar := by
  unfold utf8
  rw [String.toByteArray_ofList, List.utf8Encode]
  simp

theorem utf8_ofList_length (text : List Char) :
    (utf8 (String.ofList text)).length = width text := by
  rw [utf8_ofList, List.length_flatMap, width]
  simp

theorem width_flatMap {α : Type} (f : α → List Char) (as : List α) :
    width (as.flatMap f) = (as.map fun a => width (f a)).sum := by
  induction as with
  | nil => rfl
  | cons a as ih => rw [List.flatMap_cons, width_append, ih, List.map_cons, List.sum_cons]

/-- Parts add up, with one byte for each comma. -/
theorem width_joined (parts : List (List Char)) :
    width (joined parts) = (parts.map width).sum + (parts.length - 1) := by
  cases parts with
  | nil => rfl
  | cons part rest =>
      have commas : (rest.map fun a => width (',' :: a)).sum = (rest.map width).sum + rest.length := by
        induction rest with
        | nil => rfl
        | cons a rest ih =>
            have comma : Char.utf8Size ',' = 1 := rfl
            simp only [width_cons, comma] at ih
            simp only [List.map_cons, List.sum_cons, ih, width_cons, comma, List.length_cons]
            omega
      simp only [joined, width_append, width_flatMap, commas, List.map_cons, List.sum_cons,
        List.length_cons, Nat.add_sub_cancel]
      omega

/-- A text of plain ASCII characters is quoted as it stands. -/
theorem width_quote {text : String}
    (plain : ∀ c ∈ text.toList, escape c = [c] ∧ c.utf8Size = 1) :
    width (quote text) = text.toList.length + 2 := by
  have body : ∀ chars : List Char, (∀ c ∈ chars, escape c = [c] ∧ c.utf8Size = 1) →
      width (chars.flatMap escape) = chars.length := by
    intro chars each
    induction chars with
    | nil => rfl
    | cons c rest ih =>
        obtain ⟨same, one⟩ := each c List.mem_cons_self
        rw [List.flatMap_cons, same, width_append,
          ih fun d member => each d (List.mem_cons_of_mem _ member), List.length_cons]
        simp only [width_cons, width_nil, one]
        omega
  have mark : quoteMark.utf8Size = 1 := rfl
  simp only [quote, List.cons_append, width_cons, width_append, body _ plain, width_nil, mark]
  omega

theorem width_digits (n : Nat) : width (Nat.toDigits 10 n) = (Nat.toDigits 10 n).length := by
  have one : ∀ c ∈ Nat.toDigits 10 n, Char.utf8Size c = 1 := by
    intro c member
    have digit := Nat.isDigit_of_mem_toDigits (by omega) (by omega) member
    simp only [Char.isDigit, Bool.and_eq_true, decide_eq_true_eq] at digit
    have small : c.val ≤ 0x7f := by
      have below := digit.2
      rw [UInt32.le_iff_toNat_le] at below ⊢
      have nine : ('9' : Char).val.toNat = 57 := rfl
      have limit : (0x7f : UInt32).toNat = 127 := rfl
      omega
    exact if_pos small
  rw [width, List.map_congr_left one]
  simp

/-- A larger number has no shorter text. -/
theorem digits_mono {m n : Nat} (le : m ≤ n) :
    (Nat.toDigits 10 m).length ≤ (Nat.toDigits 10 n).length := by
  have positive : 0 < (Nat.toDigits 10 n).length := Nat.length_toDigits_pos
  rw [Nat.length_toDigits_le_iff (by omega) positive]
  exact Nat.lt_of_le_of_lt le ((Nat.length_toDigits_le_iff (by omega) positive).mp (Nat.le_refl _))

/-! ## Normalization, member by member -/

theorem normalizeItems_ok {items items' : List Json} :
    normalizeItems items = .ok items' ↔ List.Forall₂ (fun v w => v.normalize = .ok w) items items' := by
  induction items generalizing items' with
  | nil =>
      constructor
      · intro h
        cases h
        exact .nil
      · intro h
        cases h
        rfl
  | cons item rest ih =>
      simp only [normalizeItems]
      constructor
      · intro h
        split at h
        · cases h
        · rename_i item' head
          cases tail : normalizeItems rest with
          | error e =>
              rw [tail] at h
              cases h
          | ok rest' =>
              rw [tail] at h
              cases h
              exact .cons head (ih.mp tail)
      · intro h
        cases h with
        | cons head tail => rw [head, ih.mpr tail]; rfl

theorem normalizeMembers_ok {members members' : List (String × Json)} :
    normalizeMembers members = .ok members' ↔
      List.Forall₂ (fun a b => a.1 = b.1 ∧ a.2.normalize = .ok b.2) members members' := by
  induction members generalizing members' with
  | nil =>
      constructor
      · intro h
        cases h
        exact .nil
      · intro h
        cases h
        rfl
  | cons member rest ih =>
      obtain ⟨key, value⟩ := member
      simp only [normalizeMembers]
      constructor
      · intro h
        split at h
        · cases h
        · rename_i value' head
          cases tail : normalizeMembers rest with
          | error e =>
              rw [tail] at h
              cases h
          | ok rest' =>
              rw [tail] at h
              cases h
              exact .cons ⟨rfl, head⟩ (ih.mp tail)
      · intro h
        cases h with
        | @cons _ other _ _ head tail =>
            obtain ⟨k, value'⟩ := other
            obtain ⟨rfl, normal⟩ := head
            rw [normal, ih.mpr tail]
            rfl

theorem insertMember_perm {key : String} {value : Json} {members : List (String × Json)}
    (fresh : ∀ m ∈ members, m.1 ≠ key) :
    (insertMember key value members).Perm ((key, value) :: members) := by
  induction members with
  | nil => exact .refl _
  | cons member rest ih =>
      obtain ⟨k, v⟩ := member
      have other : key ≠ k := fun same => fresh (k, v) List.mem_cons_self same.symm
      simp only [insertMember, if_neg other]
      split
      · exact .refl _
      · exact ((ih fun m inside => fresh m (List.mem_cons_of_mem _ inside)).cons _).trans
          (.swap _ _ _)

/-- An object with distinct keys holds its fields, in some order. -/
theorem object_perm {fields : List (String × Json)} (distinct : (fields.map Prod.fst).Nodup) :
    ∃ members, object fields = .obj members ∧ members.Perm fields := by
  refine ⟨_, rfl, ?_⟩
  induction fields with
  | nil => exact .refl _
  | cons field rest ih =>
      obtain ⟨new, others⟩ := List.nodup_cons.mp distinct
      have below := ih others
      refine (insertMember_perm fun m member same => new ?_).trans (below.cons _)
      exact List.mem_map.mpr ⟨m, below.mem_iff.mp member, same⟩

theorem insertMember_comm {k l : String} (other : k ≠ l) (v w : Json) (members : List (String × Json)) :
    insertMember k v (insertMember l w members) = insertMember l w (insertMember k v members) := by
  induction members with
  | nil =>
      rcases lt_trichotomy k l with before | same | after
      · simp [insertMember, other, other.symm, before, not_lt.mpr before.le]
      · exact absurd same other
      · simp [insertMember, other, other.symm, after, not_lt.mpr after.le]
  | cons member rest ih =>
      obtain ⟨j, x⟩ := member
      rcases lt_trichotomy k j with k_before | rfl | k_after
      · rcases lt_trichotomy l j with l_before | rfl | l_after
        · rcases lt_or_gt_of_ne other with before | after
          · simp [insertMember, other, other.symm, k_before.ne, l_before.ne, k_before, l_before, before,
              not_lt.mpr before.le]
          · simp [insertMember, other, other.symm, k_before.ne, l_before.ne, k_before, l_before, after,
              not_lt.mpr after.le]
        · simp [insertMember, other, other.symm, k_before, not_lt.mpr k_before.le]
        · have before := k_before.trans l_after
          simp [insertMember, other, other.symm, k_before.ne, l_after.ne', k_before, not_lt.mpr l_after.le,
            not_lt.mpr before.le]
      · rcases lt_or_gt_of_ne other with before | after
        · simp [insertMember, other, other.symm, not_lt.mpr before.le]
        · simp [insertMember, other, other.symm, after, not_lt.mpr after.le]
      · rcases lt_trichotomy l j with l_before | rfl | l_after
        · have after := l_before.trans k_after
          simp [insertMember, other, other.symm, k_after.ne', l_before.ne, l_before, not_lt.mpr k_after.le,
            not_lt.mpr after.le]
        · simp [insertMember, other, other.symm, not_lt.mpr k_after.le]
        · simp [insertMember, k_after.ne', l_after.ne', not_lt.mpr k_after.le, not_lt.mpr l_after.le, ih]

/-- The order of fields with distinct keys does not matter. -/
theorem object_congr {fields others : List (String × Json)} (perm : fields.Perm others)
    (distinct : (fields.map Prod.fst).Nodup) : object fields = object others := by
  suffices built : fields.foldr (fun field members => insertMember field.1 field.2 members) [] =
      others.foldr (fun field members => insertMember field.1 field.2 members) [] from
    congrArg Json.obj built
  induction perm with
  | nil => rfl
  | cons field _ ih =>
      rw [List.foldr_cons, List.foldr_cons, ih (List.nodup_cons.mp distinct).2]
  | swap a b rest =>
      have other : b.1 ≠ a.1 := fun same => (List.nodup_cons.mp distinct).1 (by simp [same])
      exact insertMember_comm other _ _ _
  | trans first _ ih ih' => exact (ih distinct).trans (ih' ((first.map _).nodup_iff.mp distinct))

/-- One member becomes another under normalization. -/
def NormalMember (a b : String × Json) : Prop := a.1 = b.1 ∧ a.2.normalize = .ok b.2

theorem normalMembers_insert {a b : String × Json} (head : NormalMember a b)
    {members members' : List (String × Json)} (each : List.Forall₂ NormalMember members members') :
    List.Forall₂ NormalMember (insertMember a.1 a.2 members) (insertMember b.1 b.2 members') := by
  induction each with
  | nil => exact .cons head .nil
  | @cons m n rest rest' first others ih =>
      simp only [insertMember, head.1, first.1]
      split
      · exact .cons ⟨rfl, head.2⟩ others
      · split
        · exact .cons ⟨rfl, head.2⟩ (.cons ⟨rfl, first.2⟩ others)
        · rw [head.1] at ih
          exact .cons ⟨rfl, first.2⟩ ih

/-- An object is normalized field by field. -/
theorem normalize_object {fields others : List (String × Json)}
    (each : List.Forall₂ NormalMember fields others) :
    (object fields).normalize = .ok (object others) := by
  have members : List.Forall₂ NormalMember
      (fields.foldr (fun field members => insertMember field.1 field.2 members) [])
      (others.foldr (fun field members => insertMember field.1 field.2 members) []) := by
    induction each with
    | nil => exact .nil
    | cons head _ ih => exact normalMembers_insert head ih
  simp only [object, normalize, normalizeMembers_ok.mpr members]
  rfl

/-- Each field of a normalized object with distinct keys is normalized. -/
theorem normalize_object_fields {fields : List (String × Json)}
    (distinct : (fields.map Prod.fst).Nodup) {v : Json} (normal : (object fields).normalize = .ok v) :
    ∃ others, List.Forall₂ NormalMember fields others ∧ v = object others := by
  obtain ⟨members, built, perm⟩ := object_perm distinct
  have read := normal
  rw [built] at read
  simp only [normalize] at read
  cases found : normalizeMembers members with
  | error e =>
      rw [found] at read
      cases read
  | ok members' =>
      obtain ⟨others, each, -⟩ := List.perm_comp_forall₂ perm.symm (normalizeMembers_ok.mp found)
      have each : List.Forall₂ NormalMember fields others := each
      exact ⟨others, each, Except.ok.inj (normal.symm.trans (normalize_object each))⟩

/-- Two members that are normalized alike. -/
def SameMember (a b : String × Json) : Prop := a.1 = b.1 ∧ a.2.normalize = b.2.normalize

theorem sameMembers_insert {a b : String × Json} (head : SameMember a b)
    {members members' : List (String × Json)} (each : List.Forall₂ SameMember members members') :
    List.Forall₂ SameMember (insertMember a.1 a.2 members) (insertMember b.1 b.2 members') := by
  induction each with
  | nil => exact .cons head .nil
  | @cons m n rest rest' first others ih =>
      simp only [insertMember, head.1, first.1]
      split
      · exact .cons ⟨rfl, head.2⟩ others
      · split
        · exact .cons ⟨rfl, head.2⟩ (.cons ⟨rfl, first.2⟩ others)
        · rw [head.1] at ih
          exact .cons ⟨rfl, first.2⟩ ih

theorem normalizeMembers_congr {members members' : List (String × Json)}
    (each : List.Forall₂ SameMember members members') : normalizeMembers members = normalizeMembers members' := by
  induction each with
  | nil => rfl
  | @cons a b rest rest' head _ ih =>
      obtain ⟨key, value⟩ := a
      obtain ⟨key', value'⟩ := b
      obtain ⟨rfl, same⟩ := head
      dsimp only at same
      simp only [normalizeMembers, same, ih]

/-- Objects whose fields are normalized alike are normalized alike. -/
theorem normalize_object_congr {fields others : List (String × Json)}
    (each : List.Forall₂ SameMember fields others) : (object fields).normalize = (object others).normalize := by
  have members : List.Forall₂ SameMember
      (fields.foldr (fun field members => insertMember field.1 field.2 members) [])
      (others.foldr (fun field members => insertMember field.1 field.2 members) []) := by
    induction each with
    | nil => exact .nil
    | cons head _ ih => exact sameMembers_insert head ih
  simp only [object, normalize, normalizeMembers_congr members]

/-- A member that is there stays there under normalization. -/
theorem normalize_lookup {members members' : List (String × Json)}
    (normal : normalizeMembers members = .ok members') (key : String) :
    (lookupMember key members).map normalize = (lookupMember key members').map .ok := by
  have each := normalizeMembers_ok.mp normal
  clear normal
  induction each with
  | nil => rfl
  | @cons a b rest rest' head _ ih =>
      obtain ⟨k, value⟩ := a
      obtain ⟨k', value'⟩ := b
      obtain ⟨rfl, same⟩ := head
      dsimp only at same
      simp only [lookupMember]
      split
      · exact congrArg some same
      · exact ih

theorem normalize_nat {n : Nat} {v : Json} :
    (nat n).normalize = .ok v ↔ n ≤ maxSafeInteger ∧ v = nat n := by
  simp only [nat, normalize, normalizeNumber, Int.natAbs_natCast]
  split
  · rename_i large
    constructor
    · intro same
      cases same
    · rintro ⟨small, -⟩
      omega
  · rename_i small
    constructor
    · intro same
      cases same
      exact ⟨Nat.le_of_not_lt small, rfl⟩
    · rintro ⟨-, rfl⟩
      rfl

theorem normalMember_nat {key : String} {n : Nat} {b : String × Json} :
    NormalMember (key, nat n) b ↔ n ≤ maxSafeInteger ∧ b = (key, nat n) := by
  obtain ⟨k, v⟩ := b
  unfold NormalMember
  rw [normalize_nat, Prod.mk.injEq]
  constructor
  · rintro ⟨same, small, value⟩
    exact ⟨small, same.symm, value⟩
  · rintro ⟨small, same, value⟩
    exact ⟨same.symm, small, value⟩

theorem normalMember_str {key s : String} {b : String × Json} :
    NormalMember (key, .str s) b ↔ b = (key, .str s) := by
  obtain ⟨k, v⟩ := b
  unfold NormalMember
  rw [normalize, Except.ok.injEq, Prod.mk.injEq, eq_comm, eq_comm (a := Json.str s)]

end Json

namespace JsonLibrary

open Json

variable (lib : JsonLibrary)

theorem encode_length (v : Json) : (lib.encode v).length = width (lib.text v) :=
  utf8_ofList_length _

theorem itemTexts_eq (items : List Json) : lib.itemTexts items = items.map lib.text := by
  induction items with
  | nil => rfl
  | cons item rest ih => rw [itemTexts, ih, List.map_cons]

theorem memberTexts_eq (members : List (String × Json)) :
    lib.memberTexts members = members.map fun m => (m.1, lib.text m.2) := by
  induction members with
  | nil => rfl
  | cons member rest ih => rw [memberTexts, ih, List.map_cons]

theorem width_arr (items : List Json) :
    width (lib.text (.arr items)) =
      (items.map fun v => width (lib.text v)).sum + (items.length - 1) + 2 := by
  have open_ : Char.utf8Size '[' = 1 := rfl
  have close : Char.utf8Size ']' = 1 := rfl
  simp only [text, itemTexts_eq, List.cons_append, width_cons, width_append, width_joined, width_nil,
    List.map_map, List.length_map, open_, close, Function.comp_def]
  omega

/-- The bytes a member takes, its colon included. -/
def memberWidth (member : String × Json) : Nat :=
  width (quote member.1) + 1 + width (lib.text member.2)

/-- The order of the members does not matter to the length. -/
theorem width_obj (members : List (String × Json)) :
    width (lib.text (.obj members)) =
      (members.map lib.memberWidth).sum + (members.length - 1) + 2 := by
  have opening : Char.utf8Size '{' = 1 := rfl
  have closing : Char.utf8Size '}' = 1 := rfl
  have colon : Char.utf8Size ':' = 1 := rfl
  have order := List.perm_insertionSort keyOrder (lib.memberTexts members)
  have sum : ((((lib.memberTexts members).insertionSort keyOrder).map entryText).map width).sum =
      (members.map lib.memberWidth).sum := by
    rw [((order.map entryText).map width).sum_nat, memberTexts_eq, List.map_map, List.map_map]
    refine congrArg List.sum (List.map_congr_left fun m _ => ?_)
    simp only [Function.comp_apply, entryText, width_append, width_cons, memberWidth, colon]
    omega
  have count : (((lib.memberTexts members).insertionSort keyOrder).map entryText).length =
      members.length := by
    rw [List.length_map, order.length_eq, memberTexts_eq, List.length_map]
  simp only [text, List.cons_append, width_cons, width_append, width_joined, width_nil, sum, count,
    opening, closing]
  omega

/-! ## Comparing lengths -/

/-- Where the second value has canonical bytes, so has the first, and no more of them. -/
def Lighter (v w : Json) : Prop :=
  ∀ w', w.normalize = .ok w' →
    ∃ v', v.normalize = .ok v' ∧ width (lib.text v') ≤ width (lib.text w')

variable {lib}

theorem Lighter.refl (v : Json) : lib.Lighter v v := fun v' normal => ⟨v', normal, Nat.le_refl _⟩

theorem Lighter.trans {u v w : Json} (first : lib.Lighter u v) (second : lib.Lighter v w) :
    lib.Lighter u w := by
  intro w' normal
  obtain ⟨v', middle, le⟩ := second w' normal
  obtain ⟨u', left, le'⟩ := first v' middle
  exact ⟨u', left, Nat.le_trans le' le⟩

theorem Lighter.bytes_length {v w : Json} (lighter : lib.Lighter v w) {b : List UInt8}
    (encoded : lib.bytes w = .ok b) : ∃ a, lib.bytes v = .ok a ∧ a.length ≤ b.length := by
  unfold bytes at encoded ⊢
  cases normal : w.normalize with
  | error e =>
      rw [normal] at encoded
      cases encoded
  | ok w' =>
      rw [normal] at encoded
      cases encoded
      obtain ⟨v', normal', le⟩ := lighter w' normal
      refine ⟨lib.encode v', by rw [normal']; rfl, ?_⟩
      rw [encode_length, encode_length]
      exact le

theorem lighter_nat {m n : Nat} (le : m ≤ n) : lib.Lighter (.nat m) (.nat n) := by
  intro w' normal
  simp only [Json.nat, Json.normalize, normalizeNumber] at normal ⊢
  split at normal
  · cases normal
  · rename_i small
    cases normal
    have fits : ¬ maxSafeInteger < (m : Int).natAbs := by
      simp only [Int.natAbs_natCast] at small ⊢
      omega
    refine ⟨.num (.int m), by rw [if_neg fits]; rfl, ?_⟩
    have digits := digits_mono le
    rw [← width_digits, ← width_digits] at digits
    have plain : ∀ k : Nat, lib.text (.num (.int k)) = Nat.toDigits 10 k := by
      intro k
      have sign : ¬ (k : Int) < 0 := by omega
      simp [text, intText, sign]
    rw [plain, plain]
    exact digits

theorem lighter_str {s t : String} (le : width (quote s) ≤ width (quote t)) :
    lib.Lighter (.str s) (.str t) := by
  intro w' normal
  cases normal
  exact ⟨.str s, rfl, by simpa only [text] using le⟩

/-- A shorter array of lighter items. -/
theorem lighter_arr {vs ws : List Json} (each : List.SublistForall₂ lib.Lighter vs ws) :
    lib.Lighter (.arr vs) (.arr ws) := by
  have items : ∀ {vs ws ws' : List Json}, List.SublistForall₂ lib.Lighter vs ws →
      normalizeItems ws = .ok ws' → ∃ vs', normalizeItems vs = .ok vs' ∧ vs'.length ≤ ws'.length ∧
        (vs'.map fun v => width (lib.text v)).sum ≤ (ws'.map fun v => width (lib.text v)).sum := by
    intro vs ws ws' each
    induction each generalizing ws' with
    | nil =>
        intro normal
        exact ⟨[], rfl, Nat.zero_le _, Nat.zero_le _⟩
    | @cons v w vs ws head _ ih =>
        intro normal
        cases normalizeItems_ok.mp normal with
        | @cons _ w' _ ws' first rest =>
            obtain ⟨v', here, le⟩ := head w' first
            obtain ⟨vs', tail, count, sum⟩ := ih (normalizeItems_ok.mpr rest)
            refine ⟨v' :: vs', normalizeItems_ok.mpr (.cons here (normalizeItems_ok.mp tail)),
              Nat.succ_le_succ count, ?_⟩
            simp only [List.map_cons, List.sum_cons]
            omega
    | @cons_right w vs ws _ ih =>
        intro normal
        cases normalizeItems_ok.mp normal with
        | @cons _ w' _ ws' first rest =>
            obtain ⟨vs', tail, count, sum⟩ := ih (normalizeItems_ok.mpr rest)
            refine ⟨vs', tail, Nat.le_succ_of_le count, ?_⟩
            simp only [List.map_cons, List.sum_cons]
            omega
  intro w' normal
  simp only [Json.normalize] at normal
  cases read : normalizeItems ws with
  | error e =>
      rw [read] at normal
      cases normal
  | ok ws' =>
      rw [read] at normal
      cases normal
      obtain ⟨vs', tail, count, sum⟩ := items each read
      refine ⟨.arr vs', by simp only [Json.normalize, tail]; rfl, ?_⟩
      rw [width_arr, width_arr]
      omega

/-- Objects with the same keys are compared field by field. -/
theorem lighter_object {fields others : List (String × Json)}
    (distinct : (others.map Prod.fst).Nodup)
    (each : List.Forall₂ (fun f g => f.1 = g.1 ∧ lib.Lighter f.2 g.2) fields others) :
    lib.Lighter (.object fields) (.object others) := by
  have keys : fields.map Prod.fst = others.map Prod.fst := by
    clear distinct
    induction each with
    | nil => rfl
    | cons head _ ih => rw [List.map_cons, List.map_cons, head.1, ih]
  have pointwise : ∀ {fs gs gs' : List (String × Json)},
      List.Forall₂ (fun f g => f.1 = g.1 ∧ lib.Lighter f.2 g.2) fs gs →
      List.Forall₂ (fun a b => a.1 = b.1 ∧ a.2.normalize = .ok b.2) gs gs' →
      ∃ fs', List.Forall₂ (fun a b => a.1 = b.1 ∧ a.2.normalize = .ok b.2) fs fs' ∧
        fs'.length = gs'.length ∧
        (fs'.map lib.memberWidth).sum ≤ (gs'.map lib.memberWidth).sum := by
    intro fs gs gs' lighter
    induction lighter generalizing gs' with
    | nil =>
        intro normal
        cases normal
        exact ⟨[], .nil, rfl, Nat.le_refl _⟩
    | @cons f g fs gs head _ ih =>
        intro normal
        cases normal with
        | @cons _ g' _ gs' first rest =>
            obtain ⟨value, here, le⟩ := head.2 g'.2 first.2
            obtain ⟨fs', tail, count, sum⟩ := ih rest
            refine ⟨(f.1, value) :: fs', .cons ⟨rfl, here⟩ tail, congrArg Nat.succ count, ?_⟩
            have key : f.1 = g'.1 := head.1.trans first.1
            simp only [List.map_cons, List.sum_cons, memberWidth, key]
            omega
  obtain ⟨ms, built, perm⟩ := object_perm (keys ▸ distinct)
  obtain ⟨ns, built', perm'⟩ := object_perm distinct
  rw [built, built']
  intro w' normal
  simp only [Json.normalize] at normal
  cases read : normalizeMembers ns with
  | error e =>
      rw [read] at normal
      cases normal
  | ok ns' =>
      rw [read] at normal
      cases normal
      obtain ⟨gs', normalized, order⟩ := List.perm_comp_forall₂ perm'.symm (normalizeMembers_ok.mp read)
      obtain ⟨fs', here, count, sum⟩ := pointwise each normalized
      obtain ⟨ms', members, order'⟩ := List.perm_comp_forall₂ perm here
      refine ⟨.obj ms', by simp only [Json.normalize, Json.normalizeMembers_ok.mpr members]; rfl, ?_⟩
      rw [width_obj, width_obj, (order'.map _).sum_nat, order'.length_eq, ← (order.map _).sum_nat,
        ← order.length_eq, count]
      omega

end JsonLibrary

end Metewand
