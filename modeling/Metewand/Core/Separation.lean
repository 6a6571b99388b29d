import Metewand.Core.Deserializer
import Metewand.Core.Spelling

/-!
# Encodings that tell values apart

Two documents are `Alike` when they have one normal form.  Each way to write a document has one rule
that says what alike documents were written from, so an encoding of records is inverted field by field
(`alike_object`): an alike pair of objects with the same keys is an alike pair of every field.
-/

namespace Metewand

open Lib

namespace Json

/-- Two values with one normal form. -/
def Alike (v w : Json) : Prop := ∃ u, v.normalize = .ok u ∧ w.normalize = .ok u

theorem Alike.symm {v w : Json} (alike : Alike v w) : Alike w v := by
  obtain ⟨u, left, right⟩ := alike
  exact ⟨u, right, left⟩

/-- What is alike is normalized alike; the converse needs a normal form. -/
theorem Alike.same {v w : Json} (alike : Alike v w) : v.normalize = w.normalize := by
  obtain ⟨u, left, right⟩ := alike
  rw [left, right]

theorem Alike.get {v w : Json} (alike : Alike v w) (key : String) : Alike (v.get key) (w.get key) := by
  obtain ⟨u, left, right⟩ := alike
  exact ⟨u.get key, normalize_get key left, normalize_get key right⟩

/-! ## Values without parts -/

/-- Normalization leaves everything but numbers and their containers as it is. -/
theorem normalize_eq_null {v : Json} : v.normalize = .ok .null ↔ v = .null := by
  constructor
  · intro normal
    cases v with
    | null => rfl
    | bool _ | str _ => cases normal
    | num n =>
        simp only [normalize] at normal
        cases read : normalizeNumber n <;> rw [read] at normal <;> cases normal
    | arr items =>
        simp only [normalize] at normal
        cases read : normalizeItems items <;> rw [read] at normal <;> cases normal
    | obj members =>
        simp only [normalize] at normal
        cases read : normalizeMembers members <;> rw [read] at normal <;> cases normal
  · rintro rfl
    rfl

theorem normalize_eq_str {v : Json} {s : String} : v.normalize = .ok (.str s) ↔ v = .str s := by
  constructor
  · intro normal
    cases v with
    | null | bool _ => cases normal
    | str t =>
        cases normal
        rfl
    | num n =>
        simp only [normalize] at normal
        cases read : normalizeNumber n <;> rw [read] at normal <;> cases normal
    | arr items =>
        simp only [normalize] at normal
        cases read : normalizeItems items <;> rw [read] at normal <;> cases normal
    | obj members =>
        simp only [normalize] at normal
        cases read : normalizeMembers members <;> rw [read] at normal <;> cases normal
  · rintro rfl
    rfl

@[simp]
theorem alike_null {v : Json} : Alike v .null ↔ v = .null := by
  constructor
  · rintro ⟨u, left, right⟩
    cases right
    exact normalize_eq_null.mp left
  · rintro rfl
    exact ⟨.null, rfl, rfl⟩

@[simp]
theorem null_alike {v : Json} : Alike .null v ↔ v = .null := by
  constructor
  · exact fun alike => alike_null.mp alike.symm
  · exact fun is => (alike_null.mpr is).symm

@[simp]
theorem alike_str {v : Json} {s : String} : Alike v (.str s) ↔ v = .str s := by
  constructor
  · rintro ⟨u, left, right⟩
    cases right
    exact normalize_eq_str.mp left
  · rintro rfl
    exact ⟨.str s, rfl, rfl⟩

@[simp]
theorem str_alike {v : Json} {s : String} : Alike (.str s) v ↔ v = .str s := by
  constructor
  · exact fun alike => alike_str.mp alike.symm
  · exact fun is => (alike_str.mpr is).symm

@[simp]
theorem alike_bool {a b : Bool} : Alike (.bool a) (.bool b) ↔ a = b := by
  constructor
  · rintro ⟨u, left, right⟩
    cases left
    cases right
    rfl
  · rintro rfl
    exact ⟨.bool a, rfl, rfl⟩

theorem eq_of_alike {s t : String} (alike : Alike (.str s) (.str t)) : s = t :=
  Json.str.inj (alike_str.mp alike)

theorem alike_nat {m n : Nat} : Alike (nat m) (nat n) ↔ m = n ∧ n ≤ maxSafeInteger := by
  constructor
  · rintro ⟨u, left, right⟩
    obtain ⟨-, rfl⟩ := normalize_nat.mp left
    obtain ⟨small, same⟩ := normalize_nat.mp right
    simp only [nat, Json.num.injEq, Number.int.injEq, Nat.cast_inj] at same
    exact ⟨same, small⟩
  · rintro ⟨rfl, small⟩
    exact ⟨nat m, normalize_nat.mpr ⟨small, rfl⟩, normalize_nat.mpr ⟨small, rfl⟩⟩

theorem nat_ne_null (n : Nat) : nat n ≠ .null := by
  unfold nat
  simp

/-- Values of the canonical domain are alike when they are equal. -/
theorem alike_canonical {a b : CanonicalValue} : Alike a.value b.value ↔ a = b := by
  constructor
  · rintro ⟨u, left, right⟩
    rw [a.canonical] at left
    rw [b.canonical] at right
    cases a
    cases b
    cases left
    cases right
    rfl
  · rintro rfl
    exact ⟨a.value, a.canonical, a.canonical⟩

/-! ## Optional values -/

theorem alike_ofOption {α : Type} {f : α → Json} {same : α → α → Prop} {a b : Option α}
    (filled : ∀ c, c ∈ a ∨ c ∈ b → f c ≠ .null) (separates : ∀ c ∈ a, ∀ d ∈ b, Alike (f c) (f d) → same c d)
    (alike : Alike (ofOption f a) (ofOption f b)) : Option.Rel same a b := by
  cases a with
  | none =>
      cases b with
      | none => exact .none
      | some b => exact absurd (null_alike.mp alike) (filled b (.inr rfl))
  | some a =>
      cases b with
      | none => exact absurd (alike_null.mp alike) (filled a (.inl rfl))
      | some b => exact .some (separates a rfl b rfl alike)

theorem eq_of_rel {α : Type} {a b : Option α} (related : Option.Rel (· = ·) a b) : a = b := by
  cases related with
  | none => rfl
  | some same => rw [same]

theorem alike_optional {α : Type} {f : α → Json} (filled : ∀ a, f a ≠ .null)
    (separates : ∀ a b, Alike (f a) (f b) → a = b) {a b : Option α}
    (alike : Alike (ofOption f a) (ofOption f b)) : a = b :=
  eq_of_rel (alike_ofOption (fun c _ => filled c) (fun _ _ _ _ => separates _ _) alike)

theorem alike_optional_nat {a b : Option Nat} (alike : Alike (ofOption nat a) (ofOption nat b)) : a = b :=
  alike_optional nat_ne_null (fun _ _ alike => (alike_nat.mp alike).1) alike

theorem alike_optional_str {a b : Option String} (alike : Alike (ofOption .str a) (ofOption .str b)) :
    a = b :=
  alike_optional (by simp) (fun _ _ => eq_of_alike) alike

/-! ## Arrays -/

theorem alike_arr {vs ws : List Json} : Alike (.arr vs) (.arr ws) ↔ List.Forall₂ Alike vs ws := by
  constructor
  · rintro ⟨u, left, right⟩
    obtain ⟨us, read, rfl⟩ : ∃ us, normalizeItems vs = .ok us ∧ .arr us = u := by
      simp only [normalize] at left
      cases read : normalizeItems vs with
      | error e =>
          rw [read] at left
          cases left
      | ok us =>
          rw [read] at left
          exact ⟨us, rfl, Except.ok.inj left⟩
    have read' : normalizeItems ws = .ok us := by
      simp only [normalize] at right
      cases found : normalizeItems ws with
      | error e =>
          rw [found] at right
          cases right
      | ok us' =>
          rw [found] at right
          cases right
          rfl
    have first := normalizeItems_ok.mp read
    have second := normalizeItems_ok.mp read'
    clear left right read read'
    induction first generalizing ws with
    | nil =>
        cases second
        exact .nil
    | @cons v u vs us head _ ih =>
        cases second with
        | cons head' tail => exact .cons ⟨u, head, head'⟩ (ih tail)
  · intro each
    have both : ∃ us, List.Forall₂ (fun v w => v.normalize = .ok w) vs us ∧
        List.Forall₂ (fun v w => v.normalize = .ok w) ws us := by
      induction each with
      | nil => exact ⟨[], .nil, .nil⟩
      | cons head _ ih =>
          obtain ⟨u, left, right⟩ := head
          obtain ⟨us, first, second⟩ := ih
          exact ⟨u :: us, .cons left first, .cons right second⟩
    obtain ⟨us, first, second⟩ := both
    refine ⟨.arr us, ?_, ?_⟩
    · simp only [normalize, normalizeItems_ok.mpr first]
      rfl
    · simp only [normalize, normalizeItems_ok.mpr second]
      rfl

/-- Related lists, by a relation on their own elements. -/
theorem related_imp {α : Type} {R S : α → α → Prop} {as bs : List α} (each : List.Forall₂ R as bs)
    (step : ∀ a ∈ as, ∀ b ∈ bs, R a b → S a b) : List.Forall₂ S as bs := by
  induction each with
  | nil => exact .nil
  | @cons a b as bs head _ ih =>
      refine .cons (step a List.mem_cons_self b List.mem_cons_self head) (ih fun a' inside b' inside' => ?_)
      exact step a' (List.mem_cons_of_mem _ inside) b' (List.mem_cons_of_mem _ inside')

/-- Items written by one encoder are related where the encoder separates them. -/
theorem related_of_alike {α : Type} {f : α → Json} {same : α → α → Prop} {as bs : List α}
    (separates : ∀ a ∈ as, ∀ b ∈ bs, Alike (f a) (f b) → same a b)
    (alike : Alike (.arr (as.map f)) (.arr (bs.map f))) : List.Forall₂ same as bs := by
  have each := alike_arr.mp alike
  rw [List.forall₂_map_left_iff, List.forall₂_map_right_iff] at each
  exact related_imp each separates

theorem alike_map {α : Type} {f : α → Json} (separates : ∀ a b, Alike (f a) (f b) → a = b) {as bs : List α}
    (alike : Alike (.arr (as.map f)) (.arr (bs.map f))) : as = bs := by
  have each := alike_arr.mp alike
  rw [List.forall₂_map_left_iff, List.forall₂_map_right_iff] at each
  exact List.forall₂_eq_eq_eq ▸ each.imp separates

theorem alike_strs {as bs : List String} (alike : Alike (.arr (as.map .str)) (.arr (bs.map .str))) : as = bs :=
  alike_map (fun _ _ => eq_of_alike) alike

/-! ## Objects -/

/-- A field and its counterpart. -/
def AlikeField (a b : String × Json) : Prop := a.1 = b.1 ∧ Alike a.2 b.2

/-- The members of ordered maps: the keys are the same, in the same order. -/
theorem alike_members {members others : List (String × Json)} :
    Alike (.obj members) (.obj others) ↔ List.Forall₂ AlikeField members others := by
  constructor
  · rintro ⟨u, left, right⟩
    obtain ⟨us, read, rfl⟩ : ∃ us, normalizeMembers members = .ok us ∧ .obj us = u := by
      simp only [normalize] at left
      cases read : normalizeMembers members with
      | error e =>
          rw [read] at left
          cases left
      | ok us =>
          rw [read] at left
          exact ⟨us, rfl, Except.ok.inj left⟩
    have read' : normalizeMembers others = .ok us := by
      simp only [normalize] at right
      cases found : normalizeMembers others with
      | error e =>
          rw [found] at right
          cases right
      | ok us' =>
          rw [found] at right
          cases right
          rfl
    have first := normalizeMembers_ok.mp read
    have second := normalizeMembers_ok.mp read'
    clear left right read read'
    induction first generalizing others with
    | nil =>
        cases second
        exact .nil
    | @cons a u rest us head _ ih =>
        cases second with
        | cons head' tail =>
            exact .cons ⟨head.1.trans head'.1.symm, u.2, head.2, head'.2⟩ (ih tail)
  · intro each
    have both : ∃ us, List.Forall₂ NormalMember members us ∧ List.Forall₂ NormalMember others us := by
      induction each with
      | nil => exact ⟨[], .nil, .nil⟩
      | @cons a b _ _ head _ ih =>
          obtain ⟨key, u, left, right⟩ := head
          obtain ⟨us, first, second⟩ := ih
          exact ⟨(a.1, u) :: us, .cons ⟨rfl, left⟩ first, .cons ⟨key.symm, right⟩ second⟩
    obtain ⟨us, first, second⟩ := both
    refine ⟨.obj us, ?_, ?_⟩
    · simp only [normalize, normalizeMembers_ok.mpr first]
      rfl
    · simp only [normalize, normalizeMembers_ok.mpr second]
      rfl

/-- Alike objects with the same distinct keys are alike field by field. -/
theorem alike_object {fields others : List (String × Json)} (alike : Alike (object fields) (object others))
    (keys : fields.map Prod.fst = others.map Prod.fst) (distinct : (fields.map Prod.fst).Nodup) :
    List.Forall₂ AlikeField fields others := by
  have members : ∀ key ∈ fields.map Prod.fst, Alike ((object fields).get key) ((object others).get key) :=
    fun key _ => alike.get key
  clear alike
  induction fields generalizing others with
  | nil =>
      rw [List.map_nil, eq_comm, List.map_eq_nil_iff] at keys
      rw [keys]
      exact .nil
  | cons field rest ih =>
      obtain ⟨key, value⟩ := field
      cases others with
      | nil => cases keys
      | cons other others =>
          obtain ⟨key', value'⟩ := other
          rw [List.map_cons, List.map_cons, List.cons.injEq] at keys
          obtain ⟨same, keys⟩ := keys
          dsimp only at same
          subst same
          obtain ⟨new, distinct⟩ := List.nodup_cons.mp distinct
          refine .cons ⟨rfl, ?_⟩ (ih keys distinct fun k inside => ?_)
          · simpa using members key List.mem_cons_self
          · have other : k ≠ key := fun same => new (same ▸ inside)
            simpa [other] using members k (List.mem_cons_of_mem _ inside)

/-- Alike objects have as many fields. -/
theorem Alike.fields_length {fields others : List (String × Json)} (alike : Alike (object fields) (object others))
    (distinct : (fields.map Prod.fst).Nodup) (distinct' : (others.map Prod.fst).Nodup) :
    fields.length = others.length := by
  obtain ⟨members, built, perm⟩ := object_perm distinct
  obtain ⟨members', built', perm'⟩ := object_perm distinct'
  rw [built, built', alike_members] at alike
  rw [← perm.length_eq, ← perm'.length_eq]
  exact alike.length_eq

/-- Fields under the same keys that are alike make alike objects. -/
theorem Alike.of_fields {fields others : List (String × Json)} (each : List.Forall₂ AlikeField fields others) :
    Alike (object fields) (object others) := by
  have both : ∃ us, List.Forall₂ NormalMember fields us ∧ List.Forall₂ NormalMember others us := by
    induction each with
    | nil => exact ⟨[], .nil, .nil⟩
    | @cons a b _ _ head _ ih =>
        obtain ⟨key, u, left, right⟩ := head
        obtain ⟨us, first, second⟩ := ih
        exact ⟨(a.1, u) :: us, .cons ⟨rfl, left⟩ first, .cons ⟨key.symm, right⟩ second⟩
  obtain ⟨us, first, second⟩ := both
  exact ⟨object us, normalize_object first, normalize_object second⟩

/-- Items that are normalized alike make arrays that are normalized alike. -/
theorem normalize_arr_congr {items others : List Json}
    (each : List.Forall₂ (fun v w => v.normalize = w.normalize) items others) :
    (Json.arr items).normalize = (Json.arr others).normalize := by
  have same : normalizeItems items = normalizeItems others := by
    induction each with
    | nil => rfl
    | cons head _ ih => rw [normalizeItems, normalizeItems, head, ih]
  simp only [normalize, same]

/-! ## Fields that may be left out -/

/-- A field that is written when there is a value. -/
def optionalField {α : Type} (key : String) (f : α → Json) : Option α → List (String × Json)
  | some a => [(key, f a)]
  | none => []

/-- A field that is left out under a condition. -/
def fieldUnless (absent : Prop) [Decidable absent] (key : String) (value : Json) : List (String × Json) :=
  if absent then [] else [(key, value)]

/-- The member of a record under a key. -/
theorem get_object (fields : List (String × Json)) (key : String) :
    (object fields).get key = (lookupEntry key fields).getD .null := by
  induction fields with
  | nil => rfl
  | cons field rest ih =>
      obtain ⟨k, value⟩ := field
      rw [get_object_cons, lookupEntry, ih]
      split <;> rfl

theorem set_object (fields : List (String × Json)) (key : String) (value : Json) :
    (object fields).set key value = object ((key, value) :: fields) :=
  rfl

theorem lookup_append (key : String) (fields others : List (String × Json)) :
    lookupEntry key (fields ++ others) = (lookupEntry key fields).or (lookupEntry key others) := by
  induction fields with
  | nil => rfl
  | cons field rest ih =>
      obtain ⟨k, value⟩ := field
      rw [List.cons_append, lookupEntry, lookupEntry, ih]
      split <;> rfl

theorem lookup_optionalField {α : Type} (key k : String) (f : α → Json) (a : Option α) :
    lookupEntry key (optionalField k f a) = if key = k then a.map f else none := by
  cases a <;> simp [optionalField, lookupEntry]

theorem lookup_fieldUnless (absent : Prop) [Decidable absent] (key k : String) (value : Json) :
    lookupEntry key (fieldUnless absent k value) = if key = k ∧ ¬absent then some value else none := by
  unfold fieldUnless
  by_cases left : absent <;> simp [lookupEntry, left]

/-! ## Maps -/

/-- The members of an object ascend. -/
theorem object_ascending (fields : List (String × Json)) :
    ∃ members, object fields = .obj members ∧ Ascending members := by
  refine ⟨_, rfl, ?_⟩
  induction fields with
  | nil => exact List.Pairwise.nil
  | cons field rest ih =>
      rw [List.foldr_cons, insertMember_eq]
      exact ih.insertEntry

/-- Every member of an object was given. -/
theorem mem_object {fields members : List (String × Json)} (built : object fields = .obj members)
    {m : String × Json} (member : m ∈ members) : m ∈ fields := by
  cases built
  induction fields with
  | nil => exact absurd member List.not_mem_nil
  | cons field rest ih =>
      rw [List.foldr_cons, insertMember_eq] at member
      rcases mem_insertEntry member with here | later
      · exact here ▸ List.mem_cons_self
      · exact List.mem_cons_of_mem _ (ih later)

theorem object_ordered {fields : List (String × Json)} (each : ∀ field ∈ fields, field.2.Ordered) :
    (object fields).Ordered := by
  obtain ⟨members, built, ascending⟩ := object_ascending fields
  rw [built, Ordered]
  exact ⟨ascending, orderedMembers_iff.mpr fun m member => each m (mem_object built member)⟩

/-- An ordered map written as an object. -/
def ofMap {α : Type} (f : α → Json) (m : OrderedMap String α) : Json :=
  .obj (m.entries.map fun entry => (entry.1, f entry.2))

/-- Fields in ascending order make an object as they are. -/
theorem object_of_ascending {fields : List (String × Json)} (ascending : Ascending fields) :
    object fields = .obj fields := by
  unfold object
  congr 1
  induction fields with
  | nil => rfl
  | cons field rest ih =>
      obtain ⟨above, tail⟩ := List.pairwise_cons.mp ascending
      rw [List.foldr_cons, ih tail]
      cases rest with
      | nil => rfl
      | cons next others =>
          have before := above next List.mem_cons_self
          rw [insertMember, if_neg before.ne, if_pos before]

theorem ofMap_ordered {α : Type} {f : α → Json} {m : OrderedMap String α}
    (each : ∀ entry ∈ m.entries, (f entry.2).Ordered) : (ofMap f m).Ordered := by
  refine ⟨List.pairwise_map.mpr m.ascending, orderedMembers_iff.mpr fun member inside => ?_⟩
  obtain ⟨entry, here, rfl⟩ := List.mem_map.mp inside
  exact each entry here

theorem object_ofMap {α : Type} (f : α → Json) (m : OrderedMap String α) :
    object (m.entries.map fun entry => (entry.1, f entry.2)) = ofMap f m :=
  object_of_ascending (List.pairwise_map.mpr m.ascending)

/-- Entries under one key whose values are related. -/
def SameEntry {α : Type} (same : α → α → Prop) (a b : String × α) : Prop := a.1 = b.1 ∧ same a.2 b.2

theorem alike_ofMap {α : Type} {f : α → Json} {same : α → α → Prop} {m n : OrderedMap String α}
    (separates : ∀ a ∈ m.entries, ∀ b ∈ n.entries, Alike (f a.2) (f b.2) → same a.2 b.2)
    (alike : Alike (ofMap f m) (ofMap f n)) : List.Forall₂ (SameEntry same) m.entries n.entries := by
  have each := alike_members.mp alike
  rw [List.forall₂_map_left_iff, List.forall₂_map_right_iff] at each
  exact related_imp each fun a inside b inside' field => ⟨field.1, separates a inside b inside' field.2⟩

/-- Maps whose values are written alike are written alike. -/
theorem normalize_ofMap_congr {α : Type} {f : α → Json} {same : α → α → Prop}
    {m n : OrderedMap String α} (each : List.Forall₂ (SameEntry same) m.entries n.entries)
    (writes : ∀ a b, same a b → (f a).normalize = (f b).normalize) :
    (ofMap f m).normalize = (ofMap f n).normalize := by
  have members : List.Forall₂ SameMember (m.entries.map fun entry => (entry.1, f entry.2))
      (n.entries.map fun entry => (entry.1, f entry.2)) := by
    rw [List.forall₂_map_left_iff, List.forall₂_map_right_iff]
    exact each.imp fun _ _ entry => ⟨entry.1, writes _ _ entry.2⟩
  simp only [ofMap, normalize, normalizeMembers_congr members]

theorem normalize_map_congr {α : Type} {f : α → Json} {same : α → α → Prop}
    {as bs : List α} (each : List.Forall₂ same as bs)
    (writes : ∀ a b, same a b → (f a).normalize = (f b).normalize) :
    (Json.arr (as.map f)).normalize = (Json.arr (bs.map f)).normalize := by
  refine normalize_arr_congr ?_
  rw [List.forall₂_map_left_iff, List.forall₂_map_right_iff]
  exact each.imp writes

theorem normalize_ofOption_congr {α : Type} {f : α → Json} {same : α → α → Prop}
    {a b : Option α} (related : Option.Rel same a b)
    (writes : ∀ a b, same a b → (f a).normalize = (f b).normalize) :
    (ofOption f a).normalize = (ofOption f b).normalize := by
  cases related with
  | none => rfl
  | some head => exact writes _ _ head

/-- Optional fields whose values are written alike. -/
theorem sameMember_optionalField {α : Type} {f : α → Json} {same : α → α → Prop}
    {a b : Option α} (related : Option.Rel same a b)
    (writes : ∀ a b, same a b → (f a).normalize = (f b).normalize) (key : String) :
    List.Forall₂ SameMember (optionalField key f a) (optionalField key f b) := by
  cases related with
  | none => exact .nil
  | some head => exact .cons ⟨rfl, writes _ _ head⟩ .nil

theorem sameMember_self (m : String × Json) : SameMember m m := ⟨rfl, rfl⟩

theorem sameMembers_self (members : List (String × Json)) : List.Forall₂ SameMember members members :=
  List.forall₂_same.mpr fun m _ => sameMember_self m

theorem eq_of_alike_ofMap {α : Type} {f : α → Json} (separates : ∀ a b, Alike (f a) (f b) → a = b)
    {m n : OrderedMap String α} (alike : Alike (ofMap f m) (ofMap f n)) : m = n := by
  have each := (alike_ofMap (fun _ _ _ _ => separates _ _) alike).imp fun _ _ both => Prod.ext both.1 both.2
  have entries : m.entries = n.entries := List.forall₂_eq_eq_eq ▸ each
  obtain ⟨left, _⟩ := m
  obtain ⟨right, _⟩ := n
  subst entries
  rfl

end Json

/-! ## Identities and digests -/

namespace Json

theorem alike_id {kind : IdentityKind} {a b : RecordId kind} : Alike a.json b.json ↔ a = b := by
  unfold RecordId.json
  rw [alike_str, Json.str.injEq]
  exact ⟨RecordId.text_injective, fun same => same ▸ rfl⟩

theorem alike_optional_id {kind : IdentityKind} {a b : Option (RecordId kind)}
    (alike : Alike (ofOption RecordId.json a) (ofOption RecordId.json b)) : a = b :=
  alike_optional (by simp [RecordId.json]) (fun _ _ => alike_id.mp) alike

theorem hex_injective {a b : Digest} (same : a.hex = b.hex) : a = b := by
  have left := a.parse_hex
  rw [same, b.parse_hex] at left
  exact (Option.some.inj left).symm

theorem alike_digest {a b : Digest} : Alike (.str a.hex) (.str b.hex) ↔ a = b := by
  rw [alike_str, Json.str.injEq]
  exact ⟨hex_injective, fun same => same ▸ rfl⟩

end Json

end Metewand
