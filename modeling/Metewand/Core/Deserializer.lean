import Metewand.Core.Encoding

/-!
# What a deserializer hands to a visitor

`Raw` is the value that serde_json's deserializer walks through while it reads a text: the
members of an object in the order of the text, repeated keys included, and the place where
the text stops being JSON.  A visitor turns it into a `Json` value; each visitor of the
source is compared with `Raw.Complete`, `Raw.Unique` and `Raw.value`.
-/

namespace Metewand

open Lib

inductive Raw where
  /-- The text is no JSON from here on. -/
  | malformed
  | null
  | bool (value : Bool)
  | number (value : Number)
  | string (value : String)
  | array (items : List Raw) (closed : Bool)
  | object (members : List (String × Raw)) (closed : Bool)

/-- A finite number. -/
def Number.Finite : Number → Prop
  | .int _ => True
  | .float bits => bits.toNat / 2 ^ 52 % 2 ^ 11 ≠ 2047

instance (n : Number) : Decidable n.Finite := by
  cases n <;> unfold Number.Finite <;> infer_instance

namespace Raw

mutual

/-- The whole value was read. -/
def Complete : Raw → Prop
  | .malformed => False
  | .number n => n.Finite
  | .array items closed => CompleteItems items ∧ closed = true
  | .object members closed => CompleteMembers members ∧ closed = true
  | _ => True

def CompleteItems : List Raw → Prop
  | [] => True
  | item :: rest => item.Complete ∧ CompleteItems rest

def CompleteMembers : List (String × Raw) → Prop
  | [] => True
  | (_, value) :: rest => value.Complete ∧ CompleteMembers rest

end

mutual

/-- No object at any depth repeats a key. -/
def Unique : Raw → Prop
  | .array items _ => UniqueItems items
  | .object members _ => (members.map Prod.fst).Nodup ∧ UniqueMembers members
  | _ => True

def UniqueItems : List Raw → Prop
  | [] => True
  | item :: rest => item.Unique ∧ UniqueItems rest

def UniqueMembers : List (String × Raw) → Prop
  | [] => True
  | (_, value) :: rest => value.Unique ∧ UniqueMembers rest

end

mutual

/-- The value a text denotes; the last of repeated members counts. -/
def value : Raw → Json
  | .malformed => .null
  | .null => .null
  | .bool b => .bool b
  | .number n => .num n
  | .string s => .str s
  | .array items _ => .arr (itemValues items)
  | .object members _ => .obj (collect [] members)

def itemValues : List Raw → List Json
  | [] => []
  | item :: rest => item.value :: itemValues rest

/-- Members put into a map one by one. -/
def collect (values : List (String × Json)) : List (String × Raw) → List (String × Json)
  | [] => values
  | (key, raw) :: rest => collect (Json.insertMember key raw.value values) rest

end

mutual

/-- `serde_json::Value` of a text. -/
def read : Raw → Option Json
  | .malformed => none
  | .null => some .null
  | .bool b => some (.bool b)
  | .number n => some (if n.Finite then .num n else .null)
  | .string s => some (.str s)
  | .array items closed => (readItems items).bind fun values => if closed then some (.arr values) else none
  | .object members closed => (readMembers [] members).bind fun values =>
      if closed then some (.obj values) else none

def readItems : List Raw → Option (List Json)
  | [] => some []
  | item :: rest => do
      let v ← read item
      let values ← readItems rest
      return v :: values

def readMembers (values : List (String × Json)) : List (String × Raw) → Option (List (String × Json))
  | [] => some values
  | (key, raw) :: rest => do
      let v ← read raw
      readMembers (Json.insertMember key v values) rest

end

mutual

/-- A value as its canonical text presents it. -/
def ofJson : Json → Raw
  | .null => .null
  | .bool b => .bool b
  | .num n => .number n
  | .str s => .string s
  | .arr items => .array (ofItems items) true
  | .obj members => .object ((ofMembers members).insertionSort Json.keyOrder) true

def ofItems : List Json → List Raw
  | [] => []
  | item :: rest => ofJson item :: ofItems rest

def ofMembers : List (String × Json) → List (String × Raw)
  | [] => []
  | (key, v) :: rest => (key, ofJson v) :: ofMembers rest

end

/-! ## Reading -/

variable {raw : Raw} {items : List Raw} {members : List (String × Raw)}

theorem completeItems_iff : CompleteItems items ↔ ∀ item ∈ items, item.Complete := by
  induction items with
  | nil => simp [CompleteItems]
  | cons item rest ih => simp [CompleteItems, ih]

theorem completeMembers_iff : CompleteMembers members ↔ ∀ m ∈ members, m.2.Complete := by
  induction members with
  | nil => simp [CompleteMembers]
  | cons m rest ih => simp [CompleteMembers, ih]

theorem uniqueItems_iff : UniqueItems items ↔ ∀ item ∈ items, item.Unique := by
  induction items with
  | nil => simp [UniqueItems]
  | cons item rest ih => simp [UniqueItems, ih]

theorem uniqueMembers_iff : UniqueMembers members ↔ ∀ m ∈ members, m.2.Unique := by
  induction members with
  | nil => simp [UniqueMembers]
  | cons m rest ih => simp [UniqueMembers, ih]

theorem itemValues_eq : itemValues items = items.map value := by
  induction items with
  | nil => rfl
  | cons item rest ih => rw [itemValues, ih, List.map_cons]

theorem collect_eq (values : List (String × Json)) :
    collect values members =
      (members.map fun m => (m.1, m.2.value)).foldl (fun vs m => Json.insertMember m.1 m.2 vs) values := by
  induction members generalizing values with
  | nil => rfl
  | cons m rest ih => rw [collect, ih, List.map_cons, List.foldl_cons]

theorem ofItems_eq (items : List Json) : ofItems items = items.map ofJson := by
  induction items with
  | nil => rfl
  | cons item rest ih => rw [ofItems, ih, List.map_cons]

theorem ofMembers_eq (members : List (String × Json)) :
    ofMembers members = members.map fun m => (m.1, ofJson m.2) := by
  induction members with
  | nil => rfl
  | cons m rest ih => rw [ofMembers, ih, List.map_cons]

mutual

/-- A complete text is read as the value it denotes. -/
theorem read_complete : ∀ {raw : Raw}, raw.Complete → raw.read = some raw.value
  | .malformed, complete => complete.elim
  | .null, _ | .bool _, _ | .string _, _ => rfl
  | .number n, complete => by
      rw [read, value, if_pos (show n.Finite from complete)]
  | .array items closed, complete => by
      obtain ⟨each, rfl⟩ := complete
      rw [read, readItems_complete each, value]
      rfl
  | .object members closed, complete => by
      obtain ⟨each, rfl⟩ := complete
      rw [read, readMembers_complete each, value]
      rfl

theorem readItems_complete : ∀ {items : List Raw}, CompleteItems items →
    readItems items = some (itemValues items)
  | [], _ => rfl
  | item :: rest, complete => by
      rw [readItems, read_complete complete.1, readItems_complete complete.2]
      rfl

theorem readMembers_complete : ∀ {members : List (String × Raw)}, CompleteMembers members →
    ∀ {values : List (String × Json)}, readMembers values members = some (collect values members)
  | [], _, _ => rfl
  | (key, raw) :: rest, complete, values => by
      rw [readMembers, read_complete complete.1]
      exact readMembers_complete complete.2

end

end Raw

/-! ## Canonical texts -/

namespace Json

/-- Induction over values: the items of an array, and the members of an object. -/
theorem induction {motive : Json → Prop} (null : motive .null) (bool : ∀ b, motive (.bool b))
    (num : ∀ n, motive (.num n)) (str : ∀ s, motive (.str s))
    (arr : ∀ items, (∀ item ∈ items, motive item) → motive (.arr items))
    (obj : ∀ members, (∀ m ∈ members, motive m.2) → motive (.obj members)) (v : Json) : motive v := by
  refine Json.rec (motive_1 := motive) (motive_2 := fun items => ∀ item ∈ items, motive item)
    (motive_3 := fun members => ∀ m ∈ members, motive m.2) (motive_4 := fun m => motive m.2)
    null bool num str arr obj ?_ ?_ ?_ ?_ ?_ v
  · simp
  · exact fun item rest head tail => List.forall_mem_cons.mpr ⟨head, tail⟩
  · simp
  · exact fun m rest head tail => List.forall_mem_cons.mpr ⟨head, tail⟩
  · exact fun _ _ value => value

theorem orderedItems_iff {items : List Json} : OrderedItems items ↔ ∀ item ∈ items, item.Ordered := by
  induction items with
  | nil => simp [OrderedItems]
  | cons item rest ih => simp [OrderedItems, ih]

theorem orderedMembers_iff {members : List (String × Json)} :
    OrderedMembers members ↔ ∀ m ∈ members, m.2.Ordered := by
  induction members with
  | nil => simp [OrderedMembers]
  | cons m rest ih => simp [OrderedMembers, ih]

/-- A canonical array has canonical items. -/
theorem normalize_items_self {items : List Json} (normal : normalize (.arr items) = .ok (.arr items)) :
    ∀ item ∈ items, item.normalize = .ok item := by
  simp only [normalize] at normal
  cases read : normalizeItems items with
  | error e =>
      rw [read] at normal
      cases normal
  | ok items' =>
      rw [read] at normal
      cases normal
      exact List.forall₂_same.mp (normalizeItems_ok.mp read)

theorem normalize_members_self {members : List (String × Json)}
    (normal : normalize (.obj members) = .ok (.obj members)) :
    ∀ m ∈ members, m.2.normalize = .ok m.2 := by
  simp only [normalize] at normal
  cases read : normalizeMembers members with
  | error e =>
      rw [read] at normal
      cases normal
  | ok members' =>
      rw [read] at normal
      cases normal
      exact fun m member => (List.forall₂_same.mp (normalizeMembers_ok.mp read) m member).2

theorem depthItems_congr {items items' : List Json} (each : List.Forall₂ (fun v w => w.depth = v.depth) items items') :
    depthItems items' = depthItems items := by
  induction each with
  | nil => rfl
  | cons head _ ih => rw [depthItems, depthItems, head, ih]

theorem depthMembers_congr {members members' : List (String × Json)}
    (each : List.Forall₂ (fun a b => b.2.depth = a.2.depth) members members') :
    depthMembers members' = depthMembers members := by
  induction each with
  | nil => rfl
  | cons head _ ih => rw [depthMembers, depthMembers, head, ih]

theorem ascending_congr {members members' : List (String × Json)}
    (keys : members'.map Prod.fst = members.map Prod.fst) (ascending : Ascending members) :
    Ascending members' := by
  have sorted : (members.map Prod.fst).Pairwise (· < ·) := List.pairwise_map.mpr ascending
  rw [← keys] at sorted
  exact List.pairwise_map.mp sorted

theorem keys_normal {members members' : List (String × Json)} (each : List.Forall₂ NormalMember members members') :
    members'.map Prod.fst = members.map Prod.fst := by
  induction each with
  | nil => rfl
  | cons head _ ih => rw [List.map_cons, List.map_cons, head.1, ih]

/-- Normalization changes numbers only. -/
theorem normalize_shape (v : Json) : ∀ {w : Json}, v.normalize = .ok w →
    w.depth = v.depth ∧ (v.Ordered → w.Ordered) := by
  induction v using induction with
  | null | bool _ | str _ =>
      intro w normal
      cases normal
      exact ⟨rfl, id⟩
  | num n =>
      intro w normal
      simp only [normalize] at normal
      cases read : normalizeNumber n with
      | error e =>
          rw [read] at normal
          cases normal
      | ok m =>
          rw [read] at normal
          cases normal
          exact ⟨rfl, id⟩
  | arr items ih =>
      intro w normal
      simp only [normalize] at normal
      cases read : normalizeItems items with
      | error e =>
          rw [read] at normal
          cases normal
      | ok items' =>
          rw [read] at normal
          cases normal
          have each := normalizeItems_ok.mp read
          have shaped : List.Forall₂ (fun v w => w.depth = v.depth ∧ (v.Ordered → w.Ordered)) items items' :=
            List.forall₂_iff_get.mpr ⟨each.length_eq, fun i left right =>
              ih _ (List.get_mem _ _) ((List.forall₂_iff_get.mp each).2 i left right)⟩
          refine ⟨congrArg (· + 1) (depthItems_congr (shaped.imp fun _ _ => And.left)), fun ordered => ?_⟩
          refine orderedItems_iff.mpr fun item member => ?_
          obtain ⟨i, below, rfl⟩ := List.mem_iff_get.mp member
          have left : (i : Nat) < items.length := by
            rw [each.length_eq]
            exact i.2
          exact ((List.forall₂_iff_get.mp shaped).2 i left i.2).2 (orderedItems_iff.mp ordered _ (List.get_mem _ _))
  | obj members ih =>
      intro w normal
      simp only [normalize] at normal
      cases read : normalizeMembers members with
      | error e =>
          rw [read] at normal
          cases normal
      | ok members' =>
          rw [read] at normal
          cases normal
          have each := normalizeMembers_ok.mp read
          have shaped : List.Forall₂ (fun a b => b.2.depth = a.2.depth ∧ (a.2.Ordered → b.2.Ordered)) members members' :=
            List.forall₂_iff_get.mpr ⟨each.length_eq, fun i left right =>
              ih _ (List.get_mem _ _) ((List.forall₂_iff_get.mp each).2 i left right).2⟩
          refine ⟨congrArg (· + 1) (depthMembers_congr (shaped.imp fun _ _ => And.left)), ?_⟩
          rintro ⟨ascending, inner⟩
          refine ⟨ascending_congr (keys_normal each) ascending, orderedMembers_iff.mpr fun m member => ?_⟩
          obtain ⟨i, below, rfl⟩ := List.mem_iff_get.mp member
          have left : (i : Nat) < members.length := by
            rw [each.length_eq]
            exact i.2
          exact ((List.forall₂_iff_get.mp shaped).2 i left i.2).2 (orderedMembers_iff.mp inner _ (List.get_mem _ _))

theorem finite_of_normalize {n : Number} (normal : normalizeNumber n = .ok n) : n.Finite := by
  cases n with
  | int value => trivial
  | float bits =>
      intro infinite
      simp only [normalizeNumber, normalizeF64, if_pos infinite] at normal
      cases normal

/-- Members with new keys, put into a map. -/
theorem insertAll_perm {members values : List (String × Json)}
    (distinct : ((values ++ members).map Prod.fst).Nodup) :
    (members.foldl (fun vs m => insertMember m.1 m.2 vs) values).Perm (values ++ members) := by
  induction members generalizing values with
  | nil => simp
  | cons m rest ih =>
      have fresh : ∀ other ∈ values, other.1 ≠ m.1 := by
        intro other member same
        rw [List.map_append, List.nodup_append] at distinct
        exact distinct.2.2 _ (List.mem_map_of_mem member) _ (List.mem_map_of_mem List.mem_cons_self) same
      have inserted : (insertMember m.1 m.2 values).Perm ((m.1, m.2) :: values) :=
        insertMember_perm fresh
      have moved : (insertMember m.1 m.2 values ++ rest).Perm (values ++ m :: rest) :=
        (inserted.append_right rest).trans List.perm_middle.symm
      rw [List.foldl_cons]
      exact (ih ((moved.map Prod.fst).nodup_iff.mpr distinct)).trans moved

theorem insertAll_ascending {members values : List (String × Json)} (ascending : Ascending values) :
    Ascending (members.foldl (fun vs m => insertMember m.1 m.2 vs) values) := by
  induction members generalizing values with
  | nil => exact ascending
  | cons m rest ih =>
      rw [List.foldl_cons]
      refine ih ?_
      rw [insertMember_eq]
      exact ascending.insertEntry

theorem Ascending.distinct {members : List (String × Json)} (ascending : Ascending members) :
    (members.map Prod.fst).Nodup :=
  List.pairwise_map.mpr (ascending.imp fun before => before.ne)

/-- Putting the members of an object into a map in any order gives the object. -/
theorem insertAll_sorted {members shuffled : List (String × Json)} (ascending : Lib.Ascending members)
    (perm : shuffled.Perm members) :
    shuffled.foldl (fun vs m => insertMember m.1 m.2 vs) [] = members := by
  have distinct : (shuffled.map Prod.fst).Nodup :=
    (perm.map Prod.fst).nodup_iff.mpr (Ascending.distinct ascending)
  have same : (shuffled.foldl (fun vs m => insertMember m.1 m.2 vs) []).Perm ([] ++ shuffled) :=
    insertAll_perm (by simpa using distinct)
  refine (same.trans (by simpa using perm)).eq_of_pairwise ?_ (insertAll_ascending List.Pairwise.nil) ascending
  intro a b _ _ before after
  exact absurd before after.not_gt

theorem ofJson_complete {w : Json} : w.normalize = .ok w → (Raw.ofJson w).Complete := by
  induction w using induction with
  | null | bool _ | str _ =>
      intro _
      rw [Raw.ofJson]
      trivial
  | num n =>
      intro normal
      simp only [normalize] at normal
      cases number : normalizeNumber n with
      | error e =>
          rw [number] at normal
          cases normal
      | ok m =>
          rw [number] at normal
          cases normal
          exact finite_of_normalize number
  | arr items ih =>
      intro normal
      have each := normalize_items_self normal
      refine ⟨Raw.completeItems_iff.mpr fun raw member => ?_, rfl⟩
      rw [Raw.ofItems_eq] at member
      obtain ⟨item, inside, rfl⟩ := List.mem_map.mp member
      exact ih item inside (each item inside)
  | obj members ih =>
      intro normal
      have each := normalize_members_self normal
      refine ⟨Raw.completeMembers_iff.mpr fun m member => ?_, rfl⟩
      rw [List.mem_insertionSort, Raw.ofMembers_eq] at member
      obtain ⟨m', inside, rfl⟩ := List.mem_map.mp member
      exact ih m' inside (each m' inside)

theorem ofJson_unique {w : Json} : w.Ordered → (Raw.ofJson w).Unique := by
  induction w using induction with
  | null | bool _ | str _ | num _ =>
      intro _
      rw [Raw.ofJson]
      trivial
  | arr items ih =>
      intro ordered
      refine Raw.uniqueItems_iff.mpr fun raw member => ?_
      rw [Raw.ofItems_eq] at member
      obtain ⟨item, inside, rfl⟩ := List.mem_map.mp member
      exact ih item inside (orderedItems_iff.mp ordered item inside)
  | obj members ih =>
      rintro ⟨ascending, each⟩
      refine ⟨?_, Raw.uniqueMembers_iff.mpr fun m member => ?_⟩
      · have perm := (List.perm_insertionSort keyOrder (Raw.ofMembers members)).map Prod.fst
        rw [perm.nodup_iff, Raw.ofMembers_eq, List.map_map]
        exact Ascending.distinct ascending
      · rw [List.mem_insertionSort, Raw.ofMembers_eq] at member
        obtain ⟨m', inside, rfl⟩ := List.mem_map.mp member
        exact ih m' inside (orderedMembers_iff.mp each m' inside)

/-- The text of a value denotes the value. -/
theorem ofJson_value {w : Json} : w.Ordered → (Raw.ofJson w).value = w := by
  induction w using induction with
  | null | bool _ | str _ | num _ => exact fun _ => rfl
  | arr items ih =>
      intro ordered
      rw [Raw.ofJson, Raw.value, Raw.itemValues_eq, Raw.ofItems_eq, List.map_map]
      refine congrArg Json.arr ?_
      conv_rhs => rw [← List.map_id items]
      exact List.map_congr_left fun item inside => ih item inside (orderedItems_iff.mp ordered item inside)
  | obj members ih =>
      rintro ⟨ascending, each⟩
      rw [Raw.ofJson, Raw.value, Raw.collect_eq]
      refine congrArg Json.obj (insertAll_sorted ascending ?_)
      refine ((List.perm_insertionSort keyOrder (Raw.ofMembers members)).map _).trans ?_
      rw [Raw.ofMembers_eq, List.map_map]
      have same : members.map ((fun m : String × Raw => (m.1, m.2.value)) ∘ fun m => (m.1, Raw.ofJson m.2)) =
          members := by
        conv_rhs => rw [← List.map_id members]
        refine List.map_congr_left fun m inside => ?_
        simp only [Function.comp_apply, ih m inside (orderedMembers_iff.mp each m inside), id]
      rw [same]

end Json

end Metewand
