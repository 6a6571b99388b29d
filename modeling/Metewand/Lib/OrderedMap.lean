import Mathlib.Data.List.Nodup
import Mathlib.Data.List.Sort
import Mathlib.Order.Defs.LinearOrder

/-!
# Ordered maps

A finite map kept as the list of its entries in ascending key order, with one entry for
each key.  `OrderedMap` carries that order as a field; two maps with the same lookups
are equal (`OrderedMap.ext_get`).

`insert` replaces the value of an existing key, and `extend` inserts every entry of a
second map, so the second map wins (`get_extend`).  `ofRows` is the map of rows under
their keys.
-/

namespace Metewand.Lib

variable {κ β : Type} [LinearOrder κ]

/-- The keys ascend. -/
def Ascending (entries : List (κ × β)) : Prop := entries.Pairwise fun a b => a.1 < b.1

/-- Ordered insertion; an existing entry with the key is replaced. -/
def insertEntry (key : κ) (value : β) : List (κ × β) → List (κ × β)
  | [] => [(key, value)]
  | (k, v) :: rest =>
      if key = k then (key, value) :: rest
      else if key < k then (key, value) :: (k, v) :: rest
      else (k, v) :: insertEntry key value rest

def lookupEntry (key : κ) : List (κ × β) → Option β
  | [] => none
  | (k, v) :: rest => if key = k then some v else lookupEntry key rest

section Entries

variable {key : κ} {value : β} {entries : List (κ × β)} {entry : κ × β}

theorem mem_insertEntry (member : entry ∈ insertEntry key value entries) :
    entry = (key, value) ∨ entry ∈ entries := by
  induction entries with
  | nil => exact .inl (List.mem_singleton.mp member)
  | cons first rest ih =>
      obtain ⟨k, v⟩ := first
      simp only [insertEntry] at member
      split at member
      · exact (List.mem_cons.mp member).imp_right (List.mem_cons_of_mem _)
      · split at member
        · exact List.mem_cons.mp member
        · rcases List.mem_cons.mp member with same | later
          · exact .inr (List.mem_cons.mpr (.inl same))
          · exact (ih later).imp_right (List.mem_cons_of_mem _)

theorem insertEntry_mem (key : κ) (value : β) (entries : List (κ × β)) :
    (key, value) ∈ insertEntry key value entries := by
  induction entries with
  | nil => exact List.mem_singleton_self _
  | cons first rest ih =>
      obtain ⟨k, v⟩ := first
      simp only [insertEntry]
      split
      · exact List.mem_cons_self
      · split
        · exact List.mem_cons_self
        · exact List.mem_cons_of_mem _ ih

theorem mem_insertEntry_of_mem (member : entry ∈ entries) (other : entry.1 ≠ key) :
    entry ∈ insertEntry key value entries := by
  induction entries with
  | nil => exact absurd member List.not_mem_nil
  | cons first rest ih =>
      obtain ⟨k, v⟩ := first
      simp only [insertEntry]
      split
      · rename_i same
        rcases List.mem_cons.mp member with rfl | later
        · exact absurd same.symm other
        · exact List.mem_cons_of_mem _ later
      · split
        · exact List.mem_cons_of_mem _ member
        · rcases List.mem_cons.mp member with rfl | later
          · exact List.mem_cons_self
          · exact List.mem_cons_of_mem _ (ih later)

theorem Ascending.insertEntry (ascending : Ascending entries) :
    Ascending (insertEntry key value entries) := by
  induction entries with
  | nil => exact List.pairwise_singleton _ _
  | cons first rest ih =>
      obtain ⟨k, v⟩ := first
      obtain ⟨above, tail⟩ := List.pairwise_cons.mp ascending
      simp only [Lib.insertEntry]
      split
      · rename_i same
        subst same
        exact List.pairwise_cons.mpr ⟨above, tail⟩
      · rename_i differs
        split
        · rename_i before
          refine List.pairwise_cons.mpr ⟨?_, ascending⟩
          intro entry member
          rcases List.mem_cons.mp member with rfl | later
          · exact before
          · exact before.trans (above entry later)
        · rename_i notBefore
          refine List.pairwise_cons.mpr ⟨?_, ih tail⟩
          intro entry member
          rcases mem_insertEntry member with rfl | later
          · exact lt_of_le_of_ne (not_lt.mp notBefore) (Ne.symm differs)
          · exact above entry later

/-- A key above all others goes to the end. -/
theorem insertEntry_append (above : ∀ entry ∈ entries, entry.1 < key) :
    insertEntry key value entries = entries ++ [(key, value)] := by
  induction entries with
  | nil => rfl
  | cons first rest ih =>
      obtain ⟨k, v⟩ := first
      have before : k < key := above _ List.mem_cons_self
      rw [insertEntry, if_neg before.ne', if_neg before.not_gt,
        ih fun entry member => above entry (List.mem_cons_of_mem _ member)]
      rfl

theorem lookup_insertEntry (key k : κ) (value : β) (entries : List (κ × β)) :
    lookupEntry k (insertEntry key value entries) =
      if k = key then some value else lookupEntry k entries := by
  induction entries with
  | nil => rfl
  | cons first rest ih =>
      obtain ⟨j, v⟩ := first
      simp only [insertEntry]
      by_cases same : key = j
      · subst same
        by_cases here : k = key
        · simp [lookupEntry, here]
        · simp [lookupEntry, here]
      · by_cases before : key < j
        · simp [lookupEntry, same, before]
        · by_cases there : k = j
          · subst there
            simp [lookupEntry, same, before, Ne.symm same]
          · simp [lookupEntry, same, before, there, ih]

theorem mem_of_lookup (found : lookupEntry key entries = some value) :
    (key, value) ∈ entries := by
  induction entries with
  | nil => cases found
  | cons first rest ih =>
      obtain ⟨k, v⟩ := first
      simp only [lookupEntry] at found
      split at found
      · rename_i same
        cases found
        rw [same]
        exact List.mem_cons_self
      · exact List.mem_cons_of_mem _ (ih found)

theorem exists_lookup (member : (key, value) ∈ entries) : ∃ other, lookupEntry key entries = some other := by
  induction entries with
  | nil => cases member
  | cons first rest ih =>
      obtain ⟨k, v⟩ := first
      by_cases same : key = k
      · exact ⟨v, if_pos same⟩
      · rcases List.mem_cons.mp member with here | later
        · exact absurd (congrArg Prod.fst here) same
        · obtain ⟨other, found⟩ := ih later
          exact ⟨other, (if_neg same).trans found⟩

theorem Ascending.lookup_of_mem (ascending : Ascending entries) (member : (key, value) ∈ entries) :
    lookupEntry key entries = some value := by
  induction entries with
  | nil => exact absurd member List.not_mem_nil
  | cons first rest ih =>
      obtain ⟨k, v⟩ := first
      obtain ⟨above, tail⟩ := List.pairwise_cons.mp ascending
      rcases List.mem_cons.mp member with same | later
      · cases same
        exact if_pos rfl
      · have before : k < key := above _ later
        exact (if_neg before.ne').trans (ih tail later)

theorem Ascending.lookup_eq_some (ascending : Ascending entries) :
    lookupEntry key entries = some value ↔ (key, value) ∈ entries :=
  ⟨mem_of_lookup, ascending.lookup_of_mem⟩

theorem Ascending.nodup (ascending : Ascending entries) : entries.Nodup :=
  ascending.imp fun before same => absurd (congrArg Prod.fst same) before.ne

/-- Ascending lists with the same lookups are equal. -/
theorem Ascending.ext {others : List (κ × β)} (ascending : Ascending entries)
    (ascending' : Ascending others)
    (same : ∀ key, lookupEntry key entries = lookupEntry key others) : entries = others := by
  have members : ∀ entry, entry ∈ entries ↔ entry ∈ others := by
    rintro ⟨key, value⟩
    rw [← ascending.lookup_eq_some, same, ascending'.lookup_eq_some]
  have perm : entries.Perm others :=
    (List.perm_ext_iff_of_nodup ascending.nodup ascending'.nodup).mpr members
  refine perm.eq_of_pairwise ?_ ascending ascending'
  intro a b _ _ before after
  exact absurd before after.not_gt

end Entries

/-- A finite map in ascending key order. -/
structure OrderedMap (κ β : Type) [LinearOrder κ] where
  entries : List (κ × β)
  ascending : Ascending entries

namespace OrderedMap

variable {key k : κ} {value : β} {m m' : OrderedMap κ β}

instance [DecidableEq β] : DecidableEq (OrderedMap κ β) := fun ⟨entries, _⟩ ⟨entries', _⟩ =>
  decidable_of_iff (entries = entries') (by rw [OrderedMap.mk.injEq])

def empty : OrderedMap κ β := ⟨[], .nil⟩

instance : EmptyCollection (OrderedMap κ β) := ⟨empty⟩

def get (m : OrderedMap κ β) (key : κ) : Option β := lookupEntry key m.entries

def keys (m : OrderedMap κ β) : List κ := m.entries.map Prod.fst

def insert (m : OrderedMap κ β) (key : κ) (value : β) : OrderedMap κ β :=
  ⟨insertEntry key value m.entries, m.ascending.insertEntry⟩

/-- Insert the entries of the second map. -/
def extend (m m' : OrderedMap κ β) : OrderedMap κ β :=
  m'.entries.foldl (fun map entry => map.insert entry.1 entry.2) m

/-- Remove a key. -/
def erase (m : OrderedMap κ β) (key : κ) : OrderedMap κ β :=
  ⟨m.entries.filter fun entry => entry.1 ≠ key, m.ascending.filter _⟩

def values (m : OrderedMap κ β) : List β := m.entries.map Prod.snd

/-- The map of rows under their keys. -/
def ofRows (key : β → κ) (rows : List β) : OrderedMap κ β :=
  rows.foldl (fun map row => map.insert (key row) row) ∅

@[simp]
theorem get_empty (key : κ) : (∅ : OrderedMap κ β).get key = none := rfl

theorem get_insert : (m.insert key value).get k = if k = key then some value else m.get k :=
  lookup_insertEntry key k value m.entries

theorem get_eq_some : m.get key = some value ↔ (key, value) ∈ m.entries :=
  m.ascending.lookup_eq_some

theorem mem_keys : key ∈ m.keys ↔ (m.get key).isSome := by
  constructor
  · intro member
    obtain ⟨⟨_, value⟩, inside, rfl⟩ := List.mem_map.mp member
    rw [get_eq_some.mpr inside]
    rfl
  · intro found
    obtain ⟨value, found⟩ := Option.isSome_iff_exists.mp found
    exact List.mem_map.mpr ⟨_, get_eq_some.mp found, rfl⟩

/-- Two maps with the same lookups are equal. -/
theorem ext_get (same : ∀ key, m.get key = m'.get key) : m = m' := by
  obtain ⟨entries, ascending⟩ := m
  obtain ⟨entries', ascending'⟩ := m'
  cases ascending.ext ascending' same
  rfl

private theorem get_inserts (entries : List (κ × β)) (ascending : Ascending entries)
    (m : OrderedMap κ β) (k : κ) :
    (entries.foldl (fun map entry => map.insert entry.1 entry.2) m).get k =
      (lookupEntry k entries).or (m.get k) := by
  induction entries generalizing m with
  | nil => rfl
  | cons first rest ih =>
      obtain ⟨key, value⟩ := first
      obtain ⟨above, tail⟩ := List.pairwise_cons.mp ascending
      rw [List.foldl_cons, ih tail, get_insert, lookupEntry]
      by_cases same : k = key
      · subst same
        have absent : lookupEntry k rest = none := by
          rw [Option.eq_none_iff_forall_ne_some]
          exact fun other found => lt_irrefl k (above (k, other) (mem_of_lookup found))
        rw [absent, if_pos rfl, if_pos rfl]
        rfl
      · rw [if_neg same, if_neg same]

/-- The second map wins. -/
theorem get_extend : (m.extend m').get k = (m'.get k).or (m.get k) :=
  get_inserts m'.entries m'.ascending m k

/-- The entries are the values of any ascending list of names that has all keys. -/
theorem entries_eq_filterMap {names : List κ} (ascending : names.Pairwise (· < ·))
    (complete : ∀ key, (m.get key).isSome → key ∈ names) :
    m.entries = names.filterMap fun key => (m.get key).map fun value => (key, value) := by
  have named : Ascending (names.filterMap fun key => (m.get key).map fun value => (key, value)) := by
    refine List.pairwise_filterMap.mpr (ascending.imp ?_)
    intro a b before x left y right
    obtain ⟨_, -, rfl⟩ := Option.map_eq_some_iff.mp left
    obtain ⟨_, -, rfl⟩ := Option.map_eq_some_iff.mp right
    exact before
  refine m.ascending.ext named fun key => Option.ext fun value => ?_
  rw [named.lookup_eq_some, m.ascending.lookup_eq_some, ← get_eq_some, List.mem_filterMap]
  constructor
  · intro found
    exact ⟨key, complete key (found ▸ rfl), by rw [found]; rfl⟩
  · rintro ⟨_, -, found⟩
    obtain ⟨_, found, same⟩ := Option.map_eq_some_iff.mp found
    cases same
    exact found

theorem get_erase : (m.erase key).get k = if k = key then none else m.get k := by
  refine Option.ext fun value => ?_
  rw [get_eq_some]
  unfold erase
  rw [List.mem_filter, ← get_eq_some]
  by_cases same : k = key
  · simp [same]
  · simp [same]

/-- Maps whose values name their keys are told apart by the values. -/
theorem ext_values {name : β → κ} (named : ∀ k v, m.get k = some v → name v = k)
    (named' : ∀ k v, m'.get k = some v → name v = k) (same : m.values = m'.values) : m = m' := by
  have entries : ∀ {m : OrderedMap κ β}, (∀ k v, m.get k = some v → name v = k) →
      m.entries = m.values.map fun v => (name v, v) := by
    intro m named
    unfold values
    rw [List.map_map]
    refine (List.map_id m.entries).symm.trans (List.map_congr_left fun entry member => ?_)
    have key := named entry.1 entry.2 (get_eq_some.mpr member)
    exact Prod.ext key.symm rfl
  refine ext_get fun k => ?_
  unfold get
  rw [entries named, entries named', same]

/-- A row is found under its key. -/
theorem get_ofRows {name : β → κ} {rows : List β} (distinct : (rows.map name).Nodup) :
    (ofRows name rows).get k = some value ↔ value ∈ rows ∧ name value = k := by
  have from_ : ∀ (rows : List β) (m : OrderedMap κ β), (rows.map name).Nodup →
      ((rows.foldl (fun map row => map.insert (name row) row) m).get k = some value ↔
        (value ∈ rows ∧ name value = k) ∨ k ∉ rows.map name ∧ m.get k = some value) := by
    intro rows
    induction rows with
    | nil => simp
    | cons row rest ih =>
        intro m distinct
        rw [List.map_cons] at distinct
        obtain ⟨new, others⟩ := List.nodup_cons.mp distinct
        rw [List.foldl_cons, ih _ others, get_insert, List.map_cons]
        by_cases here : k = name row
        · subst here
          have absent : ¬ (value ∈ rest ∧ name value = name row) := fun found =>
            new (List.mem_map.mpr ⟨value, found.1, found.2⟩)
          simp only [absent, new, not_false_eq_true, if_true, Option.some.injEq, true_and, false_or,
            List.mem_cons, true_or, not_true_eq_false, false_and, or_false]
          constructor
          · rintro rfl
            exact ⟨.inl rfl, rfl⟩
          · rintro ⟨rfl | later, key⟩
            · rfl
            · exact absurd ⟨later, key⟩ absent
        · have other : name row ≠ k := Ne.symm here
          simp only [here, if_false, List.mem_cons, false_or]
          constructor
          · rintro (⟨later, key⟩ | found)
            · exact .inl ⟨.inr later, key⟩
            · exact .inr found
          · rintro (⟨rfl | later, key⟩ | found)
            · exact absurd key other
            · exact .inl ⟨later, key⟩
            · exact .inr found
  unfold ofRows
  rw [from_ rows ∅ distinct]
  simp

end OrderedMap

end Metewand.Lib
