import Mathlib.Algebra.Order.Ring.Int
import Mathlib.Data.List.Forall2
import Mathlib.Data.List.Nodup

/-!
# Tables

A table is the list of its rows in insertion order.

* `Keyed key rows`: the rows carry a primary or unique key.
* `Extends rel rows rows'`: every old row is still there, at its place and moved
  along `rel`, and new rows follow.  An insert-only table extends along equality.
-/

namespace Metewand.Lib

variable {α β κ : Type}

/-! ## Keys -/

/-- No two rows share a key. -/
def Keyed (key : α → κ) (rows : List α) : Prop := (rows.map key).Nodup

namespace Keyed

variable {key : α → κ} {rows : List α} {a b row : α}

theorem nil : Keyed key ([] : List α) := List.nodup_nil

theorem append_one (keyed : Keyed key rows) (new : ∀ r ∈ rows, key r ≠ key row) :
    Keyed key (rows ++ [row]) := by
  unfold Keyed at *
  rw [List.map_append, List.nodup_append]
  refine ⟨keyed, by simp, ?_⟩
  intro k old l added
  obtain ⟨r, member, rfl⟩ := List.mem_map.mp old
  rw [List.map_singleton, List.mem_singleton] at added
  subst added
  exact new r member

theorem eq_of_key (keyed : Keyed key rows) (left : a ∈ rows) (right : b ∈ rows)
    (same : key a = key b) : a = b :=
  List.inj_on_of_nodup_map keyed left right same

theorem map {f : α → α} (same : ∀ a, key (f a) = key a) (keyed : Keyed key rows) :
    Keyed key (rows.map f) := by
  unfold Keyed at *
  rw [List.map_map]
  have keys : key ∘ f = key := funext same
  rw [keys]
  exact keyed

theorem filter (p : α → Bool) (keyed : Keyed key rows) : Keyed key (rows.filter p) :=
  keyed.sublist (List.filter_sublist.map key)

/-- A search for a row's key finds the row. -/
theorem find_of_mem [DecidableEq κ] (keyed : Keyed key rows) (member : a ∈ rows) :
    rows.find? (fun r => key r = key a) = some a := by
  cases found : rows.find? (fun r => key r = key a) with
  | none =>
      have missing := List.find?_eq_none.mp found a member
      simp at missing
  | some b =>
      have same : key b = key a := by simpa using List.find?_some found
      rw [keyed.eq_of_key (List.mem_of_find?_eq_some found) member same]

/-- Selecting by a row's key leaves the row. -/
theorem filter_of_mem [DecidableEq κ] (keyed : Keyed key rows) (member : a ∈ rows) :
    rows.filter (fun r => key r = key a) = [a] := by
  induction rows with
  | nil => exact absurd member List.not_mem_nil
  | cons first rest ih =>
      obtain ⟨new, distinct⟩ := List.nodup_cons.mp keyed
      rcases List.mem_cons.mp member with rfl | later
      · have none : rest.filter (fun r => decide (key r = key a)) = [] := by
          refine List.filter_eq_nil_iff.mpr fun r inside => ?_
          have differs : key r ≠ key a := fun same => new (same ▸ List.mem_map_of_mem inside)
          simpa using differs
        rw [List.filter_cons_of_pos (by simp), none]
      · have differs : key first ≠ key a := fun same => new (same ▸ List.mem_map_of_mem later)
        rw [List.filter_cons_of_neg (by simpa using differs)]
        exact ih distinct later

/-- At most one row has a given key. -/
theorem filter_length_le_one [DecidableEq κ] (keyed : Keyed key rows) (k : κ) :
    (rows.filter fun r => key r = k).length ≤ 1 := by
  have unique := keyed.filter fun r => decide (key r = k)
  match split : rows.filter fun r => decide (key r = k) with
  | [] => exact Nat.zero_le 1
  | [a] => exact Nat.le_refl 1
  | a :: b :: rest =>
      have left : a ∈ rows.filter fun r => decide (key r = k) := by
        rw [split]
        exact List.mem_cons_self
      have right : b ∈ rows.filter fun r => decide (key r = k) := by
        rw [split]
        exact List.mem_cons_of_mem _ List.mem_cons_self
      have same : key a = key b := (of_decide_eq_true (List.mem_filter.mp left).2).trans
        (of_decide_eq_true (List.mem_filter.mp right).2).symm
      rw [split] at unique
      exact absurd (by rw [same]; exact List.mem_cons_self) (List.nodup_cons.mp unique).1

/-- The rows with a present key are that one row. -/
theorem filter_eq_singleton [DecidableEq κ] (keyed : Keyed key rows) (member : a ∈ rows) :
    rows.filter (fun r => key r = key a) = [a] := by
  have inside : a ∈ rows.filter fun r => key r = key a :=
    List.mem_filter.mpr ⟨member, decide_eq_true (Eq.refl (key a))⟩
  match split : rows.filter fun r => decide (key r = key a) with
  | [] =>
      rw [split] at inside
      exact absurd inside List.not_mem_nil
  | [b] =>
      rw [split] at inside
      rw [List.mem_singleton.mp inside]
  | b :: c :: rest =>
      have few := keyed.filter_length_le_one (key a)
      rw [split, List.length_cons, List.length_cons] at few
      omega

/-- A sum over a keyed table that only counts one key. -/
theorem sum_ite [DecidableEq κ] (keyed : Keyed key rows) (k : κ) (f : α → Int) :
    (rows.map fun r => if key r = k then f r else 0).sum =
      ((rows.find? fun r => key r = k).map f).getD 0 := by
  induction rows with
  | nil => exact Eq.refl 0
  | cons r rest ih =>
      have tail : Keyed key rest := (List.nodup_cons.mp keyed).2
      rw [List.map_cons, List.sum_cons, ih tail, List.find?_cons]
      by_cases here : key r = k
      · have gone : rest.find? (fun r => key r = k) = none := by
          refine List.find?_eq_none.mpr fun x member => ?_
          have other : key x ≠ key r := fun same =>
            (List.nodup_cons.mp keyed).1 (same ▸ List.mem_map_of_mem member)
          simpa [here] using other
        simp [here, gone]
      · simp [here]

end Keyed

/-! ## Joins -/

/-- A join of at most one row with at most one row each. -/
theorem length_flatMap_le_one {l : List α} {f : α → List β} (one : l.length ≤ 1)
    (each : ∀ x ∈ l, (f x).length ≤ 1) : (l.flatMap f).length ≤ 1 := by
  match l, one with
  | [], _ => exact Nat.zero_le 1
  | [x], _ =>
      rw [List.flatMap_singleton]
      exact each x List.mem_cons_self

theorem length_flatMap_le {l : List α} {f : α → List β} (each : ∀ x ∈ l, (f x).length ≤ 1) :
    (l.flatMap f).length ≤ l.length := by
  induction l with
  | nil => exact Nat.le_refl 0
  | cons x rest ih =>
      have head := each x List.mem_cons_self
      have tail := ih fun y member => each y (List.mem_cons_of_mem _ member)
      rw [List.flatMap_cons, List.length_append, List.length_cons]
      omega

/-- A join that yields as many rows as it starts from misses none of them. -/
theorem flatMap_ne_nil_of_length {l : List α} {f : α → List β}
    (each : ∀ x ∈ l, (f x).length ≤ 1) (full : (l.flatMap f).length = l.length) :
    ∀ x ∈ l, f x ≠ [] := by
  induction l with
  | nil => exact fun _ member => absurd member List.not_mem_nil
  | cons x rest ih =>
      have later := fun y (member : y ∈ rest) => each y (List.mem_cons_of_mem _ member)
      have head := each x List.mem_cons_self
      have tail := length_flatMap_le later
      rw [List.flatMap_cons, List.length_append, List.length_cons] at full
      intro y member
      rcases List.mem_cons.mp member with rfl | older
      · intro empty
        rw [empty, List.length_nil] at full
        omega
      · exact ih later (by omega) y older

/-! ## Growth -/

/-- Old rows keep their places and move along `rel`; new rows follow. -/
def Extends (rel : α → α → Prop) (rows rows' : List α) : Prop :=
  ∃ kept new, rows' = kept ++ new ∧ List.Forall₂ rel rows kept

namespace Extends

variable {rel : α → α → Prop} {rows rows' rows'' : List α} {a : α}

theorem forall₂_compose (compose : ∀ {a b c}, rel a b → rel b c → rel a c) {xs ys zs : List α}
    (first : List.Forall₂ rel xs ys) (second : List.Forall₂ rel ys zs) :
    List.Forall₂ rel xs zs := by
  induction first generalizing zs with
  | nil =>
      cases second
      exact .nil
  | cons head _ ih =>
      cases second with
      | cons head' tail' => exact .cons (compose head head') (ih tail')

theorem rfl (refl : ∀ a, rel a a) : Extends rel rows rows :=
  ⟨rows, [], (List.append_nil _).symm, List.forall₂_same.mpr fun a _ => refl a⟩

theorem append (refl : ∀ a, rel a a) (new : List α) : Extends rel rows (rows ++ new) :=
  ⟨rows, new, Eq.refl _, List.forall₂_same.mpr fun a _ => refl a⟩

theorem map {f : α → α} (moves : ∀ a ∈ rows, rel a (f a)) : Extends rel rows (rows.map f) := by
  refine ⟨rows.map f, [], (List.append_nil _).symm, ?_⟩
  rw [List.forall₂_map_right_iff]
  exact List.forall₂_same.mpr moves

theorem trans (compose : ∀ {a b c}, rel a b → rel b c → rel a c)
    (first : Extends rel rows rows') (second : Extends rel rows' rows'') :
    Extends rel rows rows'' := by
  obtain ⟨kept, new, rfl, moved⟩ := first
  obtain ⟨kept', new', rfl, moved'⟩ := second
  have front : List.Forall₂ rel kept (kept'.take kept.length) :=
    (List.forall₂_take_append kept' kept new moved'.flip).flip
  refine ⟨kept'.take kept.length, kept'.drop kept.length ++ new', ?_, ?_⟩
  · rw [← List.append_assoc, List.take_append_drop]
  · exact forall₂_compose @compose moved front

/-- An old row lives on as one it is related to. -/
theorem mem (grown : Extends rel rows rows') (member : a ∈ rows) : ∃ b ∈ rows', rel a b := by
  obtain ⟨kept, new, rfl, moved⟩ := grown
  induction moved with
  | nil => cases member
  | @cons x y xs ys head _ ih =>
      rcases List.mem_cons.mp member with rfl | rest
      · exact ⟨y, by simp, head⟩
      · obtain ⟨b, inside, related⟩ := ih rest
        exact ⟨b, by simpa using Or.inr (List.mem_append.mp inside), related⟩

/-- What the relation keeps of a row, the old rows keep in order. -/
theorem map_eq {f : α → β} (keeps : ∀ {a b}, rel a b → f b = f a)
    (grown : Extends rel rows rows') : ∃ new, rows'.map f = rows.map f ++ new := by
  obtain ⟨kept, new, rfl, moved⟩ := grown
  refine ⟨new.map f, ?_⟩
  rw [List.map_append]
  congr 1
  induction moved with
  | nil => exact Eq.refl _
  | cons head _ ih => rw [List.map_cons, List.map_cons, keeps head, ih]

end Extends

/-- Appended rows leave the old ones where they were. -/
theorem mem_of_extends_eq {rows rows' : List α} {a : α} (grown : Extends Eq rows rows')
    (member : a ∈ rows) : a ∈ rows' := by
  obtain ⟨b, inside, rfl⟩ := grown.mem member
  exact inside

end Metewand.Lib
