import Mathlib.Data.List.Basic
import Mathlib.Data.List.Forall2
import Mathlib.Data.List.Range
import Mathlib.Tactic.Ring

/-!
# Fixed-size groups of a list

`chunks n` cuts a list into groups of `n`, the last one possibly shorter, and `stepBy n`
keeps every `n`-th element.  A list is given by its length and the element at each
position; when the length is `m * n`, the groups are full and there are `m` of them
(`chunks_map_range`), each headed by the element `stepBy` keeps (`stepBy_map_range`).
-/

namespace Metewand.Lib

variable {α β : Type}

/-- The number of groups of `n` that a length takes up. -/
def groups (length n : Nat) : Nat := (length + n - 1) / n

/-- Groups of `n`; the last one may be shorter. -/
def chunks (n : Nat) (as : List α) : List (List α) :=
  (List.range (groups as.length n)).map fun k => (as.drop (k * n)).take n

/-- Every `n`-th element, from the first. -/
def stepBy (n : Nat) (as : List α) : List α :=
  (List.range (groups as.length n)).filterMap fun k => as[k * n]?

/-- Groups that reach far enough make up the list. -/
theorem flatten_groups (n : Nat) (as : List α) (k : Nat) :
    ((List.range k).map fun i => (as.drop (i * n)).take n).flatten = as.take (k * n) := by
  induction k with
  | zero => simp
  | succ k ih =>
      rw [List.range_succ, List.map_append, List.flatten_append, ih, List.map_singleton,
        List.flatten_singleton, Nat.succ_mul, List.take_add]

/-- The groups of a list make up the list. -/
theorem flatten_chunks {n : Nat} (positive : 0 < n) (as : List α) : (chunks n as).flatten = as := by
  rw [chunks, flatten_groups]
  refine List.take_of_length_le ?_
  have covered : as.length + n - 1 < n * ((as.length + n - 1) / n + 1) := Nat.lt_mul_div_succ _ positive
  rw [groups, Nat.mul_comm]
  rw [Nat.mul_succ] at covered
  omega

theorem groups_mul {m n : Nat} (positive : 0 < n) : groups (m * n) n = m := by
  obtain ⟨p, rfl⟩ := Nat.exists_eq_succ_of_ne_zero positive.ne'
  have split : m * (p + 1) + (p + 1) - 1 = p + (p + 1) * m := by
    rw [Nat.mul_comm m]
    omega
  rw [groups, split, Nat.add_mul_div_left _ _ positive, Nat.div_eq_of_lt (Nat.lt_succ_self p),
    Nat.zero_add]

theorem mul_add_lt {m n k j : Nat} (group : k < m) (inside : j < n) : k * n + j < m * n := by
  calc k * n + j < k * n + n := Nat.add_lt_add_left inside _
    _ = (k + 1) * n := (Nat.succ_mul k n).symm
    _ ≤ m * n := Nat.mul_le_mul_right n group

/-- A list is its elements in the order of their positions. -/
theorem eq_map_getD [Inhabited α] (as : List α) :
    as = (List.range as.length).map fun i => as.getD i default := by
  refine List.ext_getElem (by simp) fun i inside _ => ?_
  simp [inside]

theorem filterMap_eq_map {f : α → Option β} {g : α → β} {as : List α}
    (each : ∀ a ∈ as, f a = some (g a)) : as.filterMap f = as.map g := by
  induction as with
  | nil => rfl
  | cons a as ih =>
      rw [List.filterMap_cons_some (each a List.mem_cons_self), List.map_cons,
        ih fun b member => each b (List.mem_cons_of_mem _ member)]

/-! ## Joining groups -/

theorem length_flatten_of_full {n : Nat} {gs : List (List α)} (full : ∀ g ∈ gs, g.length = n) :
    gs.flatten.length = gs.length * n := by
  induction gs with
  | nil => simp
  | cons g gs ih =>
      rw [List.flatten_cons, List.length_append, full g List.mem_cons_self,
        ih fun h member => full h (List.mem_cons_of_mem _ member), List.length_cons, Nat.succ_mul,
        Nat.add_comm]

theorem take_drop_flatten {n k : Nat} {gs : List (List α)} (full : ∀ g ∈ gs, g.length = n)
    (inside : k < gs.length) : (gs.flatten.drop (k * n)).take n = gs[k] := by
  induction gs generalizing k with
  | nil => exact absurd inside (Nat.not_lt_zero k)
  | cons g gs ih =>
      have head : g.length = n := full g List.mem_cons_self
      have tail : ∀ h ∈ gs, h.length = n := fun h member => full h (List.mem_cons_of_mem _ member)
      cases k with
      | zero => simp [← head]
      | succ k =>
          have below : k < gs.length := Nat.lt_of_succ_lt_succ inside
          rw [List.flatten_cons, Nat.succ_mul, Nat.add_comm, ← List.drop_drop, ← head,
            List.drop_left, head, ih tail below, List.getElem_cons_succ]

/-- Cutting full groups apart again. -/
theorem chunks_flatten {n : Nat} (positive : 0 < n) {gs : List (List α)}
    (full : ∀ g ∈ gs, g.length = n) : chunks n gs.flatten = gs := by
  rw [chunks, length_flatten_of_full full, groups_mul positive]
  refine List.ext_getElem (by simp) fun k _ inside => ?_
  rw [List.getElem_map, List.getElem_range]
  exact take_drop_flatten full inside

/-- A predicate that is constant on each group selects whole groups. -/
theorem filter_flatMap_of {f : β → List α} {p : α → Bool} {q : β → Bool} {gs : List β}
    (each : ∀ g ∈ gs, ∀ a ∈ f g, p a = q g) : (gs.flatMap f).filter p = (gs.filter q).flatMap f := by
  induction gs with
  | nil => rfl
  | cons g gs ih =>
      have tail := ih fun h member => each h (List.mem_cons_of_mem _ member)
      rw [List.flatMap_cons, List.filter_append, tail]
      have head := each g List.mem_cons_self
      cases selected : q g with
      | true =>
          rw [List.filter_cons_of_pos selected, List.flatMap_cons,
            List.filter_eq_self.mpr fun a member => (head a member).trans selected]
      | false =>
          rw [List.filter_cons_of_neg (by simp [selected]),
            List.filter_eq_nil_iff.mpr fun a member => by simp [head a member, selected],
            List.nil_append]
/-! ## Mapping and dropping -/

/-- Mapping and dropping twice is mapping and dropping once. -/
theorem filter_map_filter_map {f : α → α} {p : α → Bool} {as : List α}
    (again : ∀ a ∈ as, p (f a) = true → f (f a) = f a) :
    (((as.map f).filter p).map f).filter p = (as.map f).filter p := by
  have fixed : ((as.map f).filter p).map f = (as.map f).filter p := by
    refine (List.map_congr_left fun b member => ?_).trans (List.map_id _)
    obtain ⟨inside, held⟩ := List.mem_filter.mp member
    obtain ⟨a, within, rfl⟩ := List.mem_map.mp inside
    exact again a within held
  rw [fixed, List.filter_filter]
  simp only [Bool.and_self]

theorem sublistForall₂_filter_map {f : α → α} {p : α → Bool} {R : α → α → Prop} {as : List α}
    (each : ∀ a ∈ as, p (f a) = true → R (f a) a) :
    List.SublistForall₂ R ((as.map f).filter p) as := by
  induction as with
  | nil => exact .nil
  | cons a as ih =>
      have rest := ih fun b member => each b (List.mem_cons_of_mem _ member)
      rw [List.map_cons]
      cases kept : p (f a) with
      | true =>
          rw [List.filter_cons_of_pos kept]
          exact .cons (each a List.mem_cons_self kept) rest
      | false =>
          rw [List.filter_cons_of_neg (Bool.eq_false_iff.mp kept)]
          exact .cons_right rest

section Full

variable {m n : Nat} (position : Nat → α)

/-- The groups of a list of `m * n` elements. -/
theorem chunks_map_range (positive : 0 < n) :
    chunks n ((List.range (m * n)).map position) =
      (List.range m).map fun k => (List.range n).map fun j => position (k * n + j) := by
  rw [chunks, List.length_map, List.length_range, groups_mul positive]
  refine List.map_congr_left fun k member => ?_
  have group := List.mem_range.mp member
  have room : n ≤ m * n - k * n := by
    rw [← Nat.sub_mul]
    exact Nat.le_mul_of_pos_left n (by omega)
  refine List.ext_getElem (by simp [room]) fun j _ _ => ?_
  simp

/-- The heads of those groups. -/
theorem stepBy_map_range (positive : 0 < n) :
    stepBy n ((List.range (m * n)).map position) = (List.range m).map fun k => position (k * n) := by
  rw [stepBy, List.length_map, List.length_range, groups_mul positive]
  refine filterMap_eq_map fun k member => ?_
  have inside : k * n < m * n := mul_add_lt (List.mem_range.mp member) positive
  simp [inside]

/-- The groups make up the list. -/
theorem flatMap_groups :
    ((List.range m).flatMap fun k => (List.range n).map fun j => position (k * n + j)) =
      (List.range (m * n)).map position := by
  induction m with
  | zero => simp
  | succ m ih =>
      rw [List.range_succ, List.flatMap_append, ih, Nat.succ_mul, List.range_add, List.map_append]
      simp

/-- Positions in order are pairs of quotient and remainder in order. -/
theorem map_divMod (positive : 0 < n) :
    ((List.range (m * n)).map fun i => (i / n, i % n)) =
      (List.range m).flatMap fun k => (List.range n).map fun j => (k, j) := by
  rw [← flatMap_groups]
  refine List.flatMap_congr fun k _ => List.map_congr_left fun j member => ?_
  have small := List.mem_range.mp member
  rw [Nat.mul_comm k n, Nat.mul_add_div positive, Nat.div_eq_of_lt small, Nat.mul_add_mod,
    Nat.mod_eq_of_lt small, Nat.add_zero]

end Full

end Metewand.Lib
