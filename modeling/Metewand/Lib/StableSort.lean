import Mathlib.Data.List.Nodup
import Mathlib.Order.Lattice

/-!
# Stable sorting of positions

The entries of a list with their positions, sorted by a key.  The sort is stable, so the
result is the one arrangement that ascends in the key and, among equal keys, in the position
(`rank_earlier`, `Earlier.unique`).  Hence sorting commutes with taking a sublist
(`rank_picked`), and with distinct keys the order does not depend on the listing
(`rank_congr`).
-/

namespace Metewand.Lib

variable {α κ : Type} [LinearOrder κ]

/-- The entries in the order of their keys. -/
def rank (key : α → κ) (as : List α) : List (α × Nat) :=
  as.zipIdx.mergeSort fun a b => decide (key a.1 ≤ key b.1)

/-- A smaller key, or the same key at an earlier position. -/
def Earlier (key : α → κ) (a b : α × Nat) : Prop :=
  key a.1 < key b.1 ∨ key a.1 = key b.1 ∧ a.2 < b.2

section Order

variable {key : α → κ} {as bs : List α}

theorem Earlier.asymm {a b : α × Nat} (before : Earlier key a b) : ¬ Earlier key b a := by
  rintro (less | ⟨same, later⟩)
  · rcases before with less' | ⟨same', -⟩
    · exact lt_asymm less less'
    · exact ne_of_gt less same'
  · rcases before with less' | ⟨-, later'⟩
    · exact ne_of_gt less' same
    · exact Nat.lt_asymm later later'

/-- Two arrangements of the same entries in this order are equal. -/
theorem Earlier.unique {l l' : List (α × Nat)} (perm : l.Perm l')
    (sorted : l.Pairwise (Earlier key)) (sorted' : l'.Pairwise (Earlier key)) : l = l' :=
  perm.eq_of_pairwise (fun _ _ _ _ before after => absurd after before.asymm) sorted sorted'

theorem rank_perm (key : α → κ) (as : List α) : (rank key as).Perm as.zipIdx :=
  List.mergeSort_perm _ _

theorem zipIdx_ascending (as : List α) (n : Nat) :
    (as.zipIdx n).Pairwise fun a b => a.2 < b.2 := by
  induction as generalizing n with
  | nil => exact .nil
  | cons a rest ih =>
      rw [List.zipIdx_cons]
      refine List.pairwise_cons.mpr ⟨fun entry member => ?_, ih (n + 1)⟩
      exact (List.mem_zipIdx member).1

/-- Two members in the order of the list make a sublist. -/
theorem pair_sublist {β : Type} {R : β → β → Prop} (asymm : ∀ {a b}, R a b → ¬ R b a) {l : List β}
    (sorted : l.Pairwise R) {a b : β} (left : a ∈ l) (right : b ∈ l) (before : R a b) :
    List.Sublist [a, b] l := by
  induction sorted with
  | nil => exact absurd left List.not_mem_nil
  | @cons c rest first _ ih =>
      rcases List.mem_cons.mp left with rfl | left
      · rcases List.mem_cons.mp right with rfl | right
        · exact absurd before (asymm before)
        · exact .cons_cons _ (List.singleton_sublist.mpr right)
      · rcases List.mem_cons.mp right with same | right
        · exact absurd (first a left) (same ▸ asymm before)
        · exact (ih left right).cons _

/-- No two members of a list without repetitions stand in both orders. -/
theorem not_pair_swapped {β : Type} {l : List β} (distinct : l.Nodup) {a b : β}
    (forward : List.Sublist [a, b] l) : ¬ List.Sublist [b, a] l := by
  intro backward
  induction distinct with
  | nil => cases forward
  | @cons c rest fresh _ ih =>
      rcases List.sublist_cons_iff.mp forward with later | ⟨tail, head, inside⟩
      · rcases List.sublist_cons_iff.mp backward with later' | ⟨tail', head', inside'⟩
        · exact ih later later'
        · obtain ⟨rfl, rfl⟩ := List.cons_eq_cons.mp head'
          exact fresh _ (later.mem (by simp)) rfl
      · obtain ⟨rfl, rfl⟩ := List.cons_eq_cons.mp head
        have member : b ∈ rest := inside.mem (by simp)
        rcases List.sublist_cons_iff.mp backward with later' | ⟨tail', head', inside'⟩
        · exact fresh _ (later'.mem (by simp)) rfl
        · obtain ⟨rfl, rfl⟩ := List.cons_eq_cons.mp head'
          exact fresh _ member rfl

theorem rank_earlier (key : α → κ) (as : List α) : (rank key as).Pairwise (Earlier key) := by
  have trans : ∀ a b c : α × Nat, decide (key a.1 ≤ key b.1) = true → decide (key b.1 ≤ key c.1) = true →
      decide (key a.1 ≤ key c.1) = true := by
    intro a b c
    simpa using le_trans
  have total : ∀ a b : α × Nat, (decide (key a.1 ≤ key b.1) || decide (key b.1 ≤ key a.1)) = true := by
    intro a b
    simpa using le_total _ _
  have sorted := List.pairwise_mergeSort trans total as.zipIdx
  have listed := zipIdx_ascending as 0
  have distinct : (rank key as).Nodup :=
    (rank_perm key as).nodup_iff.mpr (listed.imp fun less same => by rw [same] at less; exact Nat.lt_irrefl _ less)
  refine List.pairwise_iff_forall_sublist.mpr fun {a b} pair => ?_
  have le : key a.1 ≤ key b.1 := by
    simpa using List.pairwise_iff_forall_sublist.mp sorted pair
  rcases lt_or_eq_of_le le with less | same
  · exact .inl less
  · refine .inr ⟨same, Nat.lt_of_not_le fun back => ?_⟩
    have left : a ∈ as.zipIdx := (rank_perm key as).mem_iff.mp (pair.mem (by simp))
    have right : b ∈ as.zipIdx := (rank_perm key as).mem_iff.mp (pair.mem (by simp))
    rcases Nat.lt_or_eq_of_le back with later | position
    · -- the sort would have kept the listing order of equal keys
      have swapped := pair_sublist (fun less => Nat.lt_asymm less) listed right left later
      exact not_pair_swapped distinct pair
        (List.pair_sublist_mergeSort trans total (by simp [same]) swapped)
    · have equal : a = b := by
        have atA := List.mem_zipIdx_iff_getElem?.mp left
        have atB := List.mem_zipIdx_iff_getElem?.mp right
        rw [position] at atB
        exact Prod.ext (Option.some.inj (atA.symm.trans atB)) position.symm
      subst equal
      exact not_pair_swapped distinct pair pair

/-! ## Sublists -/

/-- The entries at some positions. -/
def picked (as : List α) (positions : List Nat) : List α := positions.filterMap fun i => as[i]?

theorem picked_getElem? {positions : List Nat} (inside : ∀ i ∈ positions, i < as.length) (k : Nat) :
    (picked as positions)[k]? = (positions[k]?).bind fun i => as[i]? := by
  unfold picked
  induction positions generalizing k with
  | nil => rfl
  | cons i rest ih =>
      obtain ⟨first, others⟩ := List.forall_mem_cons.mp inside
      rw [List.filterMap_cons, List.getElem?_eq_getElem first]
      cases k with
      | zero =>
          rw [List.getElem?_cons_zero, List.getElem?_cons_zero, Option.bind_some,
            List.getElem?_eq_getElem first]
      | succ k => exact ih others k

theorem picked_length {positions : List Nat} (inside : ∀ i ∈ positions, i < as.length) :
    (picked as positions).length = positions.length := by
  unfold picked
  induction positions with
  | nil => rfl
  | cons i rest ih =>
      obtain ⟨first, others⟩ := List.forall_mem_cons.mp inside
      rw [List.filterMap_cons, List.getElem?_eq_getElem first]
      exact congrArg (· + 1) (ih others)

/-- An entry of the sublist at the position it has in the whole list. -/
def relocate (positions : List Nat) (entry : α × Nat) : α × Nat :=
  (entry.1, (positions[entry.2]?).getD 0)

theorem relocate_mem {positions : List Nat} (inside : ∀ i ∈ positions, i < as.length)
    {entry : α × Nat} (member : entry ∈ (picked as positions).zipIdx) :
    ∃ i, positions[entry.2]? = some i ∧ as[i]? = some entry.1 ∧
      relocate positions entry = (entry.1, i) := by
  have found := List.mem_zipIdx_iff_getElem?.mp member
  rw [picked_getElem? inside] at found
  obtain ⟨i, position, value⟩ := Option.bind_eq_some_iff.mp found
  exact ⟨i, position, value, by rw [relocate, position]; rfl⟩

/-- Sorting a sublist is restricting the sorted whole. -/
theorem rank_picked (key : α → κ) {positions : List Nat} (ascending : positions.Pairwise (· < ·))
    (inside : ∀ i ∈ positions, i < as.length) :
    (rank key (picked as positions)).map (relocate positions) =
      (rank key as).filter fun entry => entry.2 ∈ positions := by
  have relocated : ∀ entry ∈ rank key (picked as positions), ∃ i, positions[entry.2]? = some i ∧
      as[i]? = some entry.1 ∧ relocate positions entry = (entry.1, i) := fun entry member =>
    relocate_mem inside ((rank_perm key _).mem_iff.mp member)
  have sorted : ((rank key (picked as positions)).map (relocate positions)).Pairwise (Earlier key) := by
    refine List.pairwise_map.mpr ((rank_earlier key _).imp_of_mem fun {a b} left right before => ?_)
    obtain ⟨i, atA, -, equal⟩ := relocated a left
    obtain ⟨j, atB, -, equal'⟩ := relocated b right
    rw [equal, equal']
    refine before.imp_right fun ⟨same, earlier⟩ => ⟨same, ?_⟩
    obtain ⟨_, rfl⟩ := List.getElem?_eq_some_iff.mp atA
    obtain ⟨_, rfl⟩ := List.getElem?_eq_some_iff.mp atB
    exact List.pairwise_iff_getElem.mp ascending _ _ _ _ earlier
  have restricted : ((rank key as).filter fun entry => entry.2 ∈ positions).Pairwise (Earlier key) :=
    (rank_earlier key as).filter _
  have irreflexive : ∀ {l : List (α × Nat)}, l.Pairwise (Earlier key) → l.Nodup := by
    intro l sorted
    refine sorted.imp fun {a b} before same => ?_
    subst same
    exact before.asymm before
  refine Earlier.unique ((List.perm_ext_iff_of_nodup (irreflexive sorted) (irreflexive restricted)).mpr
    fun entry => ?_) sorted restricted
  rw [List.mem_map, List.mem_filter, decide_eq_true_eq, (rank_perm key as).mem_iff,
    List.mem_zipIdx_iff_getElem?]
  constructor
  · rintro ⟨original, member, rfl⟩
    obtain ⟨i, position, value, equal⟩ := relocated original member
    rw [equal]
    exact ⟨value, List.mem_of_getElem? position⟩
  · rintro ⟨value, member⟩
    obtain ⟨k, below, position⟩ := List.getElem_of_mem member
    have found : positions[k]? = some entry.2 := by rw [List.getElem?_eq_getElem below, position]
    refine ⟨(entry.1, k), ?_, by rw [relocate, found]; rfl⟩
    rw [(rank_perm key _).mem_iff, List.mem_zipIdx_iff_getElem?, picked_getElem? inside, found]
    exact value

/-! ## Distinct keys -/

/-- With distinct keys the order of the entries does not depend on the listing. -/
theorem rank_congr (key : α → κ) (perm : as.Perm bs) (distinct : (as.map key).Nodup) :
    (rank key as).map Prod.fst = (rank key bs).map Prod.fst := by
  have fst : ∀ cs : List α, ((rank key cs).map Prod.fst).Perm cs := fun cs => by
    have mapped := (rank_perm key cs).map Prod.fst
    rwa [List.zipIdx_map_fst] at mapped
  have sorted : ∀ cs : List α, (cs.map key).Nodup →
      ((rank key cs).map Prod.fst).Pairwise fun a b => key a < key b := by
    intro cs distinct
    have apart : ((rank key cs).map Prod.fst).Pairwise fun a b => key a ≠ key b :=
      List.pairwise_map.mp (((fst cs).map key).nodup_iff.mpr distinct)
    have ordered : ((rank key cs).map Prod.fst).Pairwise fun a b => key a ≤ key b :=
      List.pairwise_map.mpr ((rank_earlier key cs).imp fun before =>
        before.elim le_of_lt fun same => le_of_eq same.1)
    exact (ordered.and apart).imp fun ⟨le, ne⟩ => lt_of_le_of_ne le ne
  refine (((fst as).trans perm).trans (fst bs).symm).eq_of_pairwise
    (fun a b _ _ less more => absurd more (lt_asymm less)) (sorted as distinct) (sorted bs ?_)
  exact (perm.map key).nodup_iff.mp distinct

end Order

end Metewand.Lib
