import Mathlib.Data.List.Count
import Mathlib.Data.List.Nodup
import Mathlib.Data.List.Perm.Subperm

/-!
# Each cell once

A list of marks against a list of cells without repetitions.  Every cell is marked once when the marks
inside the cells are distinct and as many (`marked_once_iff`); where all marks together are as many as the
cells, there is none outside (`marked_once_iff_nodup`).
-/

namespace Metewand.Lib

variable {α : Type} [DecidableEq α] {cells marks : List α}

/-- The marks inside the cells. -/
def within (cells marks : List α) : List α := marks.filter (· ∈ cells)

/-- Every cell is marked exactly once. -/
def MarkedOnce (cells marks : List α) : Prop := ∀ cell ∈ cells, marks.count cell = 1

theorem count_within {a : α} (inside : a ∈ cells) : (within cells marks).count a = marks.count a :=
  List.count_filter (by simpa using inside)

theorem mem_within {a : α} : a ∈ within cells marks ↔ a ∈ marks ∧ a ∈ cells := by
  rw [within, List.mem_filter, decide_eq_true_eq]

theorem marked_once_iff (distinct : cells.Nodup) :
    MarkedOnce cells marks ↔ (within cells marks).Nodup ∧ (within cells marks).length = cells.length := by
  constructor
  · intro once
    have nodup : (within cells marks).Nodup := by
      refine List.nodup_iff_count_le_one.mpr fun a => ?_
      by_cases inside : a ∈ cells
      · rw [count_within inside]
        exact Nat.le_of_eq (once a inside)
      · rw [List.count_eq_zero_of_not_mem fun member => inside (mem_within.mp member).2]
        exact Nat.zero_le 1
    have perm : (within cells marks).Perm cells := by
      refine (List.perm_ext_iff_of_nodup nodup distinct).mpr fun a => ?_
      rw [mem_within]
      refine ⟨And.right, fun inside => ⟨?_, inside⟩⟩
      exact List.count_pos_iff.mp (by rw [once a inside]; exact Nat.one_pos)
    exact ⟨nodup, perm.length_eq⟩
  · rintro ⟨nodup, size⟩ cell inside
    have sub : (within cells marks).Subperm cells :=
      List.subperm_of_subset nodup fun a member => (mem_within.mp member).2
    have perm := sub.perm_of_length_le (Nat.le_of_eq size.symm)
    have member := perm.mem_iff.mpr inside
    rw [← count_within inside, List.count_eq_one_of_mem nodup member]

theorem marked_once_iff_nodup (distinct : cells.Nodup) (size : marks.length = cells.length) :
    MarkedOnce cells marks ↔ marks.Nodup ∧ ∀ mark ∈ marks, mark ∈ cells := by
  rw [marked_once_iff distinct]
  constructor
  · rintro ⟨nodup, length⟩
    have whole : within cells marks = marks := List.filter_sublist.eq_of_length (length.trans size.symm)
    refine ⟨whole ▸ nodup, fun mark member => ?_⟩
    rw [← whole] at member
    exact (mem_within.mp member).2
  · rintro ⟨nodup, inside⟩
    have whole : within cells marks = marks := List.filter_eq_self.mpr fun mark member => by
      simpa using inside mark member
    rw [whole]
    exact ⟨nodup, size⟩

/-- The pairs below two bounds. -/
def grid (m n : Nat) : List (Nat × Nat) := (List.range m).flatMap fun a => (List.range n).map fun b => (a, b)

theorem mem_grid {m n a b : Nat} : (a, b) ∈ grid m n ↔ a < m ∧ b < n := by
  simp [grid]

theorem length_grid (m n : Nat) : (grid m n).length = m * n := by
  simp [grid, List.length_flatMap]

theorem grid_nodup (m n : Nat) : (grid m n).Nodup := by
  refine List.nodup_flatMap.mpr ⟨fun a _ => ?_, ?_⟩
  · exact List.nodup_range.map fun b c same => (Prod.mk.inj same).2
  · refine List.Pairwise.imp ?_ List.nodup_range
    intro a c other p left right
    obtain ⟨b, -, rfl⟩ := List.mem_map.mp left
    obtain ⟨d, -, same⟩ := List.mem_map.mp right
    exact other (Prod.mk.inj same).1.symm

end Metewand.Lib
