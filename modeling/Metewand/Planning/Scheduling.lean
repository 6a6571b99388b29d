import Metewand.Lib.StableSort
import Metewand.Planning.Comparison

/-!
# Dispatch order

`schedule_slots` as a stable sort.  The key of a slot names its block before everything else
and its own identity last, so randomized order keeps blocks together, does not depend on how
distinct slots are listed, and restricts to any sublist (`scheduleSlots_stable`).  Nothing is
assumed of the hash: priorities of different blocks may collide.
-/

namespace Metewand.Planning

open Lib Lib.Check

variable {hashes : Hashes} {schedulingSeed : DerivedSeedRecord} {slots : List SchedulingSlot}

/-- The slots in the order they are dispatched. -/
def arranged (hashes : Hashes) (runOrder : RunOrder) (schedulingSeed : DerivedSeedRecord)
    (slots : List SchedulingSlot) : List SchedulingSlot :=
  picked slots (scheduleSlots hashes runOrder schedulingSeed slots)

/-- The slots of a block are next to each other, earlier observation rounds first. -/
structure BlocksTogether (slots : List SchedulingSlot) : Prop where
  contiguous : ∀ {p q r : Nat} {a b c : SchedulingSlot}, p < q → q < r → slots[p]? = some a →
    slots[q]? = some b → slots[r]? = some c → a.comparisonBlock = c.comparisonBlock →
      b.comparisonBlock = a.comparisonBlock
  rounds : slots.Pairwise fun a b => a.comparisonBlock = b.comparisonBlock →
    a.observationRound ≤ b.observationRound

theorem scheduleSlots_randomized (hashes : Hashes) (schedulingSeed : DerivedSeedRecord)
    (slots : List SchedulingSlot) :
    scheduleSlots hashes .randomized schedulingSeed slots =
      (rank (SchedulingSlot.key hashes schedulingSeed) slots).map Prod.snd := rfl

theorem arranged_randomized (hashes : Hashes) (schedulingSeed : DerivedSeedRecord)
    (slots : List SchedulingSlot) :
    arranged hashes .randomized schedulingSeed slots =
      (rank (SchedulingSlot.key hashes schedulingSeed) slots).map Prod.fst := by
  unfold arranged picked
  rw [scheduleSlots_randomized, List.filterMap_map, ← List.filterMap_eq_map]
  refine List.filterMap_congr fun entry member => ?_
  exact List.mem_zipIdx_iff_getElem?.mp ((rank_perm _ _).mem_iff.mp member)

theorem scheduleSlots_perm (runOrder : RunOrder) :
    (scheduleSlots hashes runOrder schedulingSeed slots).Perm (List.range slots.length) := by
  cases runOrder with
  | sequential => exact .refl _
  | randomized =>
      have positions := (rank_perm (SchedulingSlot.key hashes schedulingSeed) slots).map Prod.snd
      rwa [List.zipIdx_map_snd, ← List.range_eq_range'] at positions

/-- Among slots of one block the key compares the rounds first. -/
theorem key_rounds {a b : SchedulingSlot}
    (le : a.key hashes schedulingSeed ≤ b.key hashes schedulingSeed)
    (same : a.comparisonBlock = b.comparisonBlock) : a.observationRound ≤ b.observationRound := by
  refine Nat.le_of_not_lt fun later => not_lt.mpr le ?_
  have rounds : ∀ {x y : List Nat}, b.observationRound :: x < a.observationRound :: y :=
    List.cons_lt_cons_iff.mpr (.inl later)
  unfold SchedulingSlot.key
  rw [same]
  simp only [List.append_assoc, List.singleton_append]
  exact List.append_left_lt (List.append_left_lt rounds)

theorem key_logicalSlot {a b : SchedulingSlot}
    (same : a.key hashes schedulingSeed = b.key hashes schedulingSeed) :
    a.logicalSlot = b.logicalSlot := by
  have last := (List.append_inj' same (by simp [Digest.key_length])).2
  have digest := Digest.key_injective last
  cases left : a.logicalSlot with
  | mk digestA =>
      cases right : b.logicalSlot with
      | mk digestB =>
          rw [left, right] at digest
          exact congrArg _ digest

theorem arranged_together (hashes : Hashes) (schedulingSeed : DerivedSeedRecord)
    (slots : List SchedulingSlot) :
    BlocksTogether (arranged hashes .randomized schedulingSeed slots) := by
  have sorted : (arranged hashes .randomized schedulingSeed slots).Pairwise fun a b =>
      a.key hashes schedulingSeed ≤ b.key hashes schedulingSeed := by
    rw [arranged_randomized]
    exact List.pairwise_map.mpr (dispatched_sorted hashes schedulingSeed slots)
  refine ⟨?_, sorted.imp key_rounds⟩
  intro p q r a b c left right first second third same
  obtain ⟨_, rfl⟩ := List.getElem?_eq_some_iff.mp first
  obtain ⟨_, rfl⟩ := List.getElem?_eq_some_iff.mp second
  obtain ⟨_, rfl⟩ := List.getElem?_eq_some_iff.mp third
  have lower := blockKey_le (List.pairwise_iff_getElem.mp sorted p q ‹_› ‹_› left)
  have upper := blockKey_le (List.pairwise_iff_getElem.mp sorted q r ‹_› ‹_› right)
  rw [← same] at upper
  exact blockKey_injective (le_antisymm upper lower)

/-- Distinct slots are dispatched in one order, however they are listed. -/
theorem arranged_congr {slots' : List SchedulingSlot} (perm : slots.Perm slots')
    (distinct : (slots.map (·.logicalSlot)).Nodup) :
    arranged hashes .randomized schedulingSeed slots =
      arranged hashes .randomized schedulingSeed slots' := by
  rw [arranged_randomized, arranged_randomized]
  refine rank_congr _ perm ?_
  refine List.pairwise_map.mpr ((List.pairwise_map.mp distinct).imp fun apart same => ?_)
  exact apart (key_logicalSlot same)

/-- The order of a sublist is the restriction of the order of the whole list. -/
theorem scheduleSlots_picked (runOrder : RunOrder) {positions : List Nat}
    (ascending : positions.Pairwise (· < ·)) (inside : ∀ i ∈ positions, i < slots.length) :
    (scheduleSlots hashes runOrder schedulingSeed (picked slots positions)).map
        (fun k => (positions[k]?).getD 0) =
      (scheduleSlots hashes runOrder schedulingSeed slots).filter (· ∈ positions) := by
  cases runOrder with
  | sequential =>
      have left : (scheduleSlots hashes .sequential schedulingSeed (picked slots positions)).map
          (fun k => (positions[k]?).getD 0) = positions := by
        unfold scheduleSlots
        rw [picked_length inside]
        refine List.ext_getElem (by simp) fun k _ below => ?_
        simp [List.getElem?_eq_getElem below]
      rw [left]
      unfold scheduleSlots
      have restricted : ((List.range slots.length).filter (· ∈ positions)).Pairwise (· < ·) :=
        List.pairwise_lt_range.filter _
      refine ((List.perm_ext_iff_of_nodup (ascending.imp Nat.ne_of_lt)
        (restricted.imp Nat.ne_of_lt)).mpr fun i => ?_).eq_of_pairwise
        (fun _ _ _ _ less more => absurd more (Nat.lt_asymm less)) ascending restricted
      rw [List.mem_filter, List.mem_range, decide_eq_true_eq]
      exact ⟨fun member => ⟨inside i member, member⟩, And.right⟩
  | randomized =>
      have restricted := congrArg (List.map Prod.snd)
        (rank_picked (SchedulingSlot.key hashes schedulingSeed) ascending inside)
      rw [scheduleSlots_randomized, scheduleSlots_randomized, List.map_map, List.filter_map]
      rw [List.map_map] at restricted
      exact restricted

/-- Scheduling is a stable permutation that no other member influences. -/
theorem scheduleSlots_stable (hashes : Hashes) (schedulingSeed : DerivedSeedRecord)
    (slots : List SchedulingSlot) :
    (∀ runOrder, (scheduleSlots hashes runOrder schedulingSeed slots).Perm
      (List.range slots.length)) ∧
    scheduleSlots hashes .sequential schedulingSeed slots = List.range slots.length ∧
    BlocksTogether (arranged hashes .randomized schedulingSeed slots) ∧
    (∀ slots', slots.Perm slots' → (slots.map (·.logicalSlot)).Nodup →
      arranged hashes .randomized schedulingSeed slots =
        arranged hashes .randomized schedulingSeed slots') ∧
    ∀ runOrder positions, positions.Pairwise (· < ·) → (∀ i ∈ positions, i < slots.length) →
      (scheduleSlots hashes runOrder schedulingSeed (picked slots positions)).map
          (fun k => (positions[k]?).getD 0) =
        (scheduleSlots hashes runOrder schedulingSeed slots).filter (· ∈ positions) :=
  ⟨fun runOrder => scheduleSlots_perm runOrder, rfl, arranged_together hashes schedulingSeed slots,
    fun _ perm distinct => arranged_congr perm distinct,
    fun runOrder _ ascending inside => scheduleSlots_picked runOrder ascending inside⟩

end Metewand.Planning
