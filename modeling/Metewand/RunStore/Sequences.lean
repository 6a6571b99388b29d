import Mathlib.Algebra.Order.BigOperators.Group.List
import Mathlib.Algebra.Order.Ring.Int
import Metewand.RunStore.Selection

/-!
# The budget of a fresh sequence

What the budget rows of a sequence consume is a sum over a join.  With the keys of
the schema it is a sum over the budget table (`spent_eq`), so a step changes it by
what it does to one row.  `Sequenced` is the invariant: the attempts of fresh
slots are members, a sequence has one unfinished attempt at most, and its budget
rows stay within the limit of its policy.
-/

namespace Metewand.RunStore

open Lib

/-! ## Sums -/

theorem sqlSum_error {values : List Int} {e : RunStoreError} :
    values.foldl (fun total value =>
      match total with
      | .error e => .error e
      | .ok total =>
          if -(2 ^ 63) ≤ total + value ∧ total + value < 2 ^ 63 then .ok (total + value)
          else .error (.sqlite .integerOverflow)) (.error e : Except RunStoreError Int) =
      .error e := by
  induction values with
  | nil => rfl
  | cons value rest ih => exact ih

/-- The accumulating form of `sqlSum`, from any start. -/
theorem sqlSum_from {values : List Int} {start total : Int}
    (run : values.foldl (fun total value =>
      match total with
      | .error e => .error e
      | .ok total =>
          if -(2 ^ 63) ≤ total + value ∧ total + value < 2 ^ 63 then .ok (total + value)
          else .error (.sqlite .integerOverflow)) (.ok start : Except RunStoreError Int) =
      .ok total) : total = start + values.sum := by
  induction values generalizing start with
  | nil =>
      cases run
      simp
  | cons value rest ih =>
      rw [List.foldl_cons] at run
      simp only at run
      split at run
      · rw [ih run, List.sum_cons, Int.add_assoc]
      · rw [sqlSum_error] at run
        cases run

/-- A sum that is returned is the sum. -/
theorem sqlSum_eq {values : List Int} {total : Int} (run : sqlSum values = .ok total) :
    total = values.sum := by
  rw [sqlSum_from run, Int.zero_add]

theorem sqlSum_of_nonneg_from {values : List Int} {start : Int}
    (nonneg : ∀ v ∈ values, 0 ≤ v) (low : 0 ≤ start) (small : start + values.sum < 2 ^ 63) :
    values.foldl (fun total value =>
      match total with
      | .error e => .error e
      | .ok total =>
          if -(2 ^ 63) ≤ total + value ∧ total + value < 2 ^ 63 then .ok (total + value)
          else .error (.sqlite .integerOverflow)) (.ok start : Except RunStoreError Int) =
      .ok (start + values.sum) := by
  induction values generalizing start with
  | nil => simp
  | cons value rest ih =>
      have head := nonneg value List.mem_cons_self
      have tail : 0 ≤ rest.sum :=
        List.sum_nonneg fun v member => nonneg v (List.mem_cons_of_mem _ member)
      rw [List.sum_cons] at small ⊢
      rw [List.foldl_cons]
      simp only
      rw [if_pos (by omega), ih (fun v member => nonneg v (List.mem_cons_of_mem _ member))
        (by omega) (by omega), Int.add_assoc]

/-- A sum of nonnegative values below `2^63` does not overflow on the way. -/
theorem sqlSum_of_nonneg {values : List Int} (nonneg : ∀ v ∈ values, 0 ≤ v)
    (small : values.sum < 2 ^ 63) : sqlSum values = .ok values.sum := by
  have run := @sqlSum_of_nonneg_from values 0 nonneg (le_refl 0) (by simpa using small)
  rw [Int.zero_add] at run
  exact run

/-! ## Consumption as a sum over the budget table -/

/-- The slot is a member of the sequence. -/
def InSequence (db : Db) (slot : RecordId .resolvedAttemptSlot) (sequence : SequenceKey) : Prop :=
  ∃ m ∈ db.freshMembers, m.slotId = slot ∧ m.sequence = sequence

instance (db : Db) (slot : RecordId .resolvedAttemptSlot) (sequence : SequenceKey) :
    Decidable (InSequence db slot sequence) := by
  unfold InSequence
  infer_instance

/-- What one budget row adds to a sum over the sequence's join. -/
def budgetShare (db : Db) (sequence : SequenceKey) (f : BudgetRow → AttemptRow → Int)
    (b : BudgetRow) : Int :=
  match db.attempts.find? fun a => a.id = b.attemptId with
  | some a => if InSequence db a.slotId sequence then f b a else 0
  | none => 0

/-- What the sequence has consumed. -/
def spent (db : Db) (sequence : SequenceKey) : Int := (consumptions db sequence).sum

section Joins

variable {db : Db} {sequence : SequenceKey} {f : BudgetRow → AttemptRow → Int}

theorem find_attempt (h : Integrity db) {a : AttemptRow} (member : a ∈ db.attempts)
    {id : RecordId .attempt} (same : a.id = id) :
    db.attempts.find? (fun x => x.id = id) = some a := by
  rw [← same]
  exact h.attemptIds.find_of_mem member

/-- A slot has one member row, so the join with the members counts it once. -/
theorem sum_members (h : Integrity db) (slot : RecordId .resolvedAttemptSlot) (v : Int) :
    ((db.freshMembers.filter fun m => m.slotId = slot ∧ m.sequence = sequence).map
      fun _ => v).sum = if InSequence db slot sequence then v else 0 := by
  have few : (db.freshMembers.filter fun m => m.slotId = slot ∧ m.sequence = sequence).length ≤ 1 := by
    refine le_trans (List.Sublist.length_le ?_) (h.memberSlots.filter_length_le_one slot)
    exact List.monotone_filter_right _ (by simp +contextual)
  match split : db.freshMembers.filter fun m => decide (m.slotId = slot ∧ m.sequence = sequence) with
  | [] =>
      have outside : ¬InSequence db slot sequence := by
        rintro ⟨m, member, both⟩
        have absent := List.filter_eq_nil_iff.mp split m member
        simp [both] at absent
      rw [split, if_neg outside]
      rfl
  | [m] =>
      have inside := List.mem_filter.mp (split ▸ List.mem_singleton_self m : m ∈ _)
      have here : InSequence db slot sequence := ⟨m, inside.1, of_decide_eq_true inside.2⟩
      rw [split, if_pos here]
      simp
  | m :: n :: rest =>
      rw [split, List.length_cons, List.length_cons] at few
      omega

/-- A sum over the join is a sum over the budget table. -/
theorem sum_budgetJoin (h : Integrity db) :
    ((budgetJoin db sequence).map fun row => f row.1 row.2).sum =
      (db.freshBudget.map (budgetShare db sequence f)).sum := by
  have row : ∀ b ∈ db.freshBudget,
      (((db.attempts.filter fun a => a.id = b.attemptId).flatMap fun a =>
        (db.freshMembers.filter fun m => m.slotId = a.slotId ∧ m.sequence = sequence).map
          fun _ => (b, a)).map fun row => f row.1 row.2).sum = budgetShare db sequence f b := by
    intro b member
    obtain ⟨a, inside, same⟩ := h.budgetAttempt b member
    have one := h.attemptIds.filter_eq_singleton inside
    rw [same] at one
    unfold budgetShare
    rw [one, find_attempt h inside same, List.flatMap_singleton, List.map_map]
    exact sum_members h a.slotId (f b a)
  unfold budgetJoin
  rw [List.map_flatMap]
  generalize db.freshBudget = rows at row
  induction rows with
  | nil => rfl
  | cons b rest ih =>
      rw [List.flatMap_cons, List.sum_append, List.map_cons, List.sum_cons,
        row b List.mem_cons_self, ih fun x member => row x (List.mem_cons_of_mem _ member)]

theorem spent_eq (h : Integrity db) :
    spent db sequence = (db.freshBudget.map (budgetShare db sequence consumption)).sum :=
  sum_budgetJoin h

theorem consumption_nonneg (h : Integrity db) {b : BudgetRow} (member : b ∈ db.freshBudget)
    (a : AttemptRow) : 0 ≤ consumption b a := by
  obtain ⟨positive, charges⟩ := h.budgetBounds b member
  unfold consumption
  split
  · omega
  · cases charged : b.chargedNs with
    | none => exact Int.le_of_lt positive
    | some c => exact (charges c charged).1

theorem consumptions_nonneg (h : Integrity db) : ∀ v ∈ consumptions db sequence, 0 ≤ v := by
  intro v member
  obtain ⟨row, joined, rfl⟩ := List.mem_map.mp member
  obtain ⟨b, inside, joined⟩ := List.mem_flatMap.mp joined
  obtain ⟨a, -, joined⟩ := List.mem_flatMap.mp joined
  obtain ⟨m, -, rfl⟩ := List.mem_map.mp joined
  exact consumption_nonneg h inside a

end Joins

/-! ## How steps change the sum -/

section Steps

variable {hash : Hasher} {db db' : Db} {sequence : SequenceKey}

theorem spent_congr (budget : db'.freshBudget = db.freshBudget)
    (attempts : db'.attempts = db.attempts) (members : db'.freshMembers = db.freshMembers)
    (sequence : SequenceKey) : spent db' sequence = spent db sequence := by
  unfold spent consumptions
  rw [budgetJoin_congr budget attempts members]

theorem inSequence_congr (members : db'.freshMembers = db.freshMembers)
    (slot : RecordId .resolvedAttemptSlot) (sequence : SequenceKey) :
    InSequence db' slot sequence ↔ InSequence db slot sequence := by
  unfold InSequence
  rw [members]

theorem sum_map_congr {rows : List BudgetRow} {f g : BudgetRow → Int}
    (same : ∀ b ∈ rows, f b = g b) : (rows.map f).sum = (rows.map g).sum := by
  rw [List.map_congr_left same]

/-- A new reservation has no budget row yet. -/
theorem Reserved.spent {g : OwnedAttempt} (h : Integrity db) (h' : Integrity db')
    (row : Reserved hash db db' g) : spent db' sequence = spent db sequence := by
  have budget : db'.freshBudget = db.freshBudget := row.same.2 .freshBudget (by decide)
  have members : db'.freshMembers = db.freshMembers := row.same.2 .freshMembers (by decide)
  rw [spent_eq h', spent_eq h, budget]
  refine sum_map_congr fun b member => ?_
  obtain ⟨a, inside, same⟩ := h.budgetAttempt b member
  have later : a ∈ db'.attempts := by
    rw [row.attempts]
    exact List.mem_append_left _ inside
  unfold budgetShare
  rw [find_attempt h' later same, find_attempt h inside same]
  simp only [inSequence_congr members]

/-- What a move of its attempt takes off a budget row. -/
def saving (budget : List BudgetRow) (a b : AttemptRow) : Int :=
  ((budget.find? fun x => x.attemptId = a.id).map fun x => consumption x a - consumption x b).getD 0

theorem Moved.spent {a b : AttemptRow} (h : Integrity db) (h' : Integrity db')
    (moved : Moved db db' a b) (budget : db'.freshBudget = db.freshBudget)
    (members : db'.freshMembers = db.freshMembers) :
    spent db' sequence = spent db sequence -
      if InSequence db a.slotId sequence then saving db.freshBudget a b else 0 := by
  have shares : ∀ x ∈ db.freshBudget, budgetShare db' sequence consumption x =
      budgetShare db sequence consumption x - (if x.attemptId = a.id then
        (if InSequence db a.slotId sequence then consumption x a - consumption x b else 0)
        else 0) := by
    intro x member
    obtain ⟨y, inside, same⟩ := h.budgetAttempt x member
    unfold budgetShare
    rw [find_attempt h inside same]
    by_cases mine : x.attemptId = a.id
    · obtain rfl := h.attemptIds.eq_of_key inside moved.member (same.trans mine)
      rw [find_attempt h' moved.member' (moved.id.trans same)]
      simp only [inSequence_congr members, moved.slotId, mine, if_true]
      split <;> omega
    · have other : y.id ≠ a.id := fun equal => mine (same.symm.trans equal)
      rw [find_attempt h' (moved.mem_other inside other) same]
      simp only [inSequence_congr members, if_neg mine, Int.sub_zero]
  rw [spent_eq h', spent_eq h, budget, sum_map_congr shares]
  have split : ∀ {rows : List BudgetRow} {f g : BudgetRow → Int},
      (rows.map fun x => f x - g x).sum = (rows.map f).sum - (rows.map g).sum := by
    intro rows f g
    induction rows with
    | nil => rfl
    | cons x rest ih =>
        simp only [List.map_cons, List.sum_cons, ih]
        omega
  rw [split, h.budgetAttempts.sum_ite a.id]
  unfold saving
  split
  · rfl
  · cases db.freshBudget.find? fun x => x.attemptId = a.id with
    | none => rfl
    | some x => rfl

theorem Budgeted.spent {a : AttemptRow} {q : SequenceKey} {limit used reserved : Nat}
    (h : Integrity db) (h' : Integrity db') (row : Budgeted db db' a q limit used reserved) :
    spent db' sequence = spent db sequence +
      if InSequence db a.slotId sequence then (reserved : Int) else 0 := by
  have attempts : db'.attempts = db.attempts := row.same.2 .attempts (by decide)
  have members : db'.freshMembers = db.freshMembers := row.same.2 .freshMembers (by decide)
  have shares : budgetShare db' sequence consumption = budgetShare db sequence consumption := by
    funext b
    unfold budgetShare
    simp only [attempts, inSequence_congr members]
  rw [spent_eq h', spent_eq h, row.budget, shares, List.map_append, List.sum_append]
  congr 1
  simp only [List.map_cons, List.map_nil, List.sum_cons, List.sum_nil, Int.add_zero]
  unfold budgetShare
  rw [find_attempt h row.member rfl]
  simp only [consumption, row.active, if_true]

/-- A charge counts only once the attempt has finished. -/
theorem Charged.spent {a : AttemptRow} {measured : Nat} (h : Integrity db) (h' : Integrity db')
    (row : Charged db db' a measured) : spent db' sequence = spent db sequence := by
  have attempts : db'.attempts = db.attempts := row.same.2 .attempts (by decide)
  have members : db'.freshMembers = db.freshMembers := row.same.2 .freshMembers (by decide)
  rw [spent_eq h', spent_eq h, row.budget, List.map_map]
  refine sum_map_congr fun b member => ?_
  obtain ⟨x, inside, same⟩ := h.budgetAttempt b member
  simp only [Function.comp, BudgetRow.charge]
  split
  · rename_i mine
    obtain rfl := h.attemptIds.eq_of_key inside row.member (same.trans mine)
    unfold budgetShare
    simp only [attempts, inSequence_congr members]
    rw [find_attempt h inside same]
    simp only [consumption, row.active, if_true]
  · unfold budgetShare
    simp only [attempts, inSequence_congr members]

end Steps

/-! ## Membership -/

section Membership

variable {db : Db} {slot : RecordId .resolvedAttemptSlot} {sequence q : SequenceKey}

theorem inSequence_of_membership (found : membership db slot = some sequence) :
    supported db ∧ InSequence db slot sequence := by
  unfold membership at found
  split at found
  · rename_i layout
    obtain ⟨m, at_, rfl⟩ := Option.map_eq_some_iff.mp found
    exact ⟨layout, m, List.mem_of_find?_eq_some at_, by simpa using List.find?_some at_, rfl⟩
  · cases found

/-- A slot belongs to one sequence. -/
theorem InSequence.unique (h : Integrity db) (left : InSequence db slot sequence)
    (right : InSequence db slot q) : sequence = q := by
  obtain ⟨m, member, at_, rfl⟩ := left
  obtain ⟨n, member', at', rfl⟩ := right
  rw [h.memberSlots.eq_of_key member member' (at_.trans at'.symm)]

theorem membership_of_inSequence (h : Integrity db) (layout : supported db)
    (inside : InSequence db slot sequence) : membership db slot = some sequence := by
  obtain ⟨m, member, rfl, rfl⟩ := inside
  unfold membership
  rw [if_pos layout, h.memberSlots.find_of_mem member]
  rfl

end Membership

/-! ## The invariant -/

/-- What every run keeps of the sequences. -/
structure Sequenced (db : Db) : Prop where
  kinds : ∀ m ∈ db.freshMembers, supported db ∧
    ∃ s ∈ db.attemptSlots, s.id = m.slotId ∧ s.kind = .freshObservation
  enrolled : supported db → ∀ a ∈ db.attempts, ∀ s ∈ db.attemptSlots, s.id = a.slotId →
    s.kind = .freshObservation → ∃ m ∈ db.freshMembers, m.slotId = a.slotId
  active : ∀ q, ∀ a ∈ db.attempts, ∀ b ∈ db.attempts, InSequence db a.slotId q →
    InSequence db b.slotId q → a.finishedAtNs = none → b.finishedAtNs = none → a = b
  within : ∀ x ∈ db.freshBudget, ∀ a ∈ db.attempts, a.id = x.attemptId → ∀ q,
    InSequence db a.slotId q → ∃ s ∈ db.freshSequences, s.key = q ∧
      ∃ limit : Nat, s.policy.activeTimeNs = .ok limit ∧ spent db q ≤ limit

theorem Sequenced.create (layout : Nat) : Sequenced (Db.create layout) where
  kinds := fun _ member => nomatch member
  enrolled := fun _ _ member => nomatch member
  active := fun _ _ member => nomatch member
  within := fun _ member => nomatch member

/-- How a change treats the attempts, members and budget rows. -/
theorem Change.fresh {hash : Hasher} {db db' : Db} {actor : Actor}
    (change : Change hash db actor db') :
    (db'.attempts = db.attempts ∧ db'.freshMembers = db.freshMembers ∧
        db'.freshBudget = db.freshBudget) ∨
      (∃ slot, Enrolled db db' slot) ∨ (∃ g, Reserved hash db db' g) ∨
      (∃ a b, Moved db db' a b ∧ db'.freshMembers = db.freshMembers ∧
        db'.freshBudget = db.freshBudget) ∨
      (∃ a q limit used reserved, Budgeted db db' a q limit used reserved) ∨
      ∃ a measured, Charged db db' a measured := by
  have untouched : ∀ {written : List Table}, SameBut written db db' → .attempts ∉ written →
      .freshMembers ∉ written → .freshBudget ∉ written → db'.attempts = db.attempts ∧
        db'.freshMembers = db.freshMembers ∧ db'.freshBudget = db.freshBudget :=
    fun same attempts members budget =>
      ⟨same.2 .attempts attempts, same.2 .freshMembers members, same.2 .freshBudget budget⟩
  have moved : ∀ {a b : AttemptRow} {written : List Table}, Moved db db' a b →
      SameBut written db db' → .freshMembers ∉ written → .freshBudget ∉ written →
      ∃ a b, Moved db db' a b ∧ db'.freshMembers = db.freshMembers ∧
        db'.freshBudget = db.freshBudget :=
    fun row same members budget =>
      ⟨_, _, row, same.2 .freshMembers members, same.2 .freshBudget budget⟩
  cases change with
  | idle => exact .inl ⟨rfl, rfl, rfl⟩
  | registered same => exact .inl (untouched same (by decide) (by decide) (by decide))
  | enrolled row => exact .inr (.inl ⟨_, row⟩)
  | imported same => exact .inl (untouched same (by decide) (by decide) (by decide))
  | reserved row => exact .inr (.inr (.inl ⟨_, row⟩))
  | advanced row =>
      exact .inr (.inr (.inr (.inl (moved row.toMoved row.same (by decide) (by decide)))))
  | claimed row =>
      exact .inr (.inr (.inr (.inl (moved row.toMoved row.same (by decide) (by decide)))))
  | leased _ _ rows => exact .inl (untouched rows.same (by decide) (by decide) (by decide))
  | observed row => exact .inl (untouched row.same (by decide) (by decide) (by decide))
  | budgeted row => exact .inr (.inr (.inr (.inr (.inl ⟨_, _, _, _, _, row⟩))))
  | charged row => exact .inr (.inr (.inr (.inr (.inr ⟨_, _, row⟩))))
  | finished row =>
      exact .inr (.inr (.inr (.inl (moved row.toMoved row.same (by decide) (by decide)))))

section SequencedStep

variable {hash : Hasher} {db db' : Db}

/-- The attempt a move starts from is unfinished. -/
theorem Moved.unfinished {a b : AttemptRow} (h : Integrity db) (moved : Moved db db' a b) :
    a.finishedAtNs = none := by
  have finish := h.attemptFinish a moved.member
  rw [moved.active] at finish
  exact Option.isSome_eq_false_iff.mp finish |> Option.isNone_iff_eq_none.mp

/-- Enrolling a slot says nothing about the attempts there are: it has none. -/
theorem Enrolled.inSequence {slot : RecordId .resolvedAttemptSlot} (old : Sequenced db)
    (row : Enrolled db db' slot) {a : AttemptRow} (member : a ∈ db.attempts) (q : SequenceKey) :
    InSequence db' a.slotId q ↔ InSequence db a.slotId q := by
  rcases row.members with same | ⟨m, here, new, appended⟩
  · exact inSequence_congr same _ _
  · obtain ⟨s, inside, id, fresh⟩ := row.kind
    have other : a.slotId ≠ slot := by
      intro same
      obtain ⟨n, known, at_⟩ := old.enrolled row.layout a member s inside (id.trans same.symm) fresh
      exact new n known (at_.trans same)
    unfold InSequence
    rw [appended]
    constructor
    · rintro ⟨n, inside, at_, key⟩
      rcases List.mem_append.mp inside with before | added
      · exact ⟨n, before, at_, key⟩
      · rw [List.mem_singleton.mp added, here] at at_
        exact absurd at_.symm other
    · rintro ⟨n, before, facts⟩
      exact ⟨n, List.mem_append_left _ before, facts⟩

theorem Enrolled.spent {slot : RecordId .resolvedAttemptSlot} {q : SequenceKey} (h : Integrity db)
    (h' : Integrity db') (old : Sequenced db) (row : Enrolled db db' slot) :
    spent db' q = spent db q := by
  have budget : db'.freshBudget = db.freshBudget := row.same.2 .freshBudget (by decide)
  have attempts : db'.attempts = db.attempts := row.same.2 .attempts (by decide)
  rw [spent_eq h', spent_eq h, budget]
  refine sum_map_congr fun b member => ?_
  obtain ⟨a, inside, same⟩ := h.budgetAttempt b member
  unfold budgetShare
  rw [attempts, find_attempt h inside same]
  simp only [row.inSequence old inside]

theorem Change.kinds {actor : Actor} (old : Sequenced db) (grown : Grown db db')
    (change : Change hash db actor db') :
    ∀ m ∈ db'.freshMembers, supported db' ∧
      ∃ s ∈ db'.attemptSlots, s.id = m.slotId ∧ s.kind = .freshObservation := by
  have layout : supported db → supported db' := by
    intro before
    unfold supported
    rw [grown.layout]
    exact before
  have kept : ∀ m ∈ db.freshMembers, supported db' ∧
      ∃ s ∈ db'.attemptSlots, s.id = m.slotId ∧ s.kind = .freshObservation := by
    intro m member
    obtain ⟨before, s, inside, facts⟩ := old.kinds m member
    exact ⟨layout before, s, mem_of_extends_eq grown.attemptSlots inside, facts⟩
  rcases change.fresh with ⟨-, same, -⟩ | ⟨slot, row⟩ | ⟨g, row⟩ | ⟨a, b, -, same, -⟩ |
    ⟨a, q, limit, used, reserved, row⟩ | ⟨a, measured, row⟩
  · rw [same]
    exact kept
  · rcases row.members with same | ⟨m, here, -, appended⟩
    · rw [same]
      exact kept
    · rw [appended]
      refine forall_append_one kept ?_
      obtain ⟨s, inside, id, fresh⟩ := row.kind
      exact ⟨layout row.layout, s, mem_of_extends_eq grown.attemptSlots inside,
        id.trans here.symm, fresh⟩
  · rw [show db'.freshMembers = db.freshMembers from row.same.2 .freshMembers (by decide)]
    exact kept
  · rw [same]
    exact kept
  · rw [show db'.freshMembers = db.freshMembers from row.same.2 .freshMembers (by decide)]
    exact kept
  · rw [show db'.freshMembers = db.freshMembers from row.same.2 .freshMembers (by decide)]
    exact kept

theorem Change.members_enrolled {actor : Actor} (h : Integrity db) (h' : Integrity db')
    (old : Sequenced db) (grown : Grown db db') (change : Change hash db actor db')
    (layout : supported db') {a : AttemptRow} (member : a ∈ db'.attempts) {s : AttemptSlotRow}
    (inside : s ∈ db'.attemptSlots) (id : s.id = a.slotId) (fresh : s.kind = .freshObservation) :
    ∃ m ∈ db'.freshMembers, m.slotId = a.slotId := by
  have before : supported db := by
    unfold supported at *
    rw [← grown.layout]
    exact layout
  have kept : ∀ {x : AttemptRow}, x ∈ db.attempts → x.slotId = a.slotId →
      ∃ m ∈ db'.freshMembers, m.slotId = a.slotId := by
    intro x known home
    obtain ⟨s', slot, id'⟩ := h.attemptSlot x known
    have equal := h'.attemptSlotIds.eq_of_key (mem_of_extends_eq grown.attemptSlots slot) inside
      (id'.trans (home.trans id.symm))
    obtain ⟨m, enrolled, at_⟩ := old.enrolled before x known s' slot id' (by rw [equal]; exact fresh)
    exact ⟨m, mem_of_extends_eq grown.members enrolled, at_.trans home⟩
  rcases change.attempts with ⟨same, -⟩ | ⟨g, row⟩ | ⟨x, y, moved⟩
  · exact kept (same ▸ member) rfl
  · rcases row.mem_cases member with known | rfl
    · exact kept known rfl
    · have reservable := row.reservable
      unfold Reservable at reservable
      split at reservable
      · rw [show db'.attemptSlots = db.attemptSlots from row.same.2 .attemptSlots (by decide)]
          at inside
        exact absurd ⟨before, s, inside, id, fresh⟩ reservable
      · rename_i q found
        obtain ⟨-, m, enrolled, at_, -⟩ := inSequence_of_membership found
        exact ⟨m, mem_of_extends_eq grown.members enrolled, at_⟩
  · rcases moved.mem_cases member with rfl | ⟨known, -⟩
    · exact kept moved.member moved.slotId.symm
    · exact kept known rfl

theorem Change.active {actor : Actor} (h : Integrity db) (old : Sequenced db)
    (change : Change hash db actor db') :
    ∀ q, ∀ a ∈ db'.attempts, ∀ b ∈ db'.attempts, InSequence db' a.slotId q →
      InSequence db' b.slotId q → a.finishedAtNs = none → b.finishedAtNs = none → a = b := by
  intro q
  rcases change.fresh with ⟨attempts, members, -⟩ | ⟨slot, row⟩ | ⟨g, row⟩ |
    ⟨x, y, moved, members, -⟩ | ⟨a, q', limit, used, reserved, row⟩ | ⟨a, measured, row⟩
  · simp only [attempts, inSequence_congr members]
    exact old.active q
  · rw [show db'.attempts = db.attempts from row.same.2 .attempts (by decide)]
    intro a left b right
    rw [row.inSequence old left, row.inSequence old right]
    exact old.active q a left b right
  · have members : db'.freshMembers = db.freshMembers := row.same.2 .freshMembers (by decide)
    simp only [inSequence_congr members]
    -- a reservation in a sequence is made while no attempt of it is unfinished
    have alone : ∀ {x : AttemptRow}, x ∈ db.attempts → InSequence db x.slotId q →
        InSequence db g.slot q → x.finishedAtNs ≠ none := by
      intro x known inside here unfinished
      obtain ⟨m, enrolled, at_, key⟩ := inside
      have found := membership_of_inSequence h (old.kinds m enrolled).1 here
      have reservable := row.reservable
      unfold Reservable at reservable
      rw [found] at reservable
      exact reservable.2.1 ⟨x, known, m, enrolled, at_, key, unfinished⟩
    intro a left b right inA inB unA unB
    rcases row.mem_cases left with knownA | rfl
    · rcases row.mem_cases right with knownB | rfl
      · exact old.active q a knownA b knownB inA inB unA unB
      · exact absurd unA (alone knownA inA inB)
    · rcases row.mem_cases right with knownB | rfl
      · exact absurd unB (alone knownB inB inA)
      · rfl
  · simp only [inSequence_congr members]
    have start := moved.unfinished h
    intro a left b right inA inB unA unB
    rcases moved.mem_cases left with rfl | ⟨knownA, otherA⟩
    · rw [moved.slotId] at inA
      rcases moved.mem_cases right with rfl | ⟨knownB, otherB⟩
      · rfl
      · rw [old.active q x moved.member b knownB inA inB start unB] at otherB
        exact absurd rfl otherB
    · rcases moved.mem_cases right with rfl | ⟨knownB, otherB⟩
      · rw [moved.slotId] at inB
        rw [old.active q a knownA x moved.member inA inB unA start] at otherA
        exact absurd rfl otherA
      · exact old.active q a knownA b knownB inA inB unA unB
  · have members : db'.freshMembers = db.freshMembers := row.same.2 .freshMembers (by decide)
    rw [show db'.attempts = db.attempts from row.same.2 .attempts (by decide)]
    simp only [inSequence_congr members]
    exact old.active q
  · have members : db'.freshMembers = db.freshMembers := row.same.2 .freshMembers (by decide)
    rw [show db'.attempts = db.attempts from row.same.2 .attempts (by decide)]
    simp only [inSequence_congr members]
    exact old.active q

/-- A move never makes a row count for more. -/
theorem saving_nonneg {a : AttemptRow} (h : Integrity db) (unfinished : a.finishedAtNs = none)
    (b : AttemptRow) : 0 ≤ saving db.freshBudget a b := by
  unfold saving
  cases found : db.freshBudget.find? fun x => x.attemptId = a.id with
  | none => exact le_refl 0
  | some x =>
      obtain ⟨positive, charges⟩ := h.budgetBounds x (List.mem_of_find?_eq_some found)
      have before : consumption x a = x.reservedNs := by simp [consumption, unfinished]
      have after : consumption x b ≤ x.reservedNs := by
        unfold consumption
        split
        · exact le_refl _
        · cases charged : x.chargedNs with
          | none => exact le_refl _
          | some c => exact (charges c charged).2
      simp only [Option.map_some, Option.getD_some, before]
      omega

theorem Change.within {actor : Actor} (h : Integrity db) (h' : Integrity db')
    (old : Sequenced db) (grown : Grown db db') (change : Change hash db actor db') :
    ∀ x ∈ db'.freshBudget, ∀ a ∈ db'.attempts, a.id = x.attemptId → ∀ q,
      InSequence db' a.slotId q → ∃ s ∈ db'.freshSequences, s.key = q ∧
        ∃ limit : Nat, s.policy.activeTimeNs = .ok limit ∧ spent db' q ≤ limit := by
  have kept : ∀ {x : BudgetRow} {a : AttemptRow} {q : SequenceKey}, x ∈ db.freshBudget →
      a ∈ db.attempts → a.id = x.attemptId → InSequence db a.slotId q →
      spent db' q ≤ spent db q → ∃ s ∈ db'.freshSequences, s.key = q ∧
        ∃ limit : Nat, s.policy.activeTimeNs = .ok limit ∧ spent db' q ≤ limit := by
    intro x a q budget member id inside less
    obtain ⟨s, row, key, limit, policy, bound⟩ := old.within x budget a member id q inside
    exact ⟨s, mem_of_extends_eq grown.sequences row, key, limit, policy, less.trans bound⟩
  intro x budget a member id q inside
  rcases change.fresh with ⟨attempts, members, same⟩ | ⟨slot, row⟩ | ⟨g, row⟩ |
    ⟨y, z, moved, members, same⟩ | ⟨y, q', limit, used, reserved, row⟩ | ⟨y, measured, row⟩
  · rw [same] at budget
    rw [attempts] at member
    exact kept budget member id ((inSequence_congr members _ _).mp inside)
      (le_of_eq (spent_congr same attempts members q))
  · rw [show db'.freshBudget = db.freshBudget from row.same.2 .freshBudget (by decide)] at budget
    rw [show db'.attempts = db.attempts from row.same.2 .attempts (by decide)] at member
    exact kept budget member id ((row.inSequence old member q).mp inside)
      (le_of_eq (row.spent h h' old))
  · have members : db'.freshMembers = db.freshMembers := row.same.2 .freshMembers (by decide)
    rw [show db'.freshBudget = db.freshBudget from row.same.2 .freshBudget (by decide)] at budget
    rcases row.mem_cases member with known | rfl
    · exact kept budget known id ((inSequence_congr members _ _).mp inside)
        (le_of_eq (row.spent h h'))
    · obtain ⟨y, known, same⟩ := h.budgetAttempt x budget
      exact absurd (same.trans id.symm) (row.new y known)
  · rw [same] at budget
    have less : spent db' q ≤ spent db q := by
      rw [moved.spent h h' same members]
      have saved := saving_nonneg h (moved.unfinished h) z
      split <;> omega
    rw [inSequence_congr members] at inside
    rcases moved.mem_cases member with rfl | ⟨known, -⟩
    · rw [moved.slotId] at inside
      exact kept budget moved.member (moved.id.symm.trans id) inside less
    · exact kept budget known id inside less
  · have members : db'.freshMembers = db.freshMembers := row.same.2 .freshMembers (by decide)
    rw [show db'.attempts = db.attempts from row.same.2 .attempts (by decide)] at member
    rw [inSequence_congr members] at inside
    by_cases here : InSequence db y.slotId q
    · obtain ⟨layout, home⟩ := inSequence_of_membership row.membership
      obtain rfl := here.unique h home
      obtain ⟨s, found, policy⟩ := row.allowance.policy
      obtain ⟨total, sum, low, rfl⟩ := row.allowance.total
      have spending : spent db q = total := (sqlSum_eq sum).symm
      refine ⟨s, mem_of_extends_eq grown.sequences (List.mem_of_find?_eq_some found),
        by simpa using List.find?_some found, limit, policy, ?_⟩
      have positive := row.positive
      have room := row.within
      rw [row.spent h h', if_pos here, spending]
      omega
    · have less : spent db' q ≤ spent db q := by
        rw [row.spent h h', if_neg here]
        omega
      rw [row.budget] at budget
      rcases List.mem_append.mp budget with before | added
      · exact kept before member id inside less
      · rw [List.mem_singleton.mp added] at id
        rw [h.attemptIds.eq_of_key member row.member id] at inside
        exact absurd inside here
  · have members : db'.freshMembers = db.freshMembers := row.same.2 .freshMembers (by decide)
    rw [show db'.attempts = db.attempts from row.same.2 .attempts (by decide)] at member
    rw [inSequence_congr members] at inside
    rw [row.budget] at budget
    obtain ⟨before, known, rfl⟩ := List.mem_map.mp budget
    have same : (BudgetRow.charge y.id measured before).attemptId = before.attemptId := by
      unfold BudgetRow.charge
      split <;> rfl
    exact kept known member (id.trans same) inside (le_of_eq (row.spent h h'))

end SequencedStep

theorem Reachable.sequenced {hash : Hasher} {w : World} (reach : Reachable hash w) :
    Sequenced w.db := by
  refine reach.always .create fun w label before old => ?_
  have stepped := before.sound.stepped label
  have h := before.sound.db.toIntegrity
  have h' := (before.after label).sound.db.toIntegrity
  exact ⟨stepped.change.kinds old stepped.grown,
    fun layout a member s inside id fresh =>
      stepped.change.members_enrolled h h' old stepped.grown layout member inside id fresh,
    stepped.change.active h old, stepped.change.within h h' old stepped.grown⟩

/-! ## The budget -/

/-- The budget of every sequence at one reachable world and along every run from it. -/
structure BudgetKept (hash : Hasher) (w : World) : Prop where
  /-- A sequence consumes nothing, or no more than the limit of its policy. -/
  within : ∀ q, consumptions w.db q = [] ∨ ∃ s ∈ w.db.freshSequences, s.key = q ∧
    ∃ limit : Nat, s.policy.activeTimeNs = .ok limit ∧ (consumptions w.db q).sum ≤ limit
  charges : ∀ x ∈ w.db.freshBudget, 0 < x.reservedNs ∧
    ∀ charged ∈ x.chargedNs, 0 ≤ charged ∧ charged ≤ x.reservedNs
  /-- An attempt has one budget row, and a charge that is written stays. -/
  once : (w.db.freshBudget.map BudgetRow.attemptId).Nodup ∧
    ∀ x ∈ w.db.freshBudget, x.chargedNs ≠ none →
      ∀ labels, x ∈ (run (next hash) w labels).db.freshBudget
  active : ∀ q, ∀ a ∈ w.db.attempts, ∀ b ∈ w.db.attempts, InSequence w.db a.slotId q →
    InSequence w.db b.slotId q → a.finishedAtNs = none → b.finishedAtNs = none → a = b
  /-- The SQL sum is exact, fits a signed and an unsigned 64-bit integer, and is never
  smaller than what one of its attempts will give back. -/
  arithmetic : ∀ q, sqlSum (consumptions w.db q) = .ok (consumptions w.db q).sum ∧
    0 ≤ (consumptions w.db q).sum ∧ (consumptions w.db q).sum ≤ maxSafeInteger ∧
    ∀ a ∈ w.db.attempts, InSequence w.db a.slotId q → a.finishedAtNs = none →
      0 ≤ refund w.db a.id ∧ refund w.db a.id ≤ (consumptions w.db q).sum

theorem consumptions_eq_nil {db : Db} {q : SequenceKey}
    (none : ∀ x ∈ db.freshBudget, ∀ a ∈ db.attempts, a.id = x.attemptId →
      ¬InSequence db a.slotId q) : consumptions db q = [] := by
  unfold consumptions budgetJoin
  rw [List.map_eq_nil_iff]
  refine List.flatMap_eq_nil_iff.mpr fun x member => ?_
  refine List.flatMap_eq_nil_iff.mpr fun a joined => ?_
  obtain ⟨inside, same⟩ := List.mem_filter.mp joined
  rw [List.map_eq_nil_iff]
  refine List.filter_eq_nil_iff.mpr fun m enrolled => ?_
  simp only [decide_eq_true_eq]
  exact fun both => none x member a inside (of_decide_eq_true same) ⟨m, enrolled, both⟩

theorem Sequenced.consumptions_within {db : Db} (sequenced : Sequenced db) (q : SequenceKey) :
    consumptions db q = [] ∨ ∃ s ∈ db.freshSequences, s.key = q ∧
      ∃ limit : Nat, s.policy.activeTimeNs = .ok limit ∧ (consumptions db q).sum ≤ limit := by
  by_cases used : ∃ x ∈ db.freshBudget, ∃ a ∈ db.attempts, a.id = x.attemptId ∧
      InSequence db a.slotId q
  · obtain ⟨x, budget, a, member, id, inside⟩ := used
    exact .inr (sequenced.within x budget a member id q inside)
  · refine .inl (consumptions_eq_nil fun x budget a member id inside => ?_)
    exact used ⟨x, budget, a, member, id, inside⟩

theorem sum_le_maxSafeInteger {db : Db} (sequenced : Sequenced db) (q : SequenceKey) :
    (consumptions db q).sum ≤ maxSafeInteger := by
  rcases sequenced.consumptions_within q with none | ⟨s, -, -, limit, policy, bound⟩
  · rw [none]
    decide
  · have small := (ProfilePolicy.activeTimeNs_bounds policy).2
    omega

/-- What an unfinished attempt will give back is part of what it holds. -/
theorem refund_bounds {db : Db} (h : Integrity db) {a : AttemptRow} (member : a ∈ db.attempts)
    (unfinished : a.finishedAtNs = none) {q : SequenceKey} (inside : InSequence db a.slotId q) :
    0 ≤ refund db a.id ∧ refund db a.id ≤ spent db q := by
  have total : 0 ≤ spent db q := List.sum_nonneg (consumptions_nonneg h)
  unfold refund
  cases found : db.freshBudget.find? fun x => x.attemptId = a.id with
  | none => exact ⟨le_refl 0, total⟩
  | some x =>
      have budget := List.mem_of_find?_eq_some found
      have mine : x.attemptId = a.id := by simpa using List.find?_some found
      obtain ⟨positive, charges⟩ := h.budgetBounds x budget
      have share : budgetShare db q consumption x = x.reservedNs := by
        unfold budgetShare
        rw [find_attempt h member mine.symm]
        simp [inside, consumption, unfinished]
      have part : x.reservedNs ≤ spent db q := by
        rw [spent_eq h, ← share]
        refine List.single_le_sum (fun v listed => ?_) _ (List.mem_map_of_mem budget)
        obtain ⟨y, known, rfl⟩ := List.mem_map.mp listed
        unfold budgetShare
        split
        · split
          · exact consumption_nonneg h known _
          · exact le_refl 0
        · exact le_refl 0
      simp only
      cases charged : x.chargedNs with
      | none =>
          simp only [Option.getD_none]
          omega
      | some c =>
          have bounds := charges c charged
          simp only [Option.getD_some]
          omega

theorem budget_kept_of_reachable {hash : Hasher} {w : World} (reach : Reachable hash w) :
    BudgetKept hash w := by
  have sound := reach.sound.db
  have sequenced := reach.sequenced
  refine ⟨sequenced.consumptions_within, sound.budgetBounds, ⟨sound.budgetAttempts, ?_⟩,
    sequenced.active, ?_⟩
  · intro x member charged labels
    obtain ⟨y, inside, later⟩ := (reach.grown labels).budget.mem member
    rw [later.fixed charged] at inside
    exact inside
  · intro q
    have nonneg := @consumptions_nonneg w.db q sound.toIntegrity
    have small := sum_le_maxSafeInteger sequenced q
    have exact_ : (consumptions w.db q).sum < 2 ^ 63 := by
      have bound : (maxSafeInteger : Int) < 2 ^ 63 := by decide
      omega
    exact ⟨sqlSum_of_nonneg nonneg exact_, List.sum_nonneg nonneg, small,
      fun a member inside unfinished => refund_bounds sound.toIntegrity member unfinished inside⟩

/-- One point of a sequence that may run for a millisecond. -/
def samplePoint : FreshPointRegistration :=
  ⟨0, ⟨0, .object []⟩, ⟨none, none, none, [], 1, 0, 0, 0, 0, "1ms"⟩⟩

/-- Register the point and reserve it; the attempt takes 400 ns and uses 300 of them. -/
def freshRun : List Label := [
  .request (.registerFresh default sampleSpecification sampleSlot sampleObservationSlot
    samplePoint),
  .resume 0 (sampleReading 5 0),
  .request (.reserve sampleSlot.id .firstAttempt ⟨"lease-0", "owner", 60⟩ 10),
  .request (.reserveFreshTime (sampleGuard 0 0 10) (some 400) 11),
  .request (.recordFreshTime (sampleGuard 0 0 10) 300 12)]

theorem budget_kept_of_freshRun :
    ((run (next sampleHash) (sampleWorld 3) freshRun).db.freshBudget.map fun x =>
        (x.reservedNs, x.chargedNs)) = [(400, some 300)] ∧
      BudgetKept sampleHash (run (next sampleHash) (sampleWorld 3) freshRun) :=
  ⟨by decide +kernel, budget_kept_of_reachable ⟨_, freshRun, sampleWorld_initial, rfl⟩⟩

end Metewand.RunStore
