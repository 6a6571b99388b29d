import Mathlib.Data.List.Dedup
import Metewand.RunStore.Exported
import Metewand.RunStore.Sequences

/-!
# Progress of the fresh sequences of a settled store

The store aggregates the progress of a sequence by SQL (`sequenceProgress`); the
archive's validator computes it again from the exported rows (`checkProgress`).
Each quantity of the one is related to the same quantity of the other: the members
(`memberRows_perm`), the counts (`acceptedCount_eq`, `attemptedCount_eq`), the times
(`thread_addBudget`) and the target (`targetReached_iff`).
-/

namespace Metewand.RunStore

open Lib Archive Check

/-! ## Numbers of the fresh tables -/

/-- The points of a sequence have numbers SQLite can hold, and policies a canonical text. -/
structure Numbered (db : Db) : Prop where
  points : ∀ m ∈ db.freshMembers, m.scheduleIndex ≤ i64Max
  policies : ∀ s ∈ db.freshSequences, ∃ text, s.policy.json.normalize = .ok text

theorem registerMember_numbered {db db' : Db} {run : RecordId .resolvedSpecification}
    {slot : RecordId .resolvedAttemptSlot} {point : FreshPointRegistration} {u : Unit}
    (old : Numbered db) (ran : Tx.Yields (registerMember run slot point) db u db') :
    Numbered db' := by
  simp only [registerMember, Tx.yields_check_bind, yields_timestamp_bind] at ran
  obtain ⟨policy, canonical, control, -, -, ran⟩ := ran
  obtain ⟨⟨⟩, first, inserted, ran⟩ := Tx.yields_bind.mp ran
  have before : first.freshMembers = db.freshMembers :=
    (Uses.statement (.insertSequence _) (List.mem_singleton_self _)).sameBut inserted |>.2
      .freshMembers (by decide)
  have policies : ∀ s ∈ first.freshSequences, ∃ text, s.policy.json.normalize = .ok text := by
    simp only [insertSequence, Tx.yields_get_bind, Tx.yields_ite, Tx.yields_pure,
      yields_constraint_bind, Tx.yields_modify] at inserted
    rcases inserted with ⟨-, -, rfl⟩ | ⟨-, -, rfl⟩
    · exact old.policies
    · exact forall_append_one old.policies ⟨policy, canonicalPayload_ok canonical⟩
  simp only [Tx.yields_get_bind, Tx.yields_expect_bind, Tx.yields_require_bind,
    yields_timestamp_bind] at ran
  obtain ⟨previous, -, -, small, ran⟩ := ran
  obtain ⟨⟨⟩, second, enrolled, ran⟩ := Tx.yields_bind.mp ran
  simp only [Tx.yields_get_bind, Tx.yields_expect_bind, Tx.yields_require_bind,
    yields_commit] at ran
  obtain ⟨member, -, -, -, rfl⟩ := ran
  simp only [insertMember, Tx.yields_get_bind, Tx.yields_ite, Tx.yields_pure,
    yields_constraint_bind, Tx.yields_modify] at enrolled
  rcases enrolled with ⟨-, -, rfl⟩ | ⟨-, -, -, -, rfl⟩
  · exact ⟨fun m member => old.points m (before ▸ member), policies⟩
  · refine ⟨forall_append_one (fun m member => old.points m (before ▸ member)) small, policies⟩

theorem next_numbered {hash : Hasher} {w : World} {label : Label} (old : Numbered w.db) :
    Numbered (next hash w label).db := by
  have kept : ∀ {written : List Table} {db' : Db}, SameBut written w.db db' →
      .freshMembers ∉ written ∧ .freshSequences ∉ written → Numbered db' := by
    intro written db' same outside
    constructor
    · rw [show db'.freshMembers = w.db.freshMembers from same.2 .freshMembers outside.1]
      exact old.points
    · rw [show db'.freshSequences = w.db.freshSequences from same.2 .freshSequences outside.2]
      exact old.policies
  unfold next
  cases transaction : w.transaction hash label with
  | none => exact old
  | some body =>
      rcases Tx.atomically_cases body w.db with ⟨answer, db', run, outcome⟩ | ⟨e, outcome⟩
      · simp only [outcome]
        cases works : label.registers w with
        | false => exact kept (((label_uses transaction).2 works).sameBut run) (by decide)
        | true =>
            cases label with
            | request request =>
                simp only [World.transaction] at transaction
                split at transaction
                · cases transaction
                  exact kept ((registration_uses hash works).sameBut run) (by decide)
                · cases transaction
            | resume index reading =>
                obtain ⟨call, at_, rfl⟩ := Option.map_eq_some_iff.mp transaction
                have registers : call.registers = true := by
                  simpa [Label.registers, at_] using works
                cases call with
                | registerMember specification slot point =>
                    unfold resumeCall at run
                    split at run
                    · exact absurd run (by simp [Tx.yields_throw])
                    · obtain ⟨⟨⟩, mid, ran, done⟩ := Tx.yields_bind.mp run
                      obtain ⟨-, rfl⟩ := Tx.yields_pure.mp done
                      exact registerMember_numbered old ran
                | _ => cases registers
      · simp only [outcome]
        exact old

theorem Reachable.numbered {hash : Hasher} {w : World} (reach : Reachable hash w) :
    Numbered w.db :=
  reach.always (fun _ => ⟨nofun, nofun⟩) fun _ _ _ old => next_numbered old

/-- A reservation is never longer than an active-time bound can be. -/
theorem Reachable.reserved_small {hash : Hasher} {w : World} (reach : Reachable hash w) :
    ∀ b ∈ w.db.freshBudget, b.reservedNs ≤ maxSafeInteger := by
  refine @Reachable.keeps hash (fun db => ∀ b ∈ db.freshBudget, b.reservedNs ≤ maxSafeInteger) w
    (fun _ _ member => absurd member List.not_mem_nil) (fun {db db' actor} _ _ old change => ?_) reach
  rcases change.fresh with ⟨-, -, same⟩ | ⟨slot, row⟩ | ⟨g, row⟩ | ⟨a, b, -, -, same⟩ |
    ⟨a, q, limit, used, reserved, row⟩ | ⟨a, measured, row⟩
  · rw [same]
    exact old
  · rw [show db'.freshBudget = db.freshBudget from row.same.2 .freshBudget (by decide)]
    exact old
  · rw [show db'.freshBudget = db.freshBudget from row.same.2 .freshBudget (by decide)]
    exact old
  · rw [same]
    exact old
  · rw [row.budget]
    refine forall_append_one old ?_
    obtain ⟨s, -, bound⟩ := row.allowance.policy
    have small := (ProfilePolicy.activeTimeNs_bounds bound).2
    have within := row.within
    simp only
    omega
  · rw [row.budget]
    intro b member
    obtain ⟨before, known, rfl⟩ := List.mem_map.mp member
    have bound := old before known
    unfold BudgetRow.charge
    split <;> exact bound

/-! ## The exported fresh rows -/

/-- The exported member; the slot of an exported member has an observation slot. -/
def MemberRow.exported (db : Db) (m : MemberRow) : FreshMemberEvidence :=
  ⟨m.slotId.text, m.resolvedRunId.text, m.measurementIndex, m.scheduleIndex, m.controlJson,
    ((db.attemptObservationSlots.find? fun x => x.attemptSlotId = m.slotId).map
      fun x => x.observationSlotId.text).getD ""⟩

theorem exported_of_mapM {db : Db} {rows : List MemberRow} {members : List FreshMemberEvidence}
    (read : rows.mapM (MemberRow.evidence db) = some members) :
    members = rows.map (MemberRow.exported db) := by
  induction rows generalizing members with
  | nil =>
      cases read
      rfl
  | cons m rest ih =>
      simp only [List.mapM_cons, Option.bind_eq_bind, Option.bind_eq_some_iff, Option.pure_def,
        Option.some.injEq] at read
      obtain ⟨first, head, others, tail, rfl⟩ := read
      obtain ⟨x, found, rfl⟩ := Option.map_eq_some_iff.mp head
      rw [ih tail, List.map_cons, MemberRow.exported, found]
      rfl

/-- The evidence has the rows of the fresh tables and the computed progress. -/
structure FreshExported (db : Db) (e : ArchiveEvidence) (progress : List FreshSequenceProgress) :
    Prop where
  members : e.freshMembers.Perm (db.freshMembers.map (MemberRow.exported db))
  budgets : e.freshBudgets.Perm (db.freshBudget.map BudgetRow.evidence)
  policies : e.freshPolicies.Perm (db.freshSequences.map SequenceRow.evidence)
  progress : e.freshSequences = progress

theorem freshExported_evidenceWith {db : Db} {members : List FreshMemberEvidence}
    {rows : List FreshSequenceProgress}
    (read : db.freshMembers.mapM (MemberRow.evidence db) = some members) :
    FreshExported db (evidenceWith db (freshEvidence db members rows)) rows := by
  have sorted : ∀ {α : Type} (keys : α → List String) (rows : List α),
      (byTexts keys rows).Perm rows := fun keys rows => List.perm_insertionSort _ rows
  have sortedBy : ∀ {α : Type} (first : α → String) (second : α → Nat) (rows : List α),
      (byTextNat first second rows).Perm rows := fun first second rows =>
    List.perm_insertionSort _ rows
  rw [exported_of_mapM read]
  constructor <;>
    simp [ArchiveEvidence.freshMembers, ArchiveEvidence.freshBudgets,
      ArchiveEvidence.freshPolicies, ArchiveEvidence.freshSequences, evidenceWith, freshEvidence,
      List.filterMap_append, List.filterMap_map, Function.comp_def, sorted, sortedBy]

theorem Uses.sequenceProgress {written : List Table} {s : SequenceRow} {run : RunRow} :
    Uses written (sequenceProgress s run) := by
  unfold RunStore.sequenceProgress
  exact .bind .expect fun _ => .bind .timestamp fun _ => .bind .get fun _ => .bind .allowance
    fun _ => .bind .check fun _ => .bind .unsigned fun _ => .pure

theorem Uses.progressRows {written : List Table} :
    ∀ {rows : List (SequenceRow × RunRow)}, Uses written (progressRows rows)
  | [] => .pure
  | (_, _) :: _ => .bind .sequenceProgress fun _ => .bind Uses.progressRows fun _ => .pure

theorem Uses.progress {written : List Table} : Uses written progress :=
  .bind .get fun _ => .ite .progressRows .pure

/-- An export of a store with fresh tables carries the progress the store computes. -/
theorem freshExported_of_archiveEvidence {db db' : Db} {e : ArchiveEvidence}
    (layout : supported db) (run : Tx.Yields archiveEvidence db e db') :
    ∃ rows, Tx.Yields progress db rows db ∧ FreshExported db e rows := by
  simp only [archiveEvidence, Tx.yields_get_bind, Tx.yields_ite, Tx.yields_expect_bind,
    Tx.yields_pure] at run
  rcases run with ⟨-, members, read, run⟩ | ⟨other, -⟩
  · obtain ⟨rows, computed, run⟩ := Uses.progress.readOnly_bind run
    obtain ⟨rfl, -⟩ := Tx.yields_pure.mp run
    exact ⟨rows, computed, freshExported_evidenceWith read⟩
  · exact absurd layout other

/-! ## The progress the store computes -/

/-- The status and reason the store gives a sequence without an unfinished attempt. -/
def settledStatus (target : Prop) [Decidable target] (policy : ProfilePolicy)
    (accepted attempted count limit used : Nat) : SequenceStatus × Option SequenceReason :=
  if target then (.accepted, some .targetReached)
  else if policy.metric = none ∧ accepted = count then (.accepted, some .fixedCount)
  else if limit ≤ used then (.censored, some .activeTimeLimit)
  else if attempted = count then (.censored, some .scheduleExhausted)
  else (.incomplete, none)

/-- The members of a sequence with an accepted attempt. -/
def acceptedMembers (db : Db) (q : SequenceKey) : List MemberRow :=
  (sequenceMembers db q).filter fun m => ∃ a ∈ memberAttempts db m, a.state = .accepted

/-- The members of a sequence with a finished attempt. -/
def attemptedMembers (db : Db) (q : SequenceKey) : List MemberRow :=
  (sequenceMembers db q).filter fun m => ∃ a ∈ memberAttempts db m, a.finishedAtNs ≠ none

/-- Some accepted attempt of the sequence has reached its target. -/
def SequenceReached (db : Db) (q : SequenceKey) : Prop :=
  ∃ m ∈ sequenceMembers db q, ∃ a ∈ memberAttempts db m, a.state = .accepted ∧ ReachedTarget db a.id

instance (db : Db) (q : SequenceKey) : Decidable (SequenceReached db q) := by
  unfold SequenceReached
  infer_instance

/-- What the progress of a sequence says when all its attempts have finished. -/
structure Progressed (db : Db) (s : SequenceRow) (r : RunRow) (p : FreshSequenceProgress) : Prop where
  run : p.resolvedSpecificationId = s.resolvedRunId.text
  logical : p.logicalSpecificationId = r.logicalSpecificationId.text
  index : p.measurementIndex = s.measurementIndex
  scheduled : p.scheduledPoints = (sequenceMembers db s.key).length
  accepted : p.acceptedPoints = (acceptedMembers db s.key).length
  finite : s.policy.reread = some s.policy
  status : ∃ limit, s.policy.activeTimeNs = .ok limit ∧
    (p.status, p.reason) = Prod.map SequenceStatus.name (Option.map SequenceReason.name)
      (settledStatus (SequenceReached db s.key) s.policy (acceptedMembers db s.key).length
        (attemptedMembers db s.key).length (sequenceMembers db s.key).length limit p.consumedTimeNs)
  consumed : (p.consumedTimeNs : Int) =
    (db.freshBudget.map (budgetShare db s.key consumption)).sum
  conservative : (p.conservativeTimeNs : Int) =
    (db.freshBudget.map (budgetShare db s.key conservative)).sum

theorem distinct_length {db : Db} (h : Integrity db) {p : MemberRow → Bool} {q : SequenceKey} :
    (((sequenceMembers db q).filter p).map MemberRow.slotId).dedup.length =
      ((sequenceMembers db q).filter p).length := by
  have keyed : Keyed MemberRow.slotId ((sequenceMembers db q).filter p) :=
    (h.memberSlots.filter _).filter _
  rw [List.dedup_eq_self.mpr keyed, List.length_map]

theorem progressed_of_yields {db db' : Db} {s : SequenceRow} {r : RunRow}
    {p : FreshSequenceProgress} (h : Integrity db) (member : s ∈ db.freshSequences)
    (finished : ∀ a ∈ db.attempts, a.finishedAtNs ≠ none)
    (run : Tx.Yields (sequenceProgress s r) db p db') : Progressed db s r p := by
  simp only [sequenceProgress, Tx.yields_expect_bind, yields_timestamp_bind, Tx.yields_get_bind]
    at run
  obtain ⟨policy, read, -, run⟩ := run
  obtain rfl := reread_eq read
  obtain ⟨⟨limit, used⟩, allowed, run⟩ := Uses.allowance.readOnly_bind run
  have allowance := yields_allowance allowed
  simp only [Tx.yields_check_bind, yields_unsigned_bind, Tx.yields_pure] at run
  obtain ⟨held, sum, positive, rfl, -⟩ := run
  have idle : ¬∃ m ∈ sequenceMembers db s.key, ∃ a ∈ memberAttempts db m, a.finishedAtNs = none := by
    rintro ⟨m, -, a, inside, open_⟩
    exact finished a (List.mem_filter.mp inside).1 open_
  obtain ⟨row, found, bound⟩ := allowance.policy
  have same : row = s := by
    have key : row.key = s.key := by simpa using List.find?_some found
    exact h.sequenceKeys.eq_of_key (List.mem_of_find?_eq_some found) member key
  obtain ⟨total, computed, low, rfl⟩ := allowance.total
  refine ⟨rfl, rfl, rfl, rfl, distinct_length h, read, ⟨limit, same ▸ bound, ?_⟩, ?_, ?_⟩
  · simp only [distinct_length h]
    unfold settledStatus
    simp only [if_neg idle]
    rfl
  · rw [← spent_eq h]
    exact (Int.toNat_of_nonneg low).trans (sqlSum_eq computed)
  · rw [← sum_budgetJoin h]
    exact (Int.toNat_of_nonneg positive).trans (sqlSum_eq sum)

/-! ## The progress the validator recomputes -/

section Recomputed

variable {db : Db} {e : ArchiveEvidence} {i : Indexes} {members : Index} {q : SequenceKey}
  {p : FreshSequenceProgress}

/-- Members and policies under their sequence. -/
theorem sequenceKey_member (m : MemberRow) :
    sequenceKey (m.exported db).value = (.str m.resolvedRunId.text, .nat m.measurementIndex) := by
  simp [sequenceKey, FreshMemberEvidence.value, MemberRow.exported]

theorem sequenceKey_policy (s : SequenceRow) :
    sequenceKey s.evidence.value = (.str s.resolvedRunId.text, .nat s.measurementIndex) := by
  simp [sequenceKey, FreshPolicyEvidence.value, SequenceRow.evidence]

theorem progressKey_value : progressKey (progressValue p) =
    (.str p.resolvedSpecificationId, .nat p.measurementIndex) := by
  simp [progressKey, progressValue]

/-- The rows of the sequence's members, as the validator selects them. -/
def memberRows (members : Index) (p : FreshSequenceProgress) : List Json :=
  members.values.filter fun member => sequenceKey member = progressKey (progressValue p)

theorem memberRows_perm
    (lists : Lists db.freshMembers (fun m => (m.exported db).value) (fun m => m.slotId.text) members)
    (run : p.resolvedSpecificationId = q.1.text) (index : p.measurementIndex = q.2) :
    (memberRows members p).Perm ((sequenceMembers db q).map fun m => (m.exported db).value) := by
  have selected := lists.values.filter fun member =>
    decide (sequenceKey member = progressKey (progressValue p))
  refine selected.trans (.of_eq ?_)
  rw [List.filter_map]
  congr 1
  refine List.filter_congr fun m _ => ?_
  simp only [Function.comp_apply, sequenceKey_member, progressKey_value, run, index, Prod.mk.injEq,
    Json.str.injEq, nat_inj]
  refine decide_eq_decide.mpr ⟨fun same => ?_, fun same => ?_⟩
  · exact Prod.ext (RecordId.text_injective same.1) same.2
  · rw [← same]
    exact ⟨rfl, rfl⟩

variable {rows : List Json}
  (perm : rows.Perm ((sequenceMembers db q).map fun m => (m.exported db).value))

include perm in
theorem ofMembers_iff {a : AttemptRow} :
    ofMembers rows (a.evidence db).value ↔ InSequence db a.slotId q := by
  unfold ofMembers InSequence
  constructor
  · rintro ⟨row, member, same⟩
    obtain ⟨m, inside, rfl⟩ := List.mem_map.mp (perm.mem_iff.mp member)
    obtain ⟨enrolled, key⟩ := List.mem_filter.mp inside
    simp [FreshMemberEvidence.value, MemberRow.exported, AttemptRow.evidence, AttemptEvidence.value]
      at same
    exact ⟨m, enrolled, RecordId.text_injective same, of_decide_eq_true key⟩
  · rintro ⟨m, enrolled, slot, key⟩
    refine ⟨_, perm.mem_iff.mpr (List.mem_map_of_mem
      (List.mem_filter.mpr ⟨enrolled, decide_eq_true key⟩)), ?_⟩
    simp [FreshMemberEvidence.value, MemberRow.exported, AttemptRow.evidence, AttemptEvidence.value,
      slot]

theorem accepted_name {state : AttemptState} : state.name = "accepted" ↔ state = .accepted := by
  cases state <;> simp [AttemptState.name]

theorem reached_name {completion : CompletionStatus} :
    completion.name = "reached" ↔ completion = .reached := by
  cases completion <;> simp [CompletionStatus.name]

theorem state_field (a : AttemptRow) : (a.evidence db).value.get "state" = .str a.state.name := by
  simp [AttemptRow.evidence, AttemptEvidence.value]

theorem slot_field (a : AttemptRow) : (a.evidence db).value.get "slot_id" = .str a.slotId.text := by
  simp [AttemptRow.evidence, AttemptEvidence.value]

variable (lists : IndexesOf db i)

include perm lists in
/-- Accepted attempts and accepted slots are as many: a slot accepts one attempt. -/
theorem acceptedCount_eq (h : Integrity db) :
    (i.attempts.values.filter fun attempt => attempt.get "state" = .str "accepted" ∧
      ofMembers rows attempt).length = (acceptedMembers db q).length := by
  have selected := (lists.attempts.values.filter fun attempt =>
    decide (attempt.get "state" = .str "accepted" ∧ ofMembers rows attempt)).length_eq
  rw [selected, List.filter_map, List.length_map]
  have same : db.attempts.filter ((fun attempt => decide (attempt.get "state" = .str "accepted" ∧
        ofMembers rows attempt)) ∘ fun a => (a.evidence db).value) =
      db.attempts.filter fun a => a.state = .accepted ∧ InSequence db a.slotId q := by
    refine List.filter_congr fun a _ => ?_
    rw [Function.comp_apply, decide_eq_decide, ofMembers_iff perm, state_field, Json.str.injEq,
      accepted_name]
  rw [same, ← List.length_map AttemptRow.slotId, ← List.length_map MemberRow.slotId]
  refine List.Perm.length_eq ((List.perm_ext_iff_of_nodup ?_ ?_).mpr fun slot => ?_)
  · refine List.Nodup.map_on (fun a left b right same => ?_)
      ((List.Nodup.of_map _ h.attemptIds).filter _)
    obtain ⟨known, first⟩ := List.mem_filter.mp left
    obtain ⟨known', second⟩ := List.mem_filter.mp right
    simp only [decide_eq_true_eq] at first second
    exact h.attemptIds.eq_of_key known known' (h.acceptedOnce a known b known' same first.1 second.1)
  · exact (h.memberSlots.filter _).filter _
  · rw [List.mem_map, List.mem_map]
    constructor
    · rintro ⟨a, inside, rfl⟩
      obtain ⟨known, both⟩ := List.mem_filter.mp inside
      obtain ⟨accepted, m, enrolled, slot, key⟩ := of_decide_eq_true both
      refine ⟨m, List.mem_filter.mpr ⟨List.mem_filter.mpr ⟨enrolled, decide_eq_true key⟩, ?_⟩, slot⟩
      exact decide_eq_true ⟨a, List.mem_filter.mpr ⟨known, decide_eq_true slot.symm⟩, accepted⟩
    · rintro ⟨m, inside, rfl⟩
      obtain ⟨listed, some⟩ := List.mem_filter.mp inside
      obtain ⟨enrolled, key⟩ := List.mem_filter.mp listed
      obtain ⟨a, tried, accepted⟩ := of_decide_eq_true some
      obtain ⟨known, slot⟩ := List.mem_filter.mp tried
      have same : a.slotId = m.slotId := of_decide_eq_true slot
      refine ⟨a, List.mem_filter.mpr ⟨known, decide_eq_true ⟨accepted, m, enrolled, ?_⟩⟩, same⟩
      exact ⟨same.symm, of_decide_eq_true key⟩

include perm lists in
/-- Every attempt has finished, so a slot with an attempt has a finished one. -/
theorem attemptedCount_eq (finished : ∀ a ∈ db.attempts, a.finishedAtNs ≠ none) :
    (rows.filter fun member => ∃ attempt ∈ i.attempts.values,
      attempt.get "slot_id" = member.get "slot_id").length = (attemptedMembers db q).length := by
  have selected := (perm.filter fun member => decide (∃ attempt ∈ i.attempts.values,
    attempt.get "slot_id" = member.get "slot_id")).length_eq
  rw [selected, List.filter_map, List.length_map]
  refine congrArg List.length (List.filter_congr fun m _ => ?_)
  rw [Function.comp_apply, decide_eq_decide]
  have field : (m.exported db).value.get "slot_id" = .str m.slotId.text := by
    simp [MemberRow.exported, FreshMemberEvidence.value]
  rw [field]
  simp only [memberAttempts, List.mem_filter, decide_eq_true_eq]
  constructor
  · rintro ⟨row, member, same⟩
    obtain ⟨a, known, rfl⟩ := List.mem_map.mp (lists.attempts.values.mem_iff.mp member)
    rw [slot_field, Json.str.injEq] at same
    exact ⟨a, ⟨known, RecordId.text_injective same⟩, finished a known⟩
  · rintro ⟨a, ⟨known, slot⟩, -⟩
    refine ⟨_, lists.attempts.mem_values known, ?_⟩
    rw [slot_field, slot]

include perm lists in
theorem targetReached_iff (exported : Exported db e) :
    targetReached i.attempts rows (e.observations.map ObservationEvidence.value) ↔
      SequenceReached db q := by
  have observed : ∀ o : ObservationRow,
      (o.evidence db).value.get "completion" = .str o.completion.name ∧
        (o.evidence db).value.get "attempt_id" = .str o.producingAttemptId.text := by
    intro o
    simp [ObservationRow.evidence, ObservationEvidence.value]
  unfold targetReached
  constructor
  · rintro ⟨row, member, reached, attempt, found, state, inside⟩
    obtain ⟨record, listed, rfl⟩ := List.mem_map.mp member
    obtain ⟨o, known, rfl⟩ := List.mem_map.mp (exported.observations.mem_iff.mp listed)
    rw [(observed o).1, Json.str.injEq, reached_name] at reached
    rw [(observed o).2] at found
    obtain ⟨a, here, rfl, id⟩ := lists.attempts.found found
    rw [state_field, Json.str.injEq, accepted_name] at state
    obtain ⟨m, enrolled, slot, key⟩ := (ofMembers_iff perm).mp inside
    refine ⟨m, List.mem_filter.mpr ⟨enrolled, decide_eq_true key⟩, a,
      List.mem_filter.mpr ⟨here, decide_eq_true slot.symm⟩, state, o, known, ?_, reached⟩
    exact (RecordId.text_injective id).symm
  · rintro ⟨m, enrolled, a, known, state, o, here, producer, reached⟩
    obtain ⟨enrolled, key⟩ := List.mem_filter.mp enrolled
    obtain ⟨known, slot⟩ := List.mem_filter.mp known
    refine ⟨_, List.mem_map_of_mem (exported.observations.mem_iff.mpr (List.mem_map_of_mem here)),
      ?_, (a.evidence db).value, ?_, ?_, (ofMembers_iff perm).mpr ?_⟩
    · rw [(observed o).1, reached]
      rfl
    · rw [(observed o).2, producer]
      exact lists.attempts.get a known
    · rw [state_field, state]
      rfl
    · exact ⟨m, enrolled, (of_decide_eq_true slot).symm, of_decide_eq_true key⟩

include perm lists in
/-- One budget row adds the same to the validator's totals as to the store's sums. -/
theorem addBudget_row (h : Integrity db) (finished : ∀ a ∈ db.attempts, a.finishedAtNs ≠ none)
    {b : BudgetRow} (member : b ∈ db.freshBudget) (small : b.reservedNs ≤ maxSafeInteger)
    {c k : Nat} (first : c + budgetShare db q consumption b < 2 ^ 64)
    (second : k + budgetShare db q conservative b < 2 ^ 64) :
    ∃ c' k' : Nat, addBudget i.attempts rows (c, k) b.evidence.value = .ok (c', k') ∧
      (c' : Int) = c + budgetShare db q consumption b ∧
      (k' : Int) = k + budgetShare db q conservative b := by
  obtain ⟨a, known, id⟩ := h.budgetAttempt b member
  obtain ⟨positive, charges⟩ := h.budgetBounds b member
  have share : ∀ f, budgetShare db q f b = if InSequence db a.slotId q then f b a else 0 := by
    intro f
    unfold budgetShare
    rw [find_attempt h known id]
  have attempt : reference i.attempts b.evidence.value "attempt_id" =
      .ok (a.evidence db).value := by
    refine ok_reference.mpr ⟨a.id.text, ?_, lists.attempts.get a known⟩
    simp [BudgetRow.evidence, FreshBudgetEvidence.value, id]
  unfold addBudget
  rw [attempt]
  simp only [share] at first second ⊢
  by_cases inside : InSequence db a.slotId q
  · have bound : (maxSafeInteger : Int) < 2 ^ 64 := by decide
    have reserved : integer b.evidence.value "reserved_ns" = .ok b.reservedNs.toNat := by
      have field : b.evidence.value.get "reserved_ns" = .nat b.reservedNs.toNat := by
        simp [BudgetRow.evidence, FreshBudgetEvidence.value]
      unfold integer
      rw [field, asU64?_nat (by omega)]
      rfl
    have charge : b.evidence.value.get "charged_ns" = .ofOption .nat (b.chargedNs.map Int.toNat) := by
      simp [BudgetRow.evidence, FreshBudgetEvidence.value]
    have inside' := (ofMembers_iff perm).mpr inside
    simp only [if_pos inside, consumption, conservative, if_neg (finished a known)] at first second ⊢
    cases charged : b.chargedNs with
    | none =>
        simp only [charged, Option.getD_none, if_true] at first second
        refine ⟨c + b.reservedNs.toNat, k + b.reservedNs.toNat, ?_, ?_, ?_⟩
        · rw [ok_bind]
          refine ⟨_, rfl, ?_⟩
          rw [if_pos inside', charge, charged]
          simp only [ok_bind, ok_reject, ok_ite, ok_pure, Option.map_none, Json.ofOption, asU64?,
            Option.getD_none]
          exact ⟨_, reserved, (), ok_reject.mpr (by omega), .inl ⟨trivial, (), by omega, rfl⟩⟩
        · simp only [Option.getD_none]
          omega
        · simp only [if_true]
          omega
    | some n =>
        obtain ⟨low, high⟩ := charges n charged
        simp only [charged, Option.getD_some] at first second
        refine ⟨c + n.toNat, k, ?_, ?_, ?_⟩
        · rw [ok_bind]
          refine ⟨_, rfl, ?_⟩
          rw [if_pos inside', charge, charged]
          simp only [ok_bind, ok_reject, ok_ite, ok_pure, Option.map_some, Json.ofOption,
            asU64?_nat (show n.toNat < 2 ^ 64 by omega), Option.getD_some]
          exact ⟨_, reserved, (), by omega, .inr ⟨by simp [Json.nat], trivial⟩⟩
        · simp only [Option.getD_some]
          omega
        · simp
  · refine ⟨c, k, ?_, ?_, ?_⟩
    · rw [ok_bind]
      refine ⟨_, rfl, ?_⟩
      rw [if_neg fun listed => inside ((ofMembers_iff perm).mp listed)]
      rfl
    · simp [inside]
    · simp [inside]

include perm lists in
/-- The loop over the budget rows ends with the store's sums. -/
theorem thread_addBudget (h : Integrity db) (finished : ∀ a ∈ db.attempts, a.finishedAtNs ≠ none)
    (small : ∀ b ∈ db.freshBudget, b.reservedNs ≤ maxSafeInteger) {budgets : List BudgetRow}
    (known : ∀ b ∈ budgets, b ∈ db.freshBudget) {c k : Nat}
    (first : c + (budgets.map (budgetShare db q consumption)).sum < 2 ^ 64)
    (second : k + (budgets.map (budgetShare db q conservative)).sum < 2 ^ 64) :
    ∃ c' k' : Nat, thread (addBudget i.attempts rows) (c, k)
        (budgets.map fun b => b.evidence.value) = .ok (c', k') ∧
      (c' : Int) = c + (budgets.map (budgetShare db q consumption)).sum ∧
      (k' : Int) = k + (budgets.map (budgetShare db q conservative)).sum := by
  induction budgets generalizing c k with
  | nil => exact ⟨c, k, rfl, by simp, by simp⟩
  | cons b rest ih =>
      have here := known b List.mem_cons_self
      have later := fun x inside => known x (List.mem_cons_of_mem b inside)
      have shares : ∀ x ∈ db.freshBudget, 0 ≤ budgetShare db q consumption x ∧
          0 ≤ budgetShare db q conservative x := by
        intro x inside
        obtain ⟨positive, -⟩ := h.budgetBounds x inside
        obtain ⟨a, member, id⟩ := h.budgetAttempt x inside
        unfold budgetShare
        rw [find_attempt h member id]
        simp only
        split
        · refine ⟨consumption_nonneg h inside a, ?_⟩
          unfold conservative
          rw [if_neg (finished a member)]
          split <;> omega
        · exact ⟨le_refl 0, le_refl 0⟩
      have consumed : 0 ≤ (rest.map (budgetShare db q consumption)).sum := by
        refine List.sum_nonneg fun v member => ?_
        obtain ⟨x, inside, rfl⟩ := List.mem_map.mp member
        exact (shares x (later x inside)).1
      have held : 0 ≤ (rest.map (budgetShare db q conservative)).sum := by
        refine List.sum_nonneg fun v member => ?_
        obtain ⟨x, inside, rfl⟩ := List.mem_map.mp member
        exact (shares x (later x inside)).2
      rw [List.map_cons, List.sum_cons] at first second
      obtain ⟨c₁, k₁, added, consumption₁, conservative₁⟩ :=
        @addBudget_row _ _ q _ perm lists h finished b here (small b here) c k (by omega) (by omega)
      obtain ⟨c', k', run, consumption', conservative'⟩ :=
        @ih later c₁ k₁ (by omega) (by omega)
      refine ⟨c', k', ?_, ?_, ?_⟩
      · simp only [List.map_cons, thread, ok_bind]
        exact ⟨_, added, run⟩
      · rw [List.map_cons, List.sum_cons]
        omega
      · rw [List.map_cons, List.sum_cons]
        omega

/-- A sequence has fewer points than a 64-bit counter can count. -/
theorem sequenceMembers_length (h : Integrity db) (numbered : Numbered db) :
    (sequenceMembers db q).length < 2 ^ 64 := by
  have places : ((sequenceMembers db q).map MemberRow.scheduleIndex).Nodup := by
    refine List.Nodup.map_on (fun m left n right same => ?_)
      ((List.Nodup.of_map _ h.memberSlots).filter _)
    obtain ⟨known, key⟩ := List.mem_filter.mp left
    obtain ⟨known', key'⟩ := List.mem_filter.mp right
    refine h.memberPlaces.eq_of_key known known' (Prod.ext ?_ same)
    exact (of_decide_eq_true key).trans (of_decide_eq_true key').symm
  have inside : (sequenceMembers db q).map MemberRow.scheduleIndex ⊆ List.range (i64Max + 1) := by
    intro n member
    obtain ⟨m, listed, rfl⟩ := List.mem_map.mp member
    have bound := numbered.points m (List.mem_filter.mp listed).1
    exact List.mem_range.mpr (by omega)
  have few := (List.subperm_of_subset places inside).length_le
  rw [List.length_map, List.length_range] at few
  have small : i64Max + 1 < 2 ^ 64 := by decide
  omega

/-- The two orders of branches give the same status when no attempt is unfinished. -/
theorem progressStatus_eq {target : Prop} [Decidable target] {policy : ProfilePolicy}
    {accepted attempted count used limit : Nat} (same : target ↔ SequenceReached db q) :
    progressStatus target (policy.stored.metric = none) accepted count attempted used limit =
      Prod.map SequenceStatus.name (Option.map SequenceReason.name)
        (settledStatus (SequenceReached db q) policy accepted attempted count limit used) := by
  unfold progressStatus settledStatus
  rw [show policy.stored.metric = policy.metric from rfl]
  by_cases reached : SequenceReached db q
  · rw [if_pos (same.mpr reached), if_pos reached]
    rfl
  · rw [if_neg fun target => reached (same.mp target), if_neg reached]
    split
    · rfl
    · split
      · rfl
      · split <;> rfl

end Recomputed

/-! ## Settled stores -/

theorem progressRows_yields {db db' : Db} {rows : List (SequenceRow × RunRow)}
    {ps : List FreshSequenceProgress} (run : Tx.Yields (progressRows rows) db ps db') :
    (∀ p ∈ ps, ∃ x ∈ rows, Tx.Yields (sequenceProgress x.1 x.2) db p db) ∧
      ∀ x ∈ rows, ∃ p ∈ ps, Tx.Yields (sequenceProgress x.1 x.2) db p db := by
  induction rows generalizing ps with
  | nil =>
      obtain ⟨rfl, -⟩ := Tx.yields_pure.mp run
      exact ⟨nofun, nofun⟩
  | cons x rest ih =>
      obtain ⟨s, r⟩ := x
      simp only [progressRows] at run
      obtain ⟨head, first, run⟩ := Uses.sequenceProgress.readOnly_bind run
      obtain ⟨tail, others, run⟩ := Uses.progressRows.readOnly_bind run
      obtain ⟨rfl, rfl⟩ := Tx.yields_pure.mp run
      obtain ⟨each_, all⟩ := ih others
      refine ⟨fun p member => ?_, fun x member => ?_⟩
      · rcases List.mem_cons.mp member with rfl | later
        · exact ⟨(s, r), List.mem_cons_self, first⟩
        · obtain ⟨x, inside, computed⟩ := each_ p later
          exact ⟨x, List.mem_cons_of_mem _ inside, computed⟩
      · rcases List.mem_cons.mp member with rfl | later
        · exact ⟨head, List.mem_cons_self, first⟩
        · obtain ⟨p, inside, computed⟩ := all x later
          exact ⟨p, List.mem_cons_of_mem _ inside, computed⟩

/-- The rows the store computes are the sequences joined with their runs. -/
theorem progress_yields {db db' : Db} {ps : List FreshSequenceProgress} (h : Integrity db)
    (layout : supported db) (run : Tx.Yields progress db ps db') :
    (∀ p ∈ ps, ∃ s ∈ db.freshSequences, ∃ r ∈ db.resolvedRuns, r.id = s.resolvedRunId ∧
        Tx.Yields (sequenceProgress s r) db p db) ∧
      ∀ s ∈ db.freshSequences, ∃ p ∈ ps, ∃ r ∈ db.resolvedRuns, r.id = s.resolvedRunId ∧
        Tx.Yields (sequenceProgress s r) db p db := by
  simp only [progress, Tx.yields_get_bind, if_pos layout] at run
  obtain ⟨each_, all⟩ := progressRows_yields run
  have joined : ∀ {s r}, (s, r) ∈ (db.freshSequences.flatMap fun s =>
      (db.resolvedRuns.filter fun r => r.id = s.resolvedRunId).map fun r => (s, r)) ↔
      s ∈ db.freshSequences ∧ r ∈ db.resolvedRuns ∧ r.id = s.resolvedRunId := by
    intro s r
    simp only [List.mem_flatMap, List.mem_map, List.mem_filter, decide_eq_true_eq, Prod.mk.injEq]
    constructor
    · rintro ⟨s', inside, r', ⟨known, id⟩, rfl, rfl⟩
      exact ⟨inside, known, id⟩
    · rintro ⟨inside, known, id⟩
      exact ⟨s, inside, r, ⟨known, id⟩, rfl, rfl⟩
  refine ⟨fun p member => ?_, fun s member => ?_⟩
  · obtain ⟨⟨s, r⟩, inside, computed⟩ := each_ p member
    rw [List.mem_insertionSort] at inside
    obtain ⟨known, run, id⟩ := joined.mp inside
    exact ⟨s, known, r, run, id, computed⟩
  · obtain ⟨r, known, id⟩ := h.sequenceRun s member
    obtain ⟨p, inside, computed⟩ := all (s, r)
      ((List.mem_insertionSort _).mpr (joined.mpr ⟨member, known, id⟩))
    exact ⟨p, inside, r, known, id, computed⟩

/-- Every progress record of the evidence passes the validator's recomputation, and every
sequence of the store has a record. -/
def ProgressAgrees (readPolicy : Json → Except String ProfilePolicy) (db : Db)
    (e : ArchiveEvidence) : Prop :=
  ∃ i members, buildIndexes e = .ok i ∧
    index (e.freshMembers.map FreshMemberEvidence.value) "slot_id" = .ok members ∧
    (∀ p ∈ e.freshSequences,
      checkProgress readPolicy e i.runs i.attempts members (progressValue p) = .ok ()) ∧
    ∀ s ∈ db.freshSequences, ∃ p ∈ e.freshSequences,
      p.resolvedSpecificationId = s.resolvedRunId.text ∧ p.measurementIndex = s.measurementIndex

section Settled

variable {db : Db} {e : ArchiveEvidence} {i : Indexes} {members : Index}
  {readPolicy : Json → Except String ProfilePolicy}

theorem exists_perm_map {α β : Type} {f : α → β} {xs : List β} {rows : List α}
    (perm : xs.Perm (rows.map f)) :
    ∃ rows' : List α, rows'.Perm rows ∧ xs = rows'.map f := by
  generalize target : rows.map f = ys at perm
  induction perm generalizing rows with
  | nil => exact ⟨[], by rw [List.map_eq_nil_iff.mp target], rfl⟩
  | cons y _ ih =>
      obtain ⟨a, rest, rfl, rfl, tail⟩ := List.map_eq_cons_iff.mp target
      obtain ⟨rest', same, rfl⟩ := ih tail
      exact ⟨a :: rest', same.cons a, rfl⟩
  | swap y z ys =>
      obtain ⟨a, rest, rfl, rfl, tail⟩ := List.map_eq_cons_iff.mp target
      obtain ⟨b, rest, rfl, rfl, rfl⟩ := List.map_eq_cons_iff.mp tail
      exact ⟨b :: a :: rest, .swap a b rest, rfl⟩
  | trans _ _ ih ih' =>
      obtain ⟨middle, same, rfl⟩ := ih' target
      obtain ⟨rows', same', rfl⟩ := ih rfl
      exact ⟨rows', same'.trans same, rfl⟩

/-- What is held back is part of what is consumed. -/
theorem conservative_le (h : Integrity db) (finished : ∀ a ∈ db.attempts, a.finishedAtNs ≠ none)
    (q : SequenceKey) : (db.freshBudget.map (budgetShare db q conservative)).sum ≤
      (db.freshBudget.map (budgetShare db q consumption)).sum := by
  refine List.sum_le_sum fun b member => ?_
  obtain ⟨a, known, id⟩ := h.budgetAttempt b member
  obtain ⟨positive, charges⟩ := h.budgetBounds b member
  unfold budgetShare
  rw [find_attempt h known id]
  simp only
  split
  · unfold conservative consumption
    rw [if_neg (finished a known), if_neg (finished a known)]
    cases charged : b.chargedNs with
    | none => simp
    | some n => simpa using (charges n charged).1
  · exact le_refl 0

/-- The policy row the validator finds for a sequence is the sequence's own. -/
theorem find_policy {ps : List FreshSequenceProgress} (h : Integrity db)
    (fresh : FreshExported db e ps) {s : SequenceRow} (member : s ∈ db.freshSequences)
    {p : FreshSequenceProgress} (run : p.resolvedSpecificationId = s.resolvedRunId.text)
    (index : p.measurementIndex = s.measurementIndex) :
    (e.freshPolicies.map FreshPolicyEvidence.value).find? (fun row =>
      sequenceKey row = progressKey (progressValue p)) = some s.evidence.value := by
  have key : sequenceKey s.evidence.value = progressKey (progressValue p) := by
    rw [sequenceKey_policy, progressKey_value, run, index]
  have listed : s.evidence.value ∈ e.freshPolicies.map FreshPolicyEvidence.value :=
    List.mem_map_of_mem (fresh.policies.mem_iff.mpr (List.mem_map_of_mem member))
  cases found : (e.freshPolicies.map FreshPolicyEvidence.value).find? (fun row =>
      sequenceKey row = progressKey (progressValue p)) with
  | none =>
      have missing := List.find?_eq_none.mp found _ listed
      exact absurd (decide_eq_true key) missing
  | some row =>
      have same : sequenceKey row = progressKey (progressValue p) := by
        simpa using List.find?_some found
      obtain ⟨record, inside, rfl⟩ := List.mem_map.mp (List.mem_of_find?_eq_some found)
      obtain ⟨t, known, rfl⟩ := List.mem_map.mp (fresh.policies.mem_iff.mp inside)
      rw [← key, sequenceKey_policy, sequenceKey_policy, Prod.mk.injEq, Json.str.injEq,
        nat_inj] at same
      have keys : t.key = s.key := Prod.ext (RecordId.text_injective same.1) same.2
      rw [h.sequenceKeys.eq_of_key known member keys]

/-- A number of the progress record, as the validator reads it. -/
theorem progress_integer {p : FreshSequenceProgress} {name : String} {n : Nat}
    (field : (progressValue p).get name = .nat n) (small : n < 2 ^ 64) :
    integer (progressValue p) name = .ok n := by
  unfold integer
  rw [field, asU64?_nat small]
  rfl

theorem checkProgress_row {ps : List FreshSequenceProgress} (h : Integrity db)
    (sequenced : Sequenced db) (numbered : Numbered db)
    (small : ∀ b ∈ db.freshBudget, b.reservedNs ≤ maxSafeInteger)
    (finished : ∀ a ∈ db.attempts, a.finishedAtNs ≠ none) (exported : Exported db e)
    (fresh : FreshExported db e ps) (lists : IndexesOf db i)
    (listed : Lists db.freshMembers (fun m => (m.exported db).value) (fun m => m.slotId.text) members)
    {s : SequenceRow} {r : RunRow} {p : FreshSequenceProgress} (member : s ∈ db.freshSequences)
    (valid : s.policy.validate = .ok ())
    (reads : ∀ text, s.policy.json.normalize = .ok text → readPolicy text = .ok s.policy.stored)
    (known : r ∈ db.resolvedRuns) (id : r.id = s.resolvedRunId) (computed : Progressed db s r p) :
    checkProgress readPolicy e i.runs i.attempts members (progressValue p) = .ok () := by
  have perm := memberRows_perm listed (q := s.key) computed.run computed.index
  have accepted := acceptedCount_eq perm lists h
  have attempted := attemptedCount_eq perm lists finished
  have target := targetReached_iff perm lists exported
  have count := perm.length_eq
  rw [List.length_map] at count
  have points := @sequenceMembers_length db s.key h numbered
  have fewer : (acceptedMembers db s.key).length ≤ (sequenceMembers db s.key).length :=
    List.length_filter_le _ _
  obtain ⟨limit, bound, status⟩ := computed.status
  obtain ⟨text, canonical⟩ := numbered.policies s member
  have spending := sum_le_maxSafeInteger sequenced s.key
  rw [show (consumptions db s.key).sum = spent db s.key from rfl, spent_eq h,
    ← computed.consumed] at spending
  have held := conservative_le h finished s.key
  rw [← computed.consumed, ← computed.conservative] at held
  have safe : maxSafeInteger < 2 ^ 64 := by decide
  obtain ⟨budgets, same, rows⟩ := exists_perm_map fresh.budgets
  have sums : ∀ f, (budgets.map (budgetShare db s.key f)).sum =
      (db.freshBudget.map (budgetShare db s.key f)).sum := fun f => (same.map _).sum_eq
  obtain ⟨c, k, totals, consumed, conservative⟩ := @thread_addBudget db i s.key _ perm lists h
    finished small budgets (fun b inside => same.mem_iff.mp inside) 0 0
    (by rw [sums, ← computed.consumed]; omega) (by rw [sums, ← computed.conservative]; omega)
  rw [sums, ← computed.consumed] at consumed
  rw [sums, ← computed.conservative] at conservative
  have budgetRows : e.freshBudgets.map FreshBudgetEvidence.value =
      budgets.map fun b => b.evidence.value := by
    rw [rows, List.map_map]
    rfl
  have policyRow := find_policy h fresh member computed.run computed.index
  have policyField : s.evidence.value.get "policy" = text := by
    simp [SequenceRow.evidence, FreshPolicyEvidence.value, canonical, Except.toOption]
  have found : ∃ row ∈ e.freshPolicies.map FreshPolicyEvidence.value,
      sequenceKey row = progressKey (progressValue p) :=
    ⟨_, List.mem_of_find?_eq_some policyRow, by simpa using List.find?_some policyRow⟩
  unfold checkProgress
  simp only [ok_bind, ok_reject, ok_reference, ok_expect]
  refine ⟨r.evidence.value, ⟨r.id.text, ?_, lists.runs.get r known⟩, (), ?_, p.scheduledPoints, ?_,
    p.acceptedPoints, ?_, (), ?_, (c, k), budgetRows ▸ totals, _, policyRow, s.policy.stored, ?_,
    (), ?_, limit, ?_, (), ?_, p.consumedTimeNs, ?_, p.conservativeTimeNs, ?_, ?_⟩
  · simp [progressValue, computed.run, id]
  · simp only [not_or, not_not]
    refine ⟨?_, found⟩
    simp [progressValue, RunRow.evidence, ResolvedSpecificationEvidence.value, computed.logical]
  · exact progress_integer (by simp [progressValue]) (by rw [computed.scheduled]; exact points)
  · exact progress_integer (by simp [progressValue]) (by rw [computed.accepted]; omega)
  · simp only [not_or, not_not]
    exact ⟨computed.scheduled.trans count.symm, computed.accepted.trans accepted.symm⟩
  · rw [policyField, reads text canonical]
    rfl
  · rw [ProfilePolicy.validate_stored valid]
    rfl
  · rw [ProfilePolicy.stored_activeTimeNs, bound]
    rfl
  · rw [not_or, not_not, not_not]
    have recomputed := @progressStatus_eq db s.key _ _ s.policy (acceptedMembers db s.key).length
      (attemptedMembers db s.key).length (sequenceMembers db s.key).length c limit target
    have time : c = p.consumedTimeNs := by omega
    have whole := recomputed.trans (time ▸ status.symm)
    rw [← accepted, ← attempted, ← count] at whole
    have statusField : (progressValue p).get "status" = .str p.status := by simp [progressValue]
    have reasonField : (progressValue p).get "reason" = optionalText p.reason := by
      simp [progressValue]
    exact ⟨statusField.trans (congrArg (fun x => Json.str x.1) whole.symm),
      reasonField.trans (congrArg (fun x => optionalText x.2) whole.symm)⟩
  · exact progress_integer (by simp [progressValue]) (by omega)
  · exact progress_integer (by simp [progressValue]) (by omega)
  · simp only [not_or, not_not]
    omega

end Settled

/-- The layout of a store with sequences has fresh tables. -/
theorem Reachable.supported_of_sequence {hash : Hasher} {w : World} (reach : Reachable hash w) :
    ∀ s ∈ w.db.freshSequences, supported w.db := by
  refine @Reachable.keeps hash (fun db => ∀ s ∈ db.freshSequences, supported db) w
    (fun _ _ member => absurd member List.not_mem_nil) (fun {db db' actor} _ _ old change => ?_) reach
  have kept : ∀ {written : List Table}, SameBut written db db' → .freshSequences ∉ written →
      ∀ s ∈ db'.freshSequences, supported db' := by
    intro written same outside
    rw [show db'.freshSequences = db.freshSequences from same.2 .freshSequences outside]
    unfold supported
    rw [same.1]
    exact old
  cases change with
  | idle => exact old
  | registered same => exact kept same (by decide)
  | enrolled row =>
      intro _ _
      unfold supported
      rw [row.same.1]
      exact row.layout
  | imported same => exact kept same (by decide)
  | reserved row => exact kept row.same (by decide)
  | advanced row => exact kept row.same (by decide)
  | claimed row => exact kept row.same (by decide)
  | leased _ _ rows => exact kept rows.same (by decide)
  | observed row => exact kept row.same (by decide)
  | budgeted row => exact kept row.same (by decide)
  | charged row => exact kept row.same (by decide)
  | finished row => exact kept row.same (by decide)

/-- An older layout exports nothing fresh. -/
theorem evidenceWith_nil (db : Db) : (evidenceWith db []).freshMembers = [] ∧
    (evidenceWith db []).freshSequences = [] := by
  constructor <;>
    simp [ArchiveEvidence.freshMembers, ArchiveEvidence.freshSequences, evidenceWith,
      List.filterMap_append, List.filterMap_map, Function.comp_def]

/-- In a settled store the progress the store computes is what the archive recomputes. -/
theorem progress_agrees_of_settled {hash : Hasher} {w : World} {e : ArchiveEvidence} {db' : Db}
    {readPolicy : Json → Except String ProfilePolicy} (reach : Reachable hash w)
    (settled : ∀ a ∈ w.db.attempts, a.state.terminal = true)
    (valid : ∀ s ∈ w.db.freshSequences, s.policy.validate = .ok ())
    (reads : ∀ s ∈ w.db.freshSequences, ∀ text, s.policy.json.normalize = .ok text →
      readPolicy text = .ok s.policy.stored)
    (exported : Tx.Yields archiveEvidence w.db e db') : ProgressAgrees readPolicy w.db e := by
  have h : Integrity w.db := reach.sound.db.toIntegrity
  have rows := exported_of_archiveEvidence exported
  obtain ⟨i, built, lists⟩ := exists_indexes h rows
  have finished : ∀ a ∈ w.db.attempts, a.finishedAtNs ≠ none := by
    intro a member open_
    have flag := h.attemptFinish a member
    rw [open_, settled a member] at flag
    cases flag
  by_cases layout : supported w.db
  · obtain ⟨ps, computed, fresh⟩ := freshExported_of_archiveEvidence layout exported
    obtain ⟨each_, all⟩ := progress_yields h layout computed
    obtain ⟨members, indexed, listed⟩ := exists_index_of_rows FreshMemberEvidence.value "slot_id"
      FreshMemberEvidence.slotId h.memberSlots RecordId.text_injective fresh.members
      (fun x => by simp [FreshMemberEvidence.value]) (fun _ => rfl)
    refine ⟨i, members, built, indexed, fun p member => ?_, fun s member => ?_⟩
    · rw [fresh.progress] at member
      obtain ⟨s, sequence, r, known, id, yields⟩ := each_ p member
      exact checkProgress_row h reach.sequenced reach.numbered reach.reserved_small finished rows
        fresh lists listed sequence (valid s sequence) (reads s sequence) known id
        (progressed_of_yields h sequence finished yields)
    · obtain ⟨p, inside, r, -, -, yields⟩ := all s member
      have progressed := progressed_of_yields h member finished yields
      exact ⟨p, fresh.progress.symm ▸ inside, progressed.run, progressed.index⟩
  · have empty : e = evidenceWith w.db [] := by
      simp only [archiveEvidence, Tx.yields_get_bind, Tx.yields_ite, Tx.yields_expect_bind,
        Tx.yields_pure] at exported
      rcases exported with ⟨here, -⟩ | ⟨-, same, -⟩
      · exact absurd here layout
      · exact same
    refine ⟨i, [], built, ?_, fun p member => ?_, fun s member => ?_⟩
    · rw [empty, (evidenceWith_nil w.db).1]
      rfl
    · rw [empty, (evidenceWith_nil w.db).2] at member
      exact absurd member List.not_mem_nil
    · exact absurd (reach.supported_of_sequence s member) layout

/-- The point is run once and its attempt fails after it has used 300 of 400 ns. -/
def failedFreshRun : List Label :=
  freshRun ++ [
    .request (.beginFinalization (sampleGuard 0 0 10) ⟨"claim-0", "owner", 60⟩ 13),
    .request (.commitFinalization (sampleGuard 0 1 13) (.failed "worker_failed" (.object []))
      (sampleArtifact .attempt 2 14) [] 15)]

/-- Reads the text of the sample policy. -/
def readSamplePolicy (text : Json) : Except String ProfilePolicy :=
  if samplePoint.policy.json.normalize.toOption = some text then .ok samplePoint.policy.stored
  else .error "unknown policy"

theorem progress_agrees_of_failedFreshRun :
    ((run (next sampleHash) (sampleWorld 3) failedFreshRun).db.freshBudget.map fun x =>
        (x.reservedNs, x.chargedNs)) = [(400, some 300)] ∧
      (run (next sampleHash) (sampleWorld 3) failedFreshRun).db.attempts.map AttemptRow.state =
        [.failed] ∧
      ∃ e db', Tx.Yields archiveEvidence (run (next sampleHash) (sampleWorld 3) failedFreshRun).db e
          db' ∧
        ProgressAgrees readSamplePolicy (run (next sampleHash) (sampleWorld 3) failedFreshRun).db e := by
  -- one evaluation of the run for all its facts
  have facts : ((run (next sampleHash) (sampleWorld 3) failedFreshRun).db.freshBudget.map fun x =>
        (x.reservedNs, x.chargedNs)) = [(400, some 300)] ∧
      (run (next sampleHash) (sampleWorld 3) failedFreshRun).db.attempts.map AttemptRow.state =
        [.failed] ∧
      (run (next sampleHash) (sampleWorld 3) failedFreshRun).db.freshSequences.map
        SequenceRow.policy = [samplePoint.policy] ∧
      (archiveEvidence (run (next sampleHash) (sampleWorld 3) failedFreshRun).db).toBool = true := by
    decide +kernel
  obtain ⟨budget, states, policies, exports⟩ := facts
  have settled : ∀ a ∈ (run (next sampleHash) (sampleWorld 3) failedFreshRun).db.attempts,
      a.state.terminal = true := by
    intro a member
    have listed := List.mem_map_of_mem (f := AttemptRow.state) member
    rw [states, List.mem_singleton] at listed
    rw [listed]
    rfl
  have only : ∀ s ∈ (run (next sampleHash) (sampleWorld 3) failedFreshRun).db.freshSequences,
      s.policy = samplePoint.policy := by
    intro s member
    have listed := List.mem_map_of_mem (f := SequenceRow.policy) member
    rw [policies] at listed
    exact List.mem_singleton.mp listed
  cases exported : archiveEvidence (run (next sampleHash) (sampleWorld 3) failedFreshRun).db with
  | error e =>
      rw [exported] at exports
      cases exports
  | ok result =>
      refine ⟨budget, states, result.1, result.2, exported,
        progress_agrees_of_settled ⟨_, failedFreshRun, sampleWorld_initial, rfl⟩ settled
          (fun s member => ?_) (fun s member text canonical => ?_) exported⟩
      · rw [only s member]
        decide +kernel
      · rw [only s member] at canonical ⊢
        unfold readSamplePolicy
        rw [canonical, Except.toOption, if_pos rfl]

end Metewand.RunStore
