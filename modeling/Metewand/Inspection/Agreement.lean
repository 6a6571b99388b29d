import Mathlib
import Metewand.Archive.Indexes
import Metewand.Inspection.Status
import Metewand.RunStore.Stopping

/-!
# The views of a store

Inspection, the analysis export and the schedule of a run derive the state of a slot
from different queries.  They agree on every measured slot of a reachable store.  What
inspection and recovery call a lapsed attempt agrees while the reservation lease alone
decides it (`LeaseDecides`): inspection reads neither the claim's lease nor the clamp
to the last transition.
-/

namespace Metewand.Inspection

open Lib RunStore Check

/-! ## Reservation leases -/

/-- Every attempt keeps the lease it was reserved with. -/
def Leasehold (db : Db) : Prop :=
  ∀ a ∈ db.attempts, ∃ l ∈ db.leases, l.attemptId = a.id ∧ l.purpose = .reservation

theorem Leasehold.step {hash : Hasher} {db db' : Db} {actor : Actor} (grown : Grown db db')
    (old : Leasehold db) (change : Change hash db actor db') : Leasehold db' := by
  have carry : ∀ a ∈ db.attempts, ∃ l ∈ db'.leases, l.attemptId = a.id ∧ l.purpose = .reservation := by
    intro a member
    obtain ⟨l, held, attempt, purpose⟩ := old a member
    obtain ⟨m, held', later⟩ := grown.leases.mem held
    exact ⟨m, held', later.attemptId.trans attempt, later.purpose.trans purpose⟩
  intro x member
  rcases change.attempts with ⟨same, -⟩ | ⟨g, row⟩ | ⟨a, b, moved⟩
  · rw [same] at member
    exact carry x member
  · rcases row.mem_cases member with known | rfl
    · exact carry x known
    · obtain ⟨expires, rows⟩ := row.leases
      exact ⟨⟨g.leaseId, g.ownerToken, g.id, .reservation, none, g.updatedAtNs, expires, none⟩,
        rows ▸ List.mem_append_right _ (List.mem_singleton_self _), rfl, rfl⟩
  · rcases moved.mem_cases member with rfl | ⟨known, -⟩
    · obtain ⟨l, held, attempt, purpose⟩ := carry a moved.member
      exact ⟨l, held, attempt.trans moved.id.symm, purpose⟩
    · exact carry x known

theorem leasehold_of_reachable {hash : Hasher} {w : World} (reach : Reachable hash w) : Leasehold w.db :=
  reach.keeps (fun _ _ member => nomatch member) fun _ grown old change => old.step grown change

/-- The lease column of an attempt is the expiry of its one reservation lease, until it is released. -/
theorem leaseExpiry_eq {db : Db} (h : Integrity db) (tenure : Tenure db) {a : AttemptRow} {l : LeaseRow}
    (held : l ∈ db.leases) (attempt : l.attemptId = a.id) (purpose : l.purpose = .reservation) :
    leaseExpiry db a.id = if l.releasedAtNs = none then some l.expiresAtNs else none := by
  have only : ∀ m ∈ db.leases, m.attemptId = a.id → m.purpose = .reservation → m = l :=
    fun m other attempt' purpose' => tenure.lease_eq h other held purpose' purpose (attempt'.trans attempt.symm)
  unfold leaseExpiry
  split
  · rename_i live
    rw [List.max?_eq_some_iff]
    constructor
    · refine List.mem_map.mpr ⟨l, List.mem_filter.mpr ⟨held, ?_⟩, rfl⟩
      simp only [decide_eq_true_eq]
      exact ⟨attempt, purpose, live⟩
    · intro expiry member
      obtain ⟨m, inside, rfl⟩ := List.mem_map.mp member
      obtain ⟨other, fits⟩ := List.mem_filter.mp inside
      simp only [decide_eq_true_eq] at fits
      rw [only m other fits.1 fits.2.1]
  · rename_i released
    rw [List.max?_eq_none_iff, List.map_eq_nil_iff, List.filter_eq_nil_iff]
    intro m other fits
    simp only [decide_eq_true_eq] at fits
    rw [only m other fits.1 fits.2.1] at fits
    exact released fits.2.2

/-! ## What inspection reports -/

/-- The attempt is unfinished and has no reservation lease ahead of the clock. -/
def Required (db : Db) (now : Nat) (a : AttemptRow) : Prop :=
  a.finishedAtNs = none ∧ ∀ expiry, leaseExpiry db a.id = some expiry → expiry ≤ now

instance (db : Db) (now : Nat) (a : AttemptRow) : Decidable (Required db now a) := by
  unfold Required
  cases leaseExpiry db a.id with
  | none => exact decidable_of_iff (a.finishedAtNs = none) (by simp)
  | some expiry => exact decidable_of_iff (a.finishedAtNs = none ∧ expiry ≤ now) (by simp)

/-- The status of an attempt row. -/
def rowStatus (db : Db) (now : Nat) (a : AttemptRow) : AttemptStatus :=
  ⟨a.id.text, a.slotId.text, a.retryIndex, a.state.name, a.revision, toString a.startedAtNs,
    toString a.updatedAtNs, a.finishedAtNs.map toString, (leaseExpiry db a.id).map toString,
    decide (Required db now a), a.finalArtifactId⟩

theorem parseU128_toString (n : Nat) : parseU128 (toString n).toList = some n := by
  have spelled : (toString n).toList = Nat.toDigits 10 n := by
    rw [Nat.toString_eq_repr, Nat.toList_repr]
  have parsed : parseDigits (Nat.toDigits 10 n) = some n := by
    unfold parseDigits
    rw [if_pos, Nat.ofDigitChars_ten_toDigits]
    refine ⟨Nat.toDigits_ne_nil, List.all_eq_true.mpr fun c member => ?_⟩
    exact Nat.isDigit_of_mem_toDigits (by omega) (by omega) member
  rw [spelled]
  unfold parseU128
  split
  · rename_i digits same
    have member : '+' ∈ Nat.toDigits 10 n := same ▸ List.mem_cons_self
    have digit := Nat.isDigit_of_mem_toDigits (by omega) (by omega) member
    exact absurd digit (by decide)
  · exact parsed

theorem recoveryRequired_row (db : Db) (now : Nat) (a : AttemptRow) :
    recoveryRequired (a.finishedAtNs.map toString) ((leaseExpiry db a.id).map toString) now =
      .ok (decide (Required db now a)) := by
  cases finished : a.finishedAtNs with
  | some time => simp [recoveryRequired, Required, finished]
  | none =>
      cases lease : leaseExpiry db a.id with
      | none => simp [recoveryRequired, Required, finished, lease]
      | some expiry =>
          simp only [recoveryRequired, Required, finished, lease, Option.map_none, Option.map_some,
            parseU128_toString, ok_bind, ok_expect, ok_pure]
          exact ⟨expiry, rfl, by simp⟩

theorem optionalString_row {value : Json} {key : String} {text : Option String}
    (field : value.get key = Archive.optionalText text) : optionalString value key = .ok text := by
  cases text with
  | none => simp [optionalString, field, Archive.optionalText, Json.ofOption]
  | some text =>
      simp only [optionalString, field, Archive.optionalText, Json.ofOption, string, Json.asStr?]
      rfl

theorem string_row {value : Json} {key text : String} (field : value.get key = .str text) :
    string value key = .ok text := by
  rw [string, field]
  rfl

theorem integer_row {value : Json} {key : String} {n : Nat} (small : n < 2 ^ 64)
    (field : value.get key = .nat n) : integer value key = .ok n := by
  rw [integer, field, Archive.asU64?_nat small]
  rfl

theorem attemptStatus_row {db : Db} (now : Nat) {a : AttemptRow} (index : a.retryIndex < 2 ^ 64)
    (revision : a.revision < 2 ^ 64) : attemptStatus now (a.evidence db).value = .ok (rowStatus db now a) := by
  simp only [attemptStatus, ok_bind, ok_pure]
  generalize evidence : a.evidence db = r
  have id : r.value.get "id" = .str r.id := by simp [Archive.AttemptEvidence.value]
  have slot : r.value.get "slot_id" = .str r.slotId := by simp [Archive.AttemptEvidence.value]
  have retry : r.value.get "retry_index" = .nat r.retryIndex := by simp [Archive.AttemptEvidence.value]
  have state : r.value.get "state" = .str r.state := by simp [Archive.AttemptEvidence.value]
  have edge : r.value.get "revision" = .nat r.revision := by simp [Archive.AttemptEvidence.value]
  have started : r.value.get "started_at_ns" = .str r.startedAtNs := by simp [Archive.AttemptEvidence.value]
  have updated : r.value.get "updated_at_ns" = .str r.updatedAtNs := by simp [Archive.AttemptEvidence.value]
  have finished : r.value.get "finished_at_ns" = Archive.optionalText r.finishedAtNs := by
    simp [Archive.AttemptEvidence.value]
  have lease : r.value.get "lease_expires_at_ns" = Archive.optionalText r.leaseExpiresAtNs := by
    simp [Archive.AttemptEvidence.value]
  have artifact : r.value.get "artifact_id" = Archive.optionalText r.artifactId := by
    simp [Archive.AttemptEvidence.value]
  subst evidence
  exact ⟨_, string_row id, _, optionalString_row finished, _, optionalString_row lease, _,
    recoveryRequired_row db now a, _, string_row slot, _, integer_row index retry, _, string_row state, _,
    integer_row revision edge, _, string_row started, _, string_row updated, _, optionalString_row artifact, rfl⟩

theorem mem_byTextNat {α : Type} {first : α → String} {second : α → Nat} {rows : List α} {x : α} :
    x ∈ byTextNat first second rows ↔ x ∈ rows :=
  List.mem_insertionSort _

theorem mem_byTexts {α : Type} {keys : α → List String} {rows : List α} {x : α} :
    x ∈ byTexts keys rows ↔ x ∈ rows :=
  List.mem_insertionSort _

theorem mem_attempt {db : Db} {row : Json} :
    row ∈ (readStore db).attempt ↔ ∃ a ∈ db.attempts, row = (a.evidence db).value := by
  simp only [readStore, List.mem_map, mem_byTextNat]
  constructor
  · rintro ⟨-, ⟨a, member, rfl⟩, rfl⟩
    exact ⟨a, member, rfl⟩
  · rintro ⟨a, member, rfl⟩
    exact ⟨_, ⟨a, member, rfl⟩, rfl⟩

theorem mem_resolvedAttemptSlot {db : Db} {row : Json} :
    row ∈ (readStore db).resolvedAttemptSlot ↔ ∃ s ∈ db.attemptSlots, row = s.evidence.value := by
  simp only [readStore, List.mem_map, mem_byTexts]
  constructor
  · rintro ⟨-, ⟨s, member, rfl⟩, rfl⟩
    exact ⟨s, member, rfl⟩
  · rintro ⟨s, member, rfl⟩
    exact ⟨_, ⟨s, member, rfl⟩, rfl⟩

/-- What a report says of the rows of a store. -/
structure Reported (db : Db) (now : Nat) (report : StatusReport) : Prop where
  attempts : ∀ status, status ∈ report.attempts ↔ ∃ a ∈ db.attempts, status = rowStatus db now a
  slots : ∀ s ∈ db.attemptSlots, s.role = .measurement →
    ∃ status ∈ report.slots, status.resolvedSlotId = s.id.text
  states : ∀ status ∈ report.slots,
    status.state = slotState report.attempts (readStore db) status.resolvedSlotId

/-- A traversal of rows that can all be read. -/
theorem traversed {α β ε : Type} {f : α → Except ε β} {as : List α} (each : ∀ a ∈ as, ∃ b, f a = .ok b) :
    ∃ bs, traverseAll f as = .ok bs := by
  cases ran : traverseAll f as with
  | ok bs => exact ⟨bs, rfl⟩
  | error e =>
      obtain ⟨a, member, failed⟩ := error_traverseAll ran
      obtain ⟨b, ran⟩ := each a member
      rw [ran] at failed
      cases failed

theorem mem_of_traverseAll {α β ε : Type} {f : α → Except ε β} {as : List α} {bs : List β}
    (ran : traverseAll f as = .ok bs) {a : α} (member : a ∈ as) : ∃ b ∈ bs, f a = .ok b := by
  obtain ⟨i, at_⟩ := List.mem_iff_getElem?.mp member
  obtain ⟨b, there, each⟩ := getElem?_of_traverseAll ran at_
  exact ⟨b, List.mem_of_getElem? there, each⟩

theorem slotStatus_row {db : Db} {attempts : List AttemptStatus} (s : AttemptSlotRow) :
    ∃ status, slotStatus attempts (readStore db) s.evidence.value = .ok status ∧
      status.resolvedSlotId = s.id.text ∧ status.state = slotState attempts (readStore db) s.id.text := by
  have id : s.evidence.value.get "id" = .str s.id.text := by
    simp [AttemptSlotRow.evidence, Archive.AttemptSlotEvidence.value]
  have run : s.evidence.value.get "resolved_run_id" = .str s.resolvedRunId.text := by
    simp [AttemptSlotRow.evidence, Archive.AttemptSlotEvidence.value]
  have logical : s.evidence.value.get "logical_slot_id" = .str s.logicalSlotId.text := by
    simp [AttemptSlotRow.evidence, Archive.AttemptSlotEvidence.value]
  have each : ∀ row ∈ (readStore db).observation.filter (fun o =>
      o.get "attempt_slot_id" = s.evidence.value.get "id" && o.get "selected" = .bool true),
      ∃ id, string row "id" = .ok id := by
    intro row member
    have inside := List.mem_of_mem_filter member
    simp only [readStore, List.mem_map, mem_byTexts] at inside
    obtain ⟨-, ⟨o, -, rfl⟩, rfl⟩ := inside
    exact ⟨o.id.text, string_row (by simp [ObservationRow.evidence, Archive.ObservationEvidence.value])⟩
  obtain ⟨selected, ran⟩ := traversed each
  refine ⟨⟨s.logicalSlotId.text, s.id.text, s.resolvedRunId.text, slotState attempts (readStore db) s.id.text,
    (attempts.filter (·.slotId = s.id.text)).map AttemptStatus.id, selected⟩, ?_, rfl, rfl⟩
  simp only [slotStatus, ok_bind, ok_pure]
  exact ⟨_, string_row id, _, string_row run, _, string_row logical, selected, ran, rfl⟩

/-- Inspection reads every store it can reach. -/
theorem reported {hash : Hasher} {db : Db} (sound : Sound hash db) (now : Nat) :
    ∃ report, addSnapshot (readStore db) now = .ok report ∧ Reported db now report := by
  have read : ∀ a ∈ db.attempts, attemptStatus now (a.evidence db).value = .ok (rowStatus db now a) := by
    intro a member
    obtain ⟨index, revision, -⟩ := sound.bounded a member
    have wide : i64Max < 2 ^ 64 := by decide
    have narrow : maxSafeInteger < 2 ^ 64 := by decide
    exact attemptStatus_row now (by omega) (by omega)
  have statuses : ∀ row ∈ (readStore db).attempt, ∃ status, attemptStatus now row = .ok status := by
    intro row member
    obtain ⟨a, inside, rfl⟩ := mem_attempt.mp member
    exact ⟨_, read a inside⟩
  obtain ⟨attempts, ran⟩ := traversed statuses
  have states : ∀ row ∈ (readStore db).resolvedAttemptSlot.filter (fun row => row.get "role" = .str "measurement"),
      ∃ status, slotStatus attempts (readStore db) row = .ok status := by
    intro row member
    obtain ⟨s, -, rfl⟩ := mem_resolvedAttemptSlot.mp (List.mem_of_mem_filter member)
    obtain ⟨status, ran, -⟩ := slotStatus_row s
    exact ⟨status, ran⟩
  obtain ⟨slots, ran'⟩ := traversed states
  refine ⟨⟨attempts, slots⟩, ?_, ?_, ?_, ?_⟩
  · simp only [addSnapshot, ok_bind, ok_pure]
    exact ⟨attempts, ran, slots, ran', rfl⟩
  · intro status
    constructor
    · intro member
      obtain ⟨row, inside, each⟩ := exists_of_traverseAll ran member
      obtain ⟨a, known, rfl⟩ := mem_attempt.mp inside
      rw [read a known] at each
      exact ⟨a, known, (Except.ok.inj each).symm⟩
    · rintro ⟨a, known, rfl⟩
      obtain ⟨status, inside, each⟩ := mem_of_traverseAll ran (mem_attempt.mpr ⟨a, known, rfl⟩)
      rw [read a known] at each
      rw [Except.ok.inj each]
      exact inside
  · intro s member measured
    have row : s.evidence.value ∈ (readStore db).resolvedAttemptSlot.filter fun row =>
        row.get "role" = .str "measurement" := by
      refine List.mem_filter.mpr ⟨mem_resolvedAttemptSlot.mpr ⟨s, member, rfl⟩, ?_⟩
      simp [AttemptSlotRow.evidence, Archive.AttemptSlotEvidence.value, measured, SlotRole.name]
    obtain ⟨status, inside, each⟩ := mem_of_traverseAll ran' row
    obtain ⟨same, ran, named, -⟩ := @slotStatus_row db attempts s
    rw [ran] at each
    exact ⟨status, inside, Except.ok.inj each ▸ named⟩
  · intro status member
    obtain ⟨row, inside, each⟩ := exists_of_traverseAll ran' member
    obtain ⟨s, -, rfl⟩ := mem_resolvedAttemptSlot.mp (List.mem_of_mem_filter inside)
    obtain ⟨same, ran, named, state⟩ := @slotStatus_row db attempts s
    rw [ran] at each
    obtain rfl := Except.ok.inj each
    rw [named]
    exact state

/-! ## The state of a slot -/

/-- Some attempt of the slot has not finished. -/
def Unsettled (db : Db) (slot : RecordId .resolvedAttemptSlot) : Prop :=
  ∃ a ∈ db.attempts, a.slotId = slot ∧ a.finishedAtNs = none

/-- The slot was given up for the reason. -/
def GivenUp (db : Db) (slot : RecordId .resolvedAttemptSlot) (reason : DispositionReason) : Prop :=
  ∃ d ∈ db.freshDispositions, d.slotId = slot ∧ d.reason = reason

instance (db : Db) (slot : RecordId .resolvedAttemptSlot) : Decidable (Unsettled db slot) :=
  inferInstanceAs (Decidable (∃ a ∈ db.attempts, a.slotId = slot ∧ a.finishedAtNs = none))

instance (db : Db) (slot : RecordId .resolvedAttemptSlot) (reason : DispositionReason) :
    Decidable (GivenUp db slot reason) :=
  inferInstanceAs (Decidable (∃ d ∈ db.freshDispositions, d.slotId = slot ∧ d.reason = reason))

/-- The state the rows of a slot amount to. -/
def storedState (db : Db) (slot : RecordId .resolvedAttemptSlot) : String :=
  if satisfied db slot then "satisfied"
  else if Unsettled db slot then "active"
  else if GivenUp db slot .skippedTargetReached then "skipped_target_reached"
  else if GivenUp db slot .activeTimeLimit then "censored"
  else if ∃ a ∈ db.attempts, a.slotId = slot then "retry_required"
  else "pending"

/-- A state as the export writes it, which merges what is active with what requires recovery. -/
def SlotState.exported : SlotState → String
  | .satisfied => "satisfied"
  | .active | .recoveryRequired => "active"
  | .skippedTargetReached => "skipped_target_reached"
  | .censored => "censored"
  | .pending => "pending"
  | .retryRequired => "retry_required"

theorem accepted_name {state : AttemptState} : state.name = "accepted" ↔ state = .accepted := by
  cases state <;> decide

/-- Only a store with sequences has dispositions. -/
theorem supported_of_givenUp {db : Db} (h : Integrity db) (sequenced : Sequenced db) {d : DispositionRow}
    (member : d ∈ db.freshDispositions) : supported db := by
  obtain ⟨m, inside, -⟩ := h.dispositionSlot d member
  exact (sequenced.kinds m inside).1

section States

variable {db : Db} (h : Integrity db) (sequenced : Sequenced db)

theorem mem_freshDisposition {rows : List Json} (table : (readStore db).freshDisposition = some rows) {row : Json} :
    row ∈ rows ↔ ∃ d ∈ db.freshDispositions, row = d.evidence.value := by
  simp only [readStore] at table
  split at table
  · cases table
    simp only [List.mem_map, mem_byTexts]
    constructor
    · rintro ⟨-, ⟨d, member, rfl⟩, rfl⟩
      exact ⟨d, member, rfl⟩
    · rintro ⟨d, member, rfl⟩
      exact ⟨_, ⟨d, member, rfl⟩, rfl⟩
  · cases table

theorem disposition_slot (d : DispositionRow) : d.evidence.value.get "slot_id" = .str d.slotId.text := by
  simp [DispositionRow.evidence, Archive.FreshDispositionEvidence.value]

theorem disposition_reason (d : DispositionRow) : d.evidence.value.get "reason" = .str d.reason.name := by
  simp [DispositionRow.evidence, Archive.FreshDispositionEvidence.value]

theorem reason_name {a b : DispositionReason} : a.name = b.name ↔ a = b := by
  cases a <;> cases b <;> decide

include h sequenced in
theorem hasDisposition_iff (slot : RecordId .resolvedAttemptSlot) (reason : DispositionReason) :
    hasDisposition (readStore db) slot.text reason.name = true ↔ GivenUp db slot reason := by
  unfold hasDisposition GivenUp
  cases table : (readStore db).freshDisposition with
  | none =>
      have absent : ¬supported db := by
        intro layout
        simp [readStore, layout] at table
      constructor
      · intro impossible
        cases impossible
      · rintro ⟨d, member, -⟩
        exact absurd (supported_of_givenUp h sequenced member) absent
  | some rows =>
      simp only [Option.any_some, List.any_eq_true, mem_freshDisposition table]
      constructor
      · rintro ⟨-, ⟨d, member, rfl⟩, fits⟩
        rw [disposition_slot, disposition_reason] at fits
        simp only [Bool.and_eq_true, decide_eq_true_eq, Json.str.injEq] at fits
        exact ⟨d, member, RecordId.text_injective fits.1, reason_name.mp fits.2⟩
      · rintro ⟨d, member, rfl, rfl⟩
        refine ⟨_, ⟨d, member, rfl⟩, ?_⟩
        rw [disposition_slot, disposition_reason]
        simp

include h sequenced in
theorem slotState_exported {now : Nat} {report : StatusReport} (rows : Reported db now report)
    (slot : RecordId .resolvedAttemptSlot) :
    (slotState report.attempts (readStore db) slot.text).exported = storedState db slot := by
  -- the attempts of the slot, as the report lists them
  have own : ∀ p : AttemptStatus → Bool, (report.attempts.filter (·.slotId = slot.text)).any p = true ↔
      ∃ a ∈ db.attempts, a.slotId = slot ∧ p (rowStatus db now a) = true := by
    intro p
    simp only [List.any_eq_true, List.mem_filter, decide_eq_true_eq, rows.attempts]
    constructor
    · rintro ⟨-, ⟨⟨a, member, rfl⟩, same⟩, holds⟩
      exact ⟨a, member, RecordId.text_injective same, holds⟩
    · rintro ⟨a, member, rfl, holds⟩
      exact ⟨_, ⟨⟨a, member, rfl⟩, rfl⟩, holds⟩
  have accepted : ((report.attempts.filter (·.slotId = slot.text)).any fun a => a.state = "accepted") = true ↔
      satisfied db slot := by
    rw [own]
    simp only [rowStatus, decide_eq_true_eq, accepted_name]
    rfl
  have active : ((report.attempts.filter (·.slotId = slot.text)).any fun a =>
        a.finishedAtNs.isNone && !a.recoveryRequired) = true ↔
      ∃ a ∈ db.attempts, a.slotId = slot ∧ a.finishedAtNs = none ∧ ¬Required db now a := by
    rw [own]
    simp [rowStatus]
  have lapsed : ((report.attempts.filter (·.slotId = slot.text)).any fun a => a.recoveryRequired) = true ↔
      ∃ a ∈ db.attempts, a.slotId = slot ∧ Required db now a := by
    rw [own]
    simp [rowStatus]
  have unsettled : Unsettled db slot ↔
      (∃ a ∈ db.attempts, a.slotId = slot ∧ a.finishedAtNs = none ∧ ¬Required db now a) ∨
        ∃ a ∈ db.attempts, a.slotId = slot ∧ Required db now a := by
    constructor
    · rintro ⟨a, member, at_, open_⟩
      by_cases required : Required db now a
      · exact .inr ⟨a, member, at_, required⟩
      · exact .inl ⟨a, member, at_, open_, required⟩
    · rintro (⟨a, member, at_, open_, -⟩ | ⟨a, member, at_, required⟩)
      · exact ⟨a, member, at_, open_⟩
      · exact ⟨a, member, at_, required.1⟩
  have tried : (report.attempts.filter (·.slotId = slot.text)).isEmpty = true ↔
      ¬∃ a ∈ db.attempts, a.slotId = slot := by
    have some := own fun _ => true
    simp only [and_true] at some
    rw [← some, List.isEmpty_iff, List.any_eq_true]
    simp [List.eq_nil_iff_forall_not_mem]
  have skipped := hasDisposition_iff h sequenced slot .skippedTargetReached
  have censored := hasDisposition_iff h sequenced slot .activeTimeLimit
  simp only [DispositionReason.name] at skipped censored
  unfold slotState storedState
  by_cases satisfied' : satisfied db slot
  · rw [if_pos (accepted.mpr satisfied'), if_pos satisfied']
    rfl
  · rw [if_neg (mt accepted.mp satisfied'), if_neg satisfied']
    by_cases open_ : Unsettled db slot
    · rw [if_pos open_]
      rcases unsettled.mp open_ with live | required
      · rw [if_pos (active.mpr live)]
        rfl
      · by_cases live : ∃ a ∈ db.attempts, a.slotId = slot ∧ a.finishedAtNs = none ∧ ¬Required db now a
        · rw [if_pos (active.mpr live)]
          rfl
        · rw [if_neg (mt active.mp live), if_pos (lapsed.mpr required)]
          rfl
    · obtain ⟨dead, kept⟩ := not_or.mp (mt unsettled.mpr open_)
      rw [if_neg open_, if_neg (mt active.mp dead), if_neg (mt lapsed.mp kept)]
      by_cases skip : GivenUp db slot .skippedTargetReached
      · rw [if_pos (skipped.mpr skip), if_pos skip]
        rfl
      · rw [if_neg (mt skipped.mp skip), if_neg skip]
        by_cases limit : GivenUp db slot .activeTimeLimit
        · rw [if_pos (censored.mpr limit), if_pos limit]
          rfl
        · rw [if_neg (mt censored.mp limit), if_neg limit]
          by_cases some : ∃ a ∈ db.attempts, a.slotId = slot
          · rw [if_neg (fun none => tried.mp none some), if_pos some]
            rfl
          · rw [if_pos (tried.mpr some), if_neg some]
            rfl

theorem text_row {value : Json} {key text : String} (field : value.get key = .str text) :
    Export.text value key = some text := by
  rw [Export.text, field]
  rfl

theorem exportAttempt_fields {graph : String → Option Json} {row : Json} {x : Export.AnalysisAttempt}
    (ran : exportAttempt graph row = .ok x) : x.slotId = Export.text row "slot_id" ∧
      x.state = Export.text row "state" ∧ x.finishedAtNs = Export.text row "finished_at_ns" := by
  simp only [exportAttempt, ok_bind, ok_pure] at ran
  obtain ⟨id, -, candidate, -, rfl⟩ := ran
  exact ⟨rfl, rfl, rfl⟩

theorem exportAttempt_row {graph : String → Option Json} {a : AttemptRow} {x : Export.AnalysisAttempt}
    (ran : exportAttempt graph (a.evidence db).value = .ok x) :
    x.slotId = some a.slotId.text ∧ x.state = some a.state.name ∧ x.finishedAtNs = a.finishedAtNs.map toString := by
  obtain ⟨slot, state, finished⟩ := exportAttempt_fields ran
  refine ⟨slot.trans (text_row ?_), state.trans (text_row ?_), finished.trans ?_⟩
  · simp [AttemptRow.evidence, Archive.AttemptEvidence.value]
  · simp [AttemptRow.evidence, Archive.AttemptEvidence.value]
  · have field : (a.evidence db).value.get "finished_at_ns" = Archive.optionalText (a.finishedAtNs.map toString) := by
      simp [AttemptRow.evidence, Archive.AttemptEvidence.value]
    rw [Export.text, field]
    cases a.finishedAtNs <;> rfl

include h sequenced in
theorem disposition_iff (graph : String → Option Json) (specifications : List Json) (progress : Option (List Json))
    (slot : RecordId .resolvedAttemptSlot) (text : String) :
    Export.disposition (analysisTables graph (readStore db) specifications progress) slot.text = some text ↔
      ∃ d ∈ db.freshDispositions, d.slotId = slot ∧ d.reason.name = text := by
  unfold Export.disposition
  simp only [analysisTables]
  cases table : (readStore db).freshDisposition with
  | none =>
      have absent : ¬supported db := by
        intro layout
        simp [readStore, layout] at table
      simp only [Option.bind_none, reduceCtorEq, false_iff]
      rintro ⟨d, member, -⟩
      exact absent (supported_of_givenUp h sequenced member)
  | some rows =>
      simp only [Option.bind_some]
      constructor
      · intro found
        obtain ⟨row, first, named⟩ := Option.bind_eq_some_iff.mp found
        obtain ⟨d, member, rfl⟩ := (mem_freshDisposition table).mp (List.mem_of_find?_eq_some first)
        have at_ := List.find?_some first
        rw [disposition_slot] at at_
        rw [text_row (disposition_reason d)] at named
        simp only [decide_eq_true_eq, Json.str.injEq] at at_
        exact ⟨d, member, RecordId.text_injective at_, Option.some.inj named⟩
      · rintro ⟨d, member, rfl, rfl⟩
        have some : (rows.find? fun row => row.get "slot_id" = .str d.slotId.text).isSome = true := by
          rw [List.find?_isSome]
          refine ⟨_, (mem_freshDisposition table).mpr ⟨d, member, rfl⟩, ?_⟩
          rw [disposition_slot]
          simp
        obtain ⟨row, first⟩ := Option.isSome_iff_exists.mp some
        obtain ⟨other, known, rfl⟩ := (mem_freshDisposition table).mp (List.mem_of_find?_eq_some first)
        have at_ := List.find?_some first
        rw [disposition_slot] at at_
        simp only [decide_eq_true_eq, Json.str.injEq] at at_
        obtain rfl := h.dispositionSlots.eq_of_key known member (RecordId.text_injective at_)
        rw [first]
        exact text_row (disposition_reason other)

include h sequenced in
theorem exported_slotState {graph : String → Option Json} {specifications : List Json} {progress : Option (List Json)}
    {attempts : List Export.AnalysisAttempt} (ran : traverseAll (exportAttempt graph) (readStore db).attempt = .ok attempts)
    (slot : RecordId .resolvedAttemptSlot) :
    Export.slotState attempts (analysisTables graph (readStore db) specifications progress) slot.text =
      storedState db slot := by
  -- the exported attempts of the slot
  have own : ∀ p : Export.AnalysisAttempt → Bool, ∀ q : AttemptRow → Prop,
      (∀ a ∈ db.attempts, ∀ x, exportAttempt graph (a.evidence db).value = .ok x → (p x = true ↔ q a)) →
      ((attempts.filter (·.slotId = some slot.text)).any p = true ↔ ∃ a ∈ db.attempts, a.slotId = slot ∧ q a) := by
    intro p q matches_
    simp only [List.any_eq_true, List.mem_filter, decide_eq_true_eq]
    constructor
    · rintro ⟨x, ⟨member, at_⟩, holds⟩
      obtain ⟨row, inside, each⟩ := exists_of_traverseAll ran member
      obtain ⟨a, known, rfl⟩ := mem_attempt.mp inside
      rw [(exportAttempt_row each).1] at at_
      exact ⟨a, known, RecordId.text_injective (Option.some.inj at_), (matches_ a known x each).mp holds⟩
    · rintro ⟨a, known, rfl, holds⟩
      obtain ⟨x, member, each⟩ := mem_of_traverseAll ran (mem_attempt.mpr ⟨a, known, rfl⟩)
      exact ⟨x, ⟨member, (exportAttempt_row each).1⟩, (matches_ a known x each).mpr holds⟩
  have accepted : ((attempts.filter (·.slotId = some slot.text)).any fun a => a.state = some "accepted") = true ↔
      satisfied db slot := by
    refine own _ (fun a => a.state = .accepted) fun a _ x each => ?_
    rw [(exportAttempt_row each).2.1]
    simp only [decide_eq_true_eq, Option.some.injEq, accepted_name]
  have active : ((attempts.filter (·.slotId = some slot.text)).any fun a => a.finishedAtNs.isNone) = true ↔
      Unsettled db slot := by
    refine own _ (fun a => a.finishedAtNs = none) fun a _ x each => ?_
    rw [(exportAttempt_row each).2.2]
    cases a.finishedAtNs <;> simp
  have tried : (attempts.filter (·.slotId = some slot.text)).isEmpty = true ↔ ¬∃ a ∈ db.attempts, a.slotId = slot := by
    have some := own (fun _ => true) (fun _ => True) (fun _ _ _ _ => by simp)
    simp only [and_true] at some
    rw [← some, List.isEmpty_iff, List.any_eq_true]
    simp [List.eq_nil_iff_forall_not_mem]
  have reasons := disposition_iff h sequenced graph specifications progress slot
  have skipped : Export.disposition (analysisTables graph (readStore db) specifications progress) slot.text =
      some "skipped_target_reached" ↔ GivenUp db slot .skippedTargetReached := by
    rw [reasons]
    simp only [GivenUp, ← reason_name]
    rfl
  have given : (Export.disposition (analysisTables graph (readStore db) specifications progress) slot.text).isSome =
      true ↔ GivenUp db slot .skippedTargetReached ∨ GivenUp db slot .activeTimeLimit := by
    rw [Option.isSome_iff_exists]
    simp only [reasons]
    constructor
    · rintro ⟨-, d, member, at_, rfl⟩
      cases reason : d.reason with
      | skippedTargetReached => exact .inl ⟨d, member, at_, reason⟩
      | activeTimeLimit => exact .inr ⟨d, member, at_, reason⟩
    · rintro (⟨d, member, at_, -⟩ | ⟨d, member, at_, -⟩)
      · exact ⟨_, d, member, at_, rfl⟩
      · exact ⟨_, d, member, at_, rfl⟩
  unfold Export.slotState storedState
  by_cases satisfied' : satisfied db slot
  · rw [if_pos (accepted.mpr satisfied'), if_pos satisfied']
  · rw [if_neg (mt accepted.mp satisfied'), if_neg satisfied']
    by_cases open_ : Unsettled db slot
    · rw [if_pos (active.mpr open_), if_pos open_]
    · rw [if_neg (mt active.mp open_), if_neg open_]
      by_cases skip : GivenUp db slot .skippedTargetReached
      · rw [if_pos (skipped.mpr skip), if_pos skip]
      · rw [if_neg (mt skipped.mp skip), if_neg skip]
        by_cases limit : GivenUp db slot .activeTimeLimit
        · rw [if_pos (given.mpr (.inr limit)), if_pos limit]
        · rw [if_neg (mt given.mp (not_or.mpr ⟨skip, limit⟩)), if_neg limit]
          by_cases some : ∃ a ∈ db.attempts, a.slotId = slot
          · rw [if_neg (fun none => tried.mp none some), if_pos some]
          · rw [if_pos (tried.mpr some), if_neg some]

end States

/-! ## The schedule -/

theorem slotProgress_disposition {db : Db} (h : Integrity db) (sequenced : Sequenced db)
    (slot : RecordId .resolvedAttemptSlot) : (slotProgress db slot).disposition.isSome = true ↔
      GivenUp db slot .skippedTargetReached ∨ GivenUp db slot .activeTimeLimit := by
  have given : (∃ d ∈ db.freshDispositions, d.slotId = slot) ↔
      GivenUp db slot .skippedTargetReached ∨ GivenUp db slot .activeTimeLimit := by
    constructor
    · rintro ⟨d, member, at_⟩
      cases reason : d.reason with
      | skippedTargetReached => exact .inl ⟨d, member, at_, reason⟩
      | activeTimeLimit => exact .inr ⟨d, member, at_, reason⟩
    · rintro (⟨d, member, at_, -⟩ | ⟨d, member, at_, -⟩)
      · exact ⟨d, member, at_⟩
      · exact ⟨d, member, at_⟩
  rw [← given]
  unfold slotProgress
  by_cases layout : supported db
  · simp only [if_pos layout, Option.isSome_map, List.find?_isSome, decide_eq_true_eq]
  · simp only [if_neg layout, Option.isSome_none, Bool.false_eq_true, false_iff]
    rintro ⟨d, member, -⟩
    exact layout (supported_of_givenUp h sequenced member)

theorem slotProgress_attempts {db : Db} (slot : RecordId .resolvedAttemptSlot) :
    0 < (slotProgress db slot).attempts ↔ ∃ a ∈ db.attempts, a.slotId = slot := by
  simp [slotProgress, List.length_pos_iff_exists_mem]

/-- A slot stays in the schedule of a run by the state its rows amount to. -/
theorem scheduled_iff {db : Db} (h : Integrity db) (sequenced : Sequenced db) (disposed : Disposed db)
    (slot : RecordId .resolvedAttemptSlot) :
    (scheduled (slotProgress db slot) false = true ↔ storedState db slot = "pending") ∧
      (scheduled (slotProgress db slot) true = true ↔ storedState db slot ≠ "satisfied" ∧
        storedState db slot ≠ "skipped_target_reached" ∧ storedState db slot ≠ "censored") := by
  have accepted : (slotProgress db slot).accepted = true ↔ satisfied db slot := decide_eq_true_iff
  have given := slotProgress_disposition h sequenced slot
  have tried := @slotProgress_attempts db slot
  have closed : ∀ reason, GivenUp db slot reason → ¬Unsettled db slot := by
    rintro reason ⟨d, member, rfl, -⟩ ⟨a, known, at_, open_⟩
    exact (disposed.closed d member).2 a known at_ open_
  have open_tried : Unsettled db slot → ∃ a ∈ db.attempts, a.slotId = slot := by
    rintro ⟨a, known, at_, -⟩
    exact ⟨a, known, at_⟩
  have once : scheduled (slotProgress db slot) false = true ↔
      ¬satisfied db slot ∧ ¬(GivenUp db slot .skippedTargetReached ∨ GivenUp db slot .activeTimeLimit) ∧
        ¬∃ a ∈ db.attempts, a.slotId = slot := by
    rw [← accepted, ← given, ← tried]
    simp [scheduled, and_assoc]
  have again : scheduled (slotProgress db slot) true = true ↔
      ¬satisfied db slot ∧ ¬(GivenUp db slot .skippedTargetReached ∨ GivenUp db slot .activeTimeLimit) := by
    rw [← accepted, ← given]
    simp [scheduled]
  rw [once, again]
  unfold storedState
  by_cases satisfied' : satisfied db slot
  · simp [satisfied']
  by_cases open_ : Unsettled db slot
  · have skip : ¬GivenUp db slot .skippedTargetReached := fun given => closed _ given open_
    have limit : ¬GivenUp db slot .activeTimeLimit := fun given => closed _ given open_
    have some := open_tried open_
    simp only [if_neg satisfied', if_pos open_, satisfied', skip, limit, some]
    simp
  · by_cases skip : GivenUp db slot .skippedTargetReached
    · simp [satisfied', open_, skip]
    · by_cases limit : GivenUp db slot .activeTimeLimit
      · simp [satisfied', open_, skip, limit]
      · by_cases some : ∃ a ∈ db.attempts, a.slotId = slot
        · simp [satisfied', open_, skip, limit, some]
        · simp [satisfied', open_, skip, limit, some]

/-! ## Recovery -/

/-- The attempt is one recovery would take over at the clock. -/
def Recoverable (hash : Hasher) (db : Db) (now : Nat) (a : AttemptRow) : Prop :=
  ∃ taken, Tx.Yields (expiredAttempt hash a.id now) db (some taken) db

theorem recoverable_iff {hash : Hasher} {db : Db} (sound : Sound hash db) {now : Nat} {a : AttemptRow}
    (member : a ∈ db.attempts) : Recoverable hash db now a ↔ ∃ l, Expired db now a l := by
  constructor
  · rintro ⟨taken, run⟩
    rcases yields_expiredAttempt run with ⟨none, -⟩ | ⟨b, l, same, expired, -⟩
    · cases none
    · rw [sound.attemptIds.eq_of_key expired.member member same] at expired
      exact ⟨l, expired⟩
  · rintro ⟨l, expired⟩
    cases found : expiredRow db a.id now with
    | none => exact absurd expired (expiredRow_none found rfl)
    | some row =>
        obtain ⟨same, expired'⟩ := expiredRow_some found
        refine ⟨(⟨a.id, row.1.slotId, row.1.retryIndex, row.1.revision, row.1.updatedAtNs, row.2.id,
          row.2.ownerToken⟩, row.1.state), ?_⟩
        have identity := sound.identities row.1 expired'.member
        simp only [expiredAttempt, Tx.yields_get_bind, found, Tx.yields_check_bind, Tx.yields_require_bind,
          Tx.yields_pure]
        refine ⟨row.1.id, ?_, same, ?_, trivial⟩
        · rw [identity]
          rfl
        · rw [same]

/-- The reservation lease alone decides which unfinished attempts have lapsed: while it is ahead of the
clock, the last transition lies before its end and the lease of a claim of the attempt runs as well. -/
def LeaseDecides (db : Db) (now : Nat) : Prop :=
  ∀ a ∈ db.attempts, a.finishedAtNs = none → ∀ l ∈ db.leases, l.attemptId = a.id → l.purpose = .reservation →
    l.releasedAtNs = none → now < l.expiresAtNs → a.updatedAtNs < l.expiresAtNs ∧
      ∀ c ∈ db.finalizationClaims, c.attemptId = a.id → ∀ f ∈ db.leases, f.id = c.leaseId →
        f.releasedAtNs = none ∧ max now a.updatedAtNs < f.expiresAtNs

instance (db : Db) (now : Nat) : Decidable (LeaseDecides db now) := by
  unfold LeaseDecides
  infer_instance

theorem required_iff {hash : Hasher} {db : Db} (sound : Sound hash db) (tenure : Tenure db) {now : Nat}
    {a : AttemptRow} (member : a ∈ db.attempts) {l : LeaseRow} (held : l ∈ db.leases)
    (attempt : l.attemptId = a.id) (purpose : l.purpose = .reservation) :
    (Required db now a ↔ Recoverable hash db now a) ↔
      (a.finishedAtNs = none → l.releasedAtNs = none → now < l.expiresAtNs → ¬Lapsed db a l now) := by
  have only : ∀ m, Expired db now a m → m = l := fun m expired =>
    tenure.lease_eq sound.toIntegrity expired.lease held expired.purpose purpose (expired.attempt.trans attempt.symm)
  have lapsed : Recoverable hash db now a ↔ a.finishedAtNs = none ∧ Lapsed db a l now := by
    rw [recoverable_iff sound member]
    constructor
    · rintro ⟨m, expired⟩
      rw [only m expired] at expired
      exact ⟨expired.active, expired.lapsed⟩
    · rintro ⟨active, lapsed⟩
      exact ⟨l, member, held, attempt, purpose, active, lapsed⟩
  rw [lapsed, Required, leaseExpiry_eq sound.toIntegrity tenure held attempt purpose]
  by_cases active : a.finishedAtNs = none
  · by_cases live : l.releasedAtNs = none
    · simp only [active, live, if_true, true_and, forall_true_left, Option.some.injEq, forall_eq']
      have past : l.expiresAtNs ≤ now → Lapsed db a l now := fun past => .inr (.inl (by omega))
      constructor
      · intro agree ahead lapsed
        exact absurd (agree.mpr lapsed) (by omega)
      · intro kept
        refine ⟨past, fun lapsed => ?_⟩
        by_contra ahead
        exact kept (by omega) lapsed
    · have gone : Lapsed db a l now := .inl live
      simp [active, live, gone]
  · simp [active]

/-! ## The views -/

/-- What inspection marks is what recovery would take over. -/
def RecoveryAgrees (hash : Hasher) (db : Db) (now : Nat) (report : StatusReport) : Prop :=
  ∀ a ∈ db.attempts, ∃ status ∈ report.attempts, status.id = a.id.text ∧
    (status.recoveryRequired = true ↔ Recoverable hash db now a)

/-- Inspection, the analysis export and the schedule derive one state of every measured slot. -/
def SlotsAgree (db : Db) (report : StatusReport) : Prop :=
  ∀ s ∈ db.attemptSlots, s.role = .measurement → ∃ status ∈ report.slots, status.resolvedSlotId = s.id.text ∧
    (∀ graph specifications progress attempts, traverseAll (exportAttempt graph) (readStore db).attempt = .ok attempts →
      Export.slotState attempts (analysisTables graph (readStore db) specifications progress) s.id.text =
        status.state.exported) ∧
    (scheduled (slotProgress db s.id) false = true ↔ status.state = .pending) ∧
    (scheduled (slotProgress db s.id) true = true ↔ status.state ≠ .satisfied ∧
      status.state ≠ .skippedTargetReached ∧ status.state ≠ .censored)

/-- Every view of the store at the clock tells the same. -/
def ViewsAgree (hash : Hasher) (db : Db) (now : Nat) : Prop :=
  ∃ report, addSnapshot (readStore db) now = .ok report ∧ RecoveryAgrees hash db now report ∧ SlotsAgree db report

section Reachable

variable {hash : Hasher} {w : World} (reach : Reachable hash w) {now : Nat} {report : StatusReport}
  (rows : Reported w.db now report)

include reach rows in
theorem slotsAgree_of_reported : SlotsAgree w.db report := by
  have h := reach.sound.db.toIntegrity
  intro s member measured
  obtain ⟨status, inside, named⟩ := rows.slots s member measured
  have state := rows.states status inside
  rw [named] at state
  have stored := slotState_exported h reach.sequenced rows s.id
  rw [← state] at stored
  obtain ⟨once, again⟩ := scheduled_iff h reach.sequenced reach.disposed s.id
  rw [← stored] at once again
  refine ⟨status, inside, named, fun graph specifications progress attempts ran => ?_, ?_, ?_⟩
  · rw [exported_slotState h reach.sequenced ran s.id, stored]
  · rw [once]
    cases status.state <;> decide
  · rw [again]
    cases status.state <;> decide

include reach rows in
theorem recoveryAgrees_iff : RecoveryAgrees hash w.db now report ↔ LeaseDecides w.db now := by
  have sound := reach.sound.db
  have marks : RecoveryAgrees hash w.db now report ↔
      ∀ a ∈ w.db.attempts, (Required w.db now a ↔ Recoverable hash w.db now a) := by
    constructor
    · intro agrees a member
      obtain ⟨status, inside, named, same⟩ := agrees a member
      obtain ⟨b, known, rfl⟩ := (rows.attempts status).mp inside
      obtain rfl := sound.attemptIds.eq_of_key known member (RecordId.text_injective named)
      rw [← same]
      simp [rowStatus]
    · intro same a member
      refine ⟨rowStatus w.db now a, (rows.attempts _).mpr ⟨a, member, rfl⟩, rfl, ?_⟩
      rw [← same a member]
      simp [rowStatus]
  rw [marks]
  constructor
  · intro same a member active l held attempt purpose live ahead
    have kept := (required_iff sound reach.tenure member held attempt purpose).mp (same a member) active live ahead
    unfold Lapsed at kept
    push Not at kept
    obtain ⟨-, later, claims⟩ := kept
    refine ⟨by omega, fun c claim owner f lease named => ?_⟩
    exact claims c claim f lease named owner
  · intro decides a member
    obtain ⟨l, held, attempt, purpose⟩ := leasehold_of_reachable reach a member
    refine (required_iff sound reach.tenure member held attempt purpose).mpr fun active live ahead lapsed => ?_
    obtain ⟨before, claims⟩ := decides a member active l held attempt purpose live ahead
    rcases lapsed with released | past | ⟨c, claim, f, lease, named, owner, released | past⟩
    · exact released live
    · omega
    · exact released (claims c claim owner f lease named).1
    · have running := (claims c claim owner f lease named).2
      omega

end Reachable

/-- The views of a reachable store agree on every slot; they agree on what has lapsed just where the
reservation lease decides it. -/
theorem views_agree_iff {hash : Hasher} {w : World} (reach : Reachable hash w) (now : Nat) :
    (∃ report, addSnapshot (readStore w.db) now = .ok report ∧ SlotsAgree w.db report) ∧
      (ViewsAgree hash w.db now ↔ LeaseDecides w.db now) := by
  obtain ⟨report, read, rows⟩ := reported reach.sound.db now
  have slots := slotsAgree_of_reported reach rows
  refine ⟨⟨report, read, slots⟩, ?_⟩
  constructor
  · rintro ⟨report', read', agrees, -⟩
    rw [read] at read'
    obtain rfl := Except.ok.inj read'
    exact (recoveryAgrees_iff reach rows).mp agrees
  · intro decides
    exact ⟨report, read, (recoveryAgrees_iff reach rows).mpr decides, slots⟩

/-- An owner claims success under a lease that ends before its reservation. -/
def shortClaimRun : List Label := [
  .request (.registerOneShot default sampleSpecification sampleSlot sampleObservationSlot),
  .request (.reserve sampleSlot.id .firstAttempt ⟨"lease-0", "owner", 60⟩ 10),
  .request (.beginFinalization (sampleGuard 0 0 10) ⟨"claim-0", "owner", 30⟩ 11)]

theorem shortClaimRun_reachable : Reachable sampleHash (run (next sampleHash) (sampleWorld 3) shortClaimRun) :=
  ⟨_, shortClaimRun, sampleWorld_initial, rfl⟩

/-- While the claim runs, and again once the reservation has ended, the views agree. -/
theorem views_agree_shortClaim :
    ViewsAgree sampleHash (run (next sampleHash) (sampleWorld 3) shortClaimRun).db 20 ∧
      ViewsAgree sampleHash (run (next sampleHash) (sampleWorld 3) shortClaimRun).db 60 :=
  ⟨(views_agree_iff shortClaimRun_reachable 20).2.mpr (by decide +kernel),
    (views_agree_iff shortClaimRun_reachable 60).2.mpr (by decide +kernel)⟩

/-- Between the two leases recovery takes over an attempt that inspection reports as active. -/
theorem views_differ_shortClaim :
    ∃ w now, Reachable sampleHash w ∧ ¬ViewsAgree sampleHash w.db now := by
  refine ⟨run (next sampleHash) (sampleWorld 3) shortClaimRun, 40, shortClaimRun_reachable, ?_⟩
  rintro ⟨report, read, agrees, -⟩
  obtain ⟨report', read', rows⟩ := reported shortClaimRun_reachable.sound.db 40
  rw [read] at read'
  obtain rfl := Except.ok.inj read'
  have decides := (recoveryAgrees_iff shortClaimRun_reachable rows).mp agrees
  revert decides
  decide +kernel

end Metewand.Inspection
