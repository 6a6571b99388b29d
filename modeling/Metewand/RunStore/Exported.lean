import Metewand.Archive.Indexes
import Metewand.RunStore.Integrity
import Metewand.RunStore.Reader

/-!
# The rows an export carries

Whatever the fresh tables hold, an exported archive has exactly the rows of the
other tables (`Exported`), and the validator's indexes of them exist because the
keys of the schema spell different texts (`exists_indexes`).
-/

namespace Metewand.RunStore

open Lib Archive Check

theorem text_append_cancel {start a b : String} (same : start ++ a = start ++ b) : a = b := by
  have chars := congrArg String.toList same
  rw [String.toList_append, String.toList_append] at chars
  exact String.toList_injective (List.append_cancel_left chars)

theorem DecisionId.text_decided (id : RecordId .applicability) :
    (DecisionId.decided id).text = id.text := rfl

theorem DecisionId.text_unconditional (candidate : RecordId .logicalCandidate) :
    (DecisionId.unconditional candidate).text = "run-store-v1:unconditional:" ++ candidate.text := rfl

/-- Two keys of decisions never share a text. -/
theorem DecisionId.text_injective {a b : DecisionId} (same : a.text = b.text) : a = b := by
  have heads : ∀ (id : RecordId .applicability) (candidate : RecordId .logicalCandidate),
      id.text ≠ "run-store-v1:unconditional:" ++ candidate.text := by
    intro id candidate equal
    have chars := congrArg (fun text : String => text.toList.head?) equal
    simp [RecordId.text] at chars
  cases a with
  | decided id =>
      cases b with
      | decided other =>
          rw [text_decided, text_decided] at same
          rw [RecordId.text_injective same]
      | unconditional candidate =>
          rw [text_decided, text_unconditional] at same
          exact absurd same (heads id candidate)
  | unconditional candidate =>
      cases b with
      | decided id =>
          rw [text_decided, text_unconditional] at same
          exact absurd same.symm (heads id candidate)
      | unconditional other =>
          rw [text_unconditional, text_unconditional] at same
          rw [RecordId.text_injective (text_append_cancel same)]

/-- Records that come from a fresh table. -/
def ofFreshTable : ArchiveRecord → Bool
  | .freshMember _ | .freshBudget _ | .freshDisposition _ | .freshPolicy _ | .freshSequence _ => true
  | _ => false

/-- The evidence has the rows of every table that is not a fresh one. -/
structure Exported (db : Db) (e : ArchiveEvidence) : Prop where
  applicability : e.applicability.Perm (db.applicabilityDecisions.map DecisionRow.evidence)
  runs : e.runs.Perm (db.resolvedRuns.map RunRow.evidence)
  slots : e.slots.Perm (db.attemptSlots.map AttemptSlotRow.evidence)
  observationSlots : e.observationSlots.Perm (db.observationSlots.map ObservationSlotRow.evidence)
  members : e.members.Perm (db.attemptObservationSlots.map MembershipRow.evidence)
  attempts : e.attempts.Perm (db.attempts.map (AttemptRow.evidence db))
  observations : e.observations.Perm (db.observations.map (ObservationRow.evidence db))
  selections : e.selections.Perm (db.selectedObservations.map SelectionRow.evidence)
  artifacts : e.artifacts.Perm (db.artifacts.map ArtifactRow.evidence)

theorem filterMap_fresh {α : Type} {fresh : List ArchiveRecord} {pick : ArchiveRecord → Option α}
    (only : ∀ r ∈ fresh, ofFreshTable r = true) (other : ∀ r, ofFreshTable r = true → pick r = none) :
    fresh.filterMap pick = [] :=
  List.filterMap_eq_nil_iff.mpr fun r member => other r (only r member)

theorem exported_evidenceWith {db : Db} {fresh : List ArchiveRecord}
    (only : ∀ r ∈ fresh, ofFreshTable r = true) : Exported db (evidenceWith db fresh) := by
  have skips : ∀ {α : Type} (pick : ArchiveRecord → Option α),
      (∀ r, ofFreshTable r = true → pick r = none) → fresh.filterMap pick = [] :=
    fun pick => filterMap_fresh only
  have sorted : ∀ {α : Type} (keys : α → List String) (rows : List α),
      (byTexts keys rows).Perm rows := fun keys rows => List.perm_insertionSort _ rows
  have sortedBy : ∀ {α : Type} (first : α → String) (second : α → Nat) (rows : List α),
      (byTextNat first second rows).Perm rows := fun first second rows =>
    List.perm_insertionSort _ rows
  -- every other segment of the archive holds records of another kind
  constructor <;>
    simp only [ArchiveEvidence.applicability, ArchiveEvidence.runs, ArchiveEvidence.slots,
      ArchiveEvidence.observationSlots, ArchiveEvidence.members, ArchiveEvidence.attempts,
      ArchiveEvidence.observations, ArchiveEvidence.selections, ArchiveEvidence.artifacts,
      evidenceWith, List.filterMap_append, List.filterMap_map] <;>
    rw [skips _ (by intro r; cases r <;> simp [ofFreshTable])] <;>
    simp [Function.comp_def, sorted, sortedBy]

/-- An export has the rows of the store. -/
theorem exported_of_archiveEvidence {db db' : Db} {e : ArchiveEvidence}
    (run : Tx.Yields archiveEvidence db e db') : Exported db e := by
  simp only [archiveEvidence, Tx.yields_get_bind, Tx.yields_ite, Tx.yields_expect_bind,
    Tx.yields_pure] at run
  rcases run with ⟨-, members, -, run⟩ | ⟨-, rfl, -⟩
  · obtain ⟨progress, mid, -, rfl, -⟩ := Tx.yields_bind.mp run
    refine exported_evidenceWith fun r member => ?_
    simp only [freshEvidence, List.mem_append, List.mem_map] at member
    rcases member with (((⟨_, -, rfl⟩ | ⟨_, -, rfl⟩) | ⟨_, -, rfl⟩) | ⟨_, -, rfl⟩) | ⟨_, -, rfl⟩ <;>
      rfl
  · exact exported_evidenceWith fun _ member => absurd member List.not_mem_nil

/-! ## Indexes -/

/-- The validator's indexes hold the rows of the store. -/
structure IndexesOf (db : Db) (i : Indexes) : Prop where
  applicability : Lists db.applicabilityDecisions (fun d => d.evidence.value) (fun d => d.id.text)
    i.applicability
  runs : Lists db.resolvedRuns (fun r => r.evidence.value) (fun r => r.id.text) i.runs
  slots : Lists db.attemptSlots (fun s => s.evidence.value) (fun s => s.id.text) i.slots
  observationSlots : Lists db.observationSlots (fun s => s.evidence.value) (fun s => s.id.text)
    i.observationSlots
  attempts : Lists db.attempts (fun a => (a.evidence db).value) (fun a => a.id.text) i.attempts
  observations : Lists db.observations (fun o => (o.evidence db).value) (fun o => o.id.text)
    i.observations
  members : Lists db.attemptObservationSlots (fun m => m.evidence.value)
    (fun m => m.observationSlotId.text) i.members

/-- Rows with different keys spell different texts, so they can be indexed. -/
theorem exists_index_of_rows {α β κ : Type} {rows : List α} {key : α → κ} {spell : κ → String}
    {records : List β} {make : α → β} (value : β → Json) (name : String) (f : β → String)
    (keyed : Keyed key rows) (injective : ∀ {a b}, spell a = spell b → a = b)
    (exported : records.Perm (rows.map make)) (field : ∀ x, (value x).get name = .str (f x))
    (spelled : ∀ row, f (make row) = spell (key row)) :
    ∃ m, index (records.map value) name = .ok m ∧
      Lists rows (fun row => value (make row)) (fun row => f (make row)) m := by
  have nodup : (records.map f).Nodup := by
    rw [(exported.map f).nodup_iff, List.map_map]
    have same : f ∘ make = spell ∘ key := funext spelled
    rw [same, ← List.map_map]
    exact List.Nodup.map (fun _ _ equal => injective equal) keyed
  obtain ⟨m, built⟩ := exists_index field nodup
  exact ⟨m, built, ((lists_of_index field built).of_perm exported).of_map⟩

theorem exists_indexes {db : Db} {e : ArchiveEvidence} (h : Integrity db) (rows : Exported db e) :
    ∃ i, buildIndexes e = .ok i ∧ IndexesOf db i := by
  obtain ⟨applicability, builtA, listsA⟩ := exists_index_of_rows ApplicabilityEvidence.value
    "id" ApplicabilityEvidence.id h.decisionIds DecisionId.text_injective rows.applicability
    (fun x => by simp [ApplicabilityEvidence.value]) (fun _ => rfl)
  obtain ⟨runs, builtR, listsR⟩ := exists_index_of_rows ResolvedSpecificationEvidence.value
    "id" ResolvedSpecificationEvidence.id h.runIds RecordId.text_injective rows.runs
    (fun x => by simp [ResolvedSpecificationEvidence.value]) (fun _ => rfl)
  obtain ⟨slots, builtS, listsS⟩ := exists_index_of_rows AttemptSlotEvidence.value
    "id" AttemptSlotEvidence.id h.attemptSlotIds RecordId.text_injective rows.slots
    (fun x => by simp [AttemptSlotEvidence.value]) (fun _ => rfl)
  obtain ⟨places, builtP, listsP⟩ := exists_index_of_rows ObservationSlotEvidence.value
    "id" ObservationSlotEvidence.id h.observationSlotIds RecordId.text_injective
    rows.observationSlots
    (fun x => by simp [ObservationSlotEvidence.value]) (fun _ => rfl)
  obtain ⟨attempts, builtT, listsT⟩ := exists_index_of_rows AttemptEvidence.value
    "id" AttemptEvidence.id h.attemptIds RecordId.text_injective rows.attempts
    (fun x => by simp [AttemptEvidence.value]) (fun _ => rfl)
  obtain ⟨observations, builtO, listsO⟩ := exists_index_of_rows ObservationEvidence.value
    "id" ObservationEvidence.id h.observationIds RecordId.text_injective rows.observations
    (fun x => by simp [ObservationEvidence.value]) (fun _ => rfl)
  obtain ⟨artifacts, builtF, -⟩ := exists_index_of_rows StoredArtifactEvidence.value
    "id" StoredArtifactEvidence.id h.artifactIds (fun same => id same) rows.artifacts
    (fun x => by simp [StoredArtifactEvidence.value]) (fun _ => rfl)
  obtain ⟨members, builtM, listsM⟩ := exists_index_of_rows SlotMembershipEvidence.value
    "observation_slot_id" SlotMembershipEvidence.observationSlotId h.membershipIds
    RecordId.text_injective rows.members
    (fun x => by simp [SlotMembershipEvidence.value]) (fun _ => rfl)
  obtain ⟨selections, builtL, -⟩ := exists_index_of_rows SelectionEvidence.value
    "observation_id" SelectionEvidence.observationId h.selectionObservations
    RecordId.text_injective rows.selections
    (fun x => by simp [SelectionEvidence.value]) (fun _ => rfl)
  refine ⟨⟨applicability, runs, slots, places, attempts, observations, artifacts, members,
    selections⟩, ?_, ⟨listsA, listsR, listsS, listsP, listsT, listsO, listsM⟩⟩
  simp only [buildIndexes, builtA, builtR, builtS, builtP, builtT, builtO, builtF, builtM, builtL]
  rfl

end Metewand.RunStore
