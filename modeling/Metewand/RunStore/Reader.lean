import Metewand.Archive.Evidence
import Metewand.RunStore.Fresh

/-!
# Exporting a store

`run_store/reader.rs` reads the tables of a store as JSON rows and
`runtime/evidence.rs` turns them into typed archive records, kind by kind.  The
records are given here as the typed values the rows deserialize to.  A fresh member
whose slot has no observation slot reads as `null` there, which is no text, so its
store cannot be exported.

Texts are ordered by their code points, which is the order of their UTF-8 bytes.
-/

namespace Metewand.RunStore

open Lib Archive

/-- Order of rows by text columns. -/
def byTexts {α : Type} (keys : α → List String) (rows : List α) : List α :=
  rows.insertionSort fun a b => keys a ≤ keys b

/-- Order of rows by a text and a number column. -/
def byTextNat {α : Type} (first : α → String) (second : α → Nat) (rows : List α) : List α :=
  rows.insertionSort fun a b => first a < first b ∨ (first a = first b ∧ second a ≤ second b)

def DecisionRow.evidence (d : DecisionRow) : ApplicabilityEvidence :=
  ⟨d.id.text, d.candidateId.text, d.applicable, d.recordJson⟩

def RunRow.evidence (r : RunRow) : ResolvedSpecificationEvidence :=
  ⟨r.id.text, r.logicalSpecificationId.text, r.candidateId.text, r.applicabilityId.text,
    r.recordJson⟩

def AttemptSlotRow.evidence (s : AttemptSlotRow) : AttemptSlotEvidence :=
  ⟨s.id.text, s.logicalSlotId.text, s.resolvedRunId.text, s.role.name, s.kind.name, s.recordJson⟩

def ObservationSlotRow.evidence (s : ObservationSlotRow) : ObservationSlotEvidence :=
  ⟨s.id.text, s.logicalSlotId.text, s.resolvedRunId.text, s.recordJson⟩

def MembershipRow.evidence (m : MembershipRow) : SlotMembershipEvidence :=
  ⟨m.attemptSlotId.text, m.observationSlotId.text, m.resolvedRunId.text⟩

/-- The latest expiry of the reservation leases an attempt still holds. -/
def leaseExpiry (db : Db) (id : RecordId .attempt) : Option Nat :=
  ((db.leases.filter fun l => l.attemptId = id ∧ l.purpose = .reservation ∧
    l.releasedAtNs = none).map LeaseRow.expiresAtNs).max?

def AttemptRow.evidence (db : Db) (a : AttemptRow) : AttemptEvidence :=
  ⟨a.id.text, a.slotId.text, a.retryIndex, a.state.name, a.revision, toString a.startedAtNs,
    toString a.updatedAtNs, a.finishedAtNs.map toString, a.failureCode, a.finalArtifactId,
    (leaseExpiry db a.id).map toString⟩

def TransitionRow.evidence (t : TransitionRow) : TransitionEvidence :=
  ⟨t.attemptId.text, t.revision, t.previousRevision, t.fromState.map AttemptState.name,
    t.toState.name, toString t.occurredAtNs, t.eventSequence⟩

def ObservationRow.evidence (db : Db) (o : ObservationRow) : ObservationEvidence :=
  ⟨o.id.text, o.slotId.text, o.producingAttemptId.text, o.attemptSlotId.text, o.artifactId, o.valid,
    o.completion.name, decide (∃ s ∈ db.selectedObservations, s.observationId = o.id),
    o.recordJson⟩

def SelectionRow.evidence (s : SelectionRow) : SelectionEvidence :=
  ⟨s.slotId.text, s.observationId.text, toString s.selectedAtNs⟩

def ArtifactRow.evidence (a : ArtifactRow) : StoredArtifactEvidence :=
  ⟨a.id, a.kind.name, a.relativePath, a.contentSha256.hex, a.storageKind.name,
    a.manifestSha256.map Digest.hex, toString a.verifiedAtNs⟩

def AttemptArtifactRow.evidence (x : AttemptArtifactRow) : AttemptArtifactEvidence :=
  ⟨x.attemptId.text, x.role, x.artifactId⟩

def EventKind.name : EventKind → String
  | .attemptReserved => "attempt_reserved"
  | .attemptFinalizing => "attempt_finalizing"
  | .attemptFinished => "attempt_finished"
  | .attemptTransition => "attempt_transition"
  | .streamCheckpoint => "stream_checkpoint"

def EventRow.evidence (v : EventRow) : EventEvidence :=
  ⟨v.sequence, some v.attemptId.text, toString v.occurredAtNs, v.kind.name, v.payload⟩

/-- The policy column holds the canonical text of the policy. -/
def SequenceRow.evidence (s : SequenceRow) : FreshPolicyEvidence :=
  ⟨s.resolvedRunId.text, s.measurementIndex, (s.policy.json.normalize).toOption.getD .null⟩

/-- A member with the first observation slot bound to its slot. -/
def MemberRow.evidence (db : Db) (m : MemberRow) : Option FreshMemberEvidence :=
  (db.attemptObservationSlots.find? fun x => x.attemptSlotId = m.slotId).map fun x =>
    ⟨m.slotId.text, m.resolvedRunId.text, m.measurementIndex, m.scheduleIndex, m.controlJson,
      x.observationSlotId.text⟩

def BudgetRow.evidence (b : BudgetRow) : FreshBudgetEvidence :=
  ⟨b.attemptId.text, b.reservedNs.toNat, b.chargedNs.map Int.toNat⟩

def DispositionRow.evidence (d : DispositionRow) : FreshDispositionEvidence :=
  ⟨d.slotId.text, d.reason.name, d.causingAttemptId.text⟩

/-- The rows only a version-3 store has. -/
def freshEvidence (db : Db) (members : List FreshMemberEvidence)
    (progress : List FreshSequenceProgress) : List ArchiveRecord :=
  (byTexts (fun b => [b.attemptId]) (db.freshBudget.map BudgetRow.evidence)).map .freshBudget ++
  (byTexts (fun d => [d.slotId]) (db.freshDispositions.map DispositionRow.evidence)).map
    .freshDisposition ++
  (byTexts (fun m => [m.slotId]) members).map .freshMember ++
  (byTextNat (fun p => p.resolvedRunId) (fun p => p.measurementIndex)
    (db.freshSequences.map SequenceRow.evidence)).map .freshPolicy ++
  progress.map .freshSequence

/-- The archive evidence of a store, given the rows of its fresh tables. -/
def evidenceWith (db : Db) (fresh : List ArchiveRecord) : ArchiveEvidence :=
  ⟨resultArchiveVersion,
    (byTexts (fun d => [d.id]) (db.applicabilityDecisions.map DecisionRow.evidence)).map
      .applicability ++
    ((byTextNat (fun a => a.slotId) (fun a => a.retryIndex)
      (db.attempts.map (AttemptRow.evidence db))).map .attempt) ++
    (byTexts (fun x => [x.attemptId, x.role, x.artifactId])
      (db.attemptArtifacts.map AttemptArtifactRow.evidence)).map .attemptArtifact ++
    (byTextNat (fun t => t.attemptId) (fun t => t.revision)
      (db.attemptTransitions.map TransitionRow.evidence)).map .attemptTransition ++
    (db.events.map EventRow.evidence).map .event ++
    fresh ++
    (byTexts (fun o => [o.id]) (db.observations.map (ObservationRow.evidence db))).map .observation ++
    (byTexts (fun s => [s.slotId]) (db.selectedObservations.map SelectionRow.evidence)).map
      .observationSelection ++
    (byTexts (fun s => [s.id]) (db.attemptSlots.map AttemptSlotRow.evidence)).map
      .resolvedAttemptSlot ++
    (byTexts (fun s => [s.id]) (db.observationSlots.map ObservationSlotRow.evidence)).map
      .resolvedObservationSlot ++
    (byTexts (fun r => [r.id]) (db.resolvedRuns.map RunRow.evidence)).map .resolvedSpecification ++
    (byTexts (fun m => [m.attemptSlotId, m.observationSlotId])
      (db.attemptObservationSlots.map MembershipRow.evidence)).map .slotMembership ++
    (byTexts (fun a => [a.id]) (db.artifacts.map ArtifactRow.evidence)).map .storedArtifact⟩

/-- `StoreSnapshot::read` and `archive_evidence`; the progress rows are computed anew. -/
def archiveEvidence : StoreTx ArchiveEvidence := do
  let db ← get
  if db.userVersion = 3 then do
    let members ← Tx.expect (db.freshMembers.mapM (MemberRow.evidence db))
      (invalid "invalid fresh evidence")
    let progress ← progress
    pure (evidenceWith db (freshEvidence db members progress))
  else pure (evidenceWith db [])

end Metewand.RunStore
