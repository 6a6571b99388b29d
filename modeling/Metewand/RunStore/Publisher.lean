import Metewand.RunStore.Coordination

/-!
# Publication

`run_store/publisher.rs`.  A publication is a sequence of transactions with
filesystem work between them: staging takes a lease, the outcome document is
built from authoritative rows, the directory is renamed into place, and only
then does the last transaction commit the terminal state.

The filesystem work is represented by what it hands to the next transaction:
the relative path of the private stage, and the content and manifest digests of
the published directory.
-/

namespace Metewand.RunStore

open Lib

/-! ## Stages -/

/-- A private publication directory, by its lease. -/
structure Stage where
  leaseId : String
  acquiredAtNs : Nat
  deriving DecidableEq

/-- Fence the owner and lease a new stage until the reservation expires. -/
def stage (attempt : OwnedAttempt) (relative : String) (nowNs : Nat) : StoreTx Stage := do
  let now ← timestamp nowNs
  let updated ← timestamp attempt.updatedAtNs
  let _ ← fence attempt (max now updated)
  let db ← get
  Tx.each (fun l : LeaseRow => insertLeaseRow ⟨"staging:" ++ relative, l.ownerToken, l.attemptId,
      .staging, some relative, max now updated, l.expiresAtNs, none⟩)
    (db.leases.filter fun l => l.id = attempt.leaseId)
  commit
  pure ⟨"staging:" ++ relative, max now updated⟩

/-- The stage's own lease is still held by the guard's owner. -/
def StageLive (db : Db) (attempt : OwnedAttempt) (stage : Stage) (now : Nat) : Prop :=
  ∃ l ∈ db.leases, l.id = stage.leaseId ∧ l.attemptId = attempt.id ∧
    l.ownerToken = attempt.ownerToken ∧ l.purpose = .staging ∧ l.releasedAtNs = none ∧
    now < l.expiresAtNs

instance (db : Db) (attempt : OwnedAttempt) (stage : Stage) (now : Nat) :
    Decidable (StageLive db attempt stage now) := by
  unfold StageLive
  infer_instance

def checkStage (attempt : OwnedAttempt) (stage : Stage) (now : Nat) : StoreTx Unit := do
  let now ← timestamp now
  let _ ← fence attempt now
  let db ← get
  Tx.require (StageLive db attempt stage now) .staleAttempt

def releaseStage (stage : Stage) (now : Nat) : StoreTx Unit := do
  let now ← timestamp now
  releaseLeases (fun l => l.id = stage.leaseId) fun _ => now

/-- `INSERT INTO artifacts … ON CONFLICT(id) DO NOTHING`. -/
def ensureArtifact (row : ArtifactRow) : StoreTx Unit := do
  let db ← get
  if ∃ a ∈ db.artifacts, a.id = row.id then pure ()
  else insertArtifact row

/-- Register a published directory; an existing registration must agree. -/
def registerArtifact (artifact : ArtifactRegistration) (kind : ArtifactKind) : StoreTx Unit := do
  let verified ← timestamp artifact.verifiedAtNs
  ensureArtifact ⟨artifact.id, kind, artifact.relativePath, artifact.contentSha256,
    .directory, some artifact.manifestSha256, verified⟩
  let db ← get
  let existing ← Tx.expect (db.artifacts.find? fun a => a.id = artifact.id)
    (invalid "registered artifact metadata conflicts with published content")
  Tx.require (existing.kind = kind ∧ existing.relativePath = artifact.relativePath ∧
    existing.contentSha256 = artifact.contentSha256 ∧ existing.storageKind = .directory ∧
    existing.manifestSha256 = some artifact.manifestSha256)
    (invalid "registered artifact metadata conflicts with published content")

/-- What `publish_stage` reports for a directory of the given kind and digests. -/
def publishStage (kind : ArtifactKind) (content manifest : Digest) (verifiedAtNs : Nat) :
    ArtifactRegistration :=
  let name := kind.name ++ "-" ++ content.hex
  ⟨"run-store-v1:" ++ name, "artifacts/" ++ name, content, manifest, verifiedAtNs⟩

/-- The last transaction of `publish_artifact`. -/
def publishArtifact (attempt : OwnedAttempt) (kind : ArtifactKind) (stage : Stage)
    (content manifest : Digest) (clock : Nat) : StoreTx ArtifactRegistration := do
  let now := max clock stage.acquiredAtNs
  let artifact := publishStage kind content manifest now
  checkStage attempt stage now
  registerArtifact artifact kind
  insertLeasedArtifact ⟨attempt.leaseId, artifact.id⟩
  releaseStage stage now
  commit
  pure artifact

/-! ## The coordination snapshot -/

/-- Every row read back from the database is a canonical value. -/
def canonicalRows : List Json → Except RunStoreError (List Json)
  | [] => .ok []
  | row :: rest =>
      match canonicalPayload row, canonicalRows rest with
      | .ok row, .ok rest => .ok (row :: rest)
      | .error e, _ => .error e
      | _, .error e => .error e

/-- The slots of the attempts with this identity. -/
def slotJoin (db : Db) (id : RecordId .attempt) : List AttemptSlotRow :=
  db.attemptSlots.flatMap fun s =>
    (db.attempts.filter fun a => a.id = id ∧ a.slotId = s.id).map fun _ => s

def runJoin (db : Db) (id : RecordId .attempt) : List RunRow :=
  (slotJoin db id).flatMap fun s => db.resolvedRuns.filter fun r => r.id = s.resolvedRunId

def decisionJoin (db : Db) (id : RecordId .attempt) : List DecisionRow :=
  (runJoin db id).flatMap fun r =>
    db.applicabilityDecisions.filter fun d => d.id = r.applicabilityId

/-- The observation slots bound to the attempt's slot. -/
def boundSlots (db : Db) (id : RecordId .attempt) : List (RecordId .resolvedObservationSlot) :=
  db.attempts.flatMap fun a =>
    ((db.attemptObservationSlots.filter fun m => a.id = id ∧ m.attemptSlotId = a.slotId).map
      MembershipRow.observationSlotId)

def observationSlotJoin (db : Db) (id : RecordId .attempt) : List ObservationSlotRow :=
  (db.observationSlots.flatMap fun o =>
    ((boundSlots db id).filter fun bound => bound = o.id).map fun _ => o).insertionSort
      fun a b => a.id.le b.id

/-- An observation with the time of its selection, if it has one. -/
structure ObservationEntry where
  row : ObservationRow
  selectedAtNs : Option Nat

/-- `observations LEFT JOIN selected_observations`. -/
def observationEntries (db : Db) : List ObservationEntry :=
  db.observations.flatMap fun o =>
    match db.selectedObservations.filter fun s => s.observationId = o.id with
    | [] => [⟨o, none⟩]
    | selections => selections.map fun s => ⟨o, some s.selectedAtNs⟩

/-- The attempt's observations, and with `includeSelected` also the selected
observations of the slots bound to its attempt slot. -/
def observationJoin (db : Db) (id : RecordId .attempt) (includeSelected : Bool) :
    List ObservationEntry :=
  ((observationEntries db).filter fun e => e.row.producingAttemptId = id ∨
    (includeSelected = true ∧ e.selectedAtNs.isSome = true ∧
      e.row.slotId ∈ boundSlots db id)).insertionSort fun a b => a.row.id.le b.row.id

def attemptSlotJson (s : AttemptSlotRow) : Json :=
  .object [
    ("id", s.id.json),
    ("logical_slot_id", s.logicalSlotId.json),
    ("resolved_run_id", s.resolvedRunId.json),
    ("kind", .str s.kind.name),
    ("role", .str s.role.name),
    ("record", s.recordJson)]

def runJson (r : RunRow) : Json :=
  .object [
    ("id", r.id.json),
    ("logical_specification_id", r.logicalSpecificationId.json),
    ("candidate_id", r.candidateId.json),
    ("applicability_id", .str r.applicabilityId.text),
    ("record", r.recordJson)]

def decisionJson (d : DecisionRow) : Json :=
  .object [
    ("id", .str d.id.text),
    ("candidate_id", d.candidateId.json),
    ("applicable", .nat d.applicable.toNat),
    ("record", d.recordJson)]

def observationSlotJson (o : ObservationSlotRow) : Json :=
  .object [
    ("id", o.id.json),
    ("logical_slot_id", o.logicalSlotId.json),
    ("resolved_run_id", o.resolvedRunId.json),
    ("record", o.recordJson)]

def ObservationEntry.json (e : ObservationEntry) : Json :=
  .object [
    ("id", e.row.id.json),
    ("slot_id", e.row.slotId.json),
    ("producing_attempt_id", e.row.producingAttemptId.json),
    ("valid", .nat e.row.valid.toNat),
    ("completion", .str e.row.completion.name),
    ("artifact_id", .str e.row.artifactId),
    ("record", e.row.recordJson),
    ("selected_at_ns", .ofOption (fun at_ => .str (toString at_)) e.selectedAtNs)]

/-- Outcomes whose documents name the selections of the slot. -/
def TerminalOutcome.includesSelected : TerminalOutcome → Bool
  | .accepted | .censored _ => true
  | _ => false

/-- Kinds whose document states the selections the commit is about to make. -/
def SlotKind.predictsSelection : SlotKind → Bool
  | .buffered | .freshObservation => true
  | _ => false

/-- The attempt's own observations are given the finish time as selection time. -/
def predictSelection (id : RecordId .attempt) (finished : Nat) (e : ObservationEntry) :
    ObservationEntry :=
  if e.row.producingAttemptId = id then { e with selectedAtNs := some finished } else e

/-- The observation entries a document of this outcome shows. -/
def documentEntries (db : Db) (attempt : OwnedAttempt) (outcome : TerminalOutcome)
    (finished : Nat) : List ObservationEntry :=
  let entries := observationJoin db attempt.id outcome.includesSelected
  if outcome = .accepted ∧ (slotJoin db attempt.id).head?.any (fun s => s.kind.predictsSelection)
  then entries.map (predictSelection attempt.id finished)
  else entries

/-- The five row lists of a snapshot. -/
def snapshotRows (db : Db) (id : RecordId .attempt) (entries : List ObservationEntry) :
    List (String × List Json) :=
  [("attempt_slots", (slotJoin db id).map attemptSlotJson),
    ("resolved_runs", (runJoin db id).map runJson),
    ("applicability_decisions", (decisionJoin db id).map decisionJson),
    ("observation_slots", (observationSlotJoin db id).map observationSlotJson),
    ("observations", entries.map ObservationEntry.json)]

/-- The row lists as members of a document. -/
def canonicalMembers : List (String × List Json) → Except RunStoreError (List (String × Json))
  | [] => .ok []
  | (key, rows) :: rest =>
      match canonicalRows rows, canonicalMembers rest with
      | .ok rows, .ok rest => .ok ((key, .arr rows) :: rest)
      | .error e, _ => .error e
      | _, .error e => .error e

def coordinationSnapshot (attempt : OwnedAttempt) (outcome : TerminalOutcome) (finished : Nat) :
    StoreTx Json := do
  let db ← get
  let members ← Tx.check (canonicalMembers
    (snapshotRows db attempt.id (documentEntries db attempt outcome finished)))
  let fresh ← freshSnapshot attempt outcome
  match fresh with
  | some fresh => pure ((Json.object members).set "fresh" fresh)
  | none => pure (.object members)

/-! ## The outcome document -/

/-- Lexicographic order of dependency references. -/
def referenceLe (a b : String × String) : Prop := a.1 < b.1 ∨ (a.1 = b.1 ∧ a.2 ≤ b.2)

instance : DecidableRel referenceLe := fun a b => by
  unfold referenceLe
  infer_instance

/-- Some reference is directly followed by an equal one. -/
def adjacentDuplicate : List (String × String) → Bool
  | a :: b :: rest => a == b || adjacentDuplicate (b :: rest)
  | _ => false

def sortReferences (references : List (String × String)) :
    Except RunStoreError (List (String × String)) :=
  let references := references.insertionSort referenceLe
  if adjacentDuplicate references = true ∨
      references.any (fun r => trim r.1.toList = [] ∨ r.1 = "final") = true then
    .error (invalid "dependency roles must be nonempty, non-final, and unique per artifact")
  else .ok references

def dependencyJson (role : String) (a : ArtifactRow) : Json :=
  .object [
    ("role", .str role),
    ("id", .str a.id),
    ("kind", .str a.kind.name),
    ("relative_path", .str a.relativePath),
    ("content_sha256", .str a.contentSha256.hex),
    ("storage_kind", .str a.storageKind.name),
    ("manifest_sha256", .ofOption (fun digest => .str digest.hex) a.manifestSha256)]

/-- The registered artifact of each reference. -/
def dependencies (db : Db) : List (String × String) → Except RunStoreError (List Json)
  | [] => .ok []
  | (role, id) :: rest =>
      match db.artifacts.find? (fun a => a.id = id), dependencies db rest with
      | some a, .ok rest => .ok (dependencyJson role a :: rest)
      | some _, .error e => .error e
      | none, _ => .error (invalid "dependency is not registered")

/-- The fields of an outcome document. -/
def outcomeFields (db : Db) (attempt : OwnedAttempt) (outcome : TerminalOutcome)
    (details : Json) (references : List Json) (started finished : Nat) (coordination : Json) :
    Json :=
  .object [
    ("run_store_version", .nat db.userVersion),
    ("attempt_id", attempt.id.json),
    ("slot_id", attempt.slot.json),
    ("retry_index", .nat attempt.retryIndex),
    ("finalizing_revision", .nat attempt.revision),
    ("state", .str outcome.state.name),
    ("details", details),
    ("started_at_ns", .str (toString started)),
    ("finished_at_ns", .str (toString finished)),
    ("references", .arr references),
    ("coordination", coordination)]

/-- The immutable document that binds an outcome to the authoritative rows. -/
def buildOutcomeDocument (attempt : OwnedAttempt) (outcome : TerminalOutcome)
    (references : List (String × String)) (finished : Nat) : StoreTx Json := do
  let references ← Tx.check (sortReferences references)
  let db ← get
  let dependencies ← Tx.check (dependencies db references)
  let row ← Tx.expect (db.attempts.find? fun a => a.id = attempt.id)
    (.sqlite .queryReturnedNoRows)
  let coordination ← coordinationSnapshot attempt outcome finished
  let details ← Tx.check outcome.details
  Tx.check (canonicalPayload
    (outcomeFields db attempt outcome details dependencies row.startedAtNs finished coordination))

/-- The second transaction of `publish_finalization`. -/
def outcomeDocument (attempt : OwnedAttempt) (outcome : TerminalOutcome)
    (references : List (String × String)) (finished : Nat) (stage : Stage) : StoreTx Json := do
  let now ← timestamp finished
  checkStage attempt stage finished
  validateFinalization attempt outcome now
  let document ← buildOutcomeDocument attempt outcome references finished
  commit
  pure document

/-- The last transaction of `publish_finalization`. -/
def publishFinalization (attempt : OwnedAttempt) (outcome : TerminalOutcome)
    (references : List (String × String)) (finished : Nat) (stage : Stage) (document : Json)
    (content manifest : Digest) (clock : Nat) : StoreTx TerminalAttempt := do
  let now := max clock finished
  let artifact := publishStage .attempt content manifest now
  checkStage attempt stage now
  let snapshot ← coordinationSnapshot attempt outcome finished
  Tx.require (snapshot = document.get "coordination")
    (invalid "coordination records changed during publication")
  let terminal ← commitFinalizationIn attempt outcome artifact references finished now
  commit
  pure terminal

end Metewand.RunStore
