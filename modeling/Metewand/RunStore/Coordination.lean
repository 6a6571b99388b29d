import Metewand.RunStore.Attempts

/-!
# Registration

`run_store/coordination.rs`: immutable support decisions, resolved runs and slots,
and observations with their optional selection.
-/

namespace Metewand.RunStore

open Lib

section Registration

variable (hash : Hasher)

/-- The claimed identity is the one the record hashes to. -/
def matchesIdentity {T : Type} {kind : IdentityKind} [IdentityRecord T kind]
    (identified : IdentifiedRecord T kind) : StoreTx Bool := do
  let id ← Tx.check (identityResult (recordId hash identified.record))
  pure (decide (id = identified.id))

/-- The canonical identity value of a record, as stored in `record_json`. -/
def recordJson {T : Type} {kind : IdentityKind} [IdentityRecord T kind] (record : T) :
    StoreTx Json :=
  Tx.check (identityResult (canonicalIdentity record))

/-- Persist an immutable support decision without allocating attempt slots. -/
def registerApplicability
    (decision : IdentifiedRecord ApplicabilityDecisionRecord .applicability) : StoreTx Unit := do
  let matching ← matchesIdentity hash decision
  Tx.require (matching = true ∧ decision.record.outcome ≠ .unchecked)
    (invalid "applicability decision must be resolved and match its identity")
  let record ← recordJson decision.record
  insertDecision ⟨.decided decision.id, decision.record.candidateId,
    decide (decision.record.outcome = .applicable), record⟩
  let db ← get
  let existing ← Tx.expect (db.applicabilityDecisions.find? fun d => d.id = .decided decision.id)
    (.sqlite .queryReturnedNoRows)
  Tx.require (existing.recordJson = record)
    (invalid "applicability identity has conflicting contents")
  commit

/-- The record synthesized for a run that declares no support check. -/
def unconditionalRecord (candidate : RecordId .logicalCandidate) : Json :=
  .object [
    ("candidate_id", candidate.json),
    ("applicable", .bool true),
    ("outcome", .str "applicable"),
    ("code", .str "unconditional_one_shot"),
    ("reason", .str "The implementation declares support for every admitted configuration."),
    ("checked_inputs", .null),
    ("basis", .str "unconditional_one_shot")]

/-- The decision a run rests on: its registered one, or the unconditional one. -/
def resolveDecision (candidate : RecordId .logicalCandidate)
    (run : ResolvedOneShotSpecificationRecord) : StoreTx DecisionId := do
  match run.applicability with
  | some decision => do
      let db ← get
      Tx.require (∃ d ∈ db.applicabilityDecisions, d.id = .decided decision ∧
        d.candidateId = candidate ∧ d.applicable = true)
        (invalid "run requires a registered applicable decision")
      pure (.decided decision)
  | none => do
      insertDecision ⟨.unconditional candidate, candidate, true, unconditionalRecord candidate⟩
      pure (.unconditional candidate)

/-- Register one further observation slot of the execution. -/
def registerExtra (run : RecordId .resolvedSpecification) (attempt : RecordId .resolvedAttemptSlot)
    (extra : IdentifiedRecord ResolvedObservationSlotRecord .resolvedObservationSlot) :
    StoreTx Unit := do
  let matching ← matchesIdentity hash extra
  Tx.require (matching = true ∧ extra.record.specification = run)
    (invalid "invalid buffered observation slot")
  let document ← recordJson extra.record
  insertObservationSlot ⟨extra.id, extra.record.logicalSlot, run, document⟩
  let db ← get
  let existing ← Tx.expect (db.observationSlots.find? fun s => s.id = extra.id)
    (.sqlite .queryReturnedNoRows)
  Tx.require (existing.recordJson = document)
    (invalid "conflicting buffered observation identity")
  insertMembership ⟨attempt, extra.id, run⟩

/-- Register a resolved run, its attempt slot and its observation slots in one
transaction; rows that exist must agree. -/
def registerExecution (candidate : RecordId .logicalCandidate)
    (run : IdentifiedRecord ResolvedOneShotSpecificationRecord .resolvedSpecification)
    (attempt : IdentifiedRecord ResolvedAttemptSlotRecord .resolvedAttemptSlot)
    (observations : List
      (IdentifiedRecord ResolvedObservationSlotRecord .resolvedObservationSlot))
    (kind : SlotKind) : StoreTx Unit := do
  let observation ← Tx.expect observations.head? (invalid "execution requires observation slots")
  let runMatches ← matchesIdentity hash run
  let attemptMatches ← matchesIdentity hash attempt
  let observationMatches ← matchesIdentity hash observation
  Tx.require (runMatches = true ∧ attemptMatches = true ∧ observationMatches = true)
    (invalid "registered record does not match its identity")
  Tx.require (attempt.record.specification = run.id ∧ observation.record.specification = run.id)
    (invalid "slot and run identities disagree")
  let decision ← resolveDecision candidate run.record
  let runRecord ← recordJson run.record
  insertRun ⟨run.id, run.record.logicalSpecification, candidate, decision, runRecord⟩
  let attemptRecord ← recordJson attempt.record
  insertAttemptSlot ⟨attempt.id, attempt.record.logicalSlot, run.id, kind, .measurement,
    attemptRecord⟩
  let observationRecord ← recordJson observation.record
  insertObservationSlot ⟨observation.id, observation.record.logicalSlot, run.id,
    observationRecord⟩
  insertMembership ⟨attempt.id, observation.id, run.id⟩
  let db ← get
  let existingRun ← Tx.expect (db.resolvedRuns.find? fun r => r.id = run.id)
    (.sqlite .queryReturnedNoRows)
  let existingSlot ← Tx.expect (db.attemptSlots.find? fun s => s.id = attempt.id)
    (.sqlite .queryReturnedNoRows)
  let existingObservation ← Tx.expect (db.observationSlots.find? fun s => s.id = observation.id)
    (.sqlite .queryReturnedNoRows)
  Tx.require (existingRun.recordJson = runRecord ∧ existingSlot.recordJson = attemptRecord ∧
    existingObservation.recordJson = observationRecord)
    (invalid "registered identity has conflicting contents")
  Tx.each (registerExtra hash run.id attempt.id) observations.tail
  let db ← get
  let slot ← Tx.expect (db.attemptSlots.find? fun s => s.id = attempt.id)
    (.sqlite .queryReturnedNoRows)
  Tx.require (slot.kind = kind) (invalid "conflicting execution delivery kind")
  commit

variable (candidate : RecordId .logicalCandidate)
  (run : IdentifiedRecord ResolvedOneShotSpecificationRecord .resolvedSpecification)
  (attempt : IdentifiedRecord ResolvedAttemptSlotRecord .resolvedAttemptSlot)

def registerOneShot
    (observation : IdentifiedRecord ResolvedObservationSlotRecord .resolvedObservationSlot) :
    StoreTx Unit :=
  registerExecution hash candidate run attempt [observation] .oneShot

def registerStreaming
    (observations : List
      (IdentifiedRecord ResolvedObservationSlotRecord .resolvedObservationSlot)) :
    StoreTx Unit := do
  let db ← get
  Tx.require (db.userVersion = 3)
    (invalid "streaming profiles require a version-3 output directory")
  registerExecution hash candidate run attempt observations .stream

def registerBuffered
    (observations : List
      (IdentifiedRecord ResolvedObservationSlotRecord .resolvedObservationSlot)) :
    StoreTx Unit := do
  let db ← get
  Tx.require (db.userVersion = 2 ∨ db.userVersion = 3)
    (invalid "buffered profiles require a new version-2 output directory")
  registerExecution hash candidate run attempt observations .buffered

/-- The first transaction of `register_fresh`; `registerMember` is the second. -/
def registerFresh
    (observation : IdentifiedRecord ResolvedObservationSlotRecord .resolvedObservationSlot) :
    StoreTx Unit := do
  let db ← get
  Tx.require (supported db) (invalid "fresh sequences require a new version-3 output directory")
  registerExecution hash candidate run attempt [observation] .freshObservation

end Registration

/-! ## Observations -/

/-- The evidence a streaming checkpoint adds to the event log. -/
def recordCheckpoint (attempt : OwnedAttempt) (observation : RecordId .observation)
    (profile : StreamingObservationRecord) (select : Bool) (now : Nat) : StoreTx Unit := do
  let db ← get
  let slot ← Tx.expect (db.attemptSlots.find? fun s => s.id = attempt.slot)
    (.sqlite .queryReturnedNoRows)
  let count := (db.events.filter fun e =>
    e.attemptId = attempt.id ∧ e.kind = .streamCheckpoint).length
  Tx.require (slot.kind = .stream ∧ select = false ∧ count = profile.checkpointSequence)
    (invalid "streaming checkpoint must commit once, in sequence, without selection")
  let payload ← Tx.check (canonicalPayload
    (.object [("observation_id", observation.json), ("checkpoint", profile.json)]))
  let _ ← insertEvent attempt.id now .streamCheckpoint payload
  pure ()

/-- Select the observation when the call asks for it and the attempt holds the claim. -/
def selectObservation (attempt : OwnedAttempt)
    (observation : IdentifiedRecord RunObservationRecord .observation) (select : Bool)
    (now : Nat) : StoreTx Unit := do
  if select = true then do
    let db ← get
    Tx.require ((db.finalizationClaims.find? fun c => c.slotId = attempt.slot).map
        ClaimRow.attemptId = some attempt.id)
      (invalid "selection requires this attempt's finalization claim")
    insertSelection ⟨observation.record.slot, observation.id, now⟩
  else pure ()

/-- A streaming profile leaves a checkpoint event; other profiles leave none. -/
def recordProfile (attempt : OwnedAttempt)
    (observation : IdentifiedRecord RunObservationRecord .observation) (select : Bool)
    (now : Nat) : StoreTx Unit :=
  match observation.record.profile with
  | some (.streaming profile) => recordCheckpoint attempt observation.id profile select now
  | _ => pure ()

/-- Register validated observation bytes and optionally select them atomically. -/
def registerObservation (hash : Hasher) (attempt : OwnedAttempt)
    (observation : IdentifiedRecord RunObservationRecord .observation)
    (artifact : ArtifactRegistration) (select : Bool) (nowNs : Nat) : StoreTx Unit := do
  let matching ← matchesIdentity hash observation
  Tx.require (matching = true) (invalid "observation record does not match its identity")
  Tx.require (observation.record.producingAttempt = attempt.id)
    (invalid "observation belongs to another attempt")
  let document ← Tx.expect (observationDocument hash observation.record).toOption
    (invalid "invalid observation document")
  let now ← timestamp nowNs
  let _ ← fence attempt now
  insertObservation ⟨observation.id, observation.record.slot, attempt.id, attempt.slot, true,
    observation.record.completion, artifact.id, document⟩
  selectObservation attempt observation select now
  recordProfile attempt observation select now
  commit

end Metewand.RunStore
