import Metewand.Core.Observation
import Metewand.Lib.Transaction

/-!
# Tables of the run store

The rows of `run_store/v3.sql`, kept in insertion order, and the statements the
store executes on them.  A statement checks what the schema checks (primary and
unique keys, foreign keys, `CHECK` clauses, triggers) and fails with
`SqliteError.constraint` when one of them is violated; `commit` checks the one
deferred reference.

An identity column holds the typed identity whose text the database stores.
Columns and tables that no modelled function reads or writes are left out: the
`artifact` lease purpose, `leases.attempt_id IS NULL`, `observation_artifacts`.
-/

namespace Metewand.RunStore

open Lib

/-! ## Enumerations -/

inductive AttemptState where
  | reserved | materializing | starting | preparing | executing | checkpointing
  | validating | evaluating | finalizing | accepted | censored | superseded | failed
  deriving DecidableEq, Repr

def AttemptState.name : AttemptState → String
  | .reserved => "reserved"
  | .materializing => "materializing"
  | .starting => "starting"
  | .preparing => "preparing"
  | .executing => "executing"
  | .checkpointing => "checkpointing"
  | .validating => "validating"
  | .evaluating => "evaluating"
  | .finalizing => "finalizing"
  | .accepted => "accepted"
  | .censored => "censored"
  | .superseded => "superseded"
  | .failed => "failed"

def AttemptState.terminal : AttemptState → Bool
  | .accepted | .censored | .superseded | .failed => true
  | _ => false

/-- The edges the `CHECK` of `attempt_transitions` allows. -/
def allowedTransition : AttemptState → AttemptState → Bool
  | .reserved, .materializing => true
  | .materializing, .starting => true
  | .starting, .preparing => true
  | .preparing, .executing => true
  | .executing, .checkpointing => true
  | .executing, .validating => true
  | .checkpointing, .validating => true
  | .validating, .evaluating => true
  | .evaluating, .executing => true
  | .reserved, .finalizing => true
  | .materializing, .finalizing => true
  | .starting, .finalizing => true
  | .preparing, .finalizing => true
  | .executing, .finalizing => true
  | .checkpointing, .finalizing => true
  | .validating, .finalizing => true
  | .evaluating, .finalizing => true
  | .finalizing, .accepted => true
  | .finalizing, .censored => true
  | .finalizing, .superseded => true
  | .finalizing, .failed => true
  | _, _ => false

inductive SlotKind where
  | oneShot | freshObservation | stream | buffered
  deriving DecidableEq, Repr

def SlotKind.name : SlotKind → String
  | .oneShot => "one_shot"
  | .freshObservation => "fresh_observation"
  | .stream => "stream"
  | .buffered => "buffered"

inductive SlotRole where
  | measurement | warmup
  deriving DecidableEq, Repr

def SlotRole.name : SlotRole → String
  | .measurement => "measurement"
  | .warmup => "warmup"

inductive ArtifactKind where
  | attempt | observation | result | metrics | dataset | source | environment | other
  deriving DecidableEq, Repr

def ArtifactKind.name : ArtifactKind → String
  | .attempt => "attempt"
  | .observation => "observation"
  | .result => "result"
  | .metrics => "metrics"
  | .dataset => "dataset"
  | .source => "source"
  | .environment => "environment"
  | .other => "other"

inductive StorageKind where
  | file | directory
  deriving DecidableEq, Repr

def StorageKind.name : StorageKind → String
  | .file => "file"
  | .directory => "directory"

inductive LeasePurpose where
  | reservation | staging | finalization
  deriving DecidableEq, Repr

inductive EventKind where
  | attemptReserved | attemptFinalizing | attemptFinished | attemptTransition
  | streamCheckpoint
  deriving DecidableEq, Repr

/-- The key of an applicability decision: a checked decision's identity, or the
synthesized key `run-store-v1:unconditional:<candidate>`. -/
inductive DecisionId where
  | decided (id : RecordId .applicability)
  | unconditional (candidate : RecordId .logicalCandidate)
  deriving DecidableEq

def DecisionId.text : DecisionId → String
  | .decided id => id.text
  | .unconditional candidate => "run-store-v1:unconditional:" ++ candidate.text

/-! ## Rows -/

structure DecisionRow where
  id : DecisionId
  candidateId : RecordId .logicalCandidate
  applicable : Bool
  recordJson : Json

structure RunRow where
  id : RecordId .resolvedSpecification
  logicalSpecificationId : RecordId .logicalSpecification
  candidateId : RecordId .logicalCandidate
  applicabilityId : DecisionId
  recordJson : Json

structure ObservationSlotRow where
  id : RecordId .resolvedObservationSlot
  logicalSlotId : RecordId .logicalObservationSlot
  resolvedRunId : RecordId .resolvedSpecification
  recordJson : Json

structure AttemptSlotRow where
  id : RecordId .resolvedAttemptSlot
  logicalSlotId : RecordId .logicalAttemptSlot
  resolvedRunId : RecordId .resolvedSpecification
  kind : SlotKind
  role : SlotRole
  recordJson : Json

/-- A row of `attempt_observation_slots`. -/
structure MembershipRow where
  attemptSlotId : RecordId .resolvedAttemptSlot
  observationSlotId : RecordId .resolvedObservationSlot
  resolvedRunId : RecordId .resolvedSpecification

structure ArtifactRow where
  id : String
  kind : ArtifactKind
  relativePath : String
  contentSha256 : Digest
  storageKind : StorageKind
  manifestSha256 : Option Digest
  verifiedAtNs : Nat

structure AttemptRow where
  id : RecordId .attempt
  slotId : RecordId .resolvedAttemptSlot
  retryIndex : Nat
  state : AttemptState
  revision : Nat
  startedAtNs : Nat
  updatedAtNs : Nat
  finishedAtNs : Option Nat
  failureCode : Option String
  finalArtifactId : Option String
  deriving DecidableEq

structure EventRow where
  sequence : Nat
  attemptId : RecordId .attempt
  occurredAtNs : Nat
  kind : EventKind
  payload : Json

structure TransitionRow where
  attemptId : RecordId .attempt
  revision : Nat
  previousRevision : Option Nat
  fromState : Option AttemptState
  toState : AttemptState
  occurredAtNs : Nat
  eventSequence : Nat
  deriving DecidableEq

structure LeaseRow where
  id : String
  ownerToken : String
  attemptId : RecordId .attempt
  purpose : LeasePurpose
  stagingPath : Option String
  acquiredAtNs : Nat
  expiresAtNs : Nat
  releasedAtNs : Option Nat
  deriving DecidableEq

structure ClaimRow where
  slotId : RecordId .resolvedAttemptSlot
  attemptId : RecordId .attempt
  leaseId : String
  deriving DecidableEq

structure ObservationRow where
  id : RecordId .observation
  slotId : RecordId .resolvedObservationSlot
  producingAttemptId : RecordId .attempt
  attemptSlotId : RecordId .resolvedAttemptSlot
  valid : Bool
  completion : CompletionStatus
  artifactId : String
  recordJson : Json

structure SelectionRow where
  slotId : RecordId .resolvedObservationSlot
  observationId : RecordId .observation
  selectedAtNs : Nat
  deriving DecidableEq

structure AttemptArtifactRow where
  attemptId : RecordId .attempt
  role : String
  artifactId : String
  deriving DecidableEq

structure LeasedArtifactRow where
  leaseId : String
  artifactId : String
  deriving DecidableEq

/-- A row of `fresh_sequences`; its policy stands for the canonical policy text. -/
structure SequenceRow where
  resolvedRunId : RecordId .resolvedSpecification
  measurementIndex : Nat
  policy : ProfilePolicy

structure MemberRow where
  slotId : RecordId .resolvedAttemptSlot
  resolvedRunId : RecordId .resolvedSpecification
  measurementIndex : Nat
  scheduleIndex : Nat
  controlJson : Json
  deriving DecidableEq

structure BudgetRow where
  attemptId : RecordId .attempt
  reservedNs : Int
  chargedNs : Option Int
  deriving DecidableEq

structure DispositionRow where
  slotId : RecordId .resolvedAttemptSlot
  reason : DispositionReason
  causingAttemptId : RecordId .attempt
  deriving DecidableEq

/-- One run store: `user_version` and every table. -/
structure Db where
  userVersion : Nat
  applicabilityDecisions : List DecisionRow
  resolvedRuns : List RunRow
  observationSlots : List ObservationSlotRow
  attemptSlots : List AttemptSlotRow
  attemptObservationSlots : List MembershipRow
  artifacts : List ArtifactRow
  attempts : List AttemptRow
  events : List EventRow
  attemptTransitions : List TransitionRow
  leases : List LeaseRow
  finalizationClaims : List ClaimRow
  observations : List ObservationRow
  selectedObservations : List SelectionRow
  attemptArtifacts : List AttemptArtifactRow
  leasedArtifacts : List LeasedArtifactRow
  freshSequences : List SequenceRow
  freshMembers : List MemberRow
  freshBudget : List BudgetRow
  freshDispositions : List DispositionRow

/-- A store the schema has just been applied to. -/
def Db.create (layout : Nat) : Db :=
  ⟨layout, [], [], [], [], [], [], [], [], [], [], [], [], [], [], [], [], [], [], []⟩

/-! ## Errors -/

inductive SqliteError where
  | constraint (clause : String)
  | queryReturnedNoRows
  | integralValueOutOfRange
  | integerOverflow
  deriving DecidableEq, Repr

/-- `RunStoreError`, less the variants of filesystem and connection failures. -/
inductive RunStoreError where
  | sequenceBusy
  | publication
  | invalidAttempt (message : String)
  | staleAttempt
  | satisfiedSlot
  | retryNotAuthorized
  | identity (violation : Json.CanonicalValueViolation)
  | canonical (violation : Json.CanonicalValueViolation)
  | unsafePath (path : String)
  | io
  | sqlite (error : SqliteError)
  deriving DecidableEq, Repr

/-- A transaction body on the store. -/
abbrev StoreTx (α : Type) : Type := Tx Db RunStoreError α

def invalid (message : String) : RunStoreError := .invalidAttempt message

/-- A schema clause must hold. -/
def constraint (p : Prop) [Decidable p] (clause : String) : StoreTx Unit :=
  Tx.require p (.sqlite (.constraint clause))

@[simp]
theorem yields_constraint {p : Prop} [Decidable p] {clause : String} {db db' : Db} {u : Unit} :
    Tx.Yields (constraint p clause) db u db' ↔ p ∧ db' = db :=
  Tx.yields_require

@[simp]
theorem yields_constraint_bind {p : Prop} [Decidable p] {clause : String} {α : Type}
    {f : Unit → StoreTx α} {db db' : Db} {a : α} :
    Tx.Yields (constraint p clause >>= f) db a db' ↔ p ∧ Tx.Yields (f ()) db a db' :=
  Tx.yields_require_bind

/-- Largest value of a signed 64-bit column. -/
def i64Max : Nat := 2 ^ 63 - 1

/-- A `u64` that SQLite's signed integers can hold. -/
def timestamp (value : Nat) : StoreTx Nat := do
  Tx.require (value ≤ i64Max) (invalid "timestamp exceeds SQLite's signed integer range")
  pure value

@[simp]
theorem yields_timestamp {value v : Nat} {db db' : Db} :
    Tx.Yields (timestamp value) db v db' ↔ value ≤ i64Max ∧ v = value ∧ db' = db := by
  simp only [timestamp, Tx.yields_require_bind, Tx.yields_pure]

@[simp]
theorem yields_timestamp_bind {value : Nat} {α : Type} {f : Nat → StoreTx α} {db db' : Db}
    {a : α} :
    Tx.Yields (timestamp value >>= f) db a db' ↔
      value ≤ i64Max ∧ Tx.Yields (f value) db a db' := by
  simp [timestamp]

/-- A column read as an unsigned number. -/
def unsigned (value : Int) : StoreTx Nat := do
  Tx.require (0 ≤ value) (.sqlite .integralValueOutOfRange)
  pure value.toNat

@[simp]
theorem yields_unsigned_bind {value : Int} {α : Type} {f : Nat → StoreTx α} {db db' : Db}
    {a : α} :
    Tx.Yields (unsigned value >>= f) db a db' ↔
      0 ≤ value ∧ Tx.Yields (f value.toNat) db a db' := by
  simp [unsigned]

/-- SQLite's integer `sum`, which fails instead of wrapping. -/
def sqlSum (values : List Int) : Except RunStoreError Int :=
  values.foldl (fun total value =>
    match total with
    | .error e => .error e
    | .ok total =>
        if -(2 ^ 63) ≤ total + value ∧ total + value < 2 ^ 63 then .ok (total + value)
        else .error (.sqlite .integerOverflow)) (.ok 0)

/-! ## Path clauses -/

/-- The segments of a path between its slashes. -/
def segments : List Char → List (List Char)
  | [] => [[]]
  | c :: rest =>
      match segments rest with
      | [] => [[c]]
      | head :: tail => if c = '/' then [] :: head :: tail else (c :: head) :: tail

/-- The `CHECK` shared by `relative_path` and `staging_path`: nonempty segments that
are neither `.` nor `..`, without NUL or backslash. -/
def relativePathOk (path : String) : Bool :=
  path.toList.all (fun c => c.toNat ≠ 0 ∧ c.toNat ≠ 92) &&
    (segments path.toList).all fun segment =>
      segment ≠ [] ∧ segment ≠ ['.'] ∧ segment ≠ ['.', '.']

/-! ## Statements on coordination records -/

def insertDecision (row : DecisionRow) : StoreTx Unit := do
  let db ← get
  if ∃ d ∈ db.applicabilityDecisions, d.id = row.id then pure ()
  else do
    constraint (row.recordJson.isObject = true) "applicability_decisions.record_json"
    modify fun db => { db with applicabilityDecisions := db.applicabilityDecisions ++ [row] }

def insertRun (row : RunRow) : StoreTx Unit := do
  let db ← get
  if ∃ r ∈ db.resolvedRuns, r.id = row.id then pure ()
  else do
    constraint (row.recordJson.isObject = true) "resolved_runs.record_json"
    constraint (∃ d ∈ db.applicabilityDecisions,
      d.id = row.applicabilityId ∧ d.candidateId = row.candidateId ∧ d.applicable = true)
      "resolved_runs.applicability_id"
    modify fun db => { db with resolvedRuns := db.resolvedRuns ++ [row] }

def insertAttemptSlot (row : AttemptSlotRow) : StoreTx Unit := do
  let db ← get
  if ∃ s ∈ db.attemptSlots, s.id = row.id then pure ()
  else do
    constraint (row.kind = .buffered → 2 ≤ db.userVersion) "attempt_slots.kind"
    constraint (row.recordJson.isObject = true) "attempt_slots.record_json"
    constraint (∃ r ∈ db.resolvedRuns, r.id = row.resolvedRunId) "attempt_slots.resolved_run_id"
    constraint (∀ s ∈ db.attemptSlots,
      ¬(s.logicalSlotId = row.logicalSlotId ∧ s.resolvedRunId = row.resolvedRunId))
      "attempt_slots.logical_slot_id"
    modify fun db => { db with attemptSlots := db.attemptSlots ++ [row] }

def insertObservationSlot (row : ObservationSlotRow) : StoreTx Unit := do
  let db ← get
  if ∃ s ∈ db.observationSlots, s.id = row.id then pure ()
  else do
    constraint (row.recordJson.isObject = true) "observation_slots.record_json"
    constraint (∃ r ∈ db.resolvedRuns, r.id = row.resolvedRunId)
      "observation_slots.resolved_run_id"
    constraint (∀ s ∈ db.observationSlots,
      ¬(s.logicalSlotId = row.logicalSlotId ∧ s.resolvedRunId = row.resolvedRunId))
      "observation_slots.logical_slot_id"
    modify fun db => { db with observationSlots := db.observationSlots ++ [row] }

def insertMembership (row : MembershipRow) : StoreTx Unit := do
  let db ← get
  if ∃ m ∈ db.attemptObservationSlots, m.observationSlotId = row.observationSlotId then pure ()
  else do
    constraint (∃ s ∈ db.attemptSlots,
      s.id = row.attemptSlotId ∧ s.resolvedRunId = row.resolvedRunId)
      "attempt_observation_slots.attempt_slot_id"
    constraint (∃ s ∈ db.observationSlots,
      s.id = row.observationSlotId ∧ s.resolvedRunId = row.resolvedRunId)
      "attempt_observation_slots.observation_slot_id"
    modify fun db => { db with attemptObservationSlots := db.attemptObservationSlots ++ [row] }

/-! ## Statements on attempts and their history -/

def insertAttempt (row : AttemptRow) : StoreTx Unit := do
  let db ← get
  constraint (row.state = .reserved ∧ row.revision = 0 ∧ row.updatedAtNs = row.startedAtNs)
    "attempts_start_reserved"
  constraint (∀ a ∈ db.attempts, a.id ≠ row.id) "attempts.id"
  constraint (∀ a ∈ db.attempts, ¬(a.slotId = row.slotId ∧ a.retryIndex = row.retryIndex))
    "attempts.retry_index"
  constraint (∃ s ∈ db.attemptSlots, s.id = row.slotId) "attempts.slot_id"
  constraint (row.finishedAtNs = none ∧ row.failureCode = none ∧ row.finalArtifactId = none)
    "attempts.finished_at_ns"
  modify fun db => { db with attempts := db.attempts ++ [row] }

/-- The row an `UPDATE attempts` writes over `old`. -/
def AttemptRow.moved (old : AttemptRow) (state : AttemptState) (revision updatedAtNs : Nat)
    (finishedAtNs : Option Nat) (failureCode finalArtifactId : Option String) : AttemptRow :=
  { old with
    state := state
    revision := revision
    updatedAtNs := updatedAtNs
    finishedAtNs := finishedAtNs
    failureCode := failureCode
    finalArtifactId := finalArtifactId }

/-- `UPDATE attempts … WHERE id = ? AND revision = ?`; the number of rows changed. -/
def updateAttempt (id : RecordId .attempt) (expected : Nat) (state : AttemptState)
    (revision updatedAtNs : Nat) (finishedAtNs : Option Nat)
    (failureCode finalArtifactId : Option String) : StoreTx Nat := do
  let db ← get
  let matching := db.attempts.filter fun a => a.id = id ∧ a.revision = expected
  constraint (∀ old ∈ matching, old.state.terminal = false ∧ revision = old.revision + 1 ∧
    old.updatedAtNs ≤ updatedAtNs) "attempts_advance"
  constraint (state = .accepted → ∀ old ∈ matching, ∃ c ∈ db.finalizationClaims,
    c.slotId = old.slotId ∧ c.attemptId = old.id) "acceptance_requires_claim"
  constraint (matching = [] ∨ (state.terminal = finishedAtNs.isSome ∧
    (finishedAtNs = none ∨ finishedAtNs = some updatedAtNs) ∧
    (decide (state = .failed)) = failureCode.isSome ∧ failureCode ≠ some "" ∧
    state.terminal = finalArtifactId.isSome)) "attempts.state"
  constraint (state = .accepted → ∀ old ∈ matching, ∀ b ∈ db.attempts,
    b.slotId = old.slotId → b.state = .accepted → b.id = old.id)
    "one_accepted_attempt_per_slot"
  constraint (matching = [] ∨ ∀ artifact ∈ finalArtifactId, ∃ row ∈ db.artifacts,
    row.id = artifact ∧ row.kind = .attempt) "attempts.final_artifact_id"
  modify fun db => { db with
    attempts := db.attempts.map fun a =>
      if a.id = id ∧ a.revision = expected then
        a.moved state revision updatedAtNs finishedAtNs failureCode finalArtifactId
      else a }
  pure matching.length

/-- Append an event; the key is the next `AUTOINCREMENT` value. -/
def insertEvent (attemptId : RecordId .attempt) (occurredAtNs : Nat) (kind : EventKind)
    (payload : Json) : StoreTx Nat := do
  let db ← get
  constraint (∃ a ∈ db.attempts, a.id = attemptId) "events.attempt_id"
  let sequence := db.events.length + 1
  modify fun db => { db with
    events := db.events ++ [⟨sequence, attemptId, occurredAtNs, kind, payload⟩] }
  pure sequence

/-- The shape a transition row must have. -/
def TransitionRow.wellFormed (row : TransitionRow) : Prop :=
  (row.revision = 0 ∧ row.previousRevision = none ∧ row.fromState = none ∧
      row.toState = .reserved) ∨
    (0 < row.revision ∧ row.previousRevision = some (row.revision - 1) ∧
      ∃ source ∈ row.fromState, allowedTransition source row.toState = true)

instance (row : TransitionRow) : Decidable row.wellFormed := by
  unfold TransitionRow.wellFormed
  infer_instance

def insertTransition (row : TransitionRow) : StoreTx Unit := do
  let db ← get
  constraint row.wellFormed "attempt_transitions"
  constraint (∃ a ∈ db.attempts, a.id = row.attemptId) "attempt_transitions.attempt_id"
  constraint (∀ t ∈ db.attemptTransitions,
    ¬(t.attemptId = row.attemptId ∧ t.revision = row.revision)) "attempt_transitions.revision"
  constraint (∀ t ∈ db.attemptTransitions, t.eventSequence ≠ row.eventSequence)
    "attempt_transitions.event_sequence"
  constraint (∀ previous ∈ row.previousRevision, ∀ source ∈ row.fromState,
    ∃ t ∈ db.attemptTransitions, t.attemptId = row.attemptId ∧ t.revision = previous ∧
      t.toState = source) "attempt_transitions.from_state"
  constraint (∃ e ∈ db.events, e.sequence = row.eventSequence ∧ e.attemptId = row.attemptId ∧
    e.occurredAtNs = row.occurredAtNs) "attempt_transitions.event"
  modify fun db => { db with attemptTransitions := db.attemptTransitions ++ [row] }

/-- The deferred reference from each attempt to its last transition. -/
def commit : StoreTx Unit := do
  let db ← get
  constraint (∀ a ∈ db.attempts, ∃ t ∈ db.attemptTransitions, t.attemptId = a.id ∧
    t.revision = a.revision ∧ t.toState = a.state ∧ t.occurredAtNs = a.updatedAtNs)
    "attempts.revision"

@[simp]
theorem yields_commit {db db' : Db} {u : Unit} :
    Tx.Yields commit db u db' ↔
      (∀ a ∈ db.attempts, ∃ t ∈ db.attemptTransitions, t.attemptId = a.id ∧
        t.revision = a.revision ∧ t.toState = a.state ∧ t.occurredAtNs = a.updatedAtNs) ∧
      db' = db := by
  simp [commit]

/-! ## Statements on leases and claims -/

def insertLeaseRow (row : LeaseRow) : StoreTx Unit := do
  let db ← get
  constraint (∀ l ∈ db.leases, l.id ≠ row.id) "leases.id"
  constraint (row.ownerToken ≠ "") "leases.owner_token"
  constraint (∃ a ∈ db.attempts, a.id = row.attemptId) "leases.attempt_id"
  constraint ((row.purpose = .staging) ↔ row.stagingPath.isSome = true) "leases.purpose"
  constraint (∀ path ∈ row.stagingPath, relativePathOk path = true ∧
    ∀ l ∈ db.leases, l.stagingPath ≠ some path) "leases.staging_path"
  constraint (row.acquiredAtNs < row.expiresAtNs) "leases.expires_at_ns"
  constraint (∀ released ∈ row.releasedAtNs, row.acquiredAtNs ≤ released)
    "leases.released_at_ns"
  constraint (row.purpose = .reservation → row.releasedAtNs = none → ∀ l ∈ db.leases,
    ¬(l.attemptId = row.attemptId ∧ l.purpose = .reservation ∧ l.releasedAtNs = none))
    "one_reservation_lease_per_attempt"
  modify fun db => { db with leases := db.leases ++ [row] }

/-- Set the release time of the unreleased leases that `p` selects. -/
def releaseLeases (p : LeaseRow → Prop) [DecidablePred p] (released : LeaseRow → Nat) :
    StoreTx Unit := do
  let db ← get
  constraint (∀ l ∈ db.leases, p l → l.releasedAtNs = none → l.acquiredAtNs ≤ released l)
    "leases.released_at_ns"
  modify fun db => { db with
    leases := db.leases.map fun l =>
      if p l ∧ l.releasedAtNs = none then { l with releasedAtNs := some (released l) } else l }

/-- Extend the unreleased leases that `p` selects; the number of rows changed. -/
def extendLeases (p : LeaseRow → Prop) [DecidablePred p] (expiresAtNs : Nat) : StoreTx Nat := do
  let db ← get
  let matching := db.leases.filter fun l => p l ∧ l.releasedAtNs = none
  constraint (∀ l ∈ matching, l.expiresAtNs ≤ expiresAtNs) "leases_preserve_owner"
  constraint (∀ l ∈ matching, l.acquiredAtNs < expiresAtNs) "leases.expires_at_ns"
  modify fun db => { db with
    leases := db.leases.map fun l =>
      if p l ∧ l.releasedAtNs = none then { l with expiresAtNs := expiresAtNs } else l }
  pure matching.length

def insertClaim (row : ClaimRow) : StoreTx Unit := do
  let db ← get
  constraint ((∃ a ∈ db.attempts, a.id = row.attemptId ∧ a.state = .finalizing) ∧
    (∀ a ∈ db.attempts, ¬(a.slotId = row.slotId ∧ a.state = .accepted)) ∧
    (∃ l ∈ db.leases, l.id = row.leaseId ∧ l.releasedAtNs = none))
    "claims_require_finalizing_attempt"
  constraint (∀ c ∈ db.finalizationClaims, c.slotId ≠ row.slotId ∧
    c.attemptId ≠ row.attemptId ∧ c.leaseId ≠ row.leaseId) "finalization_claims.slot_id"
  constraint (∃ a ∈ db.attempts, a.id = row.attemptId ∧ a.slotId = row.slotId)
    "finalization_claims.attempt_id"
  constraint (∃ l ∈ db.leases, l.id = row.leaseId ∧ l.attemptId = row.attemptId ∧
    l.purpose = .finalization) "finalization_claims.lease_id"
  modify fun db => { db with finalizationClaims := db.finalizationClaims ++ [row] }

def deleteClaims (attemptId : RecordId .attempt) : StoreTx Unit := do
  let db ← get
  constraint (∀ c ∈ db.finalizationClaims, c.attemptId = attemptId →
    ∃ a ∈ db.attempts, a.id = c.attemptId ∧ a.state.terminal = true)
    "claims_release_after_terminal"
  modify fun db => { db with
    finalizationClaims := db.finalizationClaims.filter fun c => c.attemptId ≠ attemptId }

/-! ## Statements on artifacts, observations and selections -/

/-- The clauses of a new artifact row. -/
def insertArtifact (row : ArtifactRow) : StoreTx Unit := do
  let db ← get
  constraint (∀ a ∈ db.artifacts, a.id ≠ row.id) "artifacts.id"
  constraint (∀ a ∈ db.artifacts, a.relativePath ≠ row.relativePath) "artifacts.relative_path"
  constraint (relativePathOk row.relativePath = true) "artifacts.relative_path"
  constraint (row.storageKind = .directory → row.manifestSha256.isSome = true)
    "artifacts.manifest_sha256"
  modify fun db => { db with artifacts := db.artifacts ++ [row] }

def insertAttemptArtifact (row : AttemptArtifactRow) : StoreTx Unit := do
  let db ← get
  constraint (row.role ≠ "") "attempt_artifacts.role"
  constraint (∃ a ∈ db.attempts, a.id = row.attemptId) "attempt_artifacts.attempt_id"
  constraint (∃ a ∈ db.artifacts, a.id = row.artifactId) "attempt_artifacts.artifact_id"
  constraint (row ∉ db.attemptArtifacts) "attempt_artifacts"
  modify fun db => { db with attemptArtifacts := db.attemptArtifacts ++ [row] }

/-- `INSERT OR IGNORE INTO leased_artifacts`. -/
def insertLeasedArtifact (row : LeasedArtifactRow) : StoreTx Unit := do
  let db ← get
  if row ∈ db.leasedArtifacts then pure ()
  else do
    constraint (∃ l ∈ db.leases, l.id = row.leaseId) "leased_artifacts.lease_id"
    constraint (∃ a ∈ db.artifacts, a.id = row.artifactId) "leased_artifacts.artifact_id"
    modify fun db => { db with leasedArtifacts := db.leasedArtifacts ++ [row] }

def insertObservation (row : ObservationRow) : StoreTx Unit := do
  let db ← get
  constraint (∀ o ∈ db.observations, o.id ≠ row.id) "observations.id"
  constraint (row.recordJson.isObject = true) "observations.record_json"
  constraint (∃ a ∈ db.attempts, a.id = row.producingAttemptId ∧ a.slotId = row.attemptSlotId)
    "observations.producing_attempt_id"
  constraint (∃ m ∈ db.attemptObservationSlots,
    m.attemptSlotId = row.attemptSlotId ∧ m.observationSlotId = row.slotId)
    "observations.attempt_slot_id"
  constraint (∃ a ∈ db.artifacts, a.id = row.artifactId ∧ a.kind = .observation)
    "observations.artifact_id"
  modify fun db => { db with observations := db.observations ++ [row] }

/-- `INSERT … ON CONFLICT(slot_id) DO NOTHING`. -/
def insertSelection (row : SelectionRow) : StoreTx Unit := do
  let db ← get
  if ∃ s ∈ db.selectedObservations, s.slotId = row.slotId then pure ()
  else do
    constraint (∀ s ∈ db.selectedObservations, s.observationId ≠ row.observationId)
      "selected_observations.observation_id"
    constraint (∃ o ∈ db.observations, o.id = row.observationId ∧ o.slotId = row.slotId ∧
      o.valid = true) "selected_observations.valid"
    modify fun db => { db with selectedObservations := db.selectedObservations ++ [row] }

/-! ## Statements on fresh sequences -/

def insertSequence (row : SequenceRow) : StoreTx Unit := do
  let db ← get
  if ∃ s ∈ db.freshSequences,
      s.resolvedRunId = row.resolvedRunId ∧ s.measurementIndex = row.measurementIndex then pure ()
  else do
    constraint (∃ r ∈ db.resolvedRuns, r.id = row.resolvedRunId)
      "fresh_sequences.resolved_run_id"
    modify fun db => { db with freshSequences := db.freshSequences ++ [row] }

/-- `INSERT … ON CONFLICT DO NOTHING`: both unique keys are conflict targets. -/
def insertMember (row : MemberRow) : StoreTx Unit := do
  let db ← get
  if ∃ m ∈ db.freshMembers, m.slotId = row.slotId ∨
      (m.resolvedRunId = row.resolvedRunId ∧ m.measurementIndex = row.measurementIndex ∧
        m.scheduleIndex = row.scheduleIndex) then pure ()
  else do
    constraint (row.controlJson.isObject = true) "fresh_members.control_json"
    constraint (∃ s ∈ db.attemptSlots, s.id = row.slotId) "fresh_members.slot_id"
    constraint (∃ s ∈ db.freshSequences, s.resolvedRunId = row.resolvedRunId ∧
      s.measurementIndex = row.measurementIndex) "fresh_members.resolved_run_id"
    modify fun db => { db with freshMembers := db.freshMembers ++ [row] }

def insertBudget (row : BudgetRow) : StoreTx Unit := do
  let db ← get
  constraint (∀ b ∈ db.freshBudget, b.attemptId ≠ row.attemptId) "fresh_budget.attempt_id"
  constraint (∃ a ∈ db.attempts, a.id = row.attemptId) "fresh_budget.attempt_id"
  constraint (0 < row.reservedNs) "fresh_budget.reserved_ns"
  constraint (∀ charged ∈ row.chargedNs, 0 ≤ charged ∧ charged ≤ row.reservedNs)
    "fresh_budget.charged_ns"
  modify fun db => { db with freshBudget := db.freshBudget ++ [row] }

/-- `UPDATE fresh_budget SET charged_ns = min(?, reserved_ns) WHERE attempt_id = ?`. -/
def chargeBudget (attemptId : RecordId .attempt) (measured : Int) : StoreTx Unit := do
  let db ← get
  constraint (∀ b ∈ db.freshBudget, b.attemptId = attemptId → b.chargedNs = none)
    "fresh_budget_preserve_reservation"
  constraint (∀ b ∈ db.freshBudget, b.attemptId = attemptId →
    0 ≤ min measured b.reservedNs ∧ min measured b.reservedNs ≤ b.reservedNs)
    "fresh_budget.charged_ns"
  modify fun db => { db with
    freshBudget := db.freshBudget.map fun b =>
      if b.attemptId = attemptId then { b with chargedNs := some (min measured b.reservedNs) }
      else b }

/-- `INSERT … ON CONFLICT DO NOTHING`. -/
def insertDisposition (row : DispositionRow) : StoreTx Unit := do
  let db ← get
  if ∃ d ∈ db.freshDispositions, d.slotId = row.slotId then pure ()
  else do
    constraint (∃ m ∈ db.freshMembers, m.slotId = row.slotId) "fresh_dispositions.slot_id"
    constraint (∃ a ∈ db.attempts, a.id = row.causingAttemptId)
      "fresh_dispositions.causing_attempt_id"
    modify fun db => { db with freshDispositions := db.freshDispositions ++ [row] }

end Metewand.RunStore
