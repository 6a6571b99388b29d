import Metewand.Export.Analysis
import Metewand.RunStore.Reader

/-!
# Inspecting a store

`runtime/inspection.rs` reports the state of every attempt and of every measured slot
of a store from the rows that `run_store/reader.rs` reads.  The analysis export
(`Export.slotState`) and the schedule filter of `runtime/run.rs` derive the state of a
slot on their own.
-/

namespace Metewand.Inspection

open Lib RunStore Check
open Archive (asU64?)

inductive InspectionError where
  | invalid (message : String)
  deriving DecidableEq, Repr

/-- Current scheduling decision for a measured execution slot. -/
inductive SlotState where
  | skippedTargetReached | censored | pending | active | satisfied | retryRequired
  | recoveryRequired
  deriving DecidableEq, Repr

/-- The authoritative projection of one execution, less its diagnostic. -/
structure AttemptStatus where
  id : String
  slotId : String
  retryIndex : Nat
  state : String
  revision : Nat
  startedAtNs : String
  updatedAtNs : String
  finishedAtNs : Option String
  leaseExpiresAtNs : Option String
  recoveryRequired : Bool
  artifactId : Option String

/-- A measured slot, less what is looked up in its resolved run. -/
structure SlotStatus where
  logicalSlotId : String
  resolvedSlotId : String
  resolvedRunId : String
  state : SlotState
  attemptIds : List String
  selectedObservationIds : List String

/-- The tables of a snapshot that the states are derived from. -/
structure SnapshotTables where
  attempt : List Json
  observation : List Json
  resolvedAttemptSlot : List Json
  freshDisposition : Option (List Json)

/-! ## Rows -/

def string (value : Json) (key : String) : Except InspectionError String :=
  expect (value.get key).asStr? (.invalid "missing string in stored record")

def optionalString (value : Json) (key : String) : Except InspectionError (Option String) :=
  if value.get key = .null then .ok none else (string value key).map some

def integer (value : Json) (key : String) : Except InspectionError Nat :=
  expect (asU64? (value.get key)) (.invalid "invalid integer in stored record")

/-- The digits of a `u128`; the texts are columns of 63 bits, so none is too large for one. -/
def parseDigits (text : List Char) : Option Nat :=
  if text ≠ [] ∧ text.all Char.isDigit then some (Nat.ofDigitChars 10 text 0) else none

/-- `str::parse::<u128>`. -/
def parseU128 (text : List Char) : Option Nat :=
  match text with
  | '+' :: digits => parseDigits digits
  | digits => parseDigits digits

/-! ## States -/

/-- An unfinished attempt whose reservation has ended, as the lease column tells it. -/
def recoveryRequired (finishedAtNs leaseExpiresAtNs : Option String) (now : Nat) :
    Except InspectionError Bool :=
  match finishedAtNs, leaseExpiresAtNs with
  | some _, _ => .ok false
  | none, none => .ok true
  | none, some time => do
      let expiry ← expect (parseU128 time.toList) (.invalid "invalid lease timestamp")
      return decide (expiry ≤ now)

def attemptStatus (now : Nat) (row : Json) : Except InspectionError AttemptStatus := do
  let id ← string row "id"
  let finishedAtNs ← optionalString row "finished_at_ns"
  let leaseExpiresAtNs ← optionalString row "lease_expires_at_ns"
  let recoveryRequired ← recoveryRequired finishedAtNs leaseExpiresAtNs now
  let slotId ← string row "slot_id"
  let retryIndex ← integer row "retry_index"
  let state ← string row "state"
  let revision ← integer row "revision"
  let startedAtNs ← string row "started_at_ns"
  let updatedAtNs ← string row "updated_at_ns"
  let artifactId ← optionalString row "artifact_id"
  return ⟨id, slotId, retryIndex, state, revision, startedAtNs, updatedAtNs, finishedAtNs,
    leaseExpiresAtNs, recoveryRequired, artifactId⟩

/-- Some disposition of the slot has the reason. -/
def hasDisposition (tables : SnapshotTables) (id reason : String) : Bool :=
  tables.freshDisposition.any fun rows => rows.any fun d =>
    d.get "slot_id" = .str id && d.get "reason" = .str reason

def slotState (attempts : List AttemptStatus) (tables : SnapshotTables) (id : String) : SlotState :=
  let own := attempts.filter (·.slotId = id)
  if own.any fun a => a.state = "accepted" then .satisfied
  else if own.any fun a => a.finishedAtNs.isNone && !a.recoveryRequired then .active
  else if own.any fun a => a.recoveryRequired then .recoveryRequired
  else if hasDisposition tables id "skipped_target_reached" then .skippedTargetReached
  else if hasDisposition tables id "active_time_limit" then .censored
  else if own.isEmpty then .pending
  else .retryRequired

def slotStatus (attempts : List AttemptStatus) (tables : SnapshotTables) (row : Json) :
    Except InspectionError SlotStatus := do
  let id ← string row "id"
  let resolvedRunId ← string row "resolved_run_id"
  let logicalSlotId ← string row "logical_slot_id"
  let selected ← traverseAll (string · "id") (tables.observation.filter fun o =>
    o.get "attempt_slot_id" = row.get "id" && o.get "selected" = .bool true)
  return ⟨logicalSlotId, id, resolvedRunId, slotState attempts tables id,
    (attempts.filter (·.slotId = id)).map AttemptStatus.id, selected⟩

structure StatusReport where
  attempts : List AttemptStatus
  slots : List SlotStatus

/-- What `add_snapshot` reports of the attempts and the measured slots at clock `now`. -/
def addSnapshot (tables : SnapshotTables) (now : Nat) : Except InspectionError StatusReport := do
  let attempts ← traverseAll (attemptStatus now) tables.attempt
  let slots ← traverseAll (slotStatus attempts tables)
    (tables.resolvedAttemptSlot.filter fun row => row.get "role" = .str "measurement")
  return ⟨attempts, slots⟩

/-- `StoreSnapshot::read`: the rows in the order of the queries. -/
def readStore (db : Db) : SnapshotTables where
  attempt := (byTextNat (fun a => a.slotId) (fun a => a.retryIndex)
    (db.attempts.map (AttemptRow.evidence db))).map (·.value)
  observation := (byTexts (fun o => [o.id]) (db.observations.map (ObservationRow.evidence db))).map (·.value)
  resolvedAttemptSlot := (byTexts (fun s => [s.id]) (db.attemptSlots.map AttemptSlotRow.evidence)).map (·.value)
  freshDisposition :=
    if supported db then
      some ((byTexts (fun d => [d.slotId]) (db.freshDispositions.map DispositionRow.evidence)).map (·.value))
    else none

/-! ## The analysis export -/

section Export

open Export (AnalysisAttempt AnalysisTables ExportError text)

variable (graph : String → Option Json)

/-- `lookup` of `runtime/export.rs`. -/
def lookup (id : Option String) : Json := (id.bind graph).getD .null

/-- The record `runtime/export.rs` projects from an attempt row, as far as the analysis reads it. -/
def exportAttempt (row : Json) : Except ExportError AnalysisAttempt := do
  let slotId := text row "slot_id"
  let slot := lookup graph slotId
  let run := lookup graph (text slot "resolved_run_id")
  let id ← Export.requiredText row "id"
  let candidateId ← expect ((text row "candidate_id").or (text run "candidate_id"))
    (.invalidEvidence "missing candidate identity")
  return {
    id := id
    candidateId := candidateId
    slotId := slotId
    retryIndex := asU64? (row.get "retry_index")
    state := text row "state"
    failureCode := text row "failure_code"
    warmup := (slot.get "role").asStr?.map fun role => role = "warmup"
    startedAtNs := text row "started_at_ns"
    finishedAtNs := text row "finished_at_ns" }

/-- The tables of a snapshot as the analysis reads them. -/
def analysisTables (tables : SnapshotTables) (specifications : List Json)
    (progress : Option (List Json)) : AnalysisTables where
  resolvedSpecification := specifications
  resolvedAttemptSlot := tables.resolvedAttemptSlot
  observation := tables.observation
  freshDisposition := tables.freshDisposition
  freshSequence := progress
  graph := graph

end Export

/-! ## The schedule of a run -/

/-- `SlotProgress` of `run_store/coordination.rs`. -/
structure SlotProgress where
  disposition : Option String
  accepted : Bool
  attempts : Nat
  active : Bool

def slotProgress (db : Db) (slot : RecordId .resolvedAttemptSlot) : SlotProgress where
  disposition :=
    if supported db then (db.freshDispositions.find? fun d => d.slotId = slot).map fun d => d.reason.name
    else none
  accepted := decide (satisfied db slot)
  attempts := (db.attempts.filter fun a => a.slotId = slot).length
  active := (db.attempts.filter fun a => a.slotId = slot).any fun a => a.finishedAtNs.isNone

/-- The filter of `runtime/run.rs`: a selected slot stays in the schedule. -/
def scheduled (progress : SlotProgress) (retry : Bool) : Bool :=
  !(progress.accepted || progress.disposition.isSome || (0 < progress.attempts && !retry))

end Metewand.Inspection
