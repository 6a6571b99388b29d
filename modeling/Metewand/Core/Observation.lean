import Metewand.Core.Identity
import Metewand.Core.Profile

/-!
# Observation records and their public document

`RunObservationRecord` of `core/records.rs`, its identity representation and the
envelope `observation_document` renders for the run store.
-/

namespace Metewand

/-- Whole seconds and the nanoseconds below one second. -/
structure Duration where
  secs : Nat
  nanos : Nat
  subsecond : nanos < 1000000000

namespace Duration

def asNanos (duration : Duration) : Nat := duration.secs * 1000000000 + duration.nanos

def json (duration : Duration) : Json :=
  .object [("seconds", .nat duration.secs), ("nanoseconds", .nat duration.nanos)]

end Duration

inductive PrimaryTime where
  | timedWallTime
  | cpuTime
  deriving DecidableEq, Repr

def PrimaryTime.name : PrimaryTime → String
  | .timedWallTime => "timed_wall_time"
  | .cpuTime => "cpu_time"

/-- One-shot completion decision made by the independent evaluator. -/
inductive CompletionStatus where
  | notRequired
  | reached
  | notReached
  deriving DecidableEq, Repr

def CompletionStatus.name : CompletionStatus → String
  | .notRequired => "not_required"
  | .reached => "reached"
  | .notReached => "not_reached"

structure ArtifactReference where
  id : RecordId .artifact
  path : String
  sha256 : Digest

def ArtifactReference.json (artifact : ArtifactReference) : Json :=
  .object [("id", artifact.id.json), ("path", .str artifact.path),
    ("sha256", .str artifact.sha256.hex)]

structure ObservationTimingRecord where
  primaryTime : PrimaryTime
  timedWallTime : Duration
  implementationTime : Option Duration
  evaluationTime : Duration
  cpuTime : Option Duration
  peakRssBytes : Option Nat

def ObservationTimingRecord.json (timing : ObservationTimingRecord) : Json :=
  .object [
    ("primary_time", .str timing.primaryTime.name),
    ("timed_wall_time", timing.timedWallTime.json),
    ("implementation_time", .ofOption Duration.json timing.implementationTime),
    ("evaluation_time", timing.evaluationTime.json),
    ("cpu_time", .ofOption Duration.json timing.cpuTime),
    ("peak_rss_bytes", .ofOption .nat timing.peakRssBytes)]

structure ProvenanceRecord where
  toolVersion : String
  wireProtocolVersion : Nat
  executionSemanticsVersion : Nat
  data : Json

structure BufferedObservationRecord where
  instrumentedScope : String
  clock : String
  instrumentedTimeNs : Nat
  instrumentedTotalTimeNs : Nat
  traceIndex : Nat
  captureOrdinal : Nat
  thresholds : List UInt64
  provisionalMetrics : Json

structure FreshObservationRecord where
  measurementIndex : Nat
  scheduleIndex : Nat
  observationControl : Json

inductive StopReason where
  | targetReached | fixedCount | traceLimit | observationLimit | byteLimit
  | activeTimeLimit | implementationStopped
  deriving DecidableEq, Repr

def StopReason.name : StopReason → String
  | .targetReached => "target_reached"
  | .fixedCount => "fixed_count"
  | .traceLimit => "trace_limit"
  | .observationLimit => "observation_limit"
  | .byteLimit => "byte_limit"
  | .activeTimeLimit => "active_time_limit"
  | .implementationStopped => "implementation_stopped"

structure StreamingObservationRecord where
  checkpointSequence : Nat
  checkIndex : Nat
  work : List (String × Nat)
  terminal : Bool
  thresholds : List UInt64
  activeTimeNs : Nat
  elapsedWallTimeNs : Nat
  evaluationTimeNs : Nat
  decision : String
  stopReason : Option StopReason

/-- Delivery-specific evidence of a profile observation. -/
inductive ProfileObservationRecord where
  | buffered (record : BufferedObservationRecord)
  | fresh (record : FreshObservationRecord)
  | streaming (record : StreamingObservationRecord)

def StreamingObservationRecord.json (record : StreamingObservationRecord) : Json :=
  .object [
    ("delivery", .str "streaming_profile"),
    ("measurement_basis", .str "executor_observed"),
    ("checkpoint_sequence", .nat record.checkpointSequence),
    ("check_index", .nat record.checkIndex),
    ("work", .object (record.work.map fun entry => (entry.1, .nat entry.2))),
    ("terminal", .bool record.terminal),
    ("thresholds", .arr (record.thresholds.map F64.json)),
    ("active_time_ns", .nat record.activeTimeNs),
    ("elapsed_wall_time_ns", .nat record.elapsedWallTimeNs),
    ("evaluation_time_ns", .nat record.evaluationTimeNs),
    ("decision", .str record.decision),
    ("stop_reason", .ofOption (fun reason => .str reason.name) record.stopReason)]

def ProfileObservationRecord.json : ProfileObservationRecord → Json
  | .buffered record => .object [
      ("delivery", .str "buffered_profile"),
      ("measurement_basis", .str "instrumented"),
      ("instrumented_scope", .str record.instrumentedScope),
      ("clock", .str record.clock),
      ("instrumented_time_ns", .nat record.instrumentedTimeNs),
      ("instrumented_total_time_ns", .nat record.instrumentedTotalTimeNs),
      ("trace_index", .nat record.traceIndex),
      ("capture_ordinal", .nat record.captureOrdinal),
      ("thresholds", .arr (record.thresholds.map F64.json)),
      ("provisional_metrics", record.provisionalMetrics)]
  | .fresh record => .object [
      ("delivery", .str "fresh_sequence"),
      ("measurement_basis", .str "executor_observed"),
      ("measurement_index", .nat record.measurementIndex),
      ("schedule_index", .nat record.scheduleIndex),
      ("observation_control", record.observationControl)]
  | .streaming record => record.json

/-- An independently finalized, evaluator-accepted result. -/
structure RunObservationRecord where
  profile : Option ProfileObservationRecord
  slot : RecordId .resolvedObservationSlot
  producingAttempt : RecordId .attempt
  result : ArtifactReference
  metrics : ArtifactReference
  timing : ObservationTimingRecord
  completion : CompletionStatus
  provenance : ProvenanceRecord

/-- The optional `profile` member, left out when there is no profile. -/
def RunObservationRecord.profileField (record : RunObservationRecord) : List (String × Json) :=
  match record.profile with
  | some profile => [("profile", profile.json)]
  | none => []

instance : IdentityRecord RunObservationRecord .observation where
  identityFields record := record.profileField ++ [
    ("slot", record.slot.json),
    ("producing_attempt", record.producingAttempt.json),
    ("result", record.result.json),
    ("metrics", record.metrics.json),
    ("timing", record.timing.json),
    ("completion", .str record.completion.name)]

/-- Why no observation document exists. -/
inductive RunDocumentError where
  | unsupportedPrimaryTime
  | duration
  | canonical (violation : Json.CanonicalValueViolation)

/-- A duration as a `u64` count of nanoseconds. -/
def nanoseconds (duration : Duration) : Except RunDocumentError Nat :=
  if duration.asNanos < 2 ^ 64 then .ok duration.asNanos else .error .duration

def optionalNanoseconds : Option Duration → Except RunDocumentError Json
  | none => .ok .null
  | some duration => (nanoseconds duration).map .nat

def ProvenanceRecord.json (provenance : ProvenanceRecord) : Json :=
  .object [
    ("tool_version", .str provenance.toolVersion),
    ("wire_protocol_version", .nat provenance.wireProtocolVersion),
    ("execution_semantics_version", .nat provenance.executionSemanticsVersion),
    ("data", provenance.data)]

/-- Lift a canonicalization failure into a document error. -/
def canonicalDocument {α : Type} (value : Except Json.CanonicalValueViolation α) :
    Except RunDocumentError α :=
  match value with
  | .ok a => .ok a
  | .error violation => .error (.canonical violation)

/-- The versioned public observation envelope. -/
def observationDocument (hash : Hasher) (record : RunObservationRecord) :
    Except RunDocumentError Json := do
  if record.timing.primaryTime ≠ .timedWallTime then
    throw .unsupportedPrimaryTime
  let id ← canonicalDocument (recordId hash record)
  let timedWallTime ← nanoseconds record.timing.timedWallTime
  let implementationTime ← optionalNanoseconds record.timing.implementationTime
  let evaluationTime ← nanoseconds record.timing.evaluationTime
  let cpuTime ← optionalNanoseconds record.timing.cpuTime
  canonicalDocument (Json.object (record.profileField ++ [
    ("schema_version", .nat publicSchemaVersion),
    ("id", id.json),
    ("slot_id", record.slot.json),
    ("attempt_id", record.producingAttempt.json),
    ("result", record.result.json),
    ("metrics", record.metrics.json),
    ("timing", .object [
      ("primary_time", .str "timed_wall_time"),
      ("timed_wall_time_ns", .nat timedWallTime),
      ("implementation_time_ns", implementationTime),
      ("evaluation_time_ns", .nat evaluationTime),
      ("cpu_time_ns", cpuTime),
      ("peak_rss_bytes", .ofOption .nat record.timing.peakRssBytes)]),
    ("validity", .object [("valid", .bool true), ("completion", .str record.completion.name)]),
    ("provenance", record.provenance.json)])).normalize

end Metewand
