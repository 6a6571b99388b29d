import Metewand.Archive.Validation
import Metewand.Export.Metrics

/-!
# Export records and tidy rows

`ExportRecord` and `TidyRow` of `core/export.rs`: one index record of a scientific entity, and one
row for each of its metric values.  The fields are written under the names of the source's
serialization, in its order.
-/

namespace Metewand.Export

open Archive (asU64?)

inductive ExportRecordType where
  | slot
  | applicability
  | attempt
  | observation
  | trace
  deriving DecidableEq, Repr

def ExportRecordType.name : ExportRecordType → String
  | .slot => "slot"
  | .applicability => "applicability"
  | .attempt => "attempt"
  | .observation => "observation"
  | .trace => "trace"

/-- A field that is left out when it is absent. -/
def optional {α : Type} (f : α → Json) (key : String) (value : Option α) : List (String × Json) :=
  value.toList.map fun present => (key, f present)

def optionalJson : String → Option Json → List (String × Json) := optional fun value => value

def nullableText : Option String → Json := Json.ofOption .str

def nullableNat : Option Nat → Json := Json.ofOption .nat

def nullableBool : Option Bool → Json := Json.ofOption .bool

structure CompatibilityClass where
  profile : Option Json
  executionSemanticsVersion : Option Nat
  timingScope : Option String
  primaryTime : Option String
  environmentClass : Option String
  controlClass : String
  controlEvidence : String
  controls : Json
  executionPolicy : Json
  measurementsVersion : Option Nat
  accounting : Json
  unclassifiedRecord : Option String

def CompatibilityClass.value (class' : CompatibilityClass) : Json :=
  .object (optionalJson "profile" class'.profile ++ [
    ("execution_semantics_version", nullableNat class'.executionSemanticsVersion),
    ("timing_scope", nullableText class'.timingScope),
    ("primary_time", nullableText class'.primaryTime),
    ("environment_class", nullableText class'.environmentClass),
    ("control_class", .str class'.controlClass),
    ("control_evidence", .str class'.controlEvidence),
    ("controls", class'.controls),
    ("execution_policy", class'.executionPolicy),
    ("measurements_version", nullableNat class'.measurementsVersion),
    ("accounting", class'.accounting),
    ("unclassified_record", nullableText class'.unclassifiedRecord)])

structure ExportRecord where
  profile : Option Json
  schemaVersion : Nat
  recordType : ExportRecordType
  id : String
  candidateId : String
  logicalRunId : Option String
  resolvedRunId : Option String
  logicalSlotId : Option String
  resolvedSlotId : Option String
  logicalObservationSlotId : Option String
  resolvedObservationSlotId : Option String
  attemptId : Option String
  retryIndex : Option Nat
  attemptState : Option String
  outcome : Option String
  valid : Option Bool
  selected : Option Bool
  completion : Option String
  failureCode : Option String
  warmup : Option Bool
  compatibilityId : String
  compatibility : CompatibilityClass
  timing : Json
  metrics : Json
  metricSchema : Option String
  resultSchema : Option String
  provenance : Json
  evidence : Json

def ExportRecord.fields (record : ExportRecord) : List (String × Json) :=
  optionalJson "profile" record.profile ++ [
    ("schema_version", .nat record.schemaVersion),
    ("record_type", .str record.recordType.name),
    ("id", .str record.id),
    ("candidate_id", .str record.candidateId),
    ("logical_run_id", nullableText record.logicalRunId),
    ("resolved_run_id", nullableText record.resolvedRunId),
    ("logical_slot_id", nullableText record.logicalSlotId),
    ("resolved_slot_id", nullableText record.resolvedSlotId),
    ("logical_observation_slot_id", nullableText record.logicalObservationSlotId),
    ("resolved_observation_slot_id", nullableText record.resolvedObservationSlotId),
    ("attempt_id", nullableText record.attemptId),
    ("retry_index", nullableNat record.retryIndex),
    ("attempt_state", nullableText record.attemptState),
    ("outcome", nullableText record.outcome),
    ("valid", nullableBool record.valid),
    ("selected", nullableBool record.selected),
    ("completion", nullableText record.completion),
    ("failure_code", nullableText record.failureCode),
    ("warmup", nullableBool record.warmup),
    ("compatibility_id", .str record.compatibilityId),
    ("compatibility", record.compatibility.value),
    ("timing", record.timing),
    ("metrics", record.metrics),
    ("metric_schema", nullableText record.metricSchema),
    ("result_schema", nullableText record.resultSchema),
    ("provenance", record.provenance),
    ("evidence", record.evidence)]

structure TidyRow where
  activeTimeNs : Option Nat
  elapsedWallTimeNs : Option Nat
  checkpointSequence : Option Nat
  instrumentedTimeNs : Option Nat
  instrumentedTotalTimeNs : Option Nat
  provisionalMetricName : Option String
  provisionalMetricValue : Option Json
  record : ExportRecord
  metricName : Option String
  metricValue : Json
  metricUnit : Option String
  metricDirection : Option String
  timedWallTimeNs : Option Nat
  timedWallTimeStatus : String
  implementationTimeNs : Option Nat
  evaluationTimeNs : Option Nat
  cpuTimeNs : Option Nat
  cpuTimeStatus : String
  peakRssBytes : Option Nat
  peakRssStatus : String

def TidyRow.fields (row : TidyRow) : List (String × Json) :=
  optional .nat "active_time_ns" row.activeTimeNs ++
  optional .nat "elapsed_wall_time_ns" row.elapsedWallTimeNs ++
  optional .nat "checkpoint_sequence" row.checkpointSequence ++
  optional .nat "instrumented_time_ns" row.instrumentedTimeNs ++
  optional .nat "instrumented_total_time_ns" row.instrumentedTotalTimeNs ++
  optional .str "provisional_metric_name" row.provisionalMetricName ++
  optionalJson "provisional_metric_value" row.provisionalMetricValue ++
  row.record.fields ++ [
    ("metric_name", nullableText row.metricName),
    ("metric_value", row.metricValue),
    ("metric_unit", nullableText row.metricUnit),
    ("metric_direction", nullableText row.metricDirection),
    ("timed_wall_time_ns", nullableNat row.timedWallTimeNs),
    ("timed_wall_time_status", .str row.timedWallTimeStatus),
    ("implementation_time_ns", nullableNat row.implementationTimeNs),
    ("evaluation_time_ns", nullableNat row.evaluationTimeNs),
    ("cpu_time_ns", nullableNat row.cpuTimeNs),
    ("cpu_time_status", .str row.cpuTimeStatus),
    ("peak_rss_bytes", nullableNat row.peakRssBytes),
    ("peak_rss_status", .str row.peakRssStatus)]

/-- `serde_json::to_value` of a row. -/
def TidyRow.value (row : TidyRow) : Json := .object row.fields

namespace ExportRecord

variable (record : ExportRecord)

/-- A quantity of the record and how complete it is. -/
def measurement (key : String) : Option Nat × String :=
  match asU64? (record.timing.get key) with
  | some value => (some value, "complete")
  | none =>
      let measurement :=
        if (record.timing.get key).isObject then record.timing.get key
        else ((record.provenance.get "data").get "measurements").get key
      (asU64? (measurement.get "value"), (measurement.get "status").asStr?.getD "unavailable")

def provisionalMetrics : Json := (record.profile.getD .null).get "provisional_metrics"

/-- The values of a record, each with its name; one null value when it has none. -/
def namedValues : List (Option String × Json) :=
  let values :=
    if record.recordType = .trace then metricValues record.provisionalMetrics
    else metricValues record.metrics
  if values.isEmpty then [(none, .null)] else values.map fun row => (some row.1, row.2)

def profileNat (key : String) : Option Nat := record.profile.bind fun profile => asU64? (profile.get key)

/-- One row for a value of the record. -/
def tidyRow (metricName : Option String) (metricValue : Json) : TidyRow :=
  let diagnostic := record.recordType = .trace
  let provisional :=
    metricName.bind fun name =>
      record.profile.bind fun profile => pointer (profile.get "provisional_metrics") name
  { activeTimeNs := record.profileNat "active_time_ns"
    elapsedWallTimeNs := record.profileNat "elapsed_wall_time_ns"
    checkpointSequence := record.profileNat "checkpoint_sequence"
    instrumentedTimeNs := record.profileNat "instrumented_time_ns"
    instrumentedTotalTimeNs := record.profileNat "instrumented_total_time_ns"
    provisionalMetricName := if diagnostic then metricName else none
    provisionalMetricValue := if diagnostic then some metricValue else provisional
    record := { record with metrics := .null }
    metricName := if diagnostic then none else metricName
    metricValue := if diagnostic then .null else metricValue
    metricUnit := none
    metricDirection := none
    timedWallTimeNs := (record.measurement "timed_wall_time_ns").1
    timedWallTimeStatus := (record.measurement "timed_wall_time_ns").2
    implementationTimeNs := asU64? (record.timing.get "implementation_time_ns")
    evaluationTimeNs := (record.measurement "evaluation_time_ns").1
    cpuTimeNs := (record.measurement "cpu_time_ns").1
    cpuTimeStatus := (record.measurement "cpu_time_ns").2
    peakRssBytes := (record.measurement "peak_rss_bytes").1
    peakRssStatus := (record.measurement "peak_rss_bytes").2 }

def tidyRows : List TidyRow := record.namedValues.map fun entry => record.tidyRow entry.1 entry.2

end ExportRecord

end Metewand.Export
