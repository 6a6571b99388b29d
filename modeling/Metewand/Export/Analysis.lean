import Mathlib.Data.List.Sort
import Metewand.Core.Encoding
import Metewand.Export.Records
import Metewand.Lib.Check

/-!
# Analysis snapshots

`core/export/analysis.rs` and `runtime/export/analysis.rs`: a standalone snapshot is projected from export
records, comparison rows and the tables of verified evidence, checked for completeness, and narrowed to
the candidates of selected records.
-/

namespace Metewand.Export

open Lib Lib.Check
open Archive (asU64?)

inductive ExportError where
  | invalidEvidence (message : String)
  | canonical (violation : Json.CanonicalValueViolation)
  | json
  deriving DecidableEq, Repr

structure RunDiagnostic where
  code : String
  message : String

/-- One observation, or an attempt that produced no observation. -/
structure ComparisonRow where
  profile : Option Json
  candidateId : String
  attemptId : String
  observationId : Option String
  experiment : Option String
  case : Option String
  dataset : Option String
  problem : Option String
  implementation : Option String
  parameters : Json
  implementationRepetition : Option Nat
  measurementIndex : Option Nat
  retryIndex : Nat
  status : String
  valid : Option Bool
  completion : Option String
  selected : Option Bool
  metrics : Json
  timedWallTimeNs : Option Nat
  timedWallTimeStatus : String
  timingScope : Option String
  instrumentedTimeNs : Option Nat
  instrumentedScope : Option String
  diagnostic : Option RunDiagnostic

structure AnalysisCandidate where
  id : String
  experiment : Option String
  implementation : Option String
  dataset : Option String
  problem : Option String
  case : Option String
  parameters : Json
  implementationRepetitions : Option Nat
  measurementRepetitions : Option Nat
  executionPolicy : Json
  observationPolicy : Json

/-- Full metrics and independent timing coordinates for one evaluated result. -/
structure AnalysisObservation where
  comparison : ComparisonRow
  warmup : Option Bool
  implementationTimeNs : Option Nat
  evaluationTimeNs : Option Nat
  activeTimeNs : Option Nat
  elapsedWallTimeNs : Option Nat
  statistics : Json
  compatibilityId : String
  provenanceId : String

structure AnalysisAttempt where
  id : String
  candidateId : String
  slotId : Option String
  retryIndex : Option Nat
  state : Option String
  failureCode : Option String
  warmup : Option Bool
  startedAtNs : Option String
  finishedAtNs : Option String

structure AnalysisSlot where
  id : String
  candidateId : String
  resolvedSpecificationId : String
  state : String
  selectedObservationIds : List String

structure AnalysisApplicability where
  id : String
  candidateId : String
  applicable : Bool
  evidence : Json

structure AnalysisProfile where
  candidateId : String
  resolvedSpecificationId : String
  measurementIndex : Option Nat
  delivery : String
  status : String
  reason : Option String
  progress : Json

/-- Invariant evidence is stored once and referenced by a snapshot-local hash. -/
structure AnalysisProvenance where
  toolVersion : Option String
  benchmark : Option String
  manifestHash : Option String
  runner : Json
  host : Json
  repository : Json
  dataset : Json
  implementation : Json
  evaluator : Json

def AnalysisProvenance.value (p : AnalysisProvenance) : Json :=
  .object [("tool_version", nullableText p.toolVersion), ("benchmark", nullableText p.benchmark),
    ("manifest_hash", nullableText p.manifestHash), ("runner", p.runner), ("host", p.host),
    ("repository", p.repository), ("dataset", p.dataset), ("implementation", p.implementation),
    ("evaluator", p.evaluator)]

structure AnalysisIssue where
  code : String
  candidateId : Option String
  slotId : Option String
  message : String
  deriving DecidableEq, Repr

structure AnalysisCompleteness where
  complete : Bool
  issues : List AnalysisIssue

/-- A portable projection, rather than an archive of the result artifacts. -/
structure AnalysisSnapshot where
  schemaVersion : Nat
  candidates : List AnalysisCandidate
  observations : List AnalysisObservation
  attempts : List AnalysisAttempt
  slots : List AnalysisSlot
  applicability : List AnalysisApplicability
  profiles : List AnalysisProfile
  provenance : List (String × AnalysisProvenance)
  compatibilityClasses : List (String × CompatibilityClass)
  completeness : AnalysisCompleteness

/-! ## Completeness -/

namespace AnalysisSnapshot

variable (s : AnalysisSnapshot)

def scopeIssues : List AnalysisIssue :=
  if s.slots.isEmpty && (s.applicability.isEmpty || s.applicability.any (·.applicable)) then
    [⟨"no_measurements", none, none, "No measured scope was recorded."⟩]
  else []

/-- An observation of the snapshot is the selected one with an identity. -/
def isSelected (id : String) (o : AnalysisObservation) : Bool :=
  o.comparison.observationId = some id && o.comparison.selected = some true

def slotIssue (slot : AnalysisSlot) : Option AnalysisIssue :=
  if ¬(slot.state = "satisfied" ∨ slot.state = "skipped_target_reached") then
    some ⟨"unsatisfied_slot", some slot.candidateId, some slot.id,
      "A registered measurement has no accepted selection or target-based skip."⟩
  else if slot.state = "satisfied" ∧ slot.selectedObservationIds.isEmpty then
    some ⟨"missing_selection", some slot.candidateId, some slot.id,
      "An accepted measurement has no selected observation."⟩
  else if slot.selectedObservationIds.any fun id => !s.observations.any (isSelected id) then
    some ⟨"missing_observation", some slot.candidateId, some slot.id,
      "A selected observation is missing from the verified measurement scope."⟩
  else none

def observationIssue (o : AnalysisObservation) : Option AnalysisIssue :=
  let row := o.comparison
  if row.selected = some true ∧ (row.valid ≠ some true ∨ row.status ≠ "accepted") then
    some ⟨"invalid_selection", some row.candidateId, none,
      "A selected observation is invalid or its producing attempt was not accepted."⟩
  else none

def profileIssue (profile : AnalysisProfile) : Option AnalysisIssue :=
  if profile.status ≠ "accepted" then
    some ⟨"unfinished_profile", some profile.candidateId, none,
      "A profile did not finish its fixed schedule or reach its common target."⟩
  else none

/-- The declared repetitions of a candidate, when they are recorded and their number fits a `u64`. -/
def expectedRepetitions (candidate : AnalysisCandidate) : Option Nat :=
  candidate.measurementRepetitions.bind fun m => candidate.implementationRepetitions.bind fun i =>
    if m * i < 2 ^ 64 then some (m * i) else none

def isProfile (candidate : AnalysisCandidate) : Bool := candidate.observationPolicy.get "kind" = .str "profile"

/-- How many measurements of a candidate are recorded. -/
def observed (candidate : AnalysisCandidate) : Nat :=
  if isProfile candidate then (s.profiles.filter (·.candidateId = candidate.id)).length
  else (s.slots.filter (·.candidateId = candidate.id)).length

def candidateIssue (candidate : AnalysisCandidate) : Option AnalysisIssue :=
  match expectedRepetitions candidate with
  | none => none
  | some expected =>
      if s.applicability.any fun a => a.candidateId = candidate.id && !a.applicable then none
      else if s.observed candidate ≠ expected then
        some ⟨"missing_repetitions", some candidate.id, none,
          "The recorded measurement scope does not contain the declared repetitions."⟩
      else none

def issues : List AnalysisIssue :=
  s.scopeIssues ++ s.slots.filterMap s.slotIssue ++ s.observations.filterMap observationIssue ++
    s.profiles.filterMap profileIssue ++ s.candidates.filterMap s.candidateIssue

/-- Historical failures do not invalidate a later accepted selection. -/
def checkCompleteness : AnalysisSnapshot :=
  { s with completeness := { complete := s.issues.isEmpty, issues := s.issues } }

end AnalysisSnapshot

/-! ## Projection -/

/-- The tables of the evidence that the projection reads, and the record of each resolved run. -/
structure AnalysisTables where
  resolvedSpecification : List Json
  resolvedAttemptSlot : List Json
  observation : List Json
  freshDisposition : Option (List Json)
  freshSequence : Option (List Json)
  graph : String → Option Json

/-- A member of an object, also one that is null. -/
def member? (value : Json) (key : String) : Option Json :=
  match value with
  | .obj members => Json.lookupMember key members
  | _ => none

def text (value : Json) (key : String) : Option String := (value.get key).asStr?

def requiredText (value : Json) (key : String) : Except ExportError String :=
  expect (text value key) (.invalidEvidence "analysis record lacks an identity")

def ExportRecord.context (record : ExportRecord) : Json := (record.provenance.get "data").get "context"

def profilePolicy (policy : Json) (delivery : String) : Json :=
  .object [("kind", .str "profile"),
    ("profile", .object [("policy", policy), ("binding", .object [("delivery", .str delivery)])])]

def observationPolicy (context : Json) (record : Option ExportRecord) : Json :=
  if context = .null then .null
  else if ((context.get "analysis").get "observation_policy").isObject then
    (context.get "analysis").get "observation_policy"
  else if ((context.get "fresh_sequence").get "policy").isObject then
    profilePolicy ((context.get "fresh_sequence").get "policy") "fresh_sequence"
  else if (context.get "streaming_profile").isObject then
    profilePolicy ((context.get "streaming_profile").get "policy") "streaming_profile"
  else if (context.get "buffered_profile").isObject then
    profilePolicy ((context.get "buffered_profile").get "policy") "buffered_profile"
  else
    match record.bind fun r => member? ((r.provenance.get "data").get "execution") "profile_policy" with
    | some profile => profilePolicy (profile.get "policy") "buffered_profile"
    | none => .object [("kind", .str "one_shot")]

/-- Identities in ascending order, each once. -/
def candidateIds (records : List ExportRecord) (tables : AnalysisTables) : List String :=
  (sorted ((records.map (·.candidateId) ++ tables.resolvedSpecification.filterMap fun row =>
    text row "candidate_id").map fun id => (id, ()))).map Prod.fst

/-- Records with analysis settings come before others, and observations before other records. -/
def recordWeight (record : ExportRecord) : Nat :=
  (if (record.context.get "analysis").isObject then 2 else 0) + if record.recordType = .observation then 1 else 0

/-- The last of the heaviest records of a candidate. -/
def settingsRecord (records : List ExportRecord) (id : String) : Option ExportRecord :=
  (records.filter (·.candidateId = id)).foldl (fun best record =>
    match best with
    | none => some record
    | some other => if recordWeight other ≤ recordWeight record then some record else some other) none

def analysisCandidate (records : List ExportRecord) (id : String) : AnalysisCandidate :=
  let record := settingsRecord records id
  let context := (record.map (·.context)).getD .null
  let display := context.get "comparison"
  let settings := context.get "analysis"
  { id := id
    experiment := text display "experiment"
    implementation := text display "implementation"
    dataset := text display "dataset"
    problem := text display "problem"
    case := text display "case"
    parameters := display.get "parameters"
    implementationRepetitions := asU64? (settings.get "implementation_repetitions")
    measurementRepetitions := asU64? (settings.get "measurement_repetitions")
    executionPolicy := context.get "execution_policy"
    observationPolicy := observationPolicy context record }

/-- The bound on the observations of a profile, where it is positive. -/
def maxObservations (candidate : AnalysisCandidate) : Option Nat :=
  (asU64? (((candidate.observationPolicy.get "profile").get "policy").get "max-observations")).filter (0 < ·)

/-- The comparison row of an observation; a later row replaces an earlier one. -/
def comparisonOf (comparisons : List ComparisonRow) (id : String) : Option ComparisonRow :=
  comparisons.reverse.find? (·.observationId = some id)

def comparisonIndex (candidates : List AnalysisCandidate) (candidateId : String) (row : ComparisonRow) : ComparisonRow :=
  if row.profile.any fun p => p.get "delivery" = .str "buffered_profile" then
    match (candidates.find? (·.id = candidateId)).bind maxObservations with
    | some bound => { row with measurementIndex := row.measurementIndex.map (· / bound) }
    | none => row
  else row

def analysisProvenance (record : ExportRecord) : AnalysisProvenance :=
  let context := record.context
  { toolVersion := text record.provenance "tool_version"
    benchmark := text (context.get "analysis") "benchmark"
    manifestHash := text context "manifest_hash"
    runner := context.get "runner"
    host := context.get "host_observation"
    repository := context.get "repository"
    dataset :=
      if context.get "dataset_materialization" = .null then context.get "dataset_instance"
      else context.get "dataset_materialization"
    implementation := context.get "implementation"
    evaluator := context.get "evaluator" }

section

variable (lib : JsonLibrary) (sha256 : List UInt8 → Digest)

def provenanceId (provenance : AnalysisProvenance) : Except ExportError String :=
  ((lib.bytes provenance.value).mapError ExportError.canonical).map fun bytes => (sha256 bytes).hex

def analysisObservation (comparisons : List ComparisonRow) (candidates : List AnalysisCandidate)
    (record : ExportRecord) : Except ExportError AnalysisObservation := do
  let row ← expect (comparisonOf comparisons record.id)
    (.invalidEvidence "observation is missing its comparison projection")
  let id ← provenanceId lib sha256 (analysisProvenance record)
  return {
    comparison := comparisonIndex candidates record.candidateId row
    warmup := record.warmup
    implementationTimeNs := asU64? (record.timing.get "implementation_time_ns")
    evaluationTimeNs := (record.measurement "evaluation_time_ns").1
    activeTimeNs := record.profileNat "active_time_ns"
    elapsedWallTimeNs := record.profileNat "elapsed_wall_time_ns"
    statistics := (record.provenance.get "data").get "implementation_statistics"
    compatibilityId := record.compatibilityId
    provenanceId := id }

def analysisAttempt (record : ExportRecord) : AnalysisAttempt :=
  let source := record.evidence.get "source"
  { id := record.id
    candidateId := record.candidateId
    slotId := record.resolvedSlotId
    retryIndex := record.retryIndex
    state := record.attemptState
    failureCode := record.failureCode
    warmup := record.warmup
    startedAtNs := text source "started_at_ns"
    finishedAtNs := text source "finished_at_ns" }

def analysisApplicability (record : ExportRecord) : AnalysisApplicability :=
  { id := record.id
    candidateId := record.candidateId
    applicable := (record.evidence.get "source").get "applicable" = .bool true
    evidence := record.evidence.get "source" }

/-- Why a slot was given up: the reason of its first disposition. -/
def disposition (tables : AnalysisTables) (id : String) : Option String :=
  (tables.freshDisposition.bind fun rows => rows.find? fun d => d.get "slot_id" = .str id).bind fun d =>
    text d "reason"

def slotState (attempts : List AnalysisAttempt) (tables : AnalysisTables) (id : String) : String :=
  let own := attempts.filter (·.slotId = some id)
  if own.any fun a => a.state = some "accepted" then "satisfied"
  else if own.any fun a => a.finishedAtNs.isNone then "active"
  else if disposition tables id = some "skipped_target_reached" then "skipped_target_reached"
  else if (disposition tables id).isSome then "censored"
  else if own.isEmpty then "pending"
  else "retry_required"

def selectedObservationIds (tables : AnalysisTables) (id : String) : List String :=
  (tables.observation.filter fun o => o.get "attempt_slot_id" = .str id && o.get "selected" = .bool true).filterMap
    fun o => text o "id"

def analysisSlot (attempts : List AnalysisAttempt) (tables : AnalysisTables) (slot : Json) :
    Except ExportError AnalysisSlot := do
  let id ← requiredText slot "id"
  let runId ← requiredText slot "resolved_run_id"
  let run ← expect (tables.graph runId) (.invalidEvidence "slot has no resolved run")
  let candidateId ← requiredText run "candidate_id"
  return {
    id := id
    candidateId := candidateId
    resolvedSpecificationId := runId
    state := slotState attempts tables id
    selectedObservationIds := selectedObservationIds tables id }

def progressFields : List String :=
  ["resolved_specification_id", "logical_specification_id", "measurement_index", "scheduled_points",
    "accepted_points", "consumed_time_ns", "conservative_time_ns", "status", "reason"]

def optionalReason : Json → Except ExportError (Option String)
  | .null => .ok none
  | .str reason => .ok (some reason)
  | _ => .error .json

/-- `FreshSequenceProgress` from a row; unknown fields are refused. -/
def readProgress (row : Json) : Except ExportError FreshSequenceProgress := do
  match row with
  | .obj members => reject (members.any fun member => !progressFields.contains member.1) .json
  | _ => .error .json
  let resolved ← expect (text row "resolved_specification_id") .json
  let logical ← expect (text row "logical_specification_id") .json
  let measurementIndex ← expect (asU64? (row.get "measurement_index")) .json
  let scheduled ← expect (asU64? (row.get "scheduled_points")) .json
  let accepted ← expect (asU64? (row.get "accepted_points")) .json
  let consumed ← expect (asU64? (row.get "consumed_time_ns")) .json
  let conservative ← expect (asU64? (row.get "conservative_time_ns")) .json
  let status ← expect (text row "status") .json
  let reason ← optionalReason (row.get "reason")
  return ⟨resolved, logical, measurementIndex, scheduled, accepted, consumed, conservative, status, reason⟩

def freshProfile (tables : AnalysisTables) (row : Json) : Except ExportError AnalysisProfile := do
  let progress ← readProgress row
  let run ← expect (tables.graph progress.resolvedSpecificationId) (.invalidEvidence "profile has no resolved run")
  let candidateId ← requiredText run "candidate_id"
  return {
    candidateId := candidateId
    resolvedSpecificationId := progress.resolvedSpecificationId
    measurementIndex := some progress.measurementIndex
    delivery := "fresh_sequence"
    status := progress.status
    reason := progress.reason
    progress := row }

/-- The profile of a slot that does not belong to a fresh sequence. -/
def slotProfile (records : List ExportRecord) (observations : List AnalysisObservation) (candidate : AnalysisCandidate)
    (slot : AnalysisSlot) : AnalysisProfile :=
  let own := observations.filter fun o => o.comparison.candidateId = slot.candidateId &&
    slot.selectedObservationIds.any fun id => o.comparison.observationId = some id
  let profile := candidate.observationPolicy.get "profile"
  let policy := profile.get "policy"
  let delivery := (profile.get "binding").get "delivery"
  let hasTarget := (policy.get "metric").asStr?.isSome
  let finished := slot.state = "satisfied" &&
    if hasTarget then own.any fun o => o.comparison.completion = some "reached"
    else (asU64? (policy.get "max-observations")).any fun count => own.length = count
  let context := (records.find? fun r => r.recordType = .attempt && r.resolvedSlotId = some slot.id).map (·.context)
  let index := context.bind fun c =>
    asU64? (((c.get "scheduling").get "comparison_block").get "measurement_index")
  { candidateId := slot.candidateId
    resolvedSpecificationId := slot.resolvedSpecificationId
    measurementIndex := index.map fun index =>
      if delivery = .str "buffered_profile" then index / (maxObservations candidate).getD 1 else index
    delivery := delivery.asStr?.getD "unavailable"
    status := if finished then "accepted" else "partial"
    reason := if finished then some (if hasTarget then "target_reached" else "fixed_count") else none
    progress := .null }

/-- Enter the profile of one more slot. -/
def addSlotProfile (records : List ExportRecord) (observations : List AnalysisObservation)
    (candidates : List AnalysisCandidate) (profiles : List AnalysisProfile) (slot : AnalysisSlot) : List AnalysisProfile :=
  if profiles.any fun p => p.delivery = "fresh_sequence" && p.resolvedSpecificationId = slot.resolvedSpecificationId then
    profiles
  else
    match candidates.find? (·.id = slot.candidateId) with
    | none => profiles
    | some candidate =>
        if AnalysisSnapshot.isProfile candidate then profiles ++ [slotProfile records observations candidate slot]
        else profiles

/-! The orders of the snapshot's lists. -/

def scheduleIndex (o : AnalysisObservation) : Option Nat :=
  o.comparison.profile.bind fun p => ((asU64? (p.get "schedule_index")).or (asU64? (p.get "checkpoint_sequence"))).or
    (asU64? (p.get "trace_index"))

def compareOption {α : Type} [Ord α] : Option α → Option α → Ordering
  | none, none => .eq
  | none, some _ => .lt
  | some _, none => .gt
  | some a, some b => compare a b

def compareObservations (a b : AnalysisObservation) : Ordering :=
  (compare a.comparison.candidateId b.comparison.candidateId)
    |>.then (compareOption a.comparison.implementationRepetition b.comparison.implementationRepetition)
    |>.then (compareOption a.comparison.measurementIndex b.comparison.measurementIndex)
    |>.then (compareOption (scheduleIndex a) (scheduleIndex b))
    |>.then (compare a.comparison.retryIndex b.comparison.retryIndex)
    |>.then (compareOption a.comparison.observationId b.comparison.observationId)

def compareProfiles (a b : AnalysisProfile) : Ordering :=
  (compare a.candidateId b.candidateId)
    |>.then (compare a.resolvedSpecificationId b.resolvedSpecificationId)
    |>.then (compareOption a.measurementIndex b.measurementIndex)

/-- A stable sort. -/
def sortedBy {α : Type} (order : α → α → Ordering) (entries : List α) : List α :=
  entries.insertionSort fun a b => order a b ≠ .gt

/-- The lists of the snapshot, before they are sorted and checked. -/
def projected (records : List ExportRecord) (comparisons : List ComparisonRow) (tables : AnalysisTables) :
    Except ExportError AnalysisSnapshot := do
  let candidates := (candidateIds records tables).map (analysisCandidate records)
  let observed := records.filter (·.recordType = .observation)
  let observations ← traverseAll (analysisObservation lib sha256 comparisons candidates) observed
  let attempts := (records.filter (·.recordType = .attempt)).map analysisAttempt
  let slots ← traverseAll (analysisSlot attempts tables)
    (tables.resolvedAttemptSlot.filter fun slot => slot.get "role" = .str "measurement")
  let fresh ← traverseAll (freshProfile tables) (tables.freshSequence.getD [])
  return {
    schemaVersion := 1
    candidates := candidates
    observations := observations
    attempts := attempts
    slots := slots
    applicability := (records.filter (·.recordType = .applicability)).map analysisApplicability
    profiles := slots.foldl (addSlotProfile records observations candidates) fresh
    provenance := sorted ((observations.map (·.provenanceId)).zip (observed.map analysisProvenance))
    compatibilityClasses := sorted (observed.map fun r => (r.compatibilityId, r.compatibility))
    completeness := { complete := false, issues := [] } }

def project (records : List ExportRecord) (comparisons : List ComparisonRow) (tables : AnalysisTables) :
    Except ExportError AnalysisSnapshot := do
  let s ← projected lib sha256 records comparisons tables
  return { s with
    observations := sortedBy compareObservations s.observations
    slots := sortedBy (fun a b => compare a.id b.id) s.slots
    profiles := sortedBy compareProfiles s.profiles }.checkCompleteness

end

/-- The part of a snapshot that concerns the candidates of some records. -/
def narrowed (source : AnalysisSnapshot) (records : List ExportRecord) : AnalysisSnapshot :=
  let among := fun id => records.any fun r => r.candidateId = id
  { source with
    candidates := source.candidates.filter fun c => among c.id
    slots := source.slots.filter fun s => among s.candidateId
    profiles := source.profiles.filter fun p => among p.candidateId
    applicability := source.applicability.filter fun a => among a.candidateId
    observations := source.observations.filter fun o => among o.comparison.candidateId }

/-- The check covers the candidates; the rows are then narrowed to the records themselves. -/
def select (source : AnalysisSnapshot) (records : List ExportRecord) : AnalysisSnapshot :=
  let snapshot := (narrowed source records).checkCompleteness
  let chosen := fun id => records.any fun r => r.id = id
  let observations := snapshot.observations.filter fun o => o.comparison.observationId.any chosen
  { snapshot with
    observations := observations
    attempts := snapshot.attempts.filter fun a => chosen a.id
    provenance := snapshot.provenance.filter fun p => observations.any fun o => o.provenanceId = p.1
    compatibilityClasses := snapshot.compatibilityClasses.filter fun c =>
      observations.any fun o => o.compatibilityId = c.1 }

end Metewand.Export
