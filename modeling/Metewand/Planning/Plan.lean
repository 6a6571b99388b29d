import Metewand.Core.Bytes
import Metewand.Core.Logical
import Metewand.Lib.Chunks
import Metewand.Planning.Expansion

/-!
# Logical planning

The second half of `core/planning.rs`: expanded candidates become identified records, and
every specification gets its observation slots and attempt slots.  A panic of the source
(a missing map entry, an index out of range, a step of zero) is the error `panicked`.
-/

namespace Metewand.Planning

open Lib Lib.Check

/-! ## Byte transcripts -/

def schedulingPriorityDomain : String := "metewand-scheduling-priority-v1"

def schedulingPolicyVersion : Nat := 1

/-- A stable priority for one logical attempt-slot role. -/
def deriveAttemptSchedulingPriority (hashes : Hashes) (schedulingSeed : DerivedSeedRecord)
    (specification : RecordId .logicalSpecification) (role : AttemptSlotRole) : Digest :=
  hashes.transcript (utf8 schedulingPriorityDomain ++ [0] ++ schedulingSeed.derivationDigest.bytes ++
    [0] ++
    match role with
    | .warmup warmupIndex =>
        utf8 "warmup" ++ [0] ++ utf8 specification.text ++ [0] ++ toBeBytes warmupIndex
    | .measured observationSlot => utf8 "measured" ++ [0] ++ utf8 observationSlot.text)

/-! ## Plans -/

/-- Typed definition identities needed to turn expanded parameters into records. -/
structure LogicalPlanningCatalog where
  schemaIdentities : OrderedMap String (RecordId .schema)
  datasetDefinitions : DatasetConfigurationDefinition → Option (RecordId .datasetDefinition)
  problemDefinitions : OrderedMap String (RecordId .problemDefinition)
  implementationDefinitions : OrderedMap String (RecordId .implementationDefinition)
  environmentDefinitions : OrderedMap String (RecordId .environmentDefinition)

inductive LogicalPlanningError where
  | control (control : String)
  | missingDefinitionIdentity (kind name : String)
  | controlSchedule (error : ControlScheduleError)
  | seed (violation : Json.CanonicalValueViolation)
  | identity (violation : Json.CanonicalValueViolation)
  | panicked (message : String)

/-- One identified run specification and all of its planned slots. -/
structure OneShotSpecificationPlan where
  specification : IdentifiedRecord OneShotLogicalSpecificationRecord .logicalSpecification
  observationSlots : List (IdentifiedRecord LogicalObservationSlotRecord .logicalObservationSlot)
  attemptSlots : List (IdentifiedRecord LogicalAttemptSlotRecord .logicalAttemptSlot)

inductive CapabilityEvidence where
  | declared
  | verifiedNow
  | previouslyVerified
  deriving DecidableEq

structure CapabilityReport where
  capability : ImplementationCapability
  evidence : CapabilityEvidence
  deriving DecidableEq

def CapabilityReport.declared (capability : ImplementationCapability) : CapabilityReport :=
  ⟨capability, .declared⟩

/-- One expanded configuration candidate with all logical identities attached. -/
structure LogicalCandidatePlan where
  profilePolicy : Option (IdentifiedRecord ObservationPolicyRecord .observationPolicy)
  source : ConfigurationSource
  datasetConfiguration : IdentifiedRecord DatasetConfigurationRecord .datasetConfiguration
  problemConfiguration : IdentifiedRecord ProblemConfigurationRecord .problemConfiguration
  implementationConfiguration :
    IdentifiedRecord ImplementationConfigurationRecord .implementationConfiguration
  implementationCapabilities : List CapabilityReport
  candidate : IdentifiedRecord LogicalCandidateRecord .logicalCandidate
  specifications : List OneShotSpecificationPlan

/-- One experiment expanded into identified logical records. -/
structure LogicalExperimentPlan where
  name : String
  schedulingSeed : DerivedSeedRecord
  executionPolicy : IdentifiedRecord ExecutionPolicyRecord .executionPolicy
  observationPolicy : IdentifiedRecord ObservationPolicyRecord .observationPolicy
  candidates : List LogicalCandidatePlan

/-- A complete unresolved logical plan. -/
structure LogicalPlan where
  experiments : List LogicalExperimentPlan

/-! ## Specifications -/

section Specification

variable (hashes : Hashes)

/-- `identify_record` under the planner's hash. -/
def identify {T : Type} {kind : IdentityKind} [IdentityRecord T kind] (record : T) :
    Except LogicalPlanningError (IdentifiedRecord T kind) :=
  (identifyRecord hashes.identity record).mapError .identity

/-- The controls of a fresh binding; the other deliveries have none. -/
def freshControls (profileBound : Option (Nat × ProfileBinding)) :
    Except LogicalPlanningError (Option (List CanonicalValue)) :=
  match profileBound with
  | some (bound, .fresh binding) =>
      ((binding.schedule.expand bound).mapError .controlSchedule).map some
  | _ => .ok none

/-- The number of observation slots of one measurement repetition. -/
def slotBound (profileBound : Option (Nat × ProfileBinding))
    (controls : Option (List CanonicalValue)) : Nat :=
  match controls with
  | some controls => controls.length
  | none =>
      match profileBound with
      | some (bound, _) => bound
      | none => 1

/-- The record of the observation slot at one index. -/
def observationSlotRecord (specification : RecordId .logicalSpecification)
    (controls : Option (List CanonicalValue)) (bound index : Nat) :
    Except LogicalPlanningError LogicalObservationSlotRecord :=
  match controls with
  | none => .ok { fresh := none, specification, measurementIndex := index }
  | some controls => do
      let control ← expect controls[index % bound]? (.panicked "index out of bounds")
      return {
        fresh := some { scheduleIndex := index % bound, observationControl := control.value }
        specification
        measurementIndex := index / bound }

def planObservationSlot (specification : RecordId .logicalSpecification)
    (controls : Option (List CanonicalValue)) (bound index : Nat) :
    Except LogicalPlanningError
      (IdentifiedRecord LogicalObservationSlotRecord .logicalObservationSlot) := do
  let record ← observationSlotRecord specification controls bound index
  identify hashes record

def planAttemptSlot (schedulingSeed : DerivedSeedRecord)
    (specification : RecordId .logicalSpecification) (role : AttemptSlotRole) :
    Except LogicalPlanningError (IdentifiedRecord LogicalAttemptSlotRecord .logicalAttemptSlot) :=
  identify hashes {
    specification
    role
    schedulingPriority :=
      deriveAttemptSchedulingPriority hashes schedulingSeed specification role }

def planSpecification (experiment : ExperimentDefinition) (candidate : RecordId .logicalCandidate)
    (datasetConfiguration : RecordId .datasetConfiguration)
    (problemConfiguration : RecordId .problemConfiguration) (implementationRepetition : Nat)
    (warmupRuns : Nat) (schedulingSeed : DerivedSeedRecord)
    (profileBound : Option (Nat × ProfileBinding)) :
    Except LogicalPlanningError OneShotSpecificationPlan := do
  let implementationSeed ←
    (deriveImplementationSeed hashes experiment.seed datasetConfiguration problemConfiguration
      implementationRepetition).mapError .seed
  let specification ← identify hashes
    { candidate, scientificBudget := .none, implementationRepetition, implementationSeed :
      OneShotLogicalSpecificationRecord }
  let controls ← freshControls profileBound
  let bound := slotBound profileBound controls
  let slotCount := experiment.measurementRepetitions * bound
  reject (2 ^ 64 ≤ slotCount)
    (.missingDefinitionIdentity "observation bound" "too many observation slots")
  let observationSlots ←
    traverseAll (planObservationSlot hashes specification.id controls bound) (List.range slotCount)
  let warmups ←
    traverseAll (fun index => planAttemptSlot hashes schedulingSeed specification.id (.warmup index))
      (List.range warmupRuns)
  let step := if controls.isSome then 1 else bound
  reject (step = 0) (.panicked "assertion failed: step != 0")
  let measured ←
    traverseAll (fun observation =>
        planAttemptSlot hashes schedulingSeed specification.id (.measured observation.id))
      (stepBy step observationSlots)
  return { specification, observationSlots, attemptSlots := warmups ++ measured }

end Specification

/-! ## Candidates -/

def executionPolicyRecord (name : String) (definition : ExecutionPolicyDefinition) :
    ExecutionPolicyRecord where
  name
  cpus := definition.cpus
  threads := definition.threads
  memory := definition.memory
  network := definition.resolvedNetwork
  workerReuse := definition.resolvedWorkerReuse
  warmupRuns := definition.resolvedWarmupRuns
  timeout := definition.timeout
  timingScope := definition.resolvedTimingScope
  primaryTime := definition.resolvedPrimaryTime
  runOrder := definition.resolvedRunOrder
  maxConcurrency := definition.resolvedMaxConcurrency
  enforcement := definition.resolvedEnforcement

/-- The common policy of an experiment; a policy outside the canonical domain panics. -/
def observationPolicyRecord (name : String) (definition : ObservationPolicyDefinition) :
    Except LogicalPlanningError ObservationPolicyRecord :=
  match definition.profile with
  | none => .ok { profile := none, name, kind := definition.kind }
  | some profile => do
      let value ←
        (CanonicalValue.tryFrom profile.policy.json).mapError fun _ => .panicked "validated profile"
      return { profile := some value, name, kind := definition.kind }

/-- Strength of an executor's evidence for a requested control. -/
inductive ControlStatus where
  | enforced
  | bestEffort
  | unsupported
  deriving DecidableEq

structure ControlRecord where
  name : String
  required : Bool
  status : ControlStatus
  deriving DecidableEq

/-- `local_control_report`: the local backend's guarantees under a policy. -/
def localControlReport (policy : ExecutionPolicyRecord) : List ControlRecord :=
  let add (name : String) (status : ControlStatus) : ControlRecord :=
    ⟨name, policy.enforcement == .required, status⟩
  [add "network" (if policy.network then .enforced else .unsupported),
    add "filesystem_isolation" .unsupported,
    add "dataset_immutability" .bestEffort,
    add "process_tree" .bestEffort,
    add "process_tree_accounting" .unsupported,
    add "private_working_directory" .bestEffort] ++
  (if policy.cpus.isSome then [add "cpus" .unsupported] else []) ++
  (if policy.threads.isSome then [add "threads" .unsupported] else []) ++
  if policy.memory.isSome then [add "memory" .unsupported] else []

def validateRequiredControls : List ControlRecord → Except LogicalPlanningError Unit :=
  each fun control =>
    reject (control.required = true ∧ control.status ≠ .enforced) (.control control.name)

def DatasetConfigurationDefinition.text : DatasetConfigurationDefinition → String
  | .unit => "<unit>"
  | .named name => name

def namedDefinitionId {kind : IdentityKind} (definitions : OrderedMap String (RecordId kind))
    (name label : String) : Except LogicalPlanningError (RecordId kind) :=
  expect (definitions.get name) (.missingDefinitionIdentity label name)

section Candidate

variable (hashes : Hashes) (manifest : Manifest) (catalog : LogicalPlanningCatalog)
  (experiment : ExperimentDefinition)

/-- The record of one implementation's share of a profile. -/
def profileValue (profile : ProfileDefinition) (binding : ProfileBinding) (name : String) : Json :=
  let schema : Json := .ofOption RecordId.json
    (binding.schema.bind fun schema => catalog.schemaIdentities.get schema.path)
  .object ([("policy", profile.policy.json),
    ("binding", (profile.declarationValue.get "implementations").get name)] ++
    match binding with
    | .streaming _ => []
    | .fresh _ => [("control_schema", schema)]
    | .buffered _ => [("instrumentation_schema", schema)])

/-- The profile that covers an implementation, with its binding. -/
def selectedProfile (name : String) :
    Except LogicalPlanningError (Option (ProfileDefinition × ProfileBinding)) := do
  let policy ← expect (manifest.observationPolicies.get experiment.observationPolicy)
    (.panicked "observation policy")
  match policy.profile with
  | none => .ok none
  | some profile => do
      let binding ← expect (profile.implementations.get name) (.panicked "profile implementation")
      return some (profile, binding)

def planProfilePolicy (name : String) :
    Option (ProfileDefinition × ProfileBinding) →
      Except LogicalPlanningError
        (Option (IdentifiedRecord ObservationPolicyRecord .observationPolicy))
  | none => .ok none
  | some (profile, binding) => do
      let value ←
        (CanonicalValue.tryFrom (profileValue catalog profile binding name)).mapError .identity
      let record ← identify hashes
        { profile := some value, name := experiment.observationPolicy, kind := .profile :
          ObservationPolicyRecord }
      return some record

def planCandidate (executionPolicy : RecordId .executionPolicy)
    (observationPolicy : RecordId .observationPolicy) (warmupRuns : Nat)
    (schedulingSeed : DerivedSeedRecord) (expanded : ExpandedCandidate) :
    Except LogicalPlanningError LogicalCandidatePlan := do
  let datasetDefinition ← expect (catalog.datasetDefinitions expanded.dataset.definition)
    (.missingDefinitionIdentity "dataset-definition" expanded.dataset.definition.text)
  let problemDefinition ←
    namedDefinitionId catalog.problemDefinitions expanded.problem.definition "problem-definition"
  let implementationDefinition ←
    namedDefinitionId catalog.implementationDefinitions expanded.implementation.definition
      "implementation-definition"
  let environmentDefinition ←
    namedDefinitionId catalog.environmentDefinitions expanded.implementation.environment
      "environment-definition"
  let datasetSeed ←
    (deriveDatasetSeed hashes experiment.seed datasetDefinition
      expanded.dataset.parameters).mapError .seed
  let datasetConfiguration ← identify hashes
    { definition := datasetDefinition, parameters := expanded.dataset.parameters,
      seed := datasetSeed : DatasetConfigurationRecord }
  let problemConfiguration ← identify hashes
    { definition := problemDefinition, parameters := expanded.problem.parameters :
      ProblemConfigurationRecord }
  let implementationConfiguration ← identify hashes
    { definition := implementationDefinition, parameters := expanded.implementation.parameters,
      environment := environmentDefinition : ImplementationConfigurationRecord }
  let implementation ← expect (manifest.implementations.get expanded.implementation.definition)
    (.panicked "implementation")
  let profile ← selectedProfile manifest experiment expanded.implementation.definition
  let profilePolicy ←
    planProfilePolicy hashes catalog experiment expanded.implementation.definition profile
  let candidate ← identify hashes
    { datasetConfiguration := datasetConfiguration.id,
      problemConfiguration := problemConfiguration.id,
      implementationConfiguration := implementationConfiguration.id,
      executionPolicy,
      observationPolicy := (profilePolicy.map (·.id)).getD observationPolicy :
      LogicalCandidateRecord }
  let specifications ←
    traverseAll (fun repetition =>
        planSpecification hashes experiment candidate.id datasetConfiguration.id
          problemConfiguration.id repetition warmupRuns schedulingSeed
          (profile.map fun selected => (selected.1.policy.maxObservations, selected.2)))
      (List.range experiment.implementationRepetitions)
  return {
    profilePolicy
    source := expanded.source
    datasetConfiguration
    problemConfiguration
    implementationConfiguration
    implementationCapabilities := implementation.capabilities.map .declared
    candidate
    specifications }

def planExperiment (expanded : ExpandedExperiment) :
    Except LogicalPlanningError LogicalExperimentPlan := do
  let executionPolicyDefinition ←
    expect (manifest.executionPolicies.get experiment.executionPolicy)
      (.panicked "configuration expansion validates execution-policy references")
  let executionPolicy ← identify hashes
    (executionPolicyRecord experiment.executionPolicy executionPolicyDefinition)
  validateRequiredControls (localControlReport executionPolicy.record)
  let observationPolicyDefinition ←
    expect (manifest.observationPolicies.get experiment.observationPolicy)
      (.panicked "configuration expansion validates observation-policy references")
  let observationPolicyRecord ←
    observationPolicyRecord experiment.observationPolicy observationPolicyDefinition
  let observationPolicy ← identify hashes observationPolicyRecord
  let schedulingSeed ←
    (deriveSchedulingSeed hashes experiment.seed manifest.name experiment.name
      schedulingPolicyVersion).mapError .seed
  let candidates ←
    traverseAll (planCandidate hashes manifest catalog experiment executionPolicy.id
      observationPolicy.id executionPolicy.record.warmupRuns schedulingSeed) expanded.candidates
  return { name := expanded.name, schedulingSeed, executionPolicy, observationPolicy, candidates }

/-- The logical plan of the expanded experiments, in their declared order. -/
def expandManifestLogicalPlan (experiments : List (ExperimentDefinition × ExpandedExperiment)) :
    Except LogicalPlanningError LogicalPlan := do
  let plans ←
    traverseAll (fun pair => planExperiment hashes manifest catalog pair.1 pair.2) experiments
  return ⟨plans⟩

end Candidate

end Metewand.Planning
