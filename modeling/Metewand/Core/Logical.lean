import Metewand.Core.Manifest
import Metewand.Core.Spelling

/-!
# Logical records

The records of an unresolved plan (`core/records.rs`) with their identity fields
(`core/identity.rs`), and the seeds that enter them (`core/seed.rs`).

SHA-256 enters through `Hashes`: as the identity hash of a kind and a canonical value, as
the seed hash of a role and its canonical fields, and as the digest of a byte transcript.
-/

namespace Metewand

open Lib

/-! ## Hashes and seeds -/

/-- The uses the planner makes of SHA-256. -/
structure Hashes where
  /-- The digest under an identity kind. -/
  identity : Hasher
  /-- The digest of a seed role and its canonical fields. -/
  seed : String → Json → Digest
  /-- The digest of a byte transcript. -/
  transcript : List UInt8 → Digest

structure DerivedSeedRecord where
  value : Nat
  derivationDigest : Digest
  deriving DecidableEq

def DerivedSeedRecord.json (seed : DerivedSeedRecord) : Json :=
  .object [("value", .nat seed.value), ("derivation_digest", .str seed.derivationDigest.hex)]

/-- The number the bytes spell, most significant byte first. -/
def fromBeBytes (bytes : List UInt8) : Nat :=
  bytes.foldl (fun value byte => value * 256 + byte.toNat) 0

/-- `derive_seed`: the leading 53 bits of the digest. -/
def deriveSeed (hashes : Hashes) (role : String) (fields : Json) :
    Except Json.CanonicalValueViolation DerivedSeedRecord :=
  fields.normalize.map fun canonical =>
    let digest := hashes.seed role canonical
    { value := fromBeBytes (digest.bytes.take 8) / 2 ^ 11, derivationDigest := digest }

def deriveDatasetSeed (hashes : Hashes) (experimentSeed : Nat)
    (datasetDefinition : RecordId .datasetDefinition) (datasetParameters : CanonicalValue) :
    Except Json.CanonicalValueViolation DerivedSeedRecord :=
  deriveSeed hashes "dataset" (.object [
    ("experiment_seed", .nat experimentSeed),
    ("dataset_definition", datasetDefinition.json),
    ("dataset_parameters", datasetParameters.value)])

def deriveImplementationSeed (hashes : Hashes) (experimentSeed : Nat)
    (datasetConfiguration : RecordId .datasetConfiguration)
    (problemConfiguration : RecordId .problemConfiguration) (implementationRepetition : Nat) :
    Except Json.CanonicalValueViolation DerivedSeedRecord :=
  deriveSeed hashes "implementation" (.object [
    ("experiment_seed", .nat experimentSeed),
    ("dataset_configuration", datasetConfiguration.json),
    ("problem_configuration", problemConfiguration.json),
    ("implementation_repetition", .nat implementationRepetition)])

def deriveSchedulingSeed (hashes : Hashes) (experimentSeed : Nat)
    (benchmarkName experimentName : String) (schedulingPolicyVersion : Nat) :
    Except Json.CanonicalValueViolation DerivedSeedRecord :=
  deriveSeed hashes "scheduling" (.object [
    ("experiment_seed", .nat experimentSeed),
    ("benchmark_name", .str benchmarkName),
    ("experiment_name", .str experimentName),
    ("scheduling_policy_version", .nat schedulingPolicyVersion)])

/-! ## Policies -/

def TimingScope.name : TimingScope → String
  | .coldEndToEnd => "cold_end_to_end"
  | .prepareAndExecute => "prepare_and_execute"
  | .executeOnly => "execute_only"

def RunOrder.name : RunOrder → String
  | .sequential => "sequential"
  | .randomized => "randomized"

def Enforcement.name : Enforcement → String
  | .bestEffort => "best_effort"
  | .required => "required"

def ObservationKind.name : ObservationKind → String
  | .oneShot => "one_shot"
  | .profile => "profile"

structure ExecutionPolicyRecord where
  name : String
  cpus : Option Nat
  threads : Option Nat
  memory : Option String
  network : Bool
  workerReuse : Bool
  warmupRuns : Nat
  timeout : Option String
  timingScope : TimingScope
  primaryTime : PrimaryTime
  runOrder : RunOrder
  maxConcurrency : Nat
  enforcement : Enforcement
  deriving DecidableEq

instance : IdentityRecord ExecutionPolicyRecord .executionPolicy where
  identityFields record := [
    ("name", .str record.name),
    ("cpus", .ofOption .nat record.cpus),
    ("threads", .ofOption .nat record.threads),
    ("memory", .ofOption .str record.memory),
    ("network", .bool record.network),
    ("worker_reuse", .bool record.workerReuse),
    ("warmup_runs", .nat record.warmupRuns),
    ("timeout", .ofOption .str record.timeout),
    ("timing_scope", .str record.timingScope.name),
    ("primary_time", .str record.primaryTime.name),
    ("run_order", .str record.runOrder.name),
    ("max_concurrency", .nat record.maxConcurrency),
    ("enforcement", .str record.enforcement.name)]

structure ObservationPolicyRecord where
  profile : Option CanonicalValue
  name : String
  kind : ObservationKind
  deriving DecidableEq

instance : IdentityRecord ObservationPolicyRecord .observationPolicy where
  identityFields record :=
    [("name", .str record.name), ("kind", .str record.kind.name)] ++
      match record.profile with
      | some profile => [("profile", profile.value)]
      | none => []

/-! ## Configurations and candidates -/

structure DatasetConfigurationRecord where
  definition : RecordId .datasetDefinition
  parameters : CanonicalValue
  seed : DerivedSeedRecord
  deriving DecidableEq

instance : IdentityRecord DatasetConfigurationRecord .datasetConfiguration where
  identityFields record := [
    ("definition", record.definition.json),
    ("parameters", record.parameters.value),
    ("seed", record.seed.json)]

structure ProblemConfigurationRecord where
  definition : RecordId .problemDefinition
  parameters : CanonicalValue
  deriving DecidableEq

instance : IdentityRecord ProblemConfigurationRecord .problemConfiguration where
  identityFields record := [
    ("definition", record.definition.json),
    ("parameters", record.parameters.value)]

structure ImplementationConfigurationRecord where
  definition : RecordId .implementationDefinition
  parameters : CanonicalValue
  environment : RecordId .environmentDefinition
  deriving DecidableEq

instance : IdentityRecord ImplementationConfigurationRecord .implementationConfiguration where
  identityFields record := [
    ("definition", record.definition.json),
    ("parameters", record.parameters.value),
    ("environment", record.environment.json)]

/-- Selected configurations and policies before applicability resolution. -/
structure LogicalCandidateRecord where
  datasetConfiguration : RecordId .datasetConfiguration
  problemConfiguration : RecordId .problemConfiguration
  implementationConfiguration : RecordId .implementationConfiguration
  executionPolicy : RecordId .executionPolicy
  observationPolicy : RecordId .observationPolicy
  deriving DecidableEq

instance : IdentityRecord LogicalCandidateRecord .logicalCandidate where
  identityFields record := [
    ("dataset_configuration", record.datasetConfiguration.json),
    ("problem_configuration", record.problemConfiguration.json),
    ("implementation_configuration", record.implementationConfiguration.json),
    ("execution_policy", record.executionPolicy.json),
    ("observation_policy", record.observationPolicy.json)]

inductive ScientificBudget where
  | none
  deriving DecidableEq

def ScientificBudget.name : ScientificBudget → String
  | .none => "none"

structure OneShotLogicalSpecificationRecord where
  candidate : RecordId .logicalCandidate
  scientificBudget : ScientificBudget
  implementationRepetition : Nat
  implementationSeed : DerivedSeedRecord
  deriving DecidableEq

instance : IdentityRecord OneShotLogicalSpecificationRecord .logicalSpecification where
  identityFields record := [
    ("kind", .str "one_shot"),
    ("candidate", record.candidate.json),
    ("scientific_budget", .str record.scientificBudget.name),
    ("implementation_repetition", .nat record.implementationRepetition),
    ("implementation_seed", record.implementationSeed.json)]

/-! ## Slots -/

def FreshControl.json (fresh : FreshControl) : Json :=
  .object [("schedule_index", .nat fresh.scheduleIndex),
    ("observation_control", fresh.observationControl)]

structure LogicalObservationSlotRecord where
  fresh : Option FreshControl
  specification : RecordId .logicalSpecification
  measurementIndex : Nat

instance : IdentityRecord LogicalObservationSlotRecord .logicalObservationSlot where
  identityFields record :=
    [("specification", record.specification.json),
      ("measurement_index", .nat record.measurementIndex)] ++
      match record.fresh with
      | some fresh => [("fresh", fresh.json)]
      | none => []

/-- The purpose of an attempt slot. -/
inductive AttemptSlotRole where
  | warmup (warmupIndex : Nat)
  | measured (observationSlot : RecordId .logicalObservationSlot)
  deriving DecidableEq

def AttemptSlotRole.json : AttemptSlotRole → Json
  | .warmup warmupIndex =>
      .object [("kind", .str "warmup"), ("warmup_index", .nat warmupIndex)]
  | .measured observationSlot =>
      .object [("kind", .str "measured"), ("observation_slot", observationSlot.json)]

structure LogicalAttemptSlotRecord where
  specification : RecordId .logicalSpecification
  role : AttemptSlotRole
  schedulingPriority : Digest
  deriving DecidableEq

instance : IdentityRecord LogicalAttemptSlotRecord .logicalAttemptSlot where
  identityFields record := [
    ("specification", record.specification.json),
    ("role", record.role.json),
    ("scheduling_priority", .str record.schedulingPriority.hex)]

/-! ## Identified records -/

/-- `identify_record`. -/
def identifyRecord (hash : Hasher) {T : Type} {kind : IdentityKind} [IdentityRecord T kind]
    (record : T) : Except Json.CanonicalValueViolation (IdentifiedRecord T kind) :=
  (recordId hash record).map fun id => ⟨id, record⟩

theorem identifyRecord_ok {hash : Hasher} {T : Type} {kind : IdentityKind}
    [IdentityRecord T kind] {record : T} {identified : IdentifiedRecord T kind} :
    identifyRecord hash record = .ok identified ↔
      identified.record = record ∧
        ∃ value, canonicalIdentity record = .ok value ∧ identified.id = ⟨hash kind value⟩ := by
  obtain ⟨id, held⟩ := identified
  unfold identifyRecord recordId
  cases canonicalIdentity record with
  | error e => simp [Except.map]
  | ok value =>
      simp only [Except.map, Except.ok.injEq, IdentifiedRecord.mk.injEq, exists_eq_left']
      constructor
      · rintro ⟨rfl, rfl⟩
        exact ⟨rfl, rfl⟩
      · rintro ⟨rfl, rfl⟩
        exact ⟨rfl, rfl⟩

end Metewand
