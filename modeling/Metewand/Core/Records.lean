import Metewand.Core.Logical
import Metewand.Core.Separation

/-!
# Definition and resolution records

The records of `core/records.rs` that authored definitions and their resolution are identified by, with
the identity fields of `core/identity.rs`.  Repository paths, names and pinned image references are kept
as their text; on the platforms where `/` separates paths, `path` writes them unchanged.

The outcome, the times and the provenance of an attempt are no part of its identity and are left out.
-/

namespace Metewand

open Lib

/-! ## Names of variants -/

inductive InterpretedRunner where
  | python | r | julia
  deriving DecidableEq, Repr

def InterpretedRunner.name : InterpretedRunner → String
  | .python => "python"
  | .r => "r"
  | .julia => "julia"

inductive ProtocolTransport where
  | pipes | socket | stdio
  deriving DecidableEq, Repr

def ProtocolTransport.name : ProtocolTransport → String
  | .pipes => "pipes"
  | .socket => "socket"
  | .stdio => "stdio"

inductive NixOutputKind where
  | package | app
  deriving DecidableEq, Repr

def NixOutputKind.name : NixOutputKind → String
  | .package => "package"
  | .app => "app"

def ImplementationCapability.name : ImplementationCapability → String
  | .oneShot => "one_shot"
  | .applicability => "applicability"
  | .freshSequence => "fresh_sequence"
  | .bufferedProfile => "buffered_profile"
  | .streamingProfile => "streaming_profile"

/-! ## Environments and workers -/

/-- A set of names, kept in ascending order. -/
structure NameSet where
  names : List String
  ascending : names.Pairwise (· < ·)

instance : DecidableEq NameSet := fun a b =>
  decidable_of_iff (a.names = b.names) (by cases a; cases b; simp)

def NameSet.json (set : NameSet) : Json := .arr (set.names.map .str)

/-- A selection is written only when something is selected. -/
def NameSet.field (key : String) (set : NameSet) : List (String × Json) :=
  if set.names.isEmpty then [] else [(key, set.json)]

/-- Literal settings by name. -/
abbrev Variables : Type := OrderedMap String String

def variablesJson (settings : Variables) : Json := .ofMap .str settings

inductive EnvironmentDefinitionKind where
  | «local»
  | localWithVariables (environmentVariables : Variables)
  | uv (project lockfile : String) (groups extras : NameSet)
  | renv (project lockfile : String)
  | nix (flake installable system : String) (outputKind : NixOutputKind) (output : String)
  | oci (image : String)

def EnvironmentDefinitionKind.json : EnvironmentDefinitionKind → Json
  | .local => .object [("kind", .str "local")]
  | .localWithVariables environmentVariables =>
      .object [("kind", .str "local"), ("environment_variables", variablesJson environmentVariables)]
  | .uv project lockfile groups extras =>
      .object ([("kind", .str "uv"), ("project", .str project), ("lockfile", .str lockfile)] ++
        groups.field "groups" ++ extras.field "extras")
  | .renv project lockfile =>
      .object [("kind", .str "renv"), ("project", .str project), ("lockfile", .str lockfile)]
  | .nix flake installable system outputKind output =>
      .object [("kind", .str "nix"), ("flake", .str flake), ("installable", .str installable),
        ("system", .str system), ("output_kind", .str outputKind.name), ("output", .str output)]
  | .oci image => .object [("kind", .str "oci"), ("image", .str image)]

/-- One unresolved software-environment definition. -/
structure EnvironmentDefinitionRecord where
  name : String
  kind : EnvironmentDefinitionKind

instance : IdentityRecord EnvironmentDefinitionRecord .environmentDefinition where
  identityFields record := [("name", .str record.name), ("definition", record.kind.json)]

/-- Runner-specific data in a worker definition. -/
inductive WorkerLaunch where
  | interpreted (runner : InterpretedRunner) (entrypoint : String) (sourceBundle : RecordId .sourceBundle)
  | command (program : String) (sourceBundle : Option (RecordId .sourceBundle))
  deriving DecidableEq

def WorkerLaunch.json : WorkerLaunch → Json
  | .interpreted runner entrypoint sourceBundle =>
      .object [("kind", .str "interpreted"), ("runner", .str runner.name), ("entrypoint", .str entrypoint),
        ("source_bundle", sourceBundle.json)]
  | .command program sourceBundle =>
      .object [("kind", .str "command"), ("program", .str program),
        ("source_bundle", .ofOption RecordId.json sourceBundle)]

/-- A worker definition shared by dataset, problem, and implementation definitions. -/
structure WorkerDefinitionRecord where
  launch : WorkerLaunch
  args : List String
  environment : RecordId .environmentDefinition
  protocolTransport : Option ProtocolTransport
  deriving DecidableEq

def WorkerDefinitionRecord.fields (worker : WorkerDefinitionRecord) : List (String × Json) := [
  ("launch", worker.launch.json),
  ("args", .arr (worker.args.map .str)),
  ("environment", worker.environment.json),
  ("protocol_transport", .ofOption (fun transport => .str transport.name) worker.protocolTransport)]

def WorkerDefinitionRecord.json (worker : WorkerDefinitionRecord) : Json := .object worker.fields

instance : IdentityRecord WorkerDefinitionRecord .workerDefinition where
  identityFields := WorkerDefinitionRecord.fields

/-! ## Definitions -/

/-- A pinned remote input to a dataset materializer. -/
structure RemoteSourceRecord where
  url : String
  sha256 : Digest
  deriving DecidableEq

def RemoteSourceRecord.json (source : RemoteSourceRecord) : Json :=
  .object [("url", .str source.url), ("sha256", .str source.sha256.hex)]

inductive DatasetDefinitionKind where
  | unit
  | fixed (sourceBundle : RecordId .sourceBundle)
  | generated (source : Option RemoteSourceRecord) (materializer : WorkerDefinitionRecord)
  deriving DecidableEq

def DatasetDefinitionKind.json : DatasetDefinitionKind → Json
  | .unit => .object [("kind", .str "unit")]
  | .fixed sourceBundle => .object [("kind", .str "fixed"), ("source_bundle", sourceBundle.json)]
  | .generated source materializer =>
      .object [("kind", .str "generated"), ("source", .ofOption RemoteSourceRecord.json source),
        ("materializer", materializer.json)]

/-- One dataset definition after source-bundle and schema resolution. -/
structure DatasetDefinitionRecord where
  name : String
  parameterSchema : Option (RecordId .schema)
  parameterDefaults : Option CanonicalValue
  outputSchema : RecordId .schema
  kind : DatasetDefinitionKind

/-- `canonical`: an absent value is written as null. -/
def canonicalJson (value : Option CanonicalValue) : Json := .ofOption CanonicalValue.value value

instance : IdentityRecord DatasetDefinitionRecord .datasetDefinition where
  identityFields record := [
    ("name", .str record.name),
    ("parameter_schema", .ofOption RecordId.json record.parameterSchema),
    ("parameter_defaults", canonicalJson record.parameterDefaults),
    ("output_schema", record.outputSchema.json),
    ("definition", record.kind.json)]

/-- Scientific preparation owned by a problem definition. -/
structure ProblemPreparationDefinitionRecord where
  worker : WorkerDefinitionRecord
  outputSchema : RecordId .schema
  deriving DecidableEq

def ProblemPreparationDefinitionRecord.json (preparation : ProblemPreparationDefinitionRecord) : Json :=
  .object [("worker", preparation.worker.json), ("output_schema", preparation.outputSchema.json)]

/-- One problem definition after contract and evaluator-source resolution. -/
structure ProblemDefinitionRecord where
  name : String
  contract : RecordId .problemContract
  parameterDefaults : Option CanonicalValue
  evaluator : WorkerDefinitionRecord
  preparation : Option ProblemPreparationDefinitionRecord

instance : IdentityRecord ProblemDefinitionRecord .problemDefinition where
  identityFields record :=
    [("name", .str record.name),
      ("contract", record.contract.json),
      ("parameter_defaults", canonicalJson record.parameterDefaults),
      ("evaluator", record.evaluator.json)] ++
      match record.preparation with
      | some preparation => [("preparation", preparation.json)]
      | none => []

/-- One implementation definition after contract and source resolution. -/
structure ImplementationDefinitionRecord where
  name : String
  worker : WorkerDefinitionRecord
  problemContracts : List (RecordId .problemDefinition)
  parameterSchema : Option (RecordId .schema)
  parameterDefaults : Option CanonicalValue
  capabilities : List ImplementationCapability

/-- A list documented as a set: its spellings in ascending order. -/
def sortedTexts {α : Type} (text : α → String) (items : List α) : List String :=
  (items.map text).mergeSort fun a b => decide (a ≤ b)

instance : IdentityRecord ImplementationDefinitionRecord .implementationDefinition where
  identityFields record := [
    ("name", .str record.name),
    ("worker", record.worker.json),
    ("problem_contracts", .arr ((sortedTexts RecordId.text record.problemContracts).map .str)),
    ("parameter_schema", .ofOption RecordId.json record.parameterSchema),
    ("parameter_defaults", canonicalJson record.parameterDefaults),
    ("capabilities", .arr ((sortedTexts ImplementationCapability.name record.capabilities).map .str))]

/-! ## Instances -/

/-- A materialized, immutable dataset instance. -/
structure DatasetInstanceRecord where
  configuration : RecordId .datasetConfiguration
  artifact : RecordId .artifact
  outputSchema : RecordId .schema
  deriving DecidableEq

instance : IdentityRecord DatasetInstanceRecord .datasetInstance where
  identityFields record := [
    ("configuration", record.configuration.json),
    ("artifact", record.artifact.json),
    ("output_schema", record.outputSchema.json)]

/-- One materialized dataset bound to one problem configuration. -/
structure ProblemInstanceRecord where
  dataset : RecordId .datasetInstance
  configuration : RecordId .problemConfiguration
  preparation : Option (RecordId .artifact)
  deriving DecidableEq

instance : IdentityRecord ProblemInstanceRecord .problemInstance where
  identityFields record :=
    [("dataset", record.dataset.json), ("configuration", record.configuration.json)] ++
      match record.preparation with
      | some preparation => [("preparation", preparation.json)]
      | none => []

/-! ## Resolution -/

/-- One environment after backend-specific resolution. -/
structure ResolvedEnvironmentRecord where
  definition : RecordId .environmentDefinition
  fingerprint : CanonicalValue
  deriving DecidableEq

instance : IdentityRecord ResolvedEnvironmentRecord .resolvedEnvironment where
  identityFields record := [
    ("definition", record.definition.json),
    ("fingerprint", record.fingerprint.value)]

inductive WorkerWorkingDirectory where
  | privateRunDirectory
  deriving DecidableEq, Repr

def WorkerWorkingDirectory.name : WorkerWorkingDirectory → String
  | .privateRunDirectory => "private_run_directory"

/-- Exact worker launch selected from a resolved environment. -/
structure ResolvedLaunchRecord where
  environment : RecordId .resolvedEnvironment
  program : String
  args : List String
  environmentVariables : Variables
  workingDirectory : WorkerWorkingDirectory

instance : IdentityRecord ResolvedLaunchRecord .resolvedLaunch where
  identityFields record := [
    ("environment", record.environment.json),
    ("program", .str record.program),
    ("args", .arr (record.args.map .str)),
    ("environment_variables", variablesJson record.environmentVariables),
    ("working_directory", .str record.workingDirectory.name)]

/-- Executor kind and canonical configuration selected for a run. -/
structure ExecutorDefinitionRecord where
  kind : String
  configuration : CanonicalValue
  deriving DecidableEq

instance : IdentityRecord ExecutorDefinitionRecord .executorDefinition where
  identityFields record := [
    ("kind", .str record.kind),
    ("configuration", record.configuration.value)]

instance : IdentityRecord ResolvedWorkerRecord .resolvedWorker where
  identityFields worker := [
    ("source_bundle", .ofOption RecordId.json worker.sourceBundle),
    ("environment", worker.environment.json),
    ("launch", worker.launch.json)]

/-- One execution attempt for a resolved slot and retry index. -/
structure RunAttemptRecord where
  slot : RecordId .resolvedAttemptSlot
  retryIndex : Nat
  deriving DecidableEq

instance : IdentityRecord RunAttemptRecord .attempt where
  identityFields record := [("slot", record.slot.json), ("retry_index", .nat record.retryIndex)]

end Metewand
