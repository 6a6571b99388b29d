import Metewand.Core.Manifest
import Metewand.Core.Records

/-!
# Authored manifests

The whole of a parsed manifest (`core/manifest.rs`) and of the problem contract written inside it
(`core/problem_contract.rs`), without their source positions.  Names, repository paths, pinned images and
digests are kept as their text.  `Metewand.Manifest` is the part of it that planning reads.

`Parsed` says what the parser has checked where the encoding of a manifest relies on it.
-/

namespace Metewand.Authored

open Lib

/-! ## Workers -/

/-- An interpreted-language worker. -/
structure InterpretedWorker where
  runner : InterpretedRunner
  entrypoint : String
  args : List String
  sources : List String
  environment : String
  protocolTransport : Option ProtocolTransport

/-- A raw command worker. -/
structure CommandWorker where
  program : String
  args : List String
  sources : Option (List String)
  environment : String
  protocolTransport : Option ProtocolTransport

inductive WorkerDefinition where
  | interpreted (worker : InterpretedWorker)
  | command (worker : CommandWorker)

/-! ## Datasets -/

/-- A pinned remote input to a dataset materializer. -/
structure RemoteSource where
  url : String
  sha256 : String

structure FixedDatasetDefinition where
  outputSchema : SchemaDeclaration
  sources : List String

structure GeneratedDatasetDefinition where
  parameterSchema : Option SchemaDeclaration
  parameterDefaults : Option CanonicalValue
  parameterGrids : ParameterAxes
  outputSchema : SchemaDeclaration
  source : Option RemoteSource
  worker : WorkerDefinition

inductive DatasetDefinition where
  | fixed (definition : FixedDatasetDefinition)
  | generated (definition : GeneratedDatasetDefinition)

/-! ## Problem contracts -/

structure MetricAgreement where
  atol : UInt64
  rtol : UInt64

/-- The contract owns the interpretation of each instrumented clock. -/
structure InstrumentedScope where
  clockOrigin : String
  includedWork : String
  excludedPreparation : String
  metricAgreement : OrderedMap String MetricAgreement

/-- Inline scientific data or a reusable reference artifact. -/
inductive ReferenceInput where
  | path (path : String)
  | inline (value : CanonicalValue)

inductive ExpectedVerdict where
  | invalid | reached | notReached | notRequired
  deriving DecidableEq, Repr

def ExpectedVerdict.asStr : ExpectedVerdict → String
  | .invalid => "invalid"
  | .reached => "reached"
  | .notReached => "not_reached"
  | .notRequired => "not_required"

structure MetricTolerance where
  absolute : UInt64
  relative : UInt64

/-- A problem/evaluator conformance case. -/
structure ReferenceCase where
  dataset : Option ReferenceInput
  result : ReferenceInput
  expectedMetrics : ReferenceInput
  metricTolerance : Option MetricTolerance
  expectedVerdict : Option ExpectedVerdict

/-- A language-neutral problem and fairness contract. -/
structure ProblemContract where
  version : Nat
  name : String
  family : String
  parameterSchema : SchemaDeclaration
  parameterDefaults : Option CanonicalValue
  parameterGrids : ParameterAxes
  /-- The parameters were written as field declarations rather than as a schema. -/
  compactParameters : Bool
  datasetSchemas : List SchemaDeclaration
  resultSchema : SchemaDeclaration
  metricSchema : SchemaDeclaration
  semanticsSchema : Option SchemaDeclaration
  allowedTimingScopes : List TimingScope
  instrumentedScopes : OrderedMap String InstrumentedScope
  supportedBudgets : List ScientificBudget
  semantics : CanonicalValue
  referenceCases : List ReferenceCase

/-- A repository-relative contract or the normalized fields of an inline problem. -/
inductive ContractDeclaration where
  | reference (path : String)
  | inline (contract : ProblemContract)

/-! ## Problems and implementations -/

/-- A worker that derives shared inputs from a dataset and problem parameters. -/
structure ProblemPreparationDefinition where
  worker : WorkerDefinition
  outputSchema : SchemaDeclaration

structure ProblemDefinition where
  contract : ContractDeclaration
  parameterDefaults : Option CanonicalValue
  evaluator : WorkerDefinition
  preparation : Option ProblemPreparationDefinition

/-- `resolved_parameter_defaults`: literal defaults from the definition or its compact contract. -/
def ProblemDefinition.resolvedParameterDefaults (problem : ProblemDefinition) (contract : ProblemContract) :
    Option CanonicalValue :=
  problem.parameterDefaults.or contract.parameterDefaults

structure ImplementationDefinition where
  worker : WorkerDefinition
  problemContracts : List String
  parameterSchema : Option SchemaDeclaration
  parameterDefaults : Option CanonicalValue
  parameterGrids : ParameterAxes
  capabilities : List ImplementationCapability

/-! ## Environments -/

inductive EnvironmentDefinition where
  | «local» (environmentVariables : Variables)
  | uv (project lockfile : String) (groups extras : NameSet)
  | renv (project lockfile : String)
  | nix (flake installable system : String) (outputKind : NixOutputKind) (output : String)
  | oci (image : String)

/-! ## Policies -/

structure ExecutionPolicyDefinition extends Metewand.ExecutionPolicyDefinition where
  version : Nat

structure ObservationPolicyDefinition extends Metewand.ObservationPolicyDefinition where
  version : Nat

/-- Operational deadlines in nanoseconds. -/
structure WorkerTimeouts where
  hello : Nat
  materialize : Nat
  prepare : Nat
  execute : Nat
  reset : Nat
  evaluate : Nat
  shutdown : Nat
  deriving DecidableEq

/-- `WorkerTimeouts::default`. -/
def WorkerTimeouts.builtin : WorkerTimeouts where
  hello := 10000000000
  materialize := 10000000000
  prepare := 10000000000
  execute := 10000000000
  reset := 10000000000
  evaluate := 10000000000
  shutdown := 10000000000

/-! ## Manifests -/

structure Manifest where
  version : Nat
  name : String
  defaultExperiment : Option String
  workerTimeouts : WorkerTimeouts
  datasets : OrderedMap String DatasetDefinition
  problems : OrderedMap String ProblemDefinition
  implementations : OrderedMap String ImplementationDefinition
  environments : OrderedMap String EnvironmentDefinition
  experiments : List ExperimentDefinition
  executionPolicies : OrderedMap String ExecutionPolicyDefinition
  observationPolicies : OrderedMap String ObservationPolicyDefinition

/-! ## What the parser has checked -/

/-- An inline schema is an object. -/
def SchemaParsed (schema : SchemaDeclaration) : Prop := ∀ document ∈ schema.document, document.value.isObject = true

/-- Parameter defaults are an object. -/
def DefaultsParsed (defaults : Option CanonicalValue) : Prop := ∀ value ∈ defaults, value.value.isObject = true

/-- A reference input is a path or an object. -/
def ReferenceInput.Parsed : ReferenceInput → Prop
  | .path _ => True
  | .inline value => value.value.isObject = true

structure ReferenceCase.Parsed (case : ReferenceCase) : Prop where
  dataset : ∀ input ∈ case.dataset, ReferenceInput.Parsed input
  result : case.result.Parsed
  expectedMetrics : case.expectedMetrics.Parsed

structure ProblemContract.Parsed (contract : ProblemContract) : Prop where
  parameterSchema : SchemaParsed contract.parameterSchema
  parameterDefaults : DefaultsParsed contract.parameterDefaults
  datasetSchemas : ∀ schema ∈ contract.datasetSchemas, SchemaParsed schema
  resultSchema : SchemaParsed contract.resultSchema
  metricSchema : SchemaParsed contract.metricSchema
  semanticsSchema : ∀ schema ∈ contract.semanticsSchema, SchemaParsed schema
  referenceCases : ∀ case ∈ contract.referenceCases, ReferenceCase.Parsed case

def ContractDeclaration.Parsed : ContractDeclaration → Prop
  | .reference _ => True
  | .inline contract => contract.Parsed

structure ProblemDefinition.Parsed (problem : ProblemDefinition) : Prop where
  contract : problem.contract.Parsed
  parameterDefaults : DefaultsParsed problem.parameterDefaults
  preparation : ∀ preparation ∈ problem.preparation, SchemaParsed preparation.outputSchema

def DatasetDefinition.Parsed : DatasetDefinition → Prop
  | .fixed definition => SchemaParsed definition.outputSchema
  | .generated definition =>
      (∀ schema ∈ definition.parameterSchema, SchemaParsed schema) ∧
        DefaultsParsed definition.parameterDefaults ∧ SchemaParsed definition.outputSchema

structure ImplementationDefinition.Parsed (implementation : ImplementationDefinition) : Prop where
  parameterSchema : ∀ schema ∈ implementation.parameterSchema, SchemaParsed schema
  parameterDefaults : DefaultsParsed implementation.parameterDefaults

structure ProfileParsed (profile : ProfileDefinition) : Prop where
  policy : profile.policy.validate = .ok ()
  implementations : ∀ entry ∈ profile.implementations.entries, ∀ schema ∈ entry.2.schema, SchemaParsed schema

structure Manifest.Parsed (manifest : Manifest) : Prop where
  datasets : ∀ entry ∈ manifest.datasets.entries, entry.2.Parsed
  problems : ∀ entry ∈ manifest.problems.entries, entry.2.Parsed
  implementations : ∀ entry ∈ manifest.implementations.entries, entry.2.Parsed
  observationPolicies : ∀ entry ∈ manifest.observationPolicies.entries, ∀ profile ∈ entry.2.profile,
    ProfileParsed profile

end Metewand.Authored
