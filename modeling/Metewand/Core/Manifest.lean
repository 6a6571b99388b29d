import Metewand.Core.Binding
import Metewand.Core.Observation

/-!
# Benchmark manifests

The part of a parsed manifest (`core/manifest.rs`) and of a problem contract
(`core/problem_contract.rs`) that configuration expansion and logical planning read.
Names are kept as their text.
-/

namespace Metewand

open Lib

/-! ## Parameter axes -/

/-- A fixed parameter value or an explicit expansion grid. -/
inductive ParameterAxis where
  | value (value : CanonicalValue)
  | grid (values : List CanonicalValue)
  deriving DecidableEq

/-- Parameter axes keyed by parameter name. -/
abbrev ParameterAxes : Type := OrderedMap String ParameterAxis

/-- Parameter axes keyed first by definition name and then by parameter name. -/
abbrev NamedParameterAxes : Type := OrderedMap String ParameterAxes

/-! ## Definitions -/

/-- A worker process definition, with the environment it selects. -/
inductive WorkerDefinition where
  | interpreted (environment : String)
  | command (environment : String)
  deriving DecidableEq

structure GeneratedDatasetDefinition where
  parameterSchema : Option SchemaDeclaration
  parameterDefaults : Option CanonicalValue
  parameterGrids : ParameterAxes

inductive DatasetDefinition where
  | fixed
  | generated (definition : GeneratedDatasetDefinition)

structure ProblemContract where
  parameterSchema : SchemaDeclaration
  parameterDefaults : Option CanonicalValue
  parameterGrids : ParameterAxes

structure ProblemDefinition where
  parameterDefaults : Option CanonicalValue

/-- Literal defaults from the definition or its compact contract. -/
def ProblemDefinition.resolvedParameterDefaults (definition : ProblemDefinition)
    (contract : ProblemContract) : Option CanonicalValue :=
  definition.parameterDefaults.or contract.parameterDefaults

inductive ImplementationCapability where
  | freshSequence
  | oneShot
  | applicability
  | bufferedProfile
  | streamingProfile
  deriving DecidableEq, Repr

structure ImplementationDefinition where
  worker : WorkerDefinition
  parameterSchema : Option SchemaDeclaration
  parameterDefaults : Option CanonicalValue
  parameterGrids : ParameterAxes
  capabilities : List ImplementationCapability

/-! ## Policies -/

inductive TimingScope where
  | coldEndToEnd
  | prepareAndExecute
  | executeOnly
  deriving DecidableEq, Repr

inductive RunOrder where
  | sequential
  | randomized
  deriving DecidableEq, Repr

inductive Enforcement where
  | bestEffort
  | required
  deriving DecidableEq, Repr

/-- Resource, timing, and scheduling settings selected by an experiment. -/
structure ExecutionPolicyDefinition where
  cpus : Option Nat
  threads : Option Nat
  memory : Option String
  network : Option Bool
  workerReuse : Option Bool
  warmupRuns : Option Nat
  timeout : Option String
  timingScope : Option TimingScope
  primaryTime : Option PrimaryTime
  runOrder : Option RunOrder
  maxConcurrency : Option Nat
  enforcement : Option Enforcement
  deriving DecidableEq

namespace ExecutionPolicyDefinition

variable (policy : ExecutionPolicyDefinition)

def resolvedNetwork : Bool := policy.network.getD false

def resolvedWorkerReuse : Bool := policy.workerReuse.getD false

def resolvedWarmupRuns : Nat := policy.warmupRuns.getD 0

def resolvedTimingScope : TimingScope := policy.timingScope.getD .prepareAndExecute

def resolvedPrimaryTime : PrimaryTime := policy.primaryTime.getD .timedWallTime

def resolvedRunOrder : RunOrder := policy.runOrder.getD .sequential

def resolvedMaxConcurrency : Nat := policy.maxConcurrency.getD 1

def resolvedEnforcement : Enforcement := policy.enforcement.getD .bestEffort

end ExecutionPolicyDefinition

inductive ObservationKind where
  | oneShot
  | profile
  deriving DecidableEq, Repr

/-- A one-shot or bounded profile observation policy. -/
structure ObservationPolicyDefinition where
  kind : ObservationKind
  profile : Option ProfileDefinition

/-! ## Experiments -/

/-- A named parameter-axis overlay within an experiment. -/
structure ExperimentCase where
  name : String
  datasetParameters : NamedParameterAxes
  problemParameters : ParameterAxes
  implementationParameters : NamedParameterAxes

/-- One experiment before deterministic matrix expansion. -/
structure ExperimentDefinition where
  name : String
  problem : String
  datasets : List String
  implementations : List String
  executionPolicy : String
  observationPolicy : String
  implementationRepetitions : Nat
  measurementRepetitions : Nat
  seed : Nat
  datasetParameters : NamedParameterAxes
  problemParameters : ParameterAxes
  implementationParameters : NamedParameterAxes
  cases : List ExperimentCase

structure Manifest where
  name : String
  datasets : OrderedMap String DatasetDefinition
  problems : OrderedMap String ProblemDefinition
  implementations : OrderedMap String ImplementationDefinition
  executionPolicies : OrderedMap String ExecutionPolicyDefinition
  observationPolicies : OrderedMap String ObservationPolicyDefinition

end Metewand
