import Metewand.Core.Authored

/-!
# The bytes of a manifest hash

`core/manifest_hash.rs`: every reference of a manifest is resolved, then its fields are written as one
canonical document.  Optional collections and the defaults of execution policies are explicit; a few
fields are left out when they are empty, so that older manifests keep their bytes.
-/

namespace Metewand.Authored

open Lib Lib.Check Json

/-! ## References -/

inductive ManifestHashError where
  | undefinedReference (owner field targetKind target : String)
  | canonical (violation : CanonicalValueViolation)
  deriving DecidableEq

def requireName (resolved : Bool) (owner field targetKind target : String) :
    Except ManifestHashError Unit :=
  reject (resolved = false) (.undefinedReference owner field targetKind target)

section References

variable (manifest : Manifest)

def WorkerDefinition.environment : WorkerDefinition → String
  | .interpreted worker => worker.environment
  | .command worker => worker.environment

def validateWorkerEnvironment (owner : String) (worker : WorkerDefinition) : Except ManifestHashError Unit :=
  requireName (manifest.environments.get worker.environment).isSome owner "environment" "environment"
    worker.environment

def validateParameterNamespaceNames (owner : String) (datasets implementations : NamedParameterAxes) :
    Except ManifestHashError Unit := do
  each (fun dataset =>
    requireName (manifest.datasets.get dataset).isSome owner "dataset_parameters" "dataset" dataset) datasets.keys
  each (fun implementation =>
    requireName (manifest.implementations.get implementation).isSome owner "implementation_parameters"
      "implementation" implementation) implementations.keys

def validateDatasetReferences (entry : String × DatasetDefinition) : Except ManifestHashError Unit :=
  match entry.2 with
  | .fixed _ => .ok ()
  | .generated dataset =>
      validateWorkerEnvironment manifest ("dataset `" ++ entry.1 ++ "` materializer") dataset.worker

def validateProblemReferences (entry : String × ProblemDefinition) : Except ManifestHashError Unit := do
  each (fun preparation =>
    validateWorkerEnvironment manifest ("problem `" ++ entry.1 ++ "` preparation")
      (ProblemPreparationDefinition.worker preparation)) entry.2.preparation.toList
  validateWorkerEnvironment manifest ("problem `" ++ entry.1 ++ "` evaluator") entry.2.evaluator

def validateImplementationReferences (entry : String × ImplementationDefinition) :
    Except ManifestHashError Unit := do
  let owner := "implementation `" ++ entry.1 ++ "`"
  validateWorkerEnvironment manifest owner entry.2.worker
  each (fun problem =>
    requireName (manifest.problems.get problem).isSome owner "problem_contracts" "problem" problem)
    entry.2.problemContracts

def validateExperimentReferences (experiment : ExperimentDefinition) : Except ManifestHashError Unit := do
  let owner := "experiment `" ++ experiment.name ++ "`"
  requireName (manifest.problems.get experiment.problem).isSome owner "problem" "problem" experiment.problem
  each (fun dataset =>
    requireName (manifest.datasets.get dataset).isSome owner "datasets" "dataset" dataset) experiment.datasets
  each (fun implementation =>
    requireName (manifest.implementations.get implementation).isSome owner "implementations" "implementation"
      implementation) experiment.implementations
  requireName (manifest.executionPolicies.get experiment.executionPolicy).isSome owner "execution_policy"
    "execution policy" experiment.executionPolicy
  requireName (manifest.observationPolicies.get experiment.observationPolicy).isSome owner
    "observation_policy" "observation policy" experiment.observationPolicy
  validateParameterNamespaceNames manifest owner experiment.datasetParameters
    experiment.implementationParameters
  each (fun case =>
    validateParameterNamespaceNames manifest ("case `" ++ ExperimentCase.name case ++ "` in " ++ owner)
      case.datasetParameters case.implementationParameters) experiment.cases

def validateReferences : Except ManifestHashError Unit := do
  each (validateDatasetReferences manifest) manifest.datasets.entries
  each (validateProblemReferences manifest) manifest.problems.entries
  each (validateImplementationReferences manifest) manifest.implementations.entries
  each (validateExperimentReferences manifest) manifest.experiments

end References

/-! ## Encoders -/

def optionalCanonical (value : Option CanonicalValue) : Json := .ofOption CanonicalValue.value value

def repositoryPaths (paths : List String) : Json := .arr (paths.map .str)

def names (names : List String) : Json := .arr (names.map .str)

def optionalSchema (schema : Option SchemaDeclaration) : Json :=
  .ofOption SchemaDeclaration.declarationValue schema

def optionalProtocolTransport (transport : Option ProtocolTransport) : Json :=
  .ofOption (fun transport => .str transport.name) transport

def parameterAxis : ParameterAxis → Json
  | .value value => .object [("value", value.value)]
  | .grid values => .object [("grid", .arr (values.map CanonicalValue.value))]

def parameterAxes (axes : ParameterAxes) : Json := .ofMap parameterAxis axes

def namedParameterAxes (axes : NamedParameterAxes) : Json := .ofMap parameterAxes axes

/-- The field that `with_parameter_grids` adds to a definition. -/
def gridsField (grids : ParameterAxes) : List (String × Json) :=
  fieldUnless (grids.entries.isEmpty) "parameter_grids" (parameterAxes grids)

def interpretedWorker (worker : InterpretedWorker) : Json :=
  .object [
    ("kind", .str "interpreted"),
    ("runner", .str worker.runner.name),
    ("entrypoint", .str worker.entrypoint),
    ("args", .arr (worker.args.map .str)),
    ("sources", repositoryPaths worker.sources),
    ("environment", .str worker.environment),
    ("protocol_transport", optionalProtocolTransport worker.protocolTransport)]

def commandWorker (worker : CommandWorker) : Json :=
  .object [
    ("kind", .str "command"),
    ("program", .str worker.program),
    ("args", .arr (worker.args.map .str)),
    ("sources", .ofOption repositoryPaths worker.sources),
    ("environment", .str worker.environment),
    ("protocol_transport", optionalProtocolTransport worker.protocolTransport)]

def worker : WorkerDefinition → Json
  | .interpreted worker => interpretedWorker worker
  | .command worker => commandWorker worker

def remoteSource (source : RemoteSource) : Json :=
  .object [("url", .str source.url), ("sha256", .str source.sha256)]

def dataset : DatasetDefinition → Json
  | .fixed dataset =>
      .object [
        ("kind", .str "fixed"),
        ("output_schema", dataset.outputSchema.declarationValue),
        ("sources", repositoryPaths dataset.sources)]
  | .generated dataset =>
      .object ([
        ("kind", .str "generated"),
        ("parameter_schema", optionalSchema dataset.parameterSchema),
        ("parameter_defaults", optionalCanonical dataset.parameterDefaults),
        ("output_schema", dataset.outputSchema.declarationValue),
        ("source", .ofOption remoteSource dataset.source),
        ("worker", worker dataset.worker)] ++ gridsField dataset.parameterGrids)

/-! ## Contracts -/

def ReferenceInput.declarationValue : ReferenceInput → Json
  | .path text => .str text
  | .inline value => value.value

/-- The derived serialization. -/
def MetricTolerance.json (tolerance : MetricTolerance) : Json :=
  .object [("absolute", F64.json tolerance.absolute), ("relative", F64.json tolerance.relative)]

def ReferenceCase.declarationValue (case : ReferenceCase) : Json :=
  .object ([
    ("dataset", .ofOption ReferenceInput.declarationValue case.dataset),
    ("result", case.result.declarationValue),
    ("expected_metrics", case.expectedMetrics.declarationValue)] ++
    optionalField "expected_verdict" (fun verdict => .str (ExpectedVerdict.asStr verdict)) case.expectedVerdict ++
    optionalField "metric_tolerance" MetricTolerance.json case.metricTolerance)

def MetricAgreement.json (agreement : MetricAgreement) : Json :=
  .object [("atol", F64.json agreement.atol), ("rtol", F64.json agreement.rtol)]

def InstrumentedScope.json (scope : InstrumentedScope) : Json :=
  .object [
    ("clock-origin", .str scope.clockOrigin),
    ("included-work", .str scope.includedWork),
    ("excluded-preparation", .str scope.excludedPreparation),
    ("metric-agreement", .ofMap MetricAgreement.json scope.metricAgreement)]

def ProblemContract.declarationValue (contract : ProblemContract) : Json :=
  .object ([
    ("version", .nat contract.version),
    ("name", .str contract.name),
    ("family", .str contract.family),
    ("parameter_schema", contract.parameterSchema.declarationValue),
    ("dataset_schemas", .arr (contract.datasetSchemas.map SchemaDeclaration.declarationValue)),
    ("result_schema", contract.resultSchema.declarationValue),
    ("metric_schema", contract.metricSchema.declarationValue),
    ("semantics_schema", optionalSchema contract.semanticsSchema),
    ("allowed_timing_scopes", .arr (contract.allowedTimingScopes.map fun scope => .str scope.name)),
    ("supported_budgets", .arr (contract.supportedBudgets.map fun budget => .str (ScientificBudget.name budget))),
    ("semantics", contract.semantics.value),
    ("reference_cases", .arr (contract.referenceCases.map ReferenceCase.declarationValue))] ++
    fieldUnless contract.instrumentedScopes.entries.isEmpty "instrumented_scopes"
      (.ofMap InstrumentedScope.json contract.instrumentedScopes))

def ContractDeclaration.declarationValue : ContractDeclaration → Json
  | .reference path => .str path
  | .inline contract => contract.declarationValue

/-! ## Problems and implementations -/

/-- The defaults that are written for a problem. -/
def ProblemDefinition.writtenDefaults (problem : ProblemDefinition) : Option CanonicalValue :=
  match problem.contract with
  | .reference _ => problem.parameterDefaults
  | .inline contract => problem.resolvedParameterDefaults contract

def ProblemPreparationDefinition.json (preparation : ProblemPreparationDefinition) : Json :=
  .object [("worker", Authored.worker preparation.worker), ("output_schema", preparation.outputSchema.declarationValue)]

def problem (problem : ProblemDefinition) : Json :=
  .object ([
    ("contract", problem.contract.declarationValue),
    ("parameter_defaults", optionalCanonical problem.writtenDefaults),
    ("evaluator", worker problem.evaluator)] ++
    optionalField "preparation" ProblemPreparationDefinition.json problem.preparation ++
    match problem.contract with
    | .reference _ => []
    | .inline contract => gridsField contract.parameterGrids)

def implementation (implementation : ImplementationDefinition) : Json :=
  .object ([
    ("worker", worker implementation.worker),
    ("problem_contracts", names implementation.problemContracts),
    ("parameter_schema", optionalSchema implementation.parameterSchema),
    ("parameter_defaults", optionalCanonical implementation.parameterDefaults),
    ("capabilities", .arr (implementation.capabilities.map fun capability => .str capability.name))] ++
    gridsField implementation.parameterGrids)

/-! ## Environments -/

def environment : EnvironmentDefinition → Json
  | .local environmentVariables =>
      .object ([("kind", .str "local")] ++
        fieldUnless environmentVariables.entries.isEmpty "environment_variables"
          (variablesJson environmentVariables))
  | .uv project lockfile groups extras =>
      .object ([("kind", .str "uv"), ("project", .str project), ("lockfile", .str lockfile)] ++
        groups.field "groups" ++ extras.field "extras")
  | .renv project lockfile =>
      .object [("kind", .str "renv"), ("project", .str project), ("lockfile", .str lockfile)]
  | .nix flake installable system outputKind output =>
      .object [("kind", .str "nix"), ("flake", .str flake), ("installable", .str installable),
        ("system", .str system), ("output_kind", .str outputKind.name), ("output", .str output)]
  | .oci image => .object [("kind", .str "oci"), ("image", .str image)]

/-! ## Experiments and policies -/

def experimentCase (case : ExperimentCase) : Json :=
  .object [
    ("name", .str case.name),
    ("dataset_parameters", namedParameterAxes case.datasetParameters),
    ("problem_parameters", parameterAxes case.problemParameters),
    ("implementation_parameters", namedParameterAxes case.implementationParameters)]

def experiment (experiment : ExperimentDefinition) : Json :=
  .object [
    ("name", .str experiment.name),
    ("problem", .str experiment.problem),
    ("datasets", names experiment.datasets),
    ("implementations", names experiment.implementations),
    ("execution_policy", .str experiment.executionPolicy),
    ("observation_policy", .str experiment.observationPolicy),
    ("implementation_repetitions", .nat experiment.implementationRepetitions),
    ("measurement_repetitions", .nat experiment.measurementRepetitions),
    ("seed", .nat experiment.seed),
    ("dataset_parameters", namedParameterAxes experiment.datasetParameters),
    ("problem_parameters", parameterAxes experiment.problemParameters),
    ("implementation_parameters", namedParameterAxes experiment.implementationParameters),
    ("cases", .arr (experiment.cases.map experimentCase))]

def executionPolicy (policy : ExecutionPolicyDefinition) : Json :=
  .object [
    ("version", .nat policy.version),
    ("cpus", .ofOption .nat policy.cpus),
    ("threads", .ofOption .nat policy.threads),
    ("memory", .ofOption .str policy.memory),
    ("network", .bool policy.resolvedNetwork),
    ("worker_reuse", .bool policy.resolvedWorkerReuse),
    ("warmup_runs", .nat policy.resolvedWarmupRuns),
    ("timeout", .ofOption .str policy.timeout),
    ("timing_scope", .str policy.resolvedTimingScope.name),
    ("primary_time", .str policy.resolvedPrimaryTime.name),
    ("run_order", .str policy.resolvedRunOrder.name),
    ("max_concurrency", .nat policy.resolvedMaxConcurrency),
    ("enforcement", .str policy.resolvedEnforcement.name)]

/-- The profile's own fields lie beside the version and the kind. -/
def observationPolicy (policy : ObservationPolicyDefinition) : Json :=
  let declared :=
    match policy.profile with
    | none => Json.object []
    | some profile => profile.declarationValue
  (declared.set "version" (.nat policy.version)).set "kind" (.str policy.kind.name)

/-- The derived serialization. -/
def WorkerTimeouts.json (timeouts : WorkerTimeouts) : Json :=
  .object [
    ("hello", .nat timeouts.hello),
    ("materialize", .nat timeouts.materialize),
    ("prepare", .nat timeouts.prepare),
    ("execute", .nat timeouts.execute),
    ("reset", .nat timeouts.reset),
    ("evaluate", .nat timeouts.evaluate),
    ("shutdown", .nat timeouts.shutdown)]

/-! ## The manifest -/

def manifestValue (manifest : Manifest) : Json :=
  .object ([
    ("version", .nat manifest.version),
    ("name", .str manifest.name),
    ("datasets", .ofMap dataset manifest.datasets),
    ("problems", .ofMap problem manifest.problems),
    ("implementations", .ofMap implementation manifest.implementations),
    ("environments", .ofMap environment manifest.environments),
    ("experiments", .arr (manifest.experiments.map experiment)),
    ("execution_policies", .ofMap executionPolicy manifest.executionPolicies),
    ("observation_policies", .ofMap observationPolicy manifest.observationPolicies)] ++
    optionalField "default_experiment" .str manifest.defaultExperiment ++
    fieldUnless (manifest.workerTimeouts = .builtin) "worker_timeouts" manifest.workerTimeouts.json)

/-- The exact bytes hashed for a manifest. -/
def canonicalManifestBytes (lib : JsonLibrary) (manifest : Manifest) : Except ManifestHashError (List UInt8) := do
  validateReferences manifest
  let value ← (manifestValue manifest).normalize.mapError .canonical
  return lib.encode value

/-! ## The references of a manifest -/

/-- The namespaces that a reference may select from. -/
inductive TargetKind where
  | environment | problem | dataset | implementation | executionPolicy | observationPolicy
  deriving DecidableEq, Repr

def TargetKind.name : TargetKind → String
  | .environment => "environment"
  | .problem => "problem"
  | .dataset => "dataset"
  | .implementation => "implementation"
  | .executionPolicy => "execution policy"
  | .observationPolicy => "observation policy"

/-- A name used in a field of some owner. -/
structure Reference where
  owner : String
  field : String
  kind : TargetKind
  target : String

/-- The name is defined in the namespace. -/
def Manifest.defines (manifest : Manifest) (kind : TargetKind) (target : String) : Bool :=
  match kind with
  | .environment => (manifest.environments.get target).isSome
  | .problem => (manifest.problems.get target).isSome
  | .dataset => (manifest.datasets.get target).isSome
  | .implementation => (manifest.implementations.get target).isSome
  | .executionPolicy => (manifest.executionPolicies.get target).isSome
  | .observationPolicy => (manifest.observationPolicies.get target).isSome

def workerReference (owner : String) (worker : WorkerDefinition) : Reference :=
  ⟨owner, "environment", .environment, worker.environment⟩

def parameterReferences (owner : String) (datasets implementations : NamedParameterAxes) : List Reference :=
  datasets.keys.map (fun dataset => ⟨owner, "dataset_parameters", .dataset, dataset⟩) ++
    implementations.keys.map fun implementation =>
      ⟨owner, "implementation_parameters", .implementation, implementation⟩

def datasetReferences (entry : String × DatasetDefinition) : List Reference :=
  match entry.2 with
  | .fixed _ => []
  | .generated dataset => [workerReference ("dataset `" ++ entry.1 ++ "` materializer") dataset.worker]

def problemReferences (entry : String × ProblemDefinition) : List Reference :=
  entry.2.preparation.toList.map (fun preparation =>
    workerReference ("problem `" ++ entry.1 ++ "` preparation") preparation.worker) ++
    [workerReference ("problem `" ++ entry.1 ++ "` evaluator") entry.2.evaluator]

def implementationReferences (entry : String × ImplementationDefinition) : List Reference :=
  workerReference ("implementation `" ++ entry.1 ++ "`") entry.2.worker ::
    entry.2.problemContracts.map fun problem =>
      ⟨"implementation `" ++ entry.1 ++ "`", "problem_contracts", .problem, problem⟩

def experimentReferences (experiment : ExperimentDefinition) : List Reference :=
  let owner := "experiment `" ++ experiment.name ++ "`"
  ⟨owner, "problem", .problem, experiment.problem⟩ ::
    (experiment.datasets.map (fun dataset => ⟨owner, "datasets", .dataset, dataset⟩) ++
      (experiment.implementations.map
          (fun implementation => ⟨owner, "implementations", .implementation, implementation⟩) ++
        (⟨owner, "execution_policy", .executionPolicy, experiment.executionPolicy⟩ ::
          ⟨owner, "observation_policy", .observationPolicy, experiment.observationPolicy⟩ ::
            (parameterReferences owner experiment.datasetParameters experiment.implementationParameters ++
              experiment.cases.flatMap fun case =>
                parameterReferences ("case `" ++ case.name ++ "` in " ++ owner) case.datasetParameters
                  case.implementationParameters))))

/-- Every reference of a manifest, in the order they are checked. -/
def references (manifest : Manifest) : List Reference :=
  manifest.datasets.entries.flatMap datasetReferences ++
    (manifest.problems.entries.flatMap problemReferences ++
      (manifest.implementations.entries.flatMap implementationReferences ++
        manifest.experiments.flatMap experimentReferences))

section Resolution

variable (manifest : Manifest)

def checkReference (reference : Reference) : Except ManifestHashError Unit :=
  requireName (manifest.defines reference.kind reference.target) reference.owner reference.field
    reference.kind.name reference.target

/-- Checks that list their references. -/
def Lists (check : Except ManifestHashError Unit) (listed : List Reference) : Prop :=
  check = each (checkReference manifest) listed

variable {manifest}

theorem Lists.nil : Lists manifest (.ok ()) [] := rfl

theorem Lists.one {check : Except ManifestHashError Unit} {reference : Reference}
    (same : check = checkReference manifest reference) : Lists manifest check [reference] := by
  unfold Lists
  rw [same]
  cases found : checkReference manifest reference <;> simp [each, found, bind, Except.bind]

theorem each_append {as bs : List Reference} : each (checkReference manifest) (as ++ bs) =
    (do each (checkReference manifest) as; each (checkReference manifest) bs) := by
  induction as with
  | nil => rfl
  | cons a rest ih =>
      rw [List.cons_append, each, ih, each]
      cases checkReference manifest a <;> rfl

theorem Lists.append {check check' : Except ManifestHashError Unit} {first second : List Reference}
    (left : Lists manifest check first) (right : Lists manifest check' second) :
    Lists manifest (do check; check') (first ++ second) := by
  unfold Lists at left right ⊢
  rw [each_append, left, right]

theorem Lists.each {α : Type} {check : α → Except ManifestHashError Unit} {listed : α → List Reference}
    (step : ∀ a, Lists manifest (check a) (listed a)) (as : List α) :
    Lists manifest (each check as) (as.flatMap listed) := by
  induction as with
  | nil => exact .nil
  | cons a rest ih => exact (step a).append ih

theorem Lists.cons {check check' : Except ManifestHashError Unit} {reference : Reference} {rest : List Reference}
    (same : check = checkReference manifest reference) (right : Lists manifest check' rest) :
    Lists manifest (do check; check') (reference :: rest) :=
  Lists.append (.one same) right

theorem Lists.map {α : Type} {check : α → Except ManifestHashError Unit} {listed : α → Reference}
    (step : ∀ a, check a = checkReference manifest (listed a)) (as : List α) :
    Lists manifest (Check.each check as) (as.map listed) := by
  have single : ∀ a, Lists manifest (check a) [listed a] := fun a => .one (step a)
  rw [List.map_eq_flatMap]
  exact Lists.each single as

theorem lists_parameters (owner : String) (datasets implementations : NamedParameterAxes) :
    Lists manifest (validateParameterNamespaceNames manifest owner datasets implementations)
      (parameterReferences owner datasets implementations) := by
  unfold validateParameterNamespaceNames parameterReferences
  apply Lists.append
  · apply Lists.map
    exact fun _ => rfl
  · apply Lists.map
    exact fun _ => rfl

theorem lists_datasets (entry : String × DatasetDefinition) :
    Lists manifest (validateDatasetReferences manifest entry) (datasetReferences entry) := by
  obtain ⟨name, definition⟩ := entry
  cases definition with
  | fixed _ => exact .nil
  | generated dataset => exact Lists.one rfl

theorem lists_problems (entry : String × ProblemDefinition) :
    Lists manifest (validateProblemReferences manifest entry) (problemReferences entry) := by
  unfold validateProblemReferences problemReferences
  apply Lists.append
  · apply Lists.map
    exact fun _ => rfl
  · exact Lists.one rfl

theorem lists_implementations (entry : String × ImplementationDefinition) :
    Lists manifest (validateImplementationReferences manifest entry) (implementationReferences entry) := by
  unfold validateImplementationReferences implementationReferences
  apply Lists.cons
  · rfl
  · apply Lists.map
    exact fun _ => rfl

theorem lists_experiments (experiment : ExperimentDefinition) :
    Lists manifest (validateExperimentReferences manifest experiment) (experimentReferences experiment) := by
  unfold validateExperimentReferences experimentReferences
  apply Lists.cons
  · rfl
  apply Lists.append
  · apply Lists.map
    exact fun _ => rfl
  apply Lists.append
  · apply Lists.map
    exact fun _ => rfl
  apply Lists.cons
  · rfl
  apply Lists.cons
  · rfl
  apply Lists.append
  · exact lists_parameters _ _ _
  · exact Lists.each (fun _ => lists_parameters _ _ _) _

/-- `validate_references` checks the references of the manifest one after the other. -/
theorem lists_references (manifest : Manifest) :
    Lists manifest (validateReferences manifest) (references manifest) :=
  .append (.each lists_datasets _) (.append (.each lists_problems _)
    (.append (.each lists_implementations _) (.each lists_experiments _)))

theorem checkReference_ok {reference : Reference} : checkReference manifest reference = .ok () ↔
    manifest.defines reference.kind reference.target = true := by
  unfold checkReference requireName
  rw [ok_reject, Bool.not_eq_false]

theorem checkReference_error {reference : Reference} {e : ManifestHashError} :
    checkReference manifest reference = .error e ↔
      manifest.defines reference.kind reference.target = false ∧
        .undefinedReference reference.owner reference.field reference.kind.name reference.target = e := by
  unfold checkReference requireName
  exact error_reject

/-- The first failure of a list of checks. -/
theorem each_first_error {listed : List Reference} {e : ManifestHashError} :
    Check.each (checkReference manifest) listed = .error e ↔ ∃ before reference after,
      listed = before ++ reference :: after ∧ (∀ r ∈ before, checkReference manifest r = .ok ()) ∧
        checkReference manifest reference = .error e := by
  induction listed with
  | nil =>
      constructor
      · intro failed
        cases failed
      · intro split
        obtain ⟨before, reference, after, split, -, -⟩ := split
        simp at split
  | cons first rest ih =>
      rw [Check.each, error_bind]
      constructor
      · intro failed
        rcases failed with here | later
        · exact ⟨[], first, rest, rfl, by simp, here⟩
        · obtain ⟨_, passed, failed⟩ := later
          obtain ⟨before, reference, after, split, earlier, here⟩ := ih.mp failed
          refine ⟨first :: before, reference, after, by rw [split]; rfl, ?_, here⟩
          exact List.forall_mem_cons.mpr ⟨passed, earlier⟩
      · intro found
        obtain ⟨before, reference, after, split, earlier, here⟩ := found
        cases before with
        | nil =>
            cases split
            exact .inl here
        | cons head before =>
            cases split
            obtain ⟨passed, earlier⟩ := List.forall_mem_cons.mp earlier
            exact .inr ⟨(), passed, ih.mpr ⟨before, reference, after, rfl, earlier, here⟩⟩

/-- A manifest has bytes only when every reference is defined, and an undefined reference that is reported
is the first one. -/
theorem manifest_bytes_resolve (lib : JsonLibrary) (manifest : Manifest) :
    (∀ bytes, canonicalManifestBytes lib manifest = .ok bytes →
      ∀ reference ∈ references manifest, manifest.defines reference.kind reference.target = true) ∧
    ∀ owner field kind target,
      canonicalManifestBytes lib manifest = .error (.undefinedReference owner field kind target) ↔
        ∃ before reference after, references manifest = before ++ reference :: after ∧
          (∀ r ∈ before, manifest.defines r.kind r.target = true) ∧
          manifest.defines reference.kind reference.target = false ∧
          reference.owner = owner ∧ reference.field = field ∧ reference.kind.name = kind ∧
          reference.target = target := by
  have listed : validateReferences manifest = Check.each (checkReference manifest) (references manifest) :=
    lists_references manifest
  constructor
  · intro bytes written reference member
    unfold canonicalManifestBytes at written
    obtain ⟨_, resolved, -⟩ := ok_bind.mp written
    rw [listed, ok_each] at resolved
    exact checkReference_ok.mp (resolved reference member)
  · intro owner field kind target
    have late : ¬∃ u, validateReferences manifest = .ok u ∧
        (do
          let value ← (manifestValue manifest).normalize.mapError .canonical
          return lib.encode value : Except ManifestHashError (List UInt8)) =
            .error (.undefinedReference owner field kind target) := by
      intro failed
      obtain ⟨_, -, failed⟩ := failed
      cases normal : (manifestValue manifest).normalize with
      | error e =>
          rw [normal] at failed
          cases failed
      | ok value =>
          rw [normal] at failed
          cases failed
    unfold canonicalManifestBytes
    rw [error_bind, or_iff_left late, listed, each_first_error]
    simp only [checkReference_ok, checkReference_error, ManifestHashError.undefinedReference.injEq]

end Resolution

end Metewand.Authored
