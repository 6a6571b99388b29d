import Metewand.Core.ManifestHash
import Metewand.Core.Policies
import Metewand.Core.RecordSeparation
import Metewand.Protocol.Wire

/-!
# Manifest bytes separate manifests

Every encoder of `core/manifest_hash.rs` is inverted: what it writes for two definitions is alike only when
the definitions agree in every field, and `Same…` says up to what.  The key of an inline schema in the schema
catalogue and the way inline parameters were written down are not covered, defaults are compared resolved,
and JSON numbers by the value they denote.
-/

namespace Metewand.Authored

open Lib Lib.Check Json

attribute [ext] InterpretedWorker CommandWorker RemoteSource ReferenceCase
attribute [ext] ExperimentCase ExperimentDefinition WorkerTimeouts

/-! ## Schemas and literal values -/

/-- The same file, or the same inline document. -/
def SameSchema (a b : SchemaDeclaration) : Prop :=
  match a.document, b.document with
  | none, none => a.path = b.path
  | some document, some document' => document = document'
  | _, _ => False

theorem declarationValue_filled {schema : SchemaDeclaration} (parsed : SchemaParsed schema) :
    schema.declarationValue ≠ .null := by
  unfold SchemaDeclaration.declarationValue
  cases document : schema.document with
  | none => simp
  | some document =>
      intro null
      have object := parsed _ document
      simp [null, isObject] at object

theorem alike_schema {a b : SchemaDeclaration} (parsed : SchemaParsed a) (parsed' : SchemaParsed b)
    (alike : Alike a.declarationValue b.declarationValue) : SameSchema a b := by
  unfold SchemaDeclaration.declarationValue at alike
  unfold SameSchema
  cases document : a.document with
  | none =>
      cases document' : b.document with
      | none =>
          simp only [document, document'] at alike
          exact eq_of_alike alike
      | some value =>
          simp only [document, document', str_alike] at alike
          have object := parsed' value document'
          simp [alike, isObject] at object
  | some value =>
      cases document' : b.document with
      | none =>
          simp only [document, document', alike_str] at alike
          have object := parsed value document
          simp [alike, isObject] at object
      | some value' =>
          simp only [document, document'] at alike
          exact alike_canonical.mp alike

theorem same_schema {a b : SchemaDeclaration} (same : SameSchema a b) :
    a.declarationValue = b.declarationValue := by
  unfold SameSchema at same
  unfold SchemaDeclaration.declarationValue
  cases document : a.document <;> cases document' : b.document <;> simp_all

theorem normalize_schema {a b : SchemaDeclaration} (same : SameSchema a b) :
    a.declarationValue.normalize = b.declarationValue.normalize := by
  rw [same_schema same]

theorem alike_optional_schema {a b : Option SchemaDeclaration} (parsed : ∀ schema ∈ a, SchemaParsed schema)
    (parsed' : ∀ schema ∈ b, SchemaParsed schema) (alike : Alike (optionalSchema a) (optionalSchema b)) :
    Option.Rel SameSchema a b := by
  refine alike_ofOption (fun schema member => ?_) (fun _ left _ right => ?_) alike
  · rcases member with left | right
    · exact declarationValue_filled (parsed schema left)
    · exact declarationValue_filled (parsed' schema right)
  · exact alike_schema (parsed _ left) (parsed' _ right)

theorem alike_defaults {a b : Option CanonicalValue} (parsed : DefaultsParsed a) (parsed' : DefaultsParsed b)
    (alike : Alike (optionalCanonical a) (optionalCanonical b)) : a = b := by
  refine eq_of_rel (alike_ofOption (fun value member null => ?_) (fun _ _ _ _ => alike_canonical.mp) alike)
  have object : value.value.isObject = true := by
    rcases member with left | right
    · exact parsed value left
    · exact parsed' value right
  simp [null, isObject] at object

/-! ## Parameter axes -/

theorem alike_axis {a b : ParameterAxis} (alike : Alike (parameterAxis a) (parameterAxis b)) : a = b := by
  cases a with
  | value value =>
      cases b with
      | value value' =>
          have each := alike_object alike rfl (by simp)
          obtain ⟨⟨-, values⟩, -⟩ := List.forall₂_cons.mp each
          rw [alike_canonical.mp values]
      | grid values =>
          have grid := alike.get "grid"
          simp [parameterAxis] at grid
  | grid values =>
      cases b with
      | value value =>
          have grid := alike.get "grid"
          simp [parameterAxis] at grid
      | grid values' =>
          have each := alike_object alike rfl (by simp)
          obtain ⟨⟨-, items⟩, -⟩ := List.forall₂_cons.mp each
          rw [alike_map (fun _ _ => alike_canonical.mp) items]

theorem alike_axes {a b : ParameterAxes} (alike : Alike (parameterAxes a) (parameterAxes b)) : a = b :=
  eq_of_alike_ofMap (fun _ _ => alike_axis) alike

theorem alike_named_axes {a b : NamedParameterAxes}
    (alike : Alike (namedParameterAxes a) (namedParameterAxes b)) : a = b :=
  eq_of_alike_ofMap (fun _ _ => alike_axes) alike

/-- What is read back of the grids of a definition. -/
def gridsWritten (grids : ParameterAxes) : Json := if grids.entries = [] then .null else parameterAxes grids

theorem lookup_grids (grids : ParameterAxes) :
    (lookupEntry "parameter_grids" (gridsField grids)).getD .null = gridsWritten grids := by
  unfold gridsField gridsWritten
  rw [lookup_fieldUnless]
  by_cases empty : grids.entries = [] <;> simp [empty]

theorem lookup_grids_other {key : String} (other : key ≠ "parameter_grids") (grids : ParameterAxes) :
    lookupEntry key (gridsField grids) = none := by
  rw [gridsField, lookup_fieldUnless]
  simp [other]

theorem map_eq_of_empty {α : Type} {m n : OrderedMap String α} (empty : m.entries = [])
    (empty' : n.entries = []) : m = n := by
  obtain ⟨entries, _⟩ := m
  obtain ⟨entries', _⟩ := n
  cases empty
  cases empty'
  rfl

theorem alike_grids {a b : ParameterAxes} (alike : Alike (gridsWritten a) (gridsWritten b)) : a = b := by
  unfold gridsWritten at alike
  split at alike
  · rename_i empty
    split at alike
    · rename_i empty'
      exact map_eq_of_empty empty empty'
    · simp [parameterAxes, ofMap] at alike
  · split at alike
    · simp [parameterAxes, ofMap] at alike
    · exact alike_axes alike

/-! ## Workers -/

theorem alike_transport {a b : Option ProtocolTransport}
    (alike : Alike (optionalProtocolTransport a) (optionalProtocolTransport b)) : a = b :=
  alike_optional_name ProtocolTransport.name_injective alike

theorem alike_paths {a b : List String} (alike : Alike (repositoryPaths a) (repositoryPaths b)) : a = b :=
  alike_strs alike

theorem alike_names {a b : List String} (alike : Alike (names a) (names b)) : a = b :=
  alike_strs alike

theorem alike_worker {a b : WorkerDefinition} (alike : Alike (worker a) (worker b)) : a = b := by
  have kinds := alike.get "kind"
  cases a with
  | interpreted first =>
      cases b with
      | interpreted second =>
          have each := alike_object alike rfl (by simp)
          simp only [List.forall₂_cons] at each
          obtain ⟨-, ⟨-, runner⟩, ⟨-, entrypoint⟩, ⟨-, args⟩, ⟨-, sources⟩, ⟨-, environment⟩,
            ⟨-, transport⟩, -⟩ := each
          have same : first = second := InterpretedWorker.ext
            ((alike_name InterpretedRunner.name_injective).mp runner) (eq_of_alike entrypoint)
            (alike_strs args) (alike_paths sources) (eq_of_alike environment) (alike_transport transport)
          rw [same]
      | command => simp [worker, interpretedWorker, commandWorker] at kinds
  | command first =>
      cases b with
      | interpreted => simp [worker, interpretedWorker, commandWorker] at kinds
      | command second =>
          have each := alike_object alike rfl (by simp)
          simp only [List.forall₂_cons] at each
          obtain ⟨-, ⟨-, program⟩, ⟨-, args⟩, ⟨-, sources⟩, ⟨-, environment⟩, ⟨-, transport⟩, -⟩ := each
          have bundles : first.sources = second.sources :=
            alike_optional (by simp [repositoryPaths]) (fun _ _ => alike_paths) sources
          have same : first = second := CommandWorker.ext (eq_of_alike program) (alike_strs args) bundles
            (eq_of_alike environment) (alike_transport transport)
          rw [same]

theorem alike_source {a b : RemoteSource} (alike : Alike (remoteSource a) (remoteSource b)) : a = b := by
  have each := alike_object alike rfl (by simp)
  simp only [List.forall₂_cons] at each
  obtain ⟨⟨-, url⟩, ⟨-, sha256⟩, -⟩ := each
  exact RemoteSource.ext (eq_of_alike url) (eq_of_alike sha256)

/-! ## Datasets -/

structure SameFixed (a b : FixedDatasetDefinition) : Prop where
  outputSchema : SameSchema a.outputSchema b.outputSchema
  sources : a.sources = b.sources

structure SameGenerated (a b : GeneratedDatasetDefinition) : Prop where
  parameterSchema : Option.Rel SameSchema a.parameterSchema b.parameterSchema
  parameterDefaults : a.parameterDefaults = b.parameterDefaults
  parameterGrids : a.parameterGrids = b.parameterGrids
  outputSchema : SameSchema a.outputSchema b.outputSchema
  source : a.source = b.source
  worker : a.worker = b.worker

def SameDataset : DatasetDefinition → DatasetDefinition → Prop
  | .fixed a, .fixed b => SameFixed a b
  | .generated a, .generated b => SameGenerated a b
  | _, _ => False

theorem get_generated (definition : GeneratedDatasetDefinition) :
    let value := dataset (.generated definition)
    value.get "parameter_schema" = optionalSchema definition.parameterSchema ∧
      value.get "parameter_defaults" = optionalCanonical definition.parameterDefaults ∧
      value.get "output_schema" = definition.outputSchema.declarationValue ∧
      value.get "source" = .ofOption remoteSource definition.source ∧
      value.get "worker" = worker definition.worker ∧
      value.get "parameter_grids" = gridsWritten definition.parameterGrids := by
  refine ⟨?_, ?_, ?_, ?_, ?_, ?_⟩
  all_goals
    simp [dataset, get_object, lookupEntry, lookup_grids, -get_object_cons]

theorem alike_dataset {a b : DatasetDefinition} (parsed : a.Parsed) (parsed' : b.Parsed)
    (alike : Alike (dataset a) (dataset b)) : SameDataset a b := by
  have kinds := alike.get "kind"
  cases a with
  | fixed first =>
      cases b with
      | fixed second =>
          have each := alike_object alike rfl (by simp)
          simp only [List.forall₂_cons] at each
          obtain ⟨-, ⟨-, schema⟩, ⟨-, sources⟩, -⟩ := each
          exact ⟨alike_schema parsed parsed' schema, alike_paths sources⟩
      | generated => simp [dataset] at kinds
  | generated first =>
      cases b with
      | fixed => simp [dataset] at kinds
      | generated second =>
          obtain ⟨schema, defaults, output, source, worker, grids⟩ := get_generated first
          obtain ⟨schema', defaults', output', source', worker', grids'⟩ := get_generated second
          exact {
            parameterSchema := alike_optional_schema parsed.1 parsed'.1 (schema ▸ schema' ▸ alike.get _)
            parameterDefaults := alike_defaults parsed.2.1 parsed'.2.1 (defaults ▸ defaults' ▸ alike.get _)
            parameterGrids := alike_grids (grids ▸ grids' ▸ alike.get _)
            outputSchema := alike_schema parsed.2.2 parsed'.2.2 (output ▸ output' ▸ alike.get _)
            source := alike_optional (by simp [remoteSource, object]) (fun _ _ => alike_source)
              (source ▸ source' ▸ alike.get _)
            worker := alike_worker (worker ▸ worker' ▸ alike.get _) }

theorem same_dataset {a b : DatasetDefinition} (same : SameDataset a b) :
    (dataset a).normalize = (dataset b).normalize := by
  cases a with
  | fixed first =>
      cases b with
      | fixed second =>
          obtain ⟨schema, sources⟩ := same
          unfold dataset
          dsimp only
          rw [same_schema schema, sources]
      | generated => cases same
  | generated first =>
      cases b with
      | fixed => cases same
      | generated second =>
          obtain ⟨schema, defaults, grids, output, source, worker⟩ := same
          unfold dataset
          refine normalize_object_congr (List.rel_append ?_ ?_)
          · rw [defaults, source, worker, same_schema output]
            simp only [List.forall₂_cons, sameMember_self, true_and]
            exact ⟨⟨rfl, normalize_ofOption_congr schema fun _ _ => normalize_schema⟩, .nil⟩
          · rw [grids]
            exact sameMembers_self _

/-! ## Contracts -/

theorem ReferenceInput.declarationValue_filled {input : ReferenceInput} (parsed : input.Parsed) :
    input.declarationValue ≠ .null := by
  cases input with
  | path text => simp [declarationValue]
  | inline value =>
      intro null
      have object : value.value.isObject = true := parsed
      have same : value.value = .null := null
      simp [same, isObject] at object

theorem alike_input {a b : ReferenceInput} (parsed : a.Parsed) (parsed' : b.Parsed)
    (alike : Alike a.declarationValue b.declarationValue) : a = b := by
  cases a with
  | path text =>
      cases b with
      | path text' => rw [eq_of_alike alike]
      | inline value =>
          have object : value.value.isObject = true := parsed'
          have same : value.value = .str text := str_alike.mp alike
          simp [same, isObject] at object
  | inline value =>
      cases b with
      | path text =>
          have object : value.value.isObject = true := parsed
          have same : value.value = .str text := alike_str.mp alike
          simp [same, isObject] at object
      | inline value' => rw [alike_canonical.mp alike]

theorem ExpectedVerdict.asStr_injective : Function.Injective ExpectedVerdict.asStr := by
  intro a b same
  cases a <;> cases b <;> simp_all [asStr]

/-- Tolerances of the same value; a zero has no sign. -/
structure SameTolerance (a b : MetricTolerance) : Prop where
  absolute : SameDocument (F64.json a.absolute) (F64.json b.absolute)
  relative : SameDocument (F64.json a.relative) (F64.json b.relative)

theorem alike_tolerance {a b : MetricTolerance} (alike : Alike a.json b.json) : SameTolerance a b := by
  have each := alike_object alike rfl (by simp)
  simp only [List.forall₂_cons] at each
  obtain ⟨⟨-, absolute⟩, ⟨-, relative⟩, -⟩ := each
  exact ⟨absolute.same, relative.same⟩

theorem same_tolerance {a b : MetricTolerance} (same : SameTolerance a b) :
    a.json.normalize = b.json.normalize :=
  normalize_object_congr (.cons ⟨rfl, same.absolute⟩ (.cons ⟨rfl, same.relative⟩ .nil))

structure SameReferenceCase (a b : ReferenceCase) : Prop where
  dataset : a.dataset = b.dataset
  result : a.result = b.result
  expectedMetrics : a.expectedMetrics = b.expectedMetrics
  metricTolerance : Option.Rel SameTolerance a.metricTolerance b.metricTolerance
  expectedVerdict : a.expectedVerdict = b.expectedVerdict

theorem get_reference_case (case : ReferenceCase) :
    let value := case.declarationValue
    value.get "dataset" = .ofOption ReferenceInput.declarationValue case.dataset ∧
      value.get "result" = case.result.declarationValue ∧
      value.get "expected_metrics" = case.expectedMetrics.declarationValue ∧
      value.get "expected_verdict" = .ofOption (fun verdict => .str (ExpectedVerdict.asStr verdict)) case.expectedVerdict ∧
      value.get "metric_tolerance" = .ofOption MetricTolerance.json case.metricTolerance := by
  refine ⟨?_, ?_, ?_, ?_, ?_⟩
  all_goals
    simp [ReferenceCase.declarationValue, get_object, lookupEntry, lookup_append, lookup_optionalField,
      -get_object_cons]
  · cases case.expectedVerdict <;> rfl
  · cases case.metricTolerance <;> rfl

theorem alike_reference_case {a b : ReferenceCase} (parsed : a.Parsed) (parsed' : b.Parsed)
    (alike : Alike a.declarationValue b.declarationValue) : SameReferenceCase a b := by
  obtain ⟨dataset, result, metrics, verdict, tolerance⟩ := get_reference_case a
  obtain ⟨dataset', result', metrics', verdict', tolerance'⟩ := get_reference_case b
  have inputs : Alike (.ofOption ReferenceInput.declarationValue a.dataset)
      (.ofOption ReferenceInput.declarationValue b.dataset) := dataset ▸ dataset' ▸ alike.get _
  refine {
    dataset := eq_of_rel (alike_ofOption (fun input member => ?_)
      (fun _ left _ right => alike_input (parsed.dataset _ left) (parsed'.dataset _ right)) inputs)
    result := alike_input parsed.result parsed'.result (result ▸ result' ▸ alike.get _)
    expectedMetrics := alike_input parsed.expectedMetrics parsed'.expectedMetrics
      (metrics ▸ metrics' ▸ alike.get _)
    metricTolerance := alike_ofOption (by simp [MetricTolerance.json, object])
      (fun _ _ _ _ => alike_tolerance) (tolerance ▸ tolerance' ▸ alike.get _)
    expectedVerdict := alike_optional_name ExpectedVerdict.asStr_injective (verdict ▸ verdict' ▸ alike.get _) }
  rcases member with left | right
  · exact ReferenceInput.declarationValue_filled (parsed.dataset input left)
  · exact ReferenceInput.declarationValue_filled (parsed'.dataset input right)

theorem same_reference_case {a b : ReferenceCase} (same : SameReferenceCase a b) :
    a.declarationValue.normalize = b.declarationValue.normalize := by
  obtain ⟨_, _, _, _, _⟩ := a
  obtain ⟨_, _, _, _, _⟩ := b
  obtain ⟨rfl, rfl, rfl, tolerance, rfl⟩ := same
  unfold ReferenceCase.declarationValue
  refine normalize_object_congr (List.rel_append (sameMembers_self _) ?_)
  exact sameMember_optionalField tolerance (fun _ _ => same_tolerance) _

structure SameAgreement (a b : MetricAgreement) : Prop where
  atol : SameDocument (F64.json a.atol) (F64.json b.atol)
  rtol : SameDocument (F64.json a.rtol) (F64.json b.rtol)

structure SameScope (a b : InstrumentedScope) : Prop where
  clockOrigin : a.clockOrigin = b.clockOrigin
  includedWork : a.includedWork = b.includedWork
  excludedPreparation : a.excludedPreparation = b.excludedPreparation
  metricAgreement : List.Forall₂ (SameEntry SameAgreement) a.metricAgreement.entries b.metricAgreement.entries

theorem alike_agreement {a b : MetricAgreement} (alike : Alike a.json b.json) : SameAgreement a b := by
  have each := alike_object alike rfl (by simp)
  simp only [List.forall₂_cons] at each
  obtain ⟨⟨-, atol⟩, ⟨-, rtol⟩, -⟩ := each
  exact ⟨atol.same, rtol.same⟩

theorem same_agreement {a b : MetricAgreement} (same : SameAgreement a b) :
    a.json.normalize = b.json.normalize :=
  normalize_object_congr (.cons ⟨rfl, same.atol⟩ (.cons ⟨rfl, same.rtol⟩ .nil))

theorem alike_scope {a b : InstrumentedScope} (alike : Alike a.json b.json) : SameScope a b := by
  have each := alike_object alike rfl (by simp)
  simp only [List.forall₂_cons] at each
  obtain ⟨⟨-, origin⟩, ⟨-, included⟩, ⟨-, excluded⟩, ⟨-, agreement⟩, -⟩ := each
  exact ⟨eq_of_alike origin, eq_of_alike included, eq_of_alike excluded,
    alike_ofMap (fun _ _ _ _ => alike_agreement) agreement⟩

theorem same_scope {a b : InstrumentedScope} (same : SameScope a b) :
    a.json.normalize = b.json.normalize := by
  obtain ⟨_, _, _, _⟩ := a
  obtain ⟨_, _, _, _⟩ := b
  obtain ⟨rfl, rfl, rfl, agreement⟩ := same
  unfold InstrumentedScope.json
  refine normalize_object_congr ?_
  simp only [List.forall₂_cons, sameMember_self, true_and]
  exact ⟨⟨rfl, normalize_ofMap_congr agreement fun _ _ => same_agreement⟩, .nil⟩

/-- What is read back of the instrumented scopes. -/
def scopesWritten (scopes : OrderedMap String InstrumentedScope) : Json :=
  if scopes.entries = [] then .null else .ofMap InstrumentedScope.json scopes

theorem alike_scopes {a b : OrderedMap String InstrumentedScope}
    (alike : Alike (scopesWritten a) (scopesWritten b)) :
    List.Forall₂ (SameEntry SameScope) a.entries b.entries := by
  unfold scopesWritten at alike
  split at alike
  · rename_i empty
    split at alike
    · rename_i empty'
      rw [empty, empty']
      exact .nil
    · simp [ofMap] at alike
  · split at alike
    · simp [ofMap] at alike
    · exact alike_ofMap (fun _ _ _ _ => alike_scope) alike

structure SameProblemContract (a b : ProblemContract) : Prop where
  version : a.version = b.version
  name : a.name = b.name
  family : a.family = b.family
  parameterSchema : SameSchema a.parameterSchema b.parameterSchema
  datasetSchemas : List.Forall₂ SameSchema a.datasetSchemas b.datasetSchemas
  resultSchema : SameSchema a.resultSchema b.resultSchema
  metricSchema : SameSchema a.metricSchema b.metricSchema
  semanticsSchema : Option.Rel SameSchema a.semanticsSchema b.semanticsSchema
  allowedTimingScopes : a.allowedTimingScopes = b.allowedTimingScopes
  instrumentedScopes : List.Forall₂ (SameEntry SameScope) a.instrumentedScopes.entries b.instrumentedScopes.entries
  supportedBudgets : a.supportedBudgets = b.supportedBudgets
  semantics : a.semantics = b.semantics
  referenceCases : List.Forall₂ SameReferenceCase a.referenceCases b.referenceCases

theorem ScientificBudget.name_injective : Function.Injective ScientificBudget.name := by
  intro a b _
  cases a
  cases b
  rfl

theorem get_contract (contract : ProblemContract) :
    let value := contract.declarationValue
    value.get "version" = .nat contract.version ∧ value.get "name" = .str contract.name ∧
      value.get "family" = .str contract.family ∧
      value.get "parameter_schema" = contract.parameterSchema.declarationValue ∧
      value.get "dataset_schemas" = .arr (contract.datasetSchemas.map SchemaDeclaration.declarationValue) ∧
      value.get "result_schema" = contract.resultSchema.declarationValue ∧
      value.get "metric_schema" = contract.metricSchema.declarationValue ∧
      value.get "semantics_schema" = optionalSchema contract.semanticsSchema ∧
      value.get "allowed_timing_scopes" = .arr (contract.allowedTimingScopes.map fun scope => .str scope.name) ∧
      value.get "supported_budgets" =
        .arr (contract.supportedBudgets.map fun budget => .str (ScientificBudget.name budget)) ∧
      value.get "semantics" = contract.semantics.value ∧
      value.get "reference_cases" = .arr (contract.referenceCases.map ReferenceCase.declarationValue) ∧
      value.get "instrumented_scopes" = scopesWritten contract.instrumentedScopes := by
  refine ⟨?_, ?_, ?_, ?_, ?_, ?_, ?_, ?_, ?_, ?_, ?_, ?_, ?_⟩
  all_goals
    simp [ProblemContract.declarationValue, get_object, lookupEntry, lookup_fieldUnless, -get_object_cons]
  by_cases empty : contract.instrumentedScopes.entries = [] <;> simp [scopesWritten, empty]

theorem alike_contract {a b : ProblemContract} (parsed : a.Parsed) (parsed' : b.Parsed)
    (alike : Alike a.declarationValue b.declarationValue) : SameProblemContract a b := by
  obtain ⟨version, name, family, parameters, datasets, result, metric, rules, timing, budgets, semantics,
    cases, scopes⟩ := get_contract a
  obtain ⟨version', name', family', parameters', datasets', result', metric', rules', timing', budgets',
    semantics', cases', scopes'⟩ := get_contract b
  exact {
    version := (alike_nat.mp (version ▸ version' ▸ alike.get _)).1
    name := eq_of_alike (name ▸ name' ▸ alike.get _)
    family := eq_of_alike (family ▸ family' ▸ alike.get _)
    parameterSchema := alike_schema parsed.parameterSchema parsed'.parameterSchema
      (parameters ▸ parameters' ▸ alike.get _)
    datasetSchemas := related_of_alike (fun _ left _ right =>
      alike_schema (parsed.datasetSchemas _ left) (parsed'.datasetSchemas _ right))
      (datasets ▸ datasets' ▸ alike.get _)
    resultSchema := alike_schema parsed.resultSchema parsed'.resultSchema (result ▸ result' ▸ alike.get _)
    metricSchema := alike_schema parsed.metricSchema parsed'.metricSchema (metric ▸ metric' ▸ alike.get _)
    semanticsSchema := alike_optional_schema parsed.semanticsSchema parsed'.semanticsSchema
      (rules ▸ rules' ▸ alike.get _)
    allowedTimingScopes := alike_map (fun _ _ => (alike_name TimingScope.name_injective).mp)
      (timing ▸ timing' ▸ alike.get _)
    instrumentedScopes := alike_scopes (scopes ▸ scopes' ▸ alike.get _)
    supportedBudgets := alike_map (fun _ _ => (alike_name ScientificBudget.name_injective).mp)
      (budgets ▸ budgets' ▸ alike.get _)
    semantics := alike_canonical.mp (semantics ▸ semantics' ▸ alike.get _)
    referenceCases := related_of_alike (fun _ left _ right =>
      alike_reference_case (parsed.referenceCases _ left) (parsed'.referenceCases _ right))
      (cases ▸ cases' ▸ alike.get _) }

theorem same_contract {a b : ProblemContract} (same : SameProblemContract a b) :
    a.declarationValue.normalize = b.declarationValue.normalize := by
  unfold ProblemContract.declarationValue
  refine normalize_object_congr (List.rel_append ?_ ?_)
  · rw [same.version, same.name, same.family, same_schema same.parameterSchema,
      same_schema same.resultSchema, same_schema same.metricSchema, same.allowedTimingScopes,
      same.supportedBudgets, same.semantics]
    simp only [List.forall₂_cons, sameMember_self, true_and]
    refine ⟨⟨rfl, ?_⟩, ⟨rfl, ?_⟩, ⟨rfl, ?_⟩, .nil⟩
    · exact normalize_map_congr same.datasetSchemas fun _ _ => normalize_schema
    · exact normalize_ofOption_congr same.semanticsSchema fun _ _ => normalize_schema
    · exact normalize_map_congr same.referenceCases fun _ _ => same_reference_case
  · have scopes := same.instrumentedScopes
    have empty : a.instrumentedScopes.entries.isEmpty ↔ b.instrumentedScopes.entries.isEmpty := by
      rw [List.isEmpty_iff_length_eq_zero, List.isEmpty_iff_length_eq_zero, scopes.length_eq]
    unfold fieldUnless
    split
    · rename_i left
      rw [if_pos (empty.mp left)]
      exact .nil
    · rename_i left
      rw [if_neg fun right => left (empty.mpr right)]
      exact .cons ⟨rfl, normalize_ofMap_congr scopes fun _ _ => same_scope⟩ .nil

/-! ## Problems -/

/-- Contracts that agree, and the grids that an inline one selects. -/
def SameContract : ContractDeclaration → ContractDeclaration → Prop
  | .reference path, .reference path' => path = path'
  | .inline contract, .inline contract' =>
      SameProblemContract contract contract' ∧ contract.parameterGrids = contract'.parameterGrids
  | _, _ => False

structure SamePreparation (a b : ProblemPreparationDefinition) : Prop where
  worker : a.worker = b.worker
  outputSchema : SameSchema a.outputSchema b.outputSchema

structure SameProblem (a b : ProblemDefinition) : Prop where
  contract : SameContract a.contract b.contract
  defaults : a.writtenDefaults = b.writtenDefaults
  evaluator : a.evaluator = b.evaluator
  preparation : Option.Rel SamePreparation a.preparation b.preparation

theorem alike_preparation_definition {a b : ProblemPreparationDefinition} (parsed : SchemaParsed a.outputSchema)
    (parsed' : SchemaParsed b.outputSchema) (alike : Alike a.json b.json) : SamePreparation a b := by
  have each := alike_object alike rfl (by simp)
  simp only [List.forall₂_cons] at each
  obtain ⟨⟨-, worker⟩, ⟨-, schema⟩, -⟩ := each
  exact ⟨alike_worker worker, alike_schema parsed parsed' schema⟩

theorem same_preparation {a b : ProblemPreparationDefinition} (same : SamePreparation a b) :
    a.json.normalize = b.json.normalize := by
  unfold ProblemPreparationDefinition.json
  rw [same.worker, same_schema same.outputSchema]

/-- What is read back of the grids of an inline contract. -/
def contractGrids : ContractDeclaration → Json
  | .reference _ => .null
  | .inline contract => gridsWritten contract.parameterGrids

theorem get_problem (definition : ProblemDefinition) :
    let value := problem definition
    value.get "contract" = definition.contract.declarationValue ∧
      value.get "parameter_defaults" = optionalCanonical definition.writtenDefaults ∧
      value.get "evaluator" = worker definition.evaluator ∧
      value.get "preparation" = .ofOption ProblemPreparationDefinition.json definition.preparation ∧
      value.get "parameter_grids" = contractGrids definition.contract := by
  obtain ⟨contract, _, _, preparation⟩ := definition
  refine ⟨?_, ?_, ?_, ?_, ?_⟩
  · simp [problem]
  · simp [problem]
  · simp [problem]
  · cases contract <;> cases preparation <;>
      simp [problem, get_object, lookupEntry, lookup_append, lookup_optionalField, lookup_grids_other, ofOption,
        -get_object_cons]
  · cases contract <;>
      simp [problem, get_object, lookupEntry, lookup_append, lookup_optionalField, lookup_grids,
        contractGrids, -get_object_cons]

theorem writtenDefaults_parsed {definition : ProblemDefinition} (parsed : definition.Parsed) :
    DefaultsParsed definition.writtenDefaults := by
  intro value written
  unfold ProblemDefinition.writtenDefaults at written
  have contract := parsed.contract
  cases declared : definition.contract with
  | reference path =>
      rw [declared] at written
      exact parsed.parameterDefaults value written
  | inline inner =>
      rw [declared] at written contract
      have either : value ∈ definition.parameterDefaults ∨ value ∈ inner.parameterDefaults := by
        simp only [ProblemDefinition.resolvedParameterDefaults, Option.mem_def, Option.or_eq_some_iff] at written
        rcases written with own | ⟨-, inherited⟩
        · exact .inl own
        · exact .inr inherited
      rcases either with own | inherited
      · exact parsed.parameterDefaults value own
      · exact contract.parameterDefaults value inherited

theorem contract_not_str {contract : ProblemContract} {text : String} :
    contract.declarationValue ≠ .str text := by
  simp [ProblemContract.declarationValue, object]

theorem alike_problem {a b : ProblemDefinition} (parsed : a.Parsed) (parsed' : b.Parsed)
    (alike : Alike (problem a) (problem b)) : SameProblem a b := by
  obtain ⟨contract, defaults, evaluator, preparation, grids⟩ := get_problem a
  obtain ⟨contract', defaults', evaluator', preparation', grids'⟩ := get_problem b
  have contracts : Alike a.contract.declarationValue b.contract.declarationValue :=
    contract ▸ contract' ▸ alike.get "contract"
  have axes : Alike (contractGrids a.contract) (contractGrids b.contract) :=
    grids ▸ grids' ▸ alike.get "parameter_grids"
  have checked := parsed.contract
  have checked' := parsed'.contract
  refine {
    contract := ?_
    defaults := alike_defaults (writtenDefaults_parsed parsed) (writtenDefaults_parsed parsed')
      (defaults ▸ defaults' ▸ alike.get "parameter_defaults")
    evaluator := alike_worker (evaluator ▸ evaluator' ▸ alike.get "evaluator")
    preparation := alike_ofOption (by simp [ProblemPreparationDefinition.json, object])
      (fun _ left _ right => alike_preparation_definition (parsed.preparation _ left)
        (parsed'.preparation _ right)) (preparation ▸ preparation' ▸ alike.get "preparation") }
  cases left : a.contract with
  | reference path =>
      cases right : b.contract with
      | reference path' =>
          rw [left, right] at contracts
          exact eq_of_alike contracts
      | inline inner' =>
          rw [left, right] at contracts
          exact absurd (str_alike.mp contracts) contract_not_str
  | inline inner =>
      cases right : b.contract with
      | reference path' =>
          rw [left, right] at contracts
          exact absurd (alike_str.mp contracts) contract_not_str
      | inline inner' =>
          rw [left, right] at contracts axes
          rw [left] at checked
          rw [right] at checked'
          exact ⟨alike_contract checked checked' contracts, alike_grids axes⟩

theorem same_problem {a b : ProblemDefinition} (same : SameProblem a b) :
    (problem a).normalize = (problem b).normalize := by
  obtain ⟨contracts, defaults, evaluator, preparation⟩ := same
  unfold problem
  rw [defaults, evaluator]
  refine normalize_object_congr (List.rel_append (List.rel_append ?_ ?_) ?_)
  · simp only [List.forall₂_cons, sameMember_self, true_and]
    refine ⟨⟨rfl, ?_⟩, .nil⟩
    cases left : a.contract with
    | reference path =>
        cases right : b.contract with
        | reference path' =>
            rw [left, right] at contracts
            rw [show path = path' from contracts]
        | inline inner' =>
            rw [left, right] at contracts
            cases contracts
    | inline inner =>
        cases right : b.contract with
        | reference path' =>
            rw [left, right] at contracts
            cases contracts
        | inline inner' =>
            rw [left, right] at contracts
            exact same_contract contracts.1
  · exact sameMember_optionalField preparation (fun _ _ => same_preparation) _
  · cases left : a.contract with
    | reference path =>
        cases right : b.contract with
        | reference path' => exact .nil
        | inline inner' =>
            rw [left, right] at contracts
            cases contracts
    | inline inner =>
        cases right : b.contract with
        | reference path' =>
            rw [left, right] at contracts
            cases contracts
        | inline inner' =>
            rw [left, right] at contracts
            dsimp only
            rw [contracts.2]
            exact sameMembers_self _

/-! ## Implementations -/

structure SameImplementation (a b : ImplementationDefinition) : Prop where
  worker : a.worker = b.worker
  problemContracts : a.problemContracts = b.problemContracts
  parameterSchema : Option.Rel SameSchema a.parameterSchema b.parameterSchema
  parameterDefaults : a.parameterDefaults = b.parameterDefaults
  parameterGrids : a.parameterGrids = b.parameterGrids
  capabilities : a.capabilities = b.capabilities

theorem get_implementation (definition : ImplementationDefinition) :
    let value := implementation definition
    value.get "worker" = worker definition.worker ∧
      value.get "problem_contracts" = names definition.problemContracts ∧
      value.get "parameter_schema" = optionalSchema definition.parameterSchema ∧
      value.get "parameter_defaults" = optionalCanonical definition.parameterDefaults ∧
      value.get "capabilities" = .arr (definition.capabilities.map fun capability => .str capability.name) ∧
      value.get "parameter_grids" = gridsWritten definition.parameterGrids := by
  refine ⟨?_, ?_, ?_, ?_, ?_, ?_⟩
  all_goals
    simp [implementation, get_object, lookupEntry, lookup_grids, -get_object_cons]

theorem alike_implementation {a b : ImplementationDefinition} (parsed : a.Parsed) (parsed' : b.Parsed)
    (alike : Alike (implementation a) (implementation b)) : SameImplementation a b := by
  obtain ⟨worker, contracts, schema, defaults, capabilities, grids⟩ := get_implementation a
  obtain ⟨worker', contracts', schema', defaults', capabilities', grids'⟩ := get_implementation b
  exact {
    worker := alike_worker (worker ▸ worker' ▸ alike.get "worker")
    problemContracts := alike_names (contracts ▸ contracts' ▸ alike.get "problem_contracts")
    parameterSchema := alike_optional_schema parsed.parameterSchema parsed'.parameterSchema
      (schema ▸ schema' ▸ alike.get "parameter_schema")
    parameterDefaults := alike_defaults parsed.parameterDefaults parsed'.parameterDefaults
      (defaults ▸ defaults' ▸ alike.get "parameter_defaults")
    parameterGrids := alike_grids (grids ▸ grids' ▸ alike.get "parameter_grids")
    capabilities := alike_map (fun _ _ => (alike_name ImplementationCapability.name_injective).mp)
      (capabilities ▸ capabilities' ▸ alike.get "capabilities") }

theorem same_implementation {a b : ImplementationDefinition} (same : SameImplementation a b) :
    (implementation a).normalize = (implementation b).normalize := by
  obtain ⟨worker, contracts, schema, defaults, grids, capabilities⟩ := same
  unfold implementation
  rw [worker, contracts, defaults, grids, capabilities]
  refine normalize_object_congr (List.rel_append ?_ (sameMembers_self _))
  simp only [List.forall₂_cons, sameMember_self, true_and]
  exact ⟨⟨rfl, normalize_ofOption_congr schema fun _ _ => normalize_schema⟩, .nil⟩

/-! ## Environments -/

/-- The environment as its identity record holds it. -/
def environmentKind : EnvironmentDefinition → EnvironmentDefinitionKind
  | .local environmentVariables =>
      if environmentVariables.entries = [] then .local else .localWithVariables environmentVariables
  | .uv project lockfile groups extras => .uv project lockfile groups extras
  | .renv project lockfile => .renv project lockfile
  | .nix flake installable system outputKind output => .nix flake installable system outputKind output
  | .oci image => .oci image

/-- The manifest and the identity of an environment are written the same way. -/
theorem environment_json (definition : EnvironmentDefinition) :
    environment definition = (environmentKind definition).json := by
  cases definition with
  | «local» environmentVariables =>
      by_cases empty : environmentVariables.entries = [] <;>
        simp [environment, environmentKind, fieldUnless, EnvironmentDefinitionKind.json, empty]
  | uv | renv | nix | oci => rfl

theorem environmentKind_injective : Function.Injective environmentKind := by
  intro a b same
  cases a with
  | «local» settings =>
      cases b with
      | «local» settings' =>
          simp only [environmentKind] at same
          split at same
          · split at same
            · rename_i empty empty'
              rw [map_eq_of_empty empty empty']
            · cases same
          · split at same
            · cases same
            · cases same
              rfl
      | uv | renv | nix | oci =>
          simp only [environmentKind] at same
          split at same <;> cases same
  | uv project lockfile groups extras =>
      cases b with
      | «local» settings =>
          simp only [environmentKind] at same
          split at same <;> cases same
      | uv =>
          cases same
          rfl
      | renv | nix | oci => cases same
  | renv project lockfile =>
      cases b with
      | «local» settings =>
          simp only [environmentKind] at same
          split at same <;> cases same
      | renv =>
          cases same
          rfl
      | uv | nix | oci => cases same
  | nix flake installable system outputKind output =>
      cases b with
      | «local» settings =>
          simp only [environmentKind] at same
          split at same <;> cases same
      | nix =>
          cases same
          rfl
      | uv | renv | oci => cases same
  | oci image =>
      cases b with
      | «local» settings =>
          simp only [environmentKind] at same
          split at same <;> cases same
      | oci =>
          cases same
          rfl
      | uv | renv | nix => cases same

theorem alike_environment {a b : EnvironmentDefinition} (alike : Alike (environment a) (environment b)) :
    a = b := by
  rw [environment_json, environment_json] at alike
  exact environmentKind_injective (EnvironmentDefinitionKind.separated alike)

/-! ## Experiments -/

theorem alike_case {a b : ExperimentCase} (alike : Alike (experimentCase a) (experimentCase b)) : a = b := by
  have each := alike_object alike rfl (by simp)
  simp only [List.forall₂_cons] at each
  obtain ⟨⟨-, name⟩, ⟨-, datasets⟩, ⟨-, problem⟩, ⟨-, implementations⟩, -⟩ := each
  exact ExperimentCase.ext (eq_of_alike name) (alike_named_axes datasets) (alike_axes problem)
    (alike_named_axes implementations)

theorem alike_experiment {a b : ExperimentDefinition} (alike : Alike (experiment a) (experiment b)) : a = b := by
  have each := alike_object alike rfl (by simp)
  simp only [List.forall₂_cons] at each
  obtain ⟨⟨-, name⟩, ⟨-, problem⟩, ⟨-, datasets⟩, ⟨-, implementations⟩, ⟨-, execution⟩, ⟨-, observation⟩,
    ⟨-, repetitions⟩, ⟨-, measurements⟩, ⟨-, seed⟩, ⟨-, datasetAxes⟩, ⟨-, problemAxes⟩,
    ⟨-, implementationAxes⟩, ⟨-, cases⟩, -⟩ := each
  exact ExperimentDefinition.ext (eq_of_alike name) (eq_of_alike problem) (alike_names datasets)
    (alike_names implementations) (eq_of_alike execution) (eq_of_alike observation)
    (alike_nat.mp repetitions).1 (alike_nat.mp measurements).1 (alike_nat.mp seed).1
    (alike_named_axes datasetAxes) (alike_axes problemAxes) (alike_named_axes implementationAxes)
    (alike_map (fun _ _ => alike_case) cases)

/-! ## Execution policies -/

/-- Policies with the same settings once the defaults are filled in. -/
structure SameExecutionPolicy (a b : ExecutionPolicyDefinition) : Prop where
  version : a.version = b.version
  cpus : a.cpus = b.cpus
  threads : a.threads = b.threads
  memory : a.memory = b.memory
  network : a.resolvedNetwork = b.resolvedNetwork
  workerReuse : a.resolvedWorkerReuse = b.resolvedWorkerReuse
  warmupRuns : a.resolvedWarmupRuns = b.resolvedWarmupRuns
  timeout : a.timeout = b.timeout
  timingScope : a.resolvedTimingScope = b.resolvedTimingScope
  primaryTime : a.resolvedPrimaryTime = b.resolvedPrimaryTime
  runOrder : a.resolvedRunOrder = b.resolvedRunOrder
  maxConcurrency : a.resolvedMaxConcurrency = b.resolvedMaxConcurrency
  enforcement : a.resolvedEnforcement = b.resolvedEnforcement

theorem alike_execution_policy {a b : ExecutionPolicyDefinition}
    (alike : Alike (executionPolicy a) (executionPolicy b)) : SameExecutionPolicy a b := by
  have each := alike_object alike rfl (by simp)
  simp only [List.forall₂_cons] at each
  obtain ⟨⟨-, version⟩, ⟨-, cpus⟩, ⟨-, threads⟩, ⟨-, memory⟩, ⟨-, network⟩, ⟨-, workerReuse⟩, ⟨-, warmupRuns⟩,
    ⟨-, timeout⟩, ⟨-, timingScope⟩, ⟨-, primaryTime⟩, ⟨-, runOrder⟩, ⟨-, maxConcurrency⟩,
    ⟨-, enforcement⟩, -⟩ := each
  exact {
    version := (alike_nat.mp version).1
    cpus := alike_optional_nat cpus
    threads := alike_optional_nat threads
    memory := alike_optional_str memory
    network := alike_bool.mp network
    workerReuse := alike_bool.mp workerReuse
    warmupRuns := (alike_nat.mp warmupRuns).1
    timeout := alike_optional_str timeout
    timingScope := (alike_name TimingScope.name_injective).mp timingScope
    primaryTime := (alike_name PrimaryTime.name_injective).mp primaryTime
    runOrder := (alike_name RunOrder.name_injective).mp runOrder
    maxConcurrency := (alike_nat.mp maxConcurrency).1
    enforcement := (alike_name Enforcement.name_injective).mp enforcement }

theorem same_execution_policy {a b : ExecutionPolicyDefinition} (same : SameExecutionPolicy a b) :
    executionPolicy a = executionPolicy b := by
  unfold executionPolicy
  rw [same.version, same.cpus, same.threads, same.memory, same.network, same.workerReuse, same.warmupRuns,
    same.timeout, same.timingScope, same.primaryTime, same.runOrder, same.maxConcurrency, same.enforcement]

/-! ## Profiles -/

/-- Schedules with the same controls, compared as documents, and parameters of the same value. -/
def SameSchedule : ControlSchedule → ControlSchedule → Prop
  | .explicit controls, .explicit controls' => List.Forall₂ SameDocument controls controls'
  | .linear field start step count values, .linear field' start' step' count' values' =>
      field = field' ∧ SameDocument (F64.json start) (F64.json start') ∧
        SameDocument (F64.json step) (F64.json step') ∧ count = count' ∧ List.Forall₂ SameDocument values values'
  | .geometric field start ratio count values, .geometric field' start' ratio' count' values' =>
      field = field' ∧ SameDocument (F64.json start) (F64.json start') ∧
        SameDocument (F64.json ratio) (F64.json ratio') ∧ count = count' ∧ List.Forall₂ SameDocument values values'
  | _, _ => False

def SameBinding : ProfileBinding → ProfileBinding → Prop
  | .streaming a, .streaming b => a.checkSchedule = b.checkSchedule
  | .buffered a, .buffered b =>
      a.instrumentedScope = b.instrumentedScope ∧ SameSchema a.instrumentationSchema b.instrumentationSchema ∧
        SameDocument a.instrumentation b.instrumentation ∧ a.checkSchedule = b.checkSchedule
  | .fresh a, .fresh b => SameSchema a.controlSchema b.controlSchema ∧ SameSchedule a.schedule b.schedule
  | _, _ => False

theorem alike_check_schedule {a b : CheckSchedule} (alike : Alike a.json b.json) : a = b := by
  have indices := alike.get "indices"
  cases a with
  | periodic every start =>
      cases b with
      | periodic every' start' =>
          have each := alike_object alike rfl (by simp)
          simp only [List.forall₂_cons] at each
          obtain ⟨⟨-, interval⟩, ⟨-, first⟩, -⟩ := each
          rw [(alike_nat.mp interval).1, (alike_nat.mp first).1]
      | explicit listed => simp [CheckSchedule.json] at indices
  | explicit listed =>
      cases b with
      | periodic every start => simp [CheckSchedule.json] at indices
      | explicit listed' =>
          have each := alike_object alike rfl (by simp)
          obtain ⟨⟨-, items⟩, -⟩ := List.forall₂_cons.mp each
          rw [alike_map (fun _ _ alike => (alike_nat.mp alike).1) items]

/-- What is read back of the literal controls before a generated schedule. -/
def leadingWritten (values : List Json) : Json := if values = [] then .null else .arr values

theorem alike_leading {a b : List Json} (alike : Alike (leadingWritten a) (leadingWritten b)) :
    List.Forall₂ SameDocument a b := by
  unfold leadingWritten at alike
  split at alike
  · rename_i empty
    split at alike
    · rename_i empty'
      rw [empty, empty']
      exact .nil
    · simp at alike
  · split at alike
    · simp at alike
    · exact (alike_arr.mp alike).imp fun _ _ => Alike.same

theorem get_linear (field : String) (start step : UInt64) (count : Nat) (values : List Json) :
    let value := (ControlSchedule.linear field start step count values).json
    value.get "field" = .str field ∧ value.get "start" = F64.json start ∧ value.get "step" = F64.json step ∧
      value.get "count" = .nat count ∧ value.get "prefix" = leadingWritten values := by
  refine ⟨?_, ?_, ?_, ?_, ?_⟩
  all_goals
    by_cases empty : values = [] <;> simp [ControlSchedule.json, leadingWritten, empty]

theorem get_geometric (field : String) (start ratio : UInt64) (count : Nat) (values : List Json) :
    let value := (ControlSchedule.geometric field start ratio count values).json
    value.get "field" = .str field ∧ value.get "start" = F64.json start ∧ value.get "ratio" = F64.json ratio ∧
      value.get "count" = .nat count ∧ value.get "prefix" = leadingWritten values := by
  refine ⟨?_, ?_, ?_, ?_, ?_⟩
  all_goals
    by_cases empty : values = [] <;> simp [ControlSchedule.json, leadingWritten, empty]

theorem alike_control_schedule {a b : ControlSchedule} (alike : Alike a.json b.json) : SameSchedule a b := by
  have kinds := alike.get "kind"
  cases a with
  | explicit controls =>
      cases b with
      | explicit controls' =>
          have each := alike_object alike rfl (by simp)
          simp only [List.forall₂_cons] at each
          obtain ⟨-, ⟨-, items⟩, -⟩ := each
          exact (alike_arr.mp items).imp fun _ _ => Alike.same
      | linear | geometric => simp [ControlSchedule.json] at kinds
  | linear field start step count values =>
      cases b with
      | linear field' start' step' count' values' =>
          obtain ⟨name, first, move, total, literal⟩ := get_linear field start step count values
          obtain ⟨name', first', move', total', literal'⟩ := get_linear field' start' step' count' values'
          exact ⟨eq_of_alike (name ▸ name' ▸ alike.get "field"), (first ▸ first' ▸ alike.get "start").same,
            (move ▸ move' ▸ alike.get "step").same, (alike_nat.mp (total ▸ total' ▸ alike.get "count")).1,
            alike_leading (literal ▸ literal' ▸ alike.get "prefix")⟩
      | explicit | geometric => simp [ControlSchedule.json] at kinds
  | geometric field start ratio count values =>
      cases b with
      | geometric field' start' ratio' count' values' =>
          obtain ⟨name, first, move, total, literal⟩ := get_geometric field start ratio count values
          obtain ⟨name', first', move', total', literal'⟩ := get_geometric field' start' ratio' count' values'
          exact ⟨eq_of_alike (name ▸ name' ▸ alike.get "field"), (first ▸ first' ▸ alike.get "start").same,
            (move ▸ move' ▸ alike.get "ratio").same, (alike_nat.mp (total ▸ total' ▸ alike.get "count")).1,
            alike_leading (literal ▸ literal' ▸ alike.get "prefix")⟩
      | explicit | linear => simp [ControlSchedule.json] at kinds

theorem same_leading {a b : List Json} (same : List.Forall₂ SameDocument a b) :
    List.Forall₂ SameMember (if a.isEmpty then [] else [("prefix", .arr a)])
      (if b.isEmpty then [] else [("prefix", .arr b)]) := by
  cases same with
  | nil => exact .nil
  | cons head tail => exact .cons ⟨rfl, normalize_arr_congr (.cons head tail)⟩ .nil

theorem same_control_schedule {a b : ControlSchedule} (same : SameSchedule a b) :
    a.json.normalize = b.json.normalize := by
  cases a with
  | explicit controls =>
      cases b with
      | explicit controls' =>
          exact normalize_object_congr (.cons (sameMember_self _) (.cons ⟨rfl, normalize_arr_congr same⟩ .nil))
      | linear | geometric => cases same
  | linear field start step count values =>
      cases b with
      | linear field' start' step' count' values' =>
          obtain ⟨rfl, first, move, rfl, literal⟩ := same
          unfold ControlSchedule.json
          refine normalize_object_congr (List.rel_append ?_ (same_leading literal))
          simp only [List.forall₂_cons, sameMember_self, true_and]
          exact ⟨⟨rfl, first⟩, ⟨rfl, move⟩, .nil⟩
      | explicit | geometric => cases same
  | geometric field start ratio count values =>
      cases b with
      | geometric field' start' ratio' count' values' =>
          obtain ⟨rfl, first, move, rfl, literal⟩ := same
          unfold ControlSchedule.json
          refine normalize_object_congr (List.rel_append ?_ (same_leading literal))
          simp only [List.forall₂_cons, sameMember_self, true_and]
          exact ⟨⟨rfl, first⟩, ⟨rfl, move⟩, .nil⟩
      | explicit | linear => cases same

theorem alike_binding {a b : ProfileBinding} (parsed : ∀ schema ∈ a.schema, SchemaParsed schema)
    (parsed' : ∀ schema ∈ b.schema, SchemaParsed schema) (alike : Alike a.declarationValue b.declarationValue) :
    SameBinding a b := by
  have deliveries := alike.get "delivery"
  cases a with
  | streaming first =>
      cases b with
      | streaming second =>
          have each := alike_object alike rfl (by simp)
          simp only [List.forall₂_cons] at each
          obtain ⟨-, -, ⟨-, schedule⟩, -⟩ := each
          exact alike_check_schedule schedule
      | buffered | fresh => simp [ProfileBinding.declarationValue] at deliveries
  | buffered first =>
      cases b with
      | buffered second =>
          have each := alike_object alike rfl (by simp)
          simp only [List.forall₂_cons] at each
          obtain ⟨-, -, ⟨-, scope⟩, ⟨-, schema⟩, ⟨-, instrumentation⟩, ⟨-, schedule⟩, -⟩ := each
          exact ⟨eq_of_alike scope, alike_schema (parsed _ rfl) (parsed' _ rfl) schema, instrumentation.same,
            alike_check_schedule schedule⟩
      | streaming | fresh => simp [ProfileBinding.declarationValue] at deliveries
  | fresh first =>
      cases b with
      | fresh second =>
          have each := alike_object alike rfl (by simp)
          simp only [List.forall₂_cons] at each
          obtain ⟨-, ⟨-, schema⟩, ⟨-, schedule⟩, -⟩ := each
          exact ⟨alike_schema (parsed _ rfl) (parsed' _ rfl) schema, alike_control_schedule schedule⟩
      | streaming | buffered => simp [ProfileBinding.declarationValue] at deliveries

theorem same_binding {a b : ProfileBinding} (same : SameBinding a b) :
    a.declarationValue.normalize = b.declarationValue.normalize := by
  cases a with
  | streaming first =>
      cases b with
      | streaming second =>
          have schedules : first.checkSchedule = second.checkSchedule := same
          unfold ProfileBinding.declarationValue
          dsimp only
          rw [schedules]
      | buffered | fresh => cases same
  | buffered first =>
      cases b with
      | buffered second =>
          obtain ⟨scope, schema, instrumentation, schedule⟩ := same
          unfold ProfileBinding.declarationValue
          refine normalize_object_congr ?_
          rw [scope, same_schema schema, schedule]
          simp only [List.forall₂_cons, sameMember_self, true_and]
          exact ⟨⟨rfl, instrumentation⟩, .nil⟩
      | streaming | fresh => cases same
  | fresh first =>
      cases b with
      | fresh second =>
          obtain ⟨schema, schedule⟩ := same
          unfold ProfileBinding.declarationValue
          refine normalize_object_congr ?_
          rw [same_schema schema]
          simp only [List.forall₂_cons, sameMember_self, true_and]
          exact ⟨⟨rfl, same_control_schedule schedule⟩, .nil⟩
      | streaming | buffered => cases same

/-- Policies with the same fields, thresholds compared by value. -/
structure SamePolicy (a b : ProfilePolicy) : Prop where
  metric : a.metric = b.metric
  direction : a.direction = b.direction
  threshold : Option.Rel (fun x y => SameDocument (F64.json x) (F64.json y)) a.threshold b.threshold
  recordThresholds : SameFloats a.recordThresholds b.recordThresholds
  maxObservations : a.maxObservations = b.maxObservations
  maxCheckpointBytes : a.maxCheckpointBytes = b.maxCheckpointBytes
  maxTracePoints : a.maxTracePoints = b.maxTracePoints
  maxBufferBytes : a.maxBufferBytes = b.maxBufferBytes
  terminalReserveBytes : a.terminalReserveBytes = b.terminalReserveBytes
  maxActiveTime : a.maxActiveTime = b.maxActiveTime

structure SameProfileDefinition (a b : ProfileDefinition) : Prop where
  policy : SamePolicy a.policy b.policy
  implementations : List.Forall₂ (SameEntry SameBinding) a.implementations.entries b.implementations.entries

structure SameObservationPolicy (a b : ObservationPolicyDefinition) : Prop where
  version : a.version = b.version
  kind : a.kind = b.kind
  profile : Option.Rel SameProfileDefinition a.profile b.profile

/-- A bound is left out when it is zero. -/
def boundField (key : String) (bound : Nat) : List (String × Json) := fieldUnless (bound = 0) key (.nat bound)

/-- What is read back of a bound. -/
def boundWritten (bound : Nat) : Json := if bound = 0 then .null else .nat bound

theorem lookup_bound (key k : String) (bound : Nat) :
    lookupEntry key (boundField k bound) = if key = k ∧ bound ≠ 0 then some (.nat bound) else none :=
  lookup_fieldUnless _ _ _ _

theorem alike_bound {a b : Nat} (alike : Alike (boundWritten a) (boundWritten b)) : a = b := by
  unfold boundWritten at alike
  split at alike
  · split at alike
    · omega
    · exact absurd (null_alike.mp alike) (nat_ne_null _)
  · split at alike
    · exact absurd (alike_null.mp alike) (nat_ne_null _)
    · exact (alike_nat.mp alike).1

def policyFields (policy : ProfilePolicy) : List (String × Json) :=
  optionalField "metric" .str policy.metric ++
    (optionalField "direction" (fun direction => .str (Direction.name direction)) policy.direction ++
      (optionalField "threshold" F64.json policy.threshold ++
        (fieldUnless policy.recordThresholds.isEmpty "record-thresholds"
            (.arr (policy.recordThresholds.map F64.json)) ++
          ([("max-observations", .nat policy.maxObservations)] ++
            (boundField "max-checkpoint-bytes" policy.maxCheckpointBytes ++
              (boundField "max-trace-points" policy.maxTracePoints ++
                (boundField "max-buffer-bytes" policy.maxBufferBytes ++
                  (boundField "terminal-reserve-bytes" policy.terminalReserveBytes ++
                    [("max-active-time", .str policy.maxActiveTime)]))))))))

theorem policy_json (policy : ProfilePolicy) : policy.json = .object (policyFields policy) := by
  unfold ProfilePolicy.json policyFields boundField fieldUnless
  simp only [List.append_assoc]
  cases policy.metric <;> cases policy.direction <;> cases policy.threshold <;> rfl

/-- The fields of an observation policy with a profile. -/
def profileFields (policy : ObservationPolicyDefinition) (profile : ProfileDefinition) : List (String × Json) :=
  [("kind", .str policy.kind.name), ("version", .nat policy.version),
    ("implementations", .object (profile.implementations.entries.map fun entry =>
      (entry.1, entry.2.declarationValue)))] ++ policyFields profile.policy

theorem observationPolicy_json (policy : ObservationPolicyDefinition) : observationPolicy policy =
    .object (match policy.profile with
      | none => [("kind", .str policy.kind.name), ("version", .nat policy.version)]
      | some profile => profileFields policy profile) := by
  obtain ⟨⟨kind, profile⟩, version⟩ := policy
  cases profile with
  | none =>
      unfold observationPolicy
      dsimp only
      rw [set_object, set_object]
  | some profile =>
      unfold observationPolicy ProfileDefinition.declarationValue
      dsimp only
      rw [policy_json, set_object, set_object, set_object]
      rfl

/-- A valid policy has a finite target. -/
theorem threshold_finite {policy : ProfilePolicy} (valid : policy.validate = .ok ()) :
    ∀ target ∈ policy.threshold, F64.isFinite target = true := by
  intro target written
  rw [Option.mem_def] at written
  rcases (ProfilePolicy.validate_ok valid).kind with counted | targeted
  · obtain ⟨-, -, absent, -, -⟩ := counted
    rw [absent] at written
    cases written
  · obtain ⟨_, _, target', -, -, present, -, finite, -, -, -, -⟩ := targeted
    rw [present] at written
    cases written
    exact finite

theorem float_filled {bits : UInt64} (finite : F64.isFinite bits = true) : F64.json bits ≠ .null := by
  simp [F64.json, finite]

/-- What is read back of the recording thresholds. -/
def thresholdsWritten (values : List UInt64) : Json :=
  if values = [] then .null else .arr (values.map F64.json)

theorem alike_thresholds {a b : List UInt64} (alike : Alike (thresholdsWritten a) (thresholdsWritten b)) :
    SameFloats a b := by
  unfold thresholdsWritten at alike
  split at alike
  · rename_i empty
    split at alike
    · rename_i empty'
      rw [empty, empty']
      exact .nil
    · simp at alike
  · split at alike
    · simp at alike
    · exact alike_floats alike

theorem get_profile (policy : ObservationPolicyDefinition) (profile : ProfileDefinition) :
    let value := object (profileFields policy profile)
    value.get "metric" = .ofOption .str profile.policy.metric ∧
      value.get "direction" = .ofOption (fun direction => .str (Direction.name direction)) profile.policy.direction ∧
      value.get "threshold" = .ofOption F64.json profile.policy.threshold ∧
      value.get "record-thresholds" = thresholdsWritten profile.policy.recordThresholds ∧
      value.get "max-observations" = .nat profile.policy.maxObservations ∧
      value.get "max-checkpoint-bytes" = boundWritten profile.policy.maxCheckpointBytes ∧
      value.get "max-trace-points" = boundWritten profile.policy.maxTracePoints ∧
      value.get "max-buffer-bytes" = boundWritten profile.policy.maxBufferBytes ∧
      value.get "terminal-reserve-bytes" = boundWritten profile.policy.terminalReserveBytes ∧
      value.get "max-active-time" = .str profile.policy.maxActiveTime ∧
      value.get "implementations" = .object (profile.implementations.entries.map fun entry =>
        (entry.1, entry.2.declarationValue)) ∧
      value.get "version" = .nat policy.version ∧ value.get "kind" = .str policy.kind.name := by
  refine ⟨?_, ?_, ?_, ?_, ?_, ?_, ?_, ?_, ?_, ?_, ?_, ?_, ?_⟩
  all_goals
    simp [profileFields, policyFields, get_object, lookupEntry, lookup_append, lookup_optionalField,
      lookup_fieldUnless, lookup_bound, -get_object_cons]
  · cases profile.policy.metric <;> rfl
  · cases profile.policy.direction <;> rfl
  · cases profile.policy.threshold <;> rfl
  · by_cases empty : profile.policy.recordThresholds = [] <;> simp [thresholdsWritten, empty]
  · by_cases zero : profile.policy.maxCheckpointBytes = 0 <;> simp [boundWritten, zero]
  · by_cases zero : profile.policy.maxTracePoints = 0 <;> simp [boundWritten, zero]
  · by_cases zero : profile.policy.maxBufferBytes = 0 <;> simp [boundWritten, zero]
  · by_cases zero : profile.policy.terminalReserveBytes = 0 <;> simp [boundWritten, zero]

theorem Direction.name_injective : Function.Injective Direction.name := by
  intro a b same
  cases a <;> cases b <;> simp_all [Direction.name]

theorem alike_profile_fields {policy policy' : ObservationPolicyDefinition} {profile profile' : ProfileDefinition}
    (parsed : ProfileParsed profile) (parsed' : ProfileParsed profile')
    (alike : Alike (object (profileFields policy profile)) (object (profileFields policy' profile'))) :
    policy.version = policy'.version ∧ policy.kind = policy'.kind ∧ SameProfileDefinition profile profile' := by
  obtain ⟨metric, direction, threshold, recorded, observations, checkpoint, trace, buffer, reserve, active,
    bindings, version, kind⟩ := get_profile policy profile
  obtain ⟨metric', direction', threshold', recorded', observations', checkpoint', trace', buffer', reserve',
    active', bindings', version', kind'⟩ := get_profile policy' profile'
  rw [object_ofMap ProfileBinding.declarationValue] at bindings bindings'
  refine ⟨(alike_nat.mp (version ▸ version' ▸ alike.get "version")).1,
    (alike_name ObservationKind.name_injective).mp (kind ▸ kind' ▸ alike.get "kind"), ?_, ?_⟩
  · exact {
      metric := alike_optional_str (metric ▸ metric' ▸ alike.get "metric")
      direction := alike_optional_name Direction.name_injective (direction ▸ direction' ▸ alike.get "direction")
      threshold := alike_ofOption (fun target member => float_filled (by
          rcases member with left | right
          · exact threshold_finite parsed.policy target left
          · exact threshold_finite parsed'.policy target right))
        (fun _ _ _ _ => Alike.same) (threshold ▸ threshold' ▸ alike.get "threshold")
      recordThresholds := alike_thresholds (recorded ▸ recorded' ▸ alike.get "record-thresholds")
      maxObservations := (alike_nat.mp (observations ▸ observations' ▸ alike.get "max-observations")).1
      maxCheckpointBytes := alike_bound (checkpoint ▸ checkpoint' ▸ alike.get "max-checkpoint-bytes")
      maxTracePoints := alike_bound (trace ▸ trace' ▸ alike.get "max-trace-points")
      maxBufferBytes := alike_bound (buffer ▸ buffer' ▸ alike.get "max-buffer-bytes")
      terminalReserveBytes := alike_bound (reserve ▸ reserve' ▸ alike.get "terminal-reserve-bytes")
      maxActiveTime := eq_of_alike (active ▸ active' ▸ alike.get "max-active-time") }
  · exact alike_ofMap (fun _ left _ right => alike_binding (parsed.implementations _ left)
      (parsed'.implementations _ right)) (bindings ▸ bindings' ▸ alike.get "implementations")

theorem alike_observation_policy {a b : ObservationPolicyDefinition}
    (parsed : ∀ profile ∈ a.profile, ProfileParsed profile) (parsed' : ∀ profile ∈ b.profile, ProfileParsed profile)
    (alike : Alike (observationPolicy a) (observationPolicy b)) : SameObservationPolicy a b := by
  rw [observationPolicy_json, observationPolicy_json] at alike
  have observations := alike.get "max-observations"
  cases left : a.profile with
  | none =>
      cases right : b.profile with
      | none =>
          rw [left, right] at alike
          have each := alike_object alike rfl (by simp)
          simp only [List.forall₂_cons] at each
          obtain ⟨⟨-, kind⟩, ⟨-, version⟩, -⟩ := each
          exact ⟨(alike_nat.mp version).1, (alike_name ObservationKind.name_injective).mp kind,
            by rw [left, right]; exact .none⟩
      | some profile' =>
          rw [left, right] at observations
          dsimp only at observations
          obtain ⟨-, -, -, -, written, -⟩ := get_profile b profile'
          simp [written, nat_ne_null] at observations
  | some profile =>
      cases right : b.profile with
      | none =>
          rw [left, right] at observations
          dsimp only at observations
          obtain ⟨-, -, -, -, written, -⟩ := get_profile a profile
          simp [written, nat_ne_null] at observations
      | some profile' =>
          rw [left, right] at alike
          obtain ⟨version, kind, same⟩ := alike_profile_fields (parsed profile left) (parsed' profile' right) alike
          exact ⟨version, kind, by rw [left, right]; exact .some same⟩

theorem same_policy_fields {a b : ProfilePolicy} (same : SamePolicy a b) :
    List.Forall₂ SameMember (policyFields a) (policyFields b) := by
  obtain ⟨metric, direction, threshold, recorded, observations, checkpoint, trace, buffer, reserve, active⟩ := same
  unfold policyFields
  rw [metric, direction, observations, checkpoint, trace, buffer, reserve, active]
  refine List.rel_append (sameMembers_self _) (List.rel_append (sameMembers_self _)
    (List.rel_append ?_ (List.rel_append ?_ (sameMembers_self _))))
  · exact sameMember_optionalField threshold (fun _ _ => id) _
  · unfold fieldUnless
    generalize a.recordThresholds = thresholds at recorded
    generalize b.recordThresholds = thresholds' at recorded
    cases recorded with
    | nil => exact .nil
    | cons head tail => exact .cons ⟨rfl, normalize_map_congr (.cons head tail) fun _ _ => id⟩ .nil

theorem same_observation_policy {a b : ObservationPolicyDefinition} (same : SameObservationPolicy a b) :
    (observationPolicy a).normalize = (observationPolicy b).normalize := by
  obtain ⟨version, kind, profiles⟩ := same
  rw [observationPolicy_json, observationPolicy_json, version, kind]
  refine normalize_object_congr ?_
  cases left : a.profile with
  | none =>
      cases right : b.profile with
      | none => exact sameMembers_self _
      | some profile' =>
          rw [left, right] at profiles
          cases profiles
  | some profile =>
      cases right : b.profile with
      | none =>
          rw [left, right] at profiles
          cases profiles
      | some profile' =>
          rw [left, right] at profiles
          obtain ⟨policy, bindings⟩ : SameProfileDefinition profile profile' := by
            cases profiles with
            | some same => exact same
          dsimp only [profileFields]
          rw [version, kind, object_ofMap, object_ofMap]
          refine List.rel_append ?_ (same_policy_fields policy)
          simp only [List.forall₂_cons, sameMember_self, true_and]
          exact ⟨⟨rfl, normalize_ofMap_congr bindings fun _ _ => same_binding⟩, .nil⟩

/-! ## Manifests -/

/-- Agreement of two manifests in everything their bytes cover. -/
structure SameManifest (a b : Manifest) : Prop where
  version : a.version = b.version
  name : a.name = b.name
  defaultExperiment : a.defaultExperiment = b.defaultExperiment
  workerTimeouts : a.workerTimeouts = b.workerTimeouts
  datasets : List.Forall₂ (SameEntry SameDataset) a.datasets.entries b.datasets.entries
  problems : List.Forall₂ (SameEntry SameProblem) a.problems.entries b.problems.entries
  implementations : List.Forall₂ (SameEntry SameImplementation) a.implementations.entries b.implementations.entries
  environments : a.environments = b.environments
  experiments : a.experiments = b.experiments
  executionPolicies : List.Forall₂ (SameEntry SameExecutionPolicy) a.executionPolicies.entries
    b.executionPolicies.entries
  observationPolicies : List.Forall₂ (SameEntry SameObservationPolicy) a.observationPolicies.entries
    b.observationPolicies.entries

/-- What is read back of the deadlines. -/
def timeoutsWritten (timeouts : WorkerTimeouts) : Json := if timeouts = .builtin then .null else timeouts.json

theorem alike_timeouts {a b : WorkerTimeouts} (alike : Alike a.json b.json) : a = b := by
  have each := alike_object alike rfl (by simp)
  simp only [List.forall₂_cons] at each
  obtain ⟨⟨-, hello⟩, ⟨-, materialize⟩, ⟨-, prepare⟩, ⟨-, execute⟩, ⟨-, reset⟩, ⟨-, evaluate⟩,
    ⟨-, shutdown⟩, -⟩ := each
  exact WorkerTimeouts.ext (alike_nat.mp hello).1 (alike_nat.mp materialize).1 (alike_nat.mp prepare).1
    (alike_nat.mp execute).1 (alike_nat.mp reset).1 (alike_nat.mp evaluate).1 (alike_nat.mp shutdown).1

theorem alike_timeouts_written {a b : WorkerTimeouts} (alike : Alike (timeoutsWritten a) (timeoutsWritten b)) :
    a = b := by
  unfold timeoutsWritten at alike
  split at alike
  · rename_i builtin
    split at alike
    · rename_i builtin'
      rw [builtin, builtin']
    · simp [WorkerTimeouts.json, object] at alike
  · split at alike
    · simp [WorkerTimeouts.json, object] at alike
    · exact alike_timeouts alike

theorem get_manifest (manifest : Manifest) :
    let value := manifestValue manifest
    value.get "version" = .nat manifest.version ∧ value.get "name" = .str manifest.name ∧
      value.get "datasets" = .ofMap dataset manifest.datasets ∧
      value.get "problems" = .ofMap problem manifest.problems ∧
      value.get "implementations" = .ofMap implementation manifest.implementations ∧
      value.get "environments" = .ofMap environment manifest.environments ∧
      value.get "experiments" = .arr (manifest.experiments.map experiment) ∧
      value.get "execution_policies" = .ofMap executionPolicy manifest.executionPolicies ∧
      value.get "observation_policies" = .ofMap observationPolicy manifest.observationPolicies ∧
      value.get "default_experiment" = .ofOption .str manifest.defaultExperiment ∧
      value.get "worker_timeouts" = timeoutsWritten manifest.workerTimeouts := by
  refine ⟨?_, ?_, ?_, ?_, ?_, ?_, ?_, ?_, ?_, ?_, ?_⟩
  all_goals
    simp [manifestValue, get_object, lookupEntry, lookup_append, lookup_optionalField, lookup_fieldUnless,
      -get_object_cons]
  · cases manifest.defaultExperiment <;> rfl
  · by_cases builtin : manifest.workerTimeouts = .builtin <;> simp [timeoutsWritten, builtin]

theorem alike_manifest {a b : Manifest} (parsed : a.Parsed) (parsed' : b.Parsed)
    (alike : Alike (manifestValue a) (manifestValue b)) : SameManifest a b := by
  obtain ⟨version, name, datasets, problems, implementations, environments, experiments, executions,
    observations, chosen, timeouts⟩ := get_manifest a
  obtain ⟨version', name', datasets', problems', implementations', environments', experiments', executions',
    observations', chosen', timeouts'⟩ := get_manifest b
  exact {
    version := (alike_nat.mp (version ▸ version' ▸ alike.get "version")).1
    name := eq_of_alike (name ▸ name' ▸ alike.get "name")
    defaultExperiment := alike_optional_str (chosen ▸ chosen' ▸ alike.get "default_experiment")
    workerTimeouts := alike_timeouts_written (timeouts ▸ timeouts' ▸ alike.get "worker_timeouts")
    datasets := alike_ofMap (fun _ left _ right => alike_dataset (parsed.datasets _ left)
      (parsed'.datasets _ right)) (datasets ▸ datasets' ▸ alike.get "datasets")
    problems := alike_ofMap (fun _ left _ right => alike_problem (parsed.problems _ left)
      (parsed'.problems _ right)) (problems ▸ problems' ▸ alike.get "problems")
    implementations := alike_ofMap (fun _ left _ right => alike_implementation (parsed.implementations _ left)
      (parsed'.implementations _ right)) (implementations ▸ implementations' ▸ alike.get "implementations")
    environments := eq_of_alike_ofMap (fun _ _ => alike_environment)
      (environments ▸ environments' ▸ alike.get "environments")
    experiments := alike_map (fun _ _ => alike_experiment) (experiments ▸ experiments' ▸ alike.get "experiments")
    executionPolicies := alike_ofMap (fun _ _ _ _ => alike_execution_policy)
      (executions ▸ executions' ▸ alike.get "execution_policies")
    observationPolicies := alike_ofMap (fun _ left _ right => alike_observation_policy
      (parsed.observationPolicies _ left) (parsed'.observationPolicies _ right))
      (observations ▸ observations' ▸ alike.get "observation_policies") }

theorem same_manifest {a b : Manifest} (same : SameManifest a b) :
    (manifestValue a).normalize = (manifestValue b).normalize := by
  obtain ⟨version, name, chosen, timeouts, datasets, problems, implementations, environments, experiments,
    executions, observations⟩ := same
  unfold manifestValue
  rw [version, name, chosen, timeouts, environments, experiments]
  refine normalize_object_congr (List.rel_append (List.rel_append ?_ (sameMembers_self _)) (sameMembers_self _))
  simp only [List.forall₂_cons, sameMember_self, true_and]
  refine ⟨⟨rfl, ?_⟩, ⟨rfl, ?_⟩, ⟨rfl, ?_⟩, ⟨rfl, ?_⟩, ⟨rfl, ?_⟩, .nil⟩
  · exact normalize_ofMap_congr datasets fun _ _ => same_dataset
  · exact normalize_ofMap_congr problems fun _ _ => same_problem
  · exact normalize_ofMap_congr implementations fun _ _ => same_implementation
  · exact normalize_ofMap_congr executions fun _ _ same => by rw [same_execution_policy same]
  · exact normalize_ofMap_congr observations fun _ _ => same_observation_policy

/-! ## Bytes -/

section Bytes

variable {lib : JsonLibrary}

theorem canonicalManifestBytes_ok {manifest : Manifest} {bytes : List UInt8} :
    canonicalManifestBytes lib manifest = .ok bytes ↔ validateReferences manifest = .ok () ∧
      ∃ value, (manifestValue manifest).normalize = .ok value ∧ lib.encode value = bytes := by
  unfold canonicalManifestBytes
  simp only [ok_bind, ok_pure, ok_mapError]
  constructor
  · intro written
    obtain ⟨_, resolved, value, normal, encoded⟩ := written
    exact ⟨resolved, value, normal, encoded⟩
  · intro written
    obtain ⟨resolved, value, normal, encoded⟩ := written
    exact ⟨(), resolved, value, normal, encoded⟩

/-- Two parsed manifests are hashed from the same bytes exactly when they agree in everything the bytes
cover. -/
theorem manifest_bytes_separate (spelled : lib.Spelled) {a b : Manifest} (parsed : a.Parsed)
    (parsed' : b.Parsed) (ordered : (manifestValue a).Ordered) (ordered' : (manifestValue b).Ordered)
    {bytes bytes' : List UInt8} (written : canonicalManifestBytes lib a = .ok bytes)
    (written' : canonicalManifestBytes lib b = .ok bytes') : bytes = bytes' ↔ SameManifest a b := by
  obtain ⟨-, value, normal, rfl⟩ := canonicalManifestBytes_ok.mp written
  obtain ⟨-, value', normal', rfl⟩ := canonicalManifestBytes_ok.mp written'
  constructor
  · intro same
    have sorted := (normalize_shape _ normal).2 ordered
    have sorted' := (normalize_shape _ normal').2 ordered'
    have values := JsonLibrary.text_injective spelled (normalize_idempotent normal) (normalize_idempotent normal')
      sorted sorted' (String.ofList_injective (utf8_injective same))
    subst values
    exact alike_manifest parsed parsed' ⟨value, normal, normal'⟩
  · intro same
    have values := same_manifest same
    rw [normal, normal'] at values
    rw [Except.ok.inj values]

/-- A manifest with one execution policy and nothing else. -/
def policyManifest (warmupRuns : Option Nat) : Manifest where
  version := 1
  name := "study"
  defaultExperiment := none
  workerTimeouts := .builtin
  datasets := ∅
  problems := ∅
  implementations := ∅
  environments := ∅
  experiments := []
  executionPolicies := OrderedMap.insert ∅ "local"
    { version := 1, cpus := none, threads := none, memory := none, network := none, workerReuse := none,
      warmupRuns := warmupRuns, timeout := none, timingScope := none, primaryTime := none, runOrder := none,
      maxConcurrency := none, enforcement := none }
  observationPolicies := ∅

/-- A written default and an omitted one are hashed from the same bytes, another value is not. -/
theorem manifest_bytes_separate_sample : ∃ bytes bytes',
    canonicalManifestBytes Protocol.sampleText (policyManifest none) = .ok bytes ∧
      canonicalManifestBytes Protocol.sampleText (policyManifest (some 0)) = .ok bytes ∧
      canonicalManifestBytes Protocol.sampleText (policyManifest (some 1)) = .ok bytes' ∧ bytes ≠ bytes' := by
  have parsed : ∀ runs, (policyManifest runs).Parsed := fun runs =>
    ⟨fun _ member => absurd member List.not_mem_nil, fun _ member => absurd member List.not_mem_nil,
      fun _ member => absurd member List.not_mem_nil, fun _ member => absurd member List.not_mem_nil⟩
  have ordered : ∀ runs, (manifestValue (policyManifest runs)).Ordered := by
    intro runs
    have policy : (executionPolicy
        { version := 1, cpus := none, threads := none, memory := none, network := none, workerReuse := none,
          warmupRuns := runs, timeout := none, timingScope := none, primaryTime := none, runOrder := none,
          maxConcurrency := none, enforcement := none }).Ordered :=
      object_ordered (by simp [nat, ofOption, Ordered])
    refine object_ordered ?_
    simp only [policyManifest, optionalField, fieldUnless, if_true, List.append_nil, List.forall_mem_cons]
    refine ⟨trivial, trivial, ofMap_ordered ?_, ofMap_ordered ?_, ofMap_ordered ?_, ofMap_ordered ?_, trivial,
      ofMap_ordered ?_, ofMap_ordered ?_, by simp⟩
    · exact fun _ member => absurd member List.not_mem_nil
    · exact fun _ member => absurd member List.not_mem_nil
    · exact fun _ member => absurd member List.not_mem_nil
    · exact fun _ member => absurd member List.not_mem_nil
    · intro entry member
      cases List.mem_singleton.mp member
      exact policy
    · exact fun _ member => absurd member List.not_mem_nil
  have written : ∀ runs ∈ [none, some 0, some 1],
      ∃ bytes, canonicalManifestBytes Protocol.sampleText (policyManifest runs) = .ok bytes := by
    intro runs listed
    have normal : (manifestValue (policyManifest runs)).normalize.toOption.isSome = true := by
      revert runs
      decide +kernel
    obtain ⟨value, found⟩ := Option.isSome_iff_exists.mp normal
    exact ⟨_, canonicalManifestBytes_ok.mpr ⟨rfl, value, toOption_eq_some.mp found, rfl⟩⟩
  obtain ⟨bytes, omitted⟩ := written none (by simp)
  obtain ⟨bytes₀, zero⟩ := written (some 0) (by simp)
  obtain ⟨bytes₁, one⟩ := written (some 1) (by simp)
  have same : SameManifest (policyManifest none) (policyManifest (some 0)) :=
    ⟨rfl, rfl, rfl, rfl, .nil, .nil, .nil, rfl, rfl,
      .cons ⟨rfl, rfl, rfl, rfl, rfl, rfl, rfl, rfl, rfl, rfl, rfl, rfl, rfl, rfl⟩ .nil, .nil⟩
  have defaulted : bytes = bytes₀ := (manifest_bytes_separate Protocol.sampleText_spelled (parsed _) (parsed _)
    (ordered _) (ordered _) omitted zero).mpr same
  subst defaulted
  refine ⟨bytes, bytes₁, omitted, zero, one, fun equal => ?_⟩
  have agree := (manifest_bytes_separate Protocol.sampleText_spelled (parsed _) (parsed _) (ordered _) (ordered _)
    omitted one).mp equal
  obtain ⟨entry, -⟩ := List.forall₂_cons.mp agree.executionPolicies
  exact absurd entry.2.warmupRuns (by decide)

end Bytes

end Metewand.Authored
