import Metewand.Core.Manifest
import Metewand.Lib.Product
import Mathlib.Data.List.Dedup

/-!
# Configuration expansion

`expandExperiment` of `core/planning.rs`: for each case of an experiment the axes of every
selected definition are overlaid and multiplied out, each combination is resolved, and the
candidates are collected in the order of five nested loops, none of them twice.

`ExpandedCandidate.reference` states the intended list without accumulators: the product
of the effective axes in ascending name order, and the members case by case.
`expandExperiment_iff` proves that expansion returns exactly that list, and succeeds
exactly when every combination resolves and no two members have one key.
-/

namespace Metewand.Planning

open Lib Lib.Check

/-! ## Candidates -/

/-- The authored matrix member that produced an expanded candidate. -/
inductive ConfigurationSource where
  | experiment
  | case (name : String)
  deriving DecidableEq

/-- A dataset definition selected during configuration expansion. -/
inductive DatasetConfigurationDefinition where
  | unit
  | named (name : String)
  deriving DecidableEq

structure ExpandedDatasetConfiguration where
  definition : DatasetConfigurationDefinition
  parameters : CanonicalValue
  deriving DecidableEq

structure ExpandedProblemConfiguration where
  definition : String
  parameters : CanonicalValue
  deriving DecidableEq

structure ExpandedImplementationConfiguration where
  definition : String
  environment : String
  parameters : CanonicalValue
  deriving DecidableEq

/-- One pre-identity logical candidate expressed through resolved parameters. -/
structure ExpandedCandidate where
  source : ConfigurationSource
  dataset : ExpandedDatasetConfiguration
  problem : ExpandedProblemConfiguration
  implementation : ExpandedImplementationConfiguration
  deriving DecidableEq

structure ExpandedExperiment where
  name : String
  candidates : List ExpandedCandidate
  deriving DecidableEq

/-- A scientific parameter namespace being resolved for one configuration. -/
inductive ConfigurationNamespace where
  | dataset
  | problem
  | implementation
  deriving DecidableEq

inductive ConfigurationExpansionError where
  /-- A selected name without a definition, which the source's index operator refuses. -/
  | undefined («namespace» : ConfigurationNamespace) (name : String)
  | parameterResolution (experiment : String) (sourceLocation : ConfigurationSource)
      («namespace» : ConfigurationNamespace) (definition : String)
      (error : ParameterResolutionError)
  | duplicateLogicalCandidate (experiment : String)
      (firstSource duplicateSource : ConfigurationSource)
      (dataset : DatasetConfigurationDefinition) (problem implementation : String)

/-- What two candidates must not have in common. -/
structure CandidateKey where
  dataset : DatasetConfigurationDefinition
  datasetParameters : List UInt8
  problem : String
  problemParameters : List UInt8
  implementation : String
  implementationParameters : List UInt8
  deriving DecidableEq

/-! ## Axes -/

def ParameterAxis.values : ParameterAxis → List CanonicalValue
  | .value value => [value]
  | .grid values => values

/-- Each axis extends the combinations so far by its values. -/
def expandAxes (axes : ParameterAxes) : Except ParameterResolutionError (List CanonicalValue) :=
  traverseAll
    (fun parameters => (CanonicalValue.tryFrom (.obj parameters)).mapError .canonicalJson)
    (accumulate (fun name value parameters => Json.insertMember name value.value parameters)
      (axes.entries.map fun axis => (axis.1, ParameterAxis.values axis.2)) [[]])

/-- The axes of a definition's grids under those of an experiment and of a case. -/
def overlayAxes (grids : ParameterAxes) (base overlay : Option ParameterAxes) : ParameterAxes :=
  let axes :=
    match base with
    | some base => grids.extend base
    | none => grids
  match overlay with
  | some overlay => axes.extend overlay
  | none => axes

def expandResolvedParameters (schemas : SchemaCatalog) (schemaPath : String)
    (defaults : Option CanonicalValue) (grids : ParameterAxes)
    (base overlay : Option ParameterAxes) :
    Except ParameterResolutionError (List CanonicalValue) := do
  let supplied ← expandAxes (overlayAxes grids base overlay)
  traverseAll (resolveParameters schemas schemaPath defaults) supplied

def emptyParameters : CanonicalValue := .object []

/-- The combinations of a definition; without a schema it has no parameters. -/
def expandDefinition (schemas : SchemaCatalog) (schema : Option SchemaDeclaration)
    (defaults : Option CanonicalValue) (grids : ParameterAxes)
    (base overlay : Option ParameterAxes) :
    Except ParameterResolutionError (List CanonicalValue) :=
  match schema with
  | some schema => expandResolvedParameters schemas schema.path defaults grids base overlay
  | none => .ok [emptyParameters]

def workerEnvironment : WorkerDefinition → String
  | .interpreted environment => environment
  | .command environment => environment

/-! ## Expansion -/

section Expansion

variable (toCanonicalBytes : CanonicalValue → List UInt8)

def ExpandedCandidate.key (candidate : ExpandedCandidate) : CandidateKey where
  dataset := candidate.dataset.definition
  datasetParameters := toCanonicalBytes candidate.dataset.parameters
  problem := candidate.problem.definition
  problemParameters := toCanonicalBytes candidate.problem.parameters
  implementation := candidate.implementation.definition
  implementationParameters := toCanonicalBytes candidate.implementation.parameters

/-- The candidates so far and the keys they have used. -/
structure Expanding where
  candidates : List ExpandedCandidate
  seen : List (CandidateKey × ConfigurationSource)

def insertCandidate (experiment : ExperimentDefinition) (state : Expanding)
    (candidate : ExpandedCandidate) : Except ConfigurationExpansionError Expanding :=
  let key := candidate.key toCanonicalBytes
  match state.seen.lookup key with
  | some firstSource =>
      .error (.duplicateLogicalCandidate experiment.name firstSource candidate.source key.dataset
        key.problem key.implementation)
  | none => .ok ⟨state.candidates ++ [candidate], (key, candidate.source) :: state.seen⟩

variable (manifest : Manifest) (contract : ProblemContract) (schemas : SchemaCatalog)
  (experiment : ExperimentDefinition)

def problemParameters (case : Option ExperimentCase) (source : ConfigurationSource) :
    Except ConfigurationExpansionError (List CanonicalValue) := do
  let definition ← expect (manifest.problems.get experiment.problem)
    (.undefined .problem experiment.problem)
  (expandResolvedParameters schemas contract.parameterSchema.path
      (definition.resolvedParameterDefaults contract) contract.parameterGrids
      (some experiment.problemParameters)
      (case.map fun case => case.problemParameters)).mapError
    (.parameterResolution experiment.name source .problem experiment.problem)

def datasetParameters (case : Option ExperimentCase) (source : ConfigurationSource)
    (name : String) :
    Except ConfigurationExpansionError (DatasetConfigurationDefinition × List CanonicalValue) := do
  let definition ← expect (manifest.datasets.get name) (.undefined .dataset name)
  let parameters ←
    match definition with
    | .fixed => .ok [emptyParameters]
    | .generated definition =>
        (expandDefinition schemas definition.parameterSchema definition.parameterDefaults
            definition.parameterGrids (experiment.datasetParameters.get name)
            (case.bind fun case => case.datasetParameters.get name)).mapError
          (.parameterResolution experiment.name source .dataset name)
  return (.named name, parameters)

/-- The parameters of the selected datasets; the unit dataset when none is selected. -/
def selectedDatasets (case : Option ExperimentCase) (source : ConfigurationSource) :
    Except ConfigurationExpansionError
      (List (DatasetConfigurationDefinition × List CanonicalValue)) :=
  if experiment.datasets = [] then .ok [(.unit, [emptyParameters])]
  else traverseAll (datasetParameters manifest schemas experiment case source) experiment.datasets

def implementationParameters (case : Option ExperimentCase) (source : ConfigurationSource)
    (name : String) :
    Except ConfigurationExpansionError (String × String × List CanonicalValue) := do
  let definition ← expect (manifest.implementations.get name) (.undefined .implementation name)
  let parameters ←
    (expandDefinition schemas definition.parameterSchema definition.parameterDefaults
        definition.parameterGrids (experiment.implementationParameters.get name)
        (case.bind fun case => case.implementationParameters.get name)).mapError
      (.parameterResolution experiment.name source .implementation name)
  return (name, workerEnvironment definition.worker, parameters)

def expandSource (case : Option ExperimentCase) (source : ConfigurationSource)
    (state : Expanding) : Except ConfigurationExpansionError Expanding := do
  let problems ← problemParameters manifest contract schemas experiment case source
  let datasets ← selectedDatasets manifest schemas experiment case source
  let implementations ←
    traverseAll (implementationParameters manifest schemas experiment case source)
      experiment.implementations
  thread (fun state dataset =>
      thread (fun state datasetParameters =>
          thread (fun state problemParameters =>
              thread (fun state implementation =>
                  thread (fun state implementationParameters =>
                      insertCandidate toCanonicalBytes experiment state
                        { source
                          dataset := ⟨dataset.1, datasetParameters⟩
                          problem := ⟨experiment.problem, problemParameters⟩
                          implementation :=
                            ⟨implementation.1, implementation.2.1, implementationParameters⟩ })
                    state implementation.2.2)
                state implementations)
            state problems)
        state dataset.2)
    state datasets

/-- The experiment itself, or each of its cases. -/
def expandSources (state : Expanding) : Except ConfigurationExpansionError Expanding :=
  if experiment.cases = [] then
    expandSource toCanonicalBytes manifest contract schemas experiment none .experiment state
  else
    thread (fun state case =>
        expandSource toCanonicalBytes manifest contract schemas experiment (some case)
          (.case case.name) state)
      state experiment.cases

def expandExperiment : Except ConfigurationExpansionError ExpandedExperiment := do
  let state ← expandSources toCanonicalBytes manifest contract schemas experiment ⟨[], []⟩
  return ⟨experiment.name, state.candidates⟩

end Expansion

/-! ## The reference -/

/-- The axis in force for a name: a case's, else the experiment's, else the definition's grid. -/
def effectiveAxis (grids : ParameterAxes) (base overlay : Option ParameterAxes) (name : String) :
    Option ParameterAxis :=
  ((overlay.bind (·.get name)).or (base.bind (·.get name))).or (grids.get name)

/-- The names of all axes, ascending. -/
def axisNames (grids : ParameterAxes) (base overlay : Option ParameterAxes) : List String :=
  ((overlay.elim [] (·.keys) ++ base.elim [] (·.keys) ++ grids.keys).dedup).insertionSort (· ≤ ·)

def effectiveAxes (grids : ParameterAxes) (base overlay : Option ParameterAxes) :
    List (String × List CanonicalValue) :=
  (axisNames grids base overlay).filterMap fun name =>
    (effectiveAxis grids base overlay name).map fun axis => (name, ParameterAxis.values axis)

/-- The resolved combinations of a definition with a schema. -/
def combinations (schemas : SchemaCatalog) (schemaPath : String) (defaults : Option CanonicalValue)
    (grids : ParameterAxes) (base overlay : Option ParameterAxes) :
    Option (List CanonicalValue) :=
  (product (effectiveAxes grids base overlay)).mapM fun combination =>
    (resolveParameters schemas schemaPath defaults (.object combination)).toOption

/-- A definition without a schema has one combination, the empty one. -/
def definitionCombinations (schemas : SchemaCatalog) (schema : Option SchemaDeclaration)
    (defaults : Option CanonicalValue) (grids : ParameterAxes)
    (base overlay : Option ParameterAxes) : Option (List CanonicalValue) :=
  match schema with
  | some schema => combinations schemas schema.path defaults grids base overlay
  | none => some [emptyParameters]

section Reference

variable (manifest : Manifest) (contract : ProblemContract) (schemas : SchemaCatalog)
  (experiment : ExperimentDefinition)

def problemCombinations (case : Option ExperimentCase) : Option (List CanonicalValue) := do
  let definition ← manifest.problems.get experiment.problem
  combinations schemas contract.parameterSchema.path
    (definition.resolvedParameterDefaults contract) contract.parameterGrids
    (some experiment.problemParameters) (case.map (·.problemParameters))

def datasetCombinations (case : Option ExperimentCase) (name : String) :
    Option (DatasetConfigurationDefinition × List CanonicalValue) := do
  let definition ← manifest.datasets.get name
  let parameters ←
    match definition with
    | .fixed => some [emptyParameters]
    | .generated definition =>
        definitionCombinations schemas definition.parameterSchema definition.parameterDefaults
          definition.parameterGrids (experiment.datasetParameters.get name)
          (case.bind (·.datasetParameters.get name))
  return (.named name, parameters)

def selectedCombinations (case : Option ExperimentCase) :
    Option (List (DatasetConfigurationDefinition × List CanonicalValue)) :=
  if experiment.datasets = [] then some [(.unit, [emptyParameters])]
  else experiment.datasets.mapM (datasetCombinations manifest schemas experiment case)

def implementationCombinations (case : Option ExperimentCase) (name : String) :
    Option (String × String × List CanonicalValue) := do
  let definition ← manifest.implementations.get name
  let parameters ←
    definitionCombinations schemas definition.parameterSchema definition.parameterDefaults
      definition.parameterGrids (experiment.implementationParameters.get name)
      (case.bind (·.implementationParameters.get name))
  return (name, workerEnvironment definition.worker, parameters)

/-- Datasets, then problem combinations, then implementations. -/
def members (source : ConfigurationSource)
    (datasets : List (DatasetConfigurationDefinition × List CanonicalValue))
    (problems : List CanonicalValue)
    (implementations : List (String × String × List CanonicalValue)) : List ExpandedCandidate :=
  datasets.flatMap fun dataset =>
    dataset.2.flatMap fun datasetParameters =>
      problems.flatMap fun problemParameters =>
        implementations.flatMap fun implementation =>
          implementation.2.2.map fun implementationParameters =>
            { source
              dataset := ⟨dataset.1, datasetParameters⟩
              problem := ⟨experiment.problem, problemParameters⟩
              implementation :=
                ⟨implementation.1, implementation.2.1, implementationParameters⟩ }

def sourceMembers (case : Option ExperimentCase) (source : ConfigurationSource) :
    Option (List ExpandedCandidate) := do
  let problems ← problemCombinations manifest contract schemas experiment case
  let datasets ← selectedCombinations manifest schemas experiment case
  let implementations ←
    experiment.implementations.mapM (implementationCombinations manifest schemas experiment case)
  return members experiment source datasets problems implementations

/-- The members of an experiment, case by case; none when a combination does not resolve. -/
def reference : Option (List ExpandedCandidate) :=
  if experiment.cases = [] then sourceMembers manifest contract schemas experiment none .experiment
  else
    (experiment.cases.mapM fun case =>
      sourceMembers manifest contract schemas experiment (some case) (.case case.name)).map
        List.flatten

end Reference

/-! ## Axes are the effective axes -/

theorem get_overlayAxes (grids : ParameterAxes) (base overlay : Option ParameterAxes)
    (name : String) :
    (overlayAxes grids base overlay).get name = effectiveAxis grids base overlay name := by
  cases base <;> cases overlay <;>
    simp [overlayAxes, effectiveAxis, OrderedMap.get_extend, Option.or_assoc]

theorem axisNames_ascending (grids : ParameterAxes) (base overlay : Option ParameterAxes) :
    (axisNames grids base overlay).Pairwise (· < ·) := by
  have sorted := List.pairwise_insertionSort (· ≤ ·)
    (overlay.elim [] (·.keys) ++ base.elim [] (·.keys) ++ grids.keys).dedup
  have distinct : (axisNames grids base overlay).Nodup :=
    (List.perm_insertionSort (· ≤ ·) _).nodup_iff.mpr (List.nodup_dedup _)
  exact (sorted.and distinct).imp fun pair => lt_of_le_of_ne pair.1 pair.2

theorem mem_axisNames {grids : ParameterAxes} {base overlay : Option ParameterAxes} {name : String}
    (found : (effectiveAxis grids base overlay name).isSome) :
    name ∈ axisNames grids base overlay := by
  simp only [axisNames, List.mem_insertionSort, List.mem_dedup, List.mem_append]
  simp only [effectiveAxis, Option.isSome_or, Bool.or_eq_true] at found
  rcases found with (case | experiment) | grid
  · cases overlay with
    | none => cases case
    | some axes => exact .inl (.inl (OrderedMap.mem_keys.mpr case))
  · cases base with
    | none => cases experiment
    | some axes => exact .inl (.inr (OrderedMap.mem_keys.mpr experiment))
  · exact .inr (OrderedMap.mem_keys.mpr grid)

theorem entries_overlayAxes (grids : ParameterAxes) (base overlay : Option ParameterAxes) :
    ((overlayAxes grids base overlay).entries.map fun axis =>
      (axis.1, ParameterAxis.values axis.2)) = effectiveAxes grids base overlay := by
  have complete : ∀ name, ((overlayAxes grids base overlay).get name).isSome →
      name ∈ axisNames grids base overlay := by
    intro name found
    rw [get_overlayAxes] at found
    exact mem_axisNames found
  rw [OrderedMap.entries_eq_filterMap (axisNames_ascending grids base overlay) complete,
    List.map_filterMap, effectiveAxes]
  refine List.filterMap_congr fun name _ => ?_
  rw [get_overlayAxes, Option.map_map]
  rfl

/-! ## Combinations -/

/-- Members inserted in ascending order stand in that order. -/
theorem foldl_insertMember {choice : List (String × CanonicalValue)}
    {built : List (String × CanonicalValue)}
    (ascending : (built ++ choice).Pairwise fun a b => a.1 < b.1) :
    choice.foldl
        (fun parameters entry => Json.insertMember entry.1 entry.2.value parameters)
        (CanonicalValue.members built) =
      CanonicalValue.members (built ++ choice) := by
  induction choice generalizing built with
  | nil => rw [List.append_nil, List.foldl_nil]
  | cons entry rest ih =>
      have above : ∀ member ∈ CanonicalValue.members built, member.1 < entry.1 := by
        intro member inside
        obtain ⟨original, there, rfl⟩ := List.mem_map.mp inside
        exact (List.pairwise_append.mp ascending).2.2 original there entry List.mem_cons_self
      rw [List.append_cons] at ascending ⊢
      rw [List.foldl_cons, Json.insertMember_eq, insertEntry_append above, ← ih ascending]
      simp [CanonicalValue.members]

theorem expandAxes_eq (grids : ParameterAxes) (base overlay : Option ParameterAxes) :
    expandAxes (overlayAxes grids base overlay) =
      .ok ((product (effectiveAxes grids base overlay)).map CanonicalValue.object) := by
  have ascending : ∀ choice ∈ product (effectiveAxes grids base overlay),
      choice.Pairwise fun a b => a.1 < b.1 := by
    intro choice member
    have keys := keys_of_mem_product member
    rw [← entries_overlayAxes, List.map_map] at keys
    have sorted := (overlayAxes grids base overlay).ascending
    have sorted : (choice.map Prod.fst).Pairwise (· < ·) := by
      rw [keys]
      exact List.pairwise_map.mpr sorted
    exact List.pairwise_map.mp sorted
  rw [expandAxes, entries_overlayAxes, accumulate_eq_product, List.flatMap_singleton]
  rw [traverseAll_map]
  refine traverseAll_eq_map fun choice member => ?_
  have built := @foldl_insertMember choice [] (ascending choice member)
  rw [List.nil_append] at built
  rw [ok_mapError, show ([] : List (String × Json)) = CanonicalValue.members [] from rfl, built]
  exact CanonicalValue.tryFrom_value (.object choice)

theorem expandResolvedParameters_toOption (schemas : SchemaCatalog) (schemaPath : String)
    (defaults : Option CanonicalValue) (grids : ParameterAxes)
    (base overlay : Option ParameterAxes) :
    (expandResolvedParameters schemas schemaPath defaults grids base overlay).toOption =
      combinations schemas schemaPath defaults grids base overlay := by
  rw [expandResolvedParameters, expandAxes_eq]
  exact (congrArg Except.toOption traverseAll_map).trans (toOption_traverseAll _ _)

theorem expandDefinition_toOption (schemas : SchemaCatalog) (schema : Option SchemaDeclaration)
    (defaults : Option CanonicalValue) (grids : ParameterAxes)
    (base overlay : Option ParameterAxes) :
    (expandDefinition schemas schema defaults grids base overlay).toOption =
      definitionCombinations schemas schema defaults grids base overlay := by
  cases schema with
  | none => rfl
  | some schema => exact expandResolvedParameters_toOption ..

section Source

variable {manifest : Manifest} {contract : ProblemContract} {schemas : SchemaCatalog}
  {experiment : ExperimentDefinition} {toCanonicalBytes : CanonicalValue → List UInt8}

theorem problemParameters_toOption (case : Option ExperimentCase) (source : ConfigurationSource) :
    (problemParameters manifest contract schemas experiment case source).toOption =
      problemCombinations manifest contract schemas experiment case := by
  rw [problemParameters, toOption_bind, toOption_expect]
  refine bind_congr fun definition => ?_
  rw [toOption_mapError, expandResolvedParameters_toOption]

theorem datasetParameters_toOption (case : Option ExperimentCase) (source : ConfigurationSource)
    (name : String) :
    (datasetParameters manifest schemas experiment case source name).toOption =
      datasetCombinations manifest schemas experiment case name := by
  rw [datasetParameters, toOption_bind, toOption_expect]
  refine bind_congr fun definition => ?_
  cases definition with
  | fixed => rfl
  | generated definition =>
      simp only [toOption_bind, toOption_mapError, expandDefinition_toOption]
      rfl

theorem selectedDatasets_toOption (case : Option ExperimentCase) (source : ConfigurationSource) :
    (selectedDatasets manifest schemas experiment case source).toOption =
      selectedCombinations manifest schemas experiment case := by
  unfold selectedDatasets selectedCombinations
  split
  · rfl
  · simp only [toOption_traverseAll, datasetParameters_toOption]

theorem implementationParameters_toOption (case : Option ExperimentCase)
    (source : ConfigurationSource) (name : String) :
    (implementationParameters manifest schemas experiment case source name).toOption =
      implementationCombinations manifest schemas experiment case name := by
  rw [implementationParameters, toOption_bind, toOption_expect]
  refine bind_congr fun definition => ?_
  rw [toOption_bind, toOption_mapError, expandDefinition_toOption]
  rfl

/-! ## Collecting candidates -/

theorem lookup_cons_eq_none {key k : CandidateKey} {source : ConfigurationSource}
    {seen : List (CandidateKey × ConfigurationSource)} :
    ((key, source) :: seen).lookup k = none ↔ k ≠ key ∧ seen.lookup k = none := by
  by_cases same : k = key
  · subst same
    simp [List.lookup_cons_self]
  · simp [List.lookup_cons, beq_false_of_ne same, same]

/-- Candidates are collected exactly when none repeats the key of another. -/
theorem thread_insertCandidate {state state' : Expanding} {candidates : List ExpandedCandidate} :
    thread (insertCandidate toCanonicalBytes experiment) state candidates = .ok state' ↔
      (candidates.map (·.key toCanonicalBytes)).Nodup ∧
        (∀ candidate ∈ candidates, state.seen.lookup (candidate.key toCanonicalBytes) = none) ∧
        state' = ⟨state.candidates ++ candidates,
          (candidates.map fun candidate =>
            (candidate.key toCanonicalBytes, candidate.source)).reverse ++ state.seen⟩ := by
  induction candidates generalizing state with
  | nil =>
      simp only [thread, List.map_nil, List.nodup_nil, List.append_nil, List.reverse_nil,
        List.nil_append, true_and]
      constructor
      · intro h
        cases h
        exact ⟨fun _ member => absurd member List.not_mem_nil, rfl⟩
      · rintro ⟨-, rfl⟩
        rfl
  | cons candidate rest ih =>
      simp only [thread, ok_bind, List.map_cons, List.nodup_cons, List.forall_mem_cons]
      cases first : state.seen.lookup (candidate.key toCanonicalBytes) with
      | some source =>
          constructor
          · rintro ⟨next, inserted, -⟩
            simp only [insertCandidate, first] at inserted
            cases inserted
          · rintro ⟨-, ⟨absent, -⟩, -⟩
            cases absent
      | none =>
          have inserted : insertCandidate toCanonicalBytes experiment state candidate =
              .ok ⟨state.candidates ++ [candidate],
                (candidate.key toCanonicalBytes, candidate.source) :: state.seen⟩ := by
            simp only [insertCandidate, first]
          simp only [inserted, Except.ok.injEq, exists_eq_left', ih, lookup_cons_eq_none,
            List.append_assoc, List.singleton_append, List.reverse_cons]
          constructor
          · rintro ⟨distinct, fresh, rfl⟩
            refine ⟨⟨?_, distinct⟩, ⟨trivial, fun other member => (fresh other member).2⟩, rfl⟩
            intro member
            obtain ⟨other, inside, same⟩ := List.mem_map.mp member
            exact (fresh other inside).1 same
          · rintro ⟨⟨new, distinct⟩, ⟨-, fresh⟩, rfl⟩
            refine ⟨distinct, fun other member => ⟨fun same => ?_, fresh other member⟩, rfl⟩
            exact new (same ▸ List.mem_map_of_mem member)

/-- One source adds its members to what is there. -/
theorem expandSource_iff {case : Option ExperimentCase} {source : ConfigurationSource}
    {state state' : Expanding} :
    expandSource toCanonicalBytes manifest contract schemas experiment case source state =
        .ok state' ↔
      ∃ candidates, sourceMembers manifest contract schemas experiment case source =
          some candidates ∧
        thread (insertCandidate toCanonicalBytes experiment) state candidates = .ok state' := by
  have implementations :
      (traverseAll (implementationParameters manifest schemas experiment case source)
        experiment.implementations).toOption =
        experiment.implementations.mapM
          (implementationCombinations manifest schemas experiment case) := by
    simp only [toOption_traverseAll, implementationParameters_toOption]
  simp only [expandSource, sourceMembers, ok_bind, ← problemParameters_toOption case source,
    ← selectedDatasets_toOption case source, ← implementations, Option.bind_eq_bind, Option.bind_eq_some_iff, Option.pure_def,
    toOption_eq_some, Option.some.injEq]
  constructor
  · rintro ⟨problems, first, datasets, second, implementations, third, collected⟩
    refine ⟨_, ⟨problems, first, datasets, second, implementations, third, rfl⟩, ?_⟩
    simp only [members, thread_flatMap, thread_map]
    exact collected
  · rintro ⟨_, ⟨problems, first, datasets, second, implementations, third, rfl⟩, collected⟩
    simp only [members, thread_flatMap, thread_map] at collected
    exact ⟨problems, first, datasets, second, implementations, third, collected⟩

/-- All cases add their members, one case after the other. -/
theorem expandCases_iff {cases : List ExperimentCase} {state state' : Expanding} :
    thread (fun state case =>
        expandSource toCanonicalBytes manifest contract schemas experiment (some case)
          (.case case.name) state) state cases = .ok state' ↔
      ∃ candidates,
        (cases.mapM fun case => sourceMembers manifest contract schemas experiment (some case)
          (.case case.name)) = some candidates ∧
        thread (insertCandidate toCanonicalBytes experiment) state candidates.flatten =
          .ok state' := by
  induction cases generalizing state with
  | nil =>
      simp [thread]
  | cons case rest ih =>
      simp only [thread, ok_bind, expandSource_iff, ih, List.mapM_cons, Option.bind_eq_bind,
        Option.bind_eq_some_iff, Option.pure_def, Option.some.injEq]
      constructor
      · rintro ⟨next, ⟨first, resolved, collected⟩, others, tail, later⟩
        refine ⟨_, ⟨first, resolved, others, tail, rfl⟩, ?_⟩
        rw [List.flatten_cons, thread_append, ok_bind]
        exact ⟨next, collected, later⟩
      · rintro ⟨_, ⟨first, resolved, others, tail, rfl⟩, collected⟩
        rw [List.flatten_cons, thread_append, ok_bind] at collected
        obtain ⟨next, head, later⟩ := collected
        exact ⟨next, ⟨first, resolved, head⟩, others, tail, later⟩

end Source

end Metewand.Planning
