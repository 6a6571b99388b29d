import Metewand.Planning.Slots

/-!
# Locality of identities and seeds

A candidate's plan depends on its own definitions and parameters, on its binding and on
the experiment's scalars.  Two manifests that agree on these give it the same plan, up to
the label of the matrix member it came from, whatever else they contain and wherever it
stands (`planned_candidate_local`).
-/

namespace Metewand.Planning

open Lib Lib.Check

/-! ## What a candidate's plan reads -/

/-- The binding an experiment's observation policy gives an implementation. -/
def bindingOf (manifest : Manifest) (experiment : ExperimentDefinition) (name : String) :
    Option ProfileBinding := do
  let policy ← manifest.observationPolicies.get experiment.observationPolicy
  let profile ← policy.profile
  profile.implementations.get name

/-- Two experiments of one name with the same settings. -/
structure SameExperiment (manifest manifest' : Manifest)
    (experiment experiment' : ExperimentDefinition) : Prop where
  benchmark : manifest.name = manifest'.name
  name : experiment.name = experiment'.name
  seed : experiment.seed = experiment'.seed
  implementationRepetitions :
    experiment.implementationRepetitions = experiment'.implementationRepetitions
  measurementRepetitions : experiment.measurementRepetitions = experiment'.measurementRepetitions
  executionPolicy : experiment.executionPolicy = experiment'.executionPolicy
  executionDefinition : manifest.executionPolicies.get experiment.executionPolicy =
    manifest'.executionPolicies.get experiment'.executionPolicy
  observationPolicy : experiment.observationPolicy = experiment'.observationPolicy
  /-- The common observation policy, without the bindings of the implementations. -/
  observationDefinition :
    (manifest.observationPolicies.get experiment.observationPolicy).map
        (fun policy => (policy.kind, policy.profile.map (·.policy))) =
      (manifest'.observationPolicies.get experiment'.observationPolicy).map
        fun policy => (policy.kind, policy.profile.map (·.policy))

/-- A candidate of both experiments, with the same definitions, parameters and binding. -/
structure SameCandidate (manifest manifest' : Manifest) (catalog catalog' : LogicalPlanningCatalog)
    (experiment experiment' : ExperimentDefinition) (expanded expanded' : ExpandedCandidate) :
    Prop where
  dataset : expanded.dataset = expanded'.dataset
  problem : expanded.problem = expanded'.problem
  implementation : expanded.implementation = expanded'.implementation
  definition : manifest.implementations.get expanded.implementation.definition =
    manifest'.implementations.get expanded.implementation.definition
  binding : bindingOf manifest experiment expanded.implementation.definition =
    bindingOf manifest' experiment' expanded.implementation.definition
  datasetIdentity : catalog.datasetDefinitions expanded.dataset.definition =
    catalog'.datasetDefinitions expanded.dataset.definition
  problemIdentity : catalog.problemDefinitions.get expanded.problem.definition =
    catalog'.problemDefinitions.get expanded.problem.definition
  implementationIdentity :
    catalog.implementationDefinitions.get expanded.implementation.definition =
      catalog'.implementationDefinitions.get expanded.implementation.definition
  environmentIdentity :
    catalog.environmentDefinitions.get expanded.implementation.environment =
      catalog'.environmentDefinitions.get expanded.implementation.environment
  schemaIdentity : ∀ binding schema,
    bindingOf manifest experiment expanded.implementation.definition = some binding →
      binding.schema = some schema →
        catalog.schemaIdentities.get schema.path = catalog'.schemaIdentities.get schema.path

/-! ## The profile record -/

theorem get_object_map {β : Type} (f : β → Json) (entries : List (String × β)) (key : String) :
    (Json.object (entries.map fun entry => (entry.1, f entry.2))).get key =
      ((lookupEntry key entries).map f).getD .null := by
  induction entries with
  | nil => rfl
  | cons entry rest ih =>
      obtain ⟨k, value⟩ := entry
      rw [List.map_cons, Json.get_object_cons, lookupEntry]
      split
      · rfl
      · exact ih

/-- A profile's declaration shows each implementation its own binding. -/
theorem declarationValue_get {profile : ProfileDefinition} {name : String}
    {binding : ProfileBinding} (found : profile.implementations.get name = some binding) :
    (profile.declarationValue.get "implementations").get name = binding.declarationValue := by
  have whole : profile.declarationValue.get "implementations" =
      .object (profile.implementations.entries.map fun entry =>
        (entry.1, entry.2.declarationValue)) := by
    simp only [ProfileDefinition.declarationValue, ProfilePolicy.json, Json.object, Json.set,
      Json.get, Json.lookup_insertMember, if_true, Option.getD_some]
  rw [whole, get_object_map]
  have looked : lookupEntry name profile.implementations.entries = some binding := found
  rw [looked]
  rfl

theorem profileValue_congr {catalog catalog' : LogicalPlanningCatalog}
    {profile profile' : ProfileDefinition} {binding : ProfileBinding} {name : String}
    (policy : profile.policy = profile'.policy)
    (found : profile.implementations.get name = some binding)
    (found' : profile'.implementations.get name = some binding)
    (schemas : ∀ schema, binding.schema = some schema →
      catalog.schemaIdentities.get schema.path = catalog'.schemaIdentities.get schema.path) :
    profileValue catalog profile binding name = profileValue catalog' profile' binding name := by
  have identities : (binding.schema.bind fun schema => catalog.schemaIdentities.get schema.path) =
      binding.schema.bind fun schema => catalog'.schemaIdentities.get schema.path := by
    cases declared : binding.schema with
    | none => rfl
    | some schema => exact schemas schema declared
  unfold profileValue
  rw [declarationValue_get found, declarationValue_get found', policy, identities]

theorem selectedProfile_ok {manifest : Manifest} {experiment : ExperimentDefinition}
    {name : String} {selected : Option (ProfileDefinition × ProfileBinding)}
    (result : selectedProfile manifest experiment name = .ok selected) :
    ∃ policy, manifest.observationPolicies.get experiment.observationPolicy = some policy ∧
      selected.map Prod.fst = policy.profile ∧
      selected.map Prod.snd = bindingOf manifest experiment name ∧
      ∀ profile binding, selected = some (profile, binding) →
        profile.implementations.get name = some binding := by
  simp only [selectedProfile, ok_bind, ok_expect] at result
  obtain ⟨policy, found, result⟩ := result
  refine ⟨policy, found, ?_⟩
  cases held : policy.profile with
  | none =>
      rw [held] at result
      cases result
      simp [bindingOf, found, held]
  | some profile =>
      rw [held] at result
      simp only [ok_bind, ok_expect, ok_pure] at result
      obtain ⟨binding, bound, rfl⟩ := result
      refine ⟨rfl, ?_, ?_⟩
      · simp [bindingOf, found, held, bound]
      · rintro _ _ same
        cases same
        exact bound

/-! ## Two runs -/

section Runs

variable {hashes : Hashes} {manifest manifest' : Manifest}
  {catalog catalog' : LogicalPlanningCatalog} {experiment experiment' : ExperimentDefinition}

theorem planSpecification_congr (seed : experiment.seed = experiment'.seed)
    (repetitions : experiment.measurementRepetitions = experiment'.measurementRepetitions)
    (candidate : RecordId .logicalCandidate)
    (datasetConfiguration : RecordId .datasetConfiguration)
    (problemConfiguration : RecordId .problemConfiguration)
    (implementationRepetition warmupRuns : Nat) (schedulingSeed : DerivedSeedRecord)
    (profileBound : Option (Nat × ProfileBinding)) :
    planSpecification hashes experiment candidate datasetConfiguration problemConfiguration
        implementationRepetition warmupRuns schedulingSeed profileBound =
      planSpecification hashes experiment' candidate datasetConfiguration problemConfiguration
        implementationRepetition warmupRuns schedulingSeed profileBound := by
  unfold planSpecification
  rw [seed, repetitions]

theorem planProfilePolicy_congr {name : String}
    {selected selected' : Option (ProfileDefinition × ProfileBinding)}
    (observationPolicy : experiment.observationPolicy = experiment'.observationPolicy)
    (policies : selected.map (·.1.policy) = selected'.map (·.1.policy))
    (bindings : selected.map Prod.snd = selected'.map Prod.snd)
    (bound : ∀ profile binding, selected = some (profile, binding) →
      profile.implementations.get name = some binding)
    (bound' : ∀ profile binding, selected' = some (profile, binding) →
      profile.implementations.get name = some binding)
    (schemas : ∀ binding schema, selected.map Prod.snd = some binding →
      binding.schema = some schema →
        catalog.schemaIdentities.get schema.path = catalog'.schemaIdentities.get schema.path) :
    planProfilePolicy hashes catalog experiment name selected =
      planProfilePolicy hashes catalog' experiment' name selected' := by
  match selected, selected' with
  | none, none => rfl
  | none, some _ => cases bindings
  | some _, none => cases bindings
  | some (profile, binding), some (profile', binding') =>
      cases Option.some.inj bindings
      have value : profileValue catalog profile binding name =
          profileValue catalog' profile' binding name :=
        profileValue_congr (Option.some.inj policies) (bound profile binding rfl)
          (bound' profile' binding rfl) fun schema => schemas binding schema rfl
      simp only [planProfilePolicy, value, observationPolicy]

theorem profileBound_congr {selected selected' : Option (ProfileDefinition × ProfileBinding)}
    (policies : selected.map (·.1.policy) = selected'.map (·.1.policy))
    (bindings : selected.map Prod.snd = selected'.map Prod.snd) :
    (selected.map fun selected => (selected.1.policy.maxObservations, selected.2)) =
      selected'.map fun selected => (selected.1.policy.maxObservations, selected.2) := by
  match selected, selected' with
  | none, none => rfl
  | none, some _ => cases bindings
  | some _, none => cases bindings
  | some (profile, binding), some (profile', binding') =>
      have policy : profile.policy = profile'.policy := Option.some.inj policies
      have binding : binding = binding' := Option.some.inj bindings
      simp only [Option.map_some, policy, binding]

theorem observationPolicyRecord_congr {name name' : String}
    {definition definition' : ObservationPolicyDefinition} (named : name = name')
    (kind : definition.kind = definition'.kind)
    (policy : definition.profile.map (·.policy) = definition'.profile.map (·.policy)) :
    observationPolicyRecord name definition = observationPolicyRecord name' definition' := by
  obtain ⟨k, profile⟩ := definition
  obtain ⟨k', profile'⟩ := definition'
  cases named
  cases kind
  match profile, profile' with
  | none, none => rfl
  | none, some _ => cases policy
  | some _, none => cases policy
  | some profile, some profile' =>
      have same : profile.policy = profile'.policy := Option.some.inj policy
      simp only [observationPolicyRecord, same]

theorem planCandidate_local {expanded expanded' : ExpandedCandidate}
    {executionPolicy : RecordId .executionPolicy} {observationPolicy : RecordId .observationPolicy}
    {warmupRuns : Nat} {schedulingSeed : DerivedSeedRecord} {plan plan' : LogicalCandidatePlan}
    (experiments : SameExperiment manifest manifest' experiment experiment')
    (candidates : SameCandidate manifest manifest' catalog catalog' experiment experiment' expanded
      expanded')
    (run : planCandidate hashes manifest catalog experiment executionPolicy observationPolicy
      warmupRuns schedulingSeed expanded = .ok plan)
    (run' : planCandidate hashes manifest' catalog' experiment' executionPolicy observationPolicy
      warmupRuns schedulingSeed expanded' = .ok plan') :
    plan = { plan' with source := plan.source } := by
  simp only [planCandidate, namedDefinitionId, ok_bind, ok_expect, ok_pure,
    ← candidates.dataset, ← candidates.problem, ← candidates.implementation] at run run'
  obtain ⟨dataset, atDataset, problem, atProblem, implementation, atImplementation, environment,
    atEnvironment, seed, atSeed, datasetConfiguration, atDatasetConfiguration, problemConfiguration,
    atProblemConfiguration, implementationConfiguration, atImplementationConfiguration, definition,
    atDefinition, selected, atSelected, profilePolicy, atProfilePolicy, candidate, atCandidate,
    specifications, atSpecifications, rfl⟩ := run
  obtain ⟨dataset', atDataset', problem', atProblem', implementation', atImplementation',
    environment', atEnvironment', seed', atSeed', datasetConfiguration', atDatasetConfiguration',
    problemConfiguration', atProblemConfiguration', implementationConfiguration',
    atImplementationConfiguration', definition', atDefinition', selected', atSelected',
    profilePolicy', atProfilePolicy', candidate', atCandidate', specifications', atSpecifications',
    rfl⟩ := run'
  cases Option.some.inj (atDataset.symm.trans (candidates.datasetIdentity.trans atDataset'))
  cases Option.some.inj (atProblem.symm.trans (candidates.problemIdentity.trans atProblem'))
  cases Option.some.inj
    (atImplementation.symm.trans (candidates.implementationIdentity.trans atImplementation'))
  cases Option.some.inj
    (atEnvironment.symm.trans (candidates.environmentIdentity.trans atEnvironment'))
  cases Option.some.inj (atDefinition.symm.trans (candidates.definition.trans atDefinition'))
  rw [experiments.seed] at atSeed
  cases same_result rfl atSeed atSeed'
  cases same_result rfl atDatasetConfiguration atDatasetConfiguration'
  cases same_result rfl atProblemConfiguration atProblemConfiguration'
  cases same_result rfl atImplementationConfiguration atImplementationConfiguration'
  obtain ⟨policy, found, profiles, bindings, bound⟩ := selectedProfile_ok atSelected
  obtain ⟨policy', found', profiles', bindings', bound'⟩ := selectedProfile_ok atSelected'
  have common := experiments.observationDefinition
  rw [found, found', Option.map_some, Option.map_some, Option.some.injEq, Prod.mk.injEq,
    ← profiles, ← profiles', Option.map_map, Option.map_map] at common
  have shared : selected.map Prod.snd = selected'.map Prod.snd :=
    bindings.trans (candidates.binding.trans bindings'.symm)
  have records : planProfilePolicy hashes catalog experiment _ selected =
      planProfilePolicy hashes catalog' experiment' _ selected' :=
    planProfilePolicy_congr experiments.observationPolicy common.2 shared bound bound'
      fun binding schema at_ => candidates.schemaIdentity binding schema (bindings ▸ at_)
  cases same_result records atProfilePolicy atProfilePolicy'
  cases same_result rfl atCandidate atCandidate'
  have bounds := profileBound_congr common.2 shared
  have each := same_result (by
    rw [bounds, experiments.implementationRepetitions]
    congr 1
    funext repetition
    exact planSpecification_congr experiments.seed experiments.measurementRepetitions ..)
    atSpecifications atSpecifications'
  rw [each]

/-- The seed of a planned specification is derived from its configurations and repetition. -/
theorem planCandidate_seeds {expanded : ExpandedCandidate}
    {executionPolicy : RecordId .executionPolicy} {observationPolicy : RecordId .observationPolicy}
    {warmupRuns : Nat} {schedulingSeed : DerivedSeedRecord} {plan : LogicalCandidatePlan}
    (run : planCandidate hashes manifest catalog experiment executionPolicy observationPolicy
      warmupRuns schedulingSeed expanded = .ok plan)
    {specification : OneShotSpecificationPlan} (member : specification ∈ plan.specifications) :
    (deriveImplementationSeed hashes experiment.seed plan.datasetConfiguration.id
        plan.problemConfiguration.id
        specification.specification.record.implementationRepetition).mapError
        LogicalPlanningError.seed =
      .ok specification.specification.record.implementationSeed := by
  simp only [planCandidate, ok_bind, ok_pure] at run
  obtain ⟨_, -, _, -, _, -, _, -, _, -, dataset, -, problem, -, _, -, _, -, selected, -, _, -, _, -,
    specifications, planned, rfl⟩ := run
  obtain ⟨repetition, -, planned⟩ := exists_of_traverseAll planned member
  simp only [planSpecification, ok_bind, ok_pure] at planned
  obtain ⟨seed, derived, identified, identify, _, -, _, -, _, -, _, -, _, -, _, -, rfl⟩ := planned
  have record := (identify_ok identify).1
  rw [record]
  exact derived

theorem planExperiment_local {expanded expanded' : ExpandedExperiment}
    {plan plan' : LogicalExperimentPlan}
    (experiments : SameExperiment manifest manifest' experiment experiment')
    (run : planExperiment hashes manifest catalog experiment expanded = .ok plan)
    (run' : planExperiment hashes manifest' catalog' experiment' expanded' = .ok plan')
    {i i' : Nat} {candidate candidate' : ExpandedCandidate}
    (at_ : expanded.candidates[i]? = some candidate)
    (at' : expanded'.candidates[i']? = some candidate')
    (same : SameCandidate manifest manifest' catalog catalog' experiment experiment' candidate
      candidate') :
    ∃ planned planned', plan.candidates[i]? = some planned ∧ plan'.candidates[i']? = some planned' ∧
      planned = { planned' with source := planned.source } := by
  simp only [planExperiment, ok_bind, ok_expect, ok_pure] at run run'
  obtain ⟨execution, atExecution, executionPolicy, executionId, -, -, observation, atObservation,
    record, recorded, observationPolicy, observationId, seed, derived, candidates, planned,
    rfl⟩ := run
  obtain ⟨execution', atExecution', executionPolicy', executionId', -, -, observation',
    atObservation', record', recorded', observationPolicy', observationId', seed', derived',
    candidates', planned', rfl⟩ := run'
  cases Option.some.inj (atExecution.symm.trans (experiments.executionDefinition.trans atExecution'))
  rw [experiments.executionPolicy] at executionId
  cases same_result rfl executionId executionId'
  have common := experiments.observationDefinition
  rw [atObservation, atObservation', Option.map_some, Option.map_some, Option.some.injEq,
    Prod.mk.injEq] at common
  have records := observationPolicyRecord_congr experiments.observationPolicy common.1 common.2
  cases same_result records recorded recorded'
  cases same_result rfl observationId observationId'
  rw [experiments.seed, experiments.benchmark, experiments.name] at derived
  cases same_result rfl derived derived'
  obtain ⟨candidatePlan, there, ran⟩ := getElem?_of_traverseAll planned at_
  obtain ⟨candidatePlan', there', ran'⟩ := getElem?_of_traverseAll planned' at'
  exact ⟨candidatePlan, candidatePlan', there, there', planCandidate_local experiments same ran ran'⟩

theorem planExperiment_seeds {expanded : ExpandedExperiment} {plan : LogicalExperimentPlan}
    (run : planExperiment hashes manifest catalog experiment expanded = .ok plan)
    {a b : LogicalCandidatePlan} (left : a ∈ plan.candidates) (right : b ∈ plan.candidates)
    {s t : OneShotSpecificationPlan} (mine : s ∈ a.specifications) (other : t ∈ b.specifications)
    (dataset : a.datasetConfiguration.id = b.datasetConfiguration.id)
    (problem : a.problemConfiguration.id = b.problemConfiguration.id)
    (repetition : s.specification.record.implementationRepetition =
      t.specification.record.implementationRepetition) :
    s.specification.record.implementationSeed = t.specification.record.implementationSeed := by
  simp only [planExperiment, ok_bind, ok_pure] at run
  obtain ⟨_, -, _, -, _, -, _, -, _, -, _, -, _, -, candidates, planned, rfl⟩ := run
  obtain ⟨_, -, ran⟩ := exists_of_traverseAll planned left
  obtain ⟨_, -, ran'⟩ := exists_of_traverseAll planned right
  have derived := planCandidate_seeds ran mine
  have derived' := planCandidate_seeds ran' other
  rw [dataset, problem, repetition] at derived
  exact same_result rfl derived derived'

end Runs

/-- What one candidate's plan and the seeds of its block depend on. -/
structure LocalPlan (manifest manifest' : Manifest) (catalog catalog' : LogicalPlanningCatalog)
    (experiments experiments' : List (ExperimentDefinition × ExpandedExperiment))
    (plan plan' : LogicalPlan) : Prop where
  /-- A candidate that both manifests expand has one plan, up to its source. -/
  candidate : ∀ (i i' : Nat) (experiment experiment' : ExperimentDefinition)
      (expanded expanded' : ExpandedExperiment) (j j' : Nat) (candidate candidate' : ExpandedCandidate),
    experiments[i]? = some (experiment, expanded) →
    experiments'[i']? = some (experiment', expanded') →
    expanded.candidates[j]? = some candidate → expanded'.candidates[j']? = some candidate' →
    SameExperiment manifest manifest' experiment experiment' →
    SameCandidate manifest manifest' catalog catalog' experiment experiment' candidate candidate' →
      ∃ planned planned', (plan.experiments[i]?.bind (·.candidates[j]?)) = some planned ∧
        (plan'.experiments[i']?.bind (·.candidates[j']?)) = some planned' ∧
        planned = { planned' with source := planned.source }
  /-- The implementations of a block share its seed. -/
  seeds : ∀ experiment ∈ plan.experiments, ∀ a ∈ experiment.candidates,
    ∀ b ∈ experiment.candidates, ∀ s ∈ a.specifications, ∀ t ∈ b.specifications,
      a.datasetConfiguration.id = b.datasetConfiguration.id →
      a.problemConfiguration.id = b.problemConfiguration.id →
      s.specification.record.implementationRepetition =
        t.specification.record.implementationRepetition →
      s.specification.record.implementationSeed = t.specification.record.implementationSeed

/-- Identities and seeds are local. -/
theorem planned_candidate_local (hashes : Hashes) (manifest manifest' : Manifest)
    (catalog catalog' : LogicalPlanningCatalog)
    (experiments experiments' : List (ExperimentDefinition × ExpandedExperiment))
    (plan plan' : LogicalPlan)
    (planned : expandManifestLogicalPlan hashes manifest catalog experiments = .ok plan)
    (planned' : expandManifestLogicalPlan hashes manifest' catalog' experiments' = .ok plan') :
    LocalPlan manifest manifest' catalog catalog' experiments experiments' plan plan' := by
  simp only [expandManifestLogicalPlan, ok_bind, ok_pure] at planned planned'
  obtain ⟨plans, planned, rfl⟩ := planned
  obtain ⟨plans', planned', rfl⟩ := planned'
  constructor
  · intro i i' experiment experiment' expanded expanded' j j' candidate candidate' at_ at' inside
      inside' same sameCandidate
    obtain ⟨e, there, run⟩ := getElem?_of_traverseAll planned at_
    obtain ⟨e', there', run'⟩ := getElem?_of_traverseAll planned' at'
    obtain ⟨c, c', held, held', equal⟩ :=
      planExperiment_local same run run' inside inside' sameCandidate
    refine ⟨c, c', ?_, ?_, equal⟩
    · simp only [there, Option.bind_some, held]
    · simp only [there', Option.bind_some, held']
  · intro experiment member a left b right s mine t other dataset problem repetition
    obtain ⟨pair, -, run⟩ := exists_of_traverseAll planned member
    exact planExperiment_seeds run left right mine other dataset problem repetition

/-! A study next to which a second manifest adds an implementation, an experiment and a case. -/

section Study

def studyImplementation : ImplementationDefinition :=
  ⟨.interpreted "python", none, none, ∅, [.streamingProfile]⟩

def studyManifest : Manifest where
  name := "benchmark"
  datasets := ∅
  problems := ∅
  implementations := OrderedMap.empty.insert "worker" studyImplementation
  executionPolicies := OrderedMap.empty.insert "@local"
    ⟨none, none, none, none, none, some 1, none, none, none, none, none, none⟩
  observationPolicies := OrderedMap.empty.insert "curve" studyDefinition

def widerManifest : Manifest :=
  { studyManifest with
    implementations := studyManifest.implementations.insert "another" studyImplementation
    observationPolicies := studyManifest.observationPolicies.insert "curve" {
      kind := .profile
      profile := some ⟨studyPolicy, (OrderedMap.empty.insert "worker" studyBinding).insert "another"
        (.streaming ⟨.periodic 2 0⟩)⟩ } }

def studyCatalog : LogicalPlanningCatalog where
  schemaIdentities := ∅
  datasetDefinitions _ := some ⟨.fill 1⟩
  problemDefinitions := OrderedMap.empty.insert "problem" ⟨.fill 2⟩
  implementationDefinitions :=
    (OrderedMap.empty.insert "worker" ⟨.fill 3⟩).insert "another" ⟨.fill 4⟩
  environmentDefinitions := OrderedMap.empty.insert "python" ⟨.fill 5⟩

def studyCandidate (source : ConfigurationSource) (implementation : String) : ExpandedCandidate where
  source
  dataset := ⟨.unit, emptyParameters⟩
  problem := ⟨"problem", emptyParameters⟩
  implementation := ⟨implementation, "python", emptyParameters⟩

def studyExperiments : List (ExperimentDefinition × ExpandedExperiment) :=
  [(studyExperiment, ⟨"study", [studyCandidate .experiment "worker"]⟩)]

def widerExperiment : ExperimentDefinition :=
  { studyExperiment with implementations := ["another", "worker"] }

def widerExperiments : List (ExperimentDefinition × ExpandedExperiment) :=
  [({ studyExperiment with name := "first", seed := 8 },
      ⟨"first", [studyCandidate .experiment "worker"]⟩),
    (widerExperiment,
      ⟨"study", [studyCandidate (.case "wide") "another", studyCandidate (.case "wide") "worker"]⟩)]

theorem planned_candidate_local_study :
    ∃ plan plan' planned planned',
      expandManifestLogicalPlan studyHashes studyManifest studyCatalog studyExperiments = .ok plan ∧
      expandManifestLogicalPlan studyHashes widerManifest studyCatalog widerExperiments =
        .ok plan' ∧
      (plan.experiments[0]?.bind (·.candidates[0]?)) = some planned ∧
      (plan'.experiments[1]?.bind (·.candidates[1]?)) = some planned' ∧
      planned = { planned' with source := planned.source } := by
  have facts :
      ((expandManifestLogicalPlan studyHashes studyManifest studyCatalog studyExperiments).toBool &&
        (expandManifestLogicalPlan studyHashes widerManifest studyCatalog
          widerExperiments).toBool) = true := by
    decide +kernel
  rw [Bool.and_eq_true] at facts
  cases ran : expandManifestLogicalPlan studyHashes studyManifest studyCatalog studyExperiments with
  | error e => simp [ran, Except.toBool] at facts
  | ok plan =>
      cases ran' : expandManifestLogicalPlan studyHashes widerManifest studyCatalog
          widerExperiments with
      | error e => simp [ran', Except.toBool] at facts
      | ok plan' =>
          have same : SameExperiment studyManifest widerManifest studyExperiment widerExperiment :=
            ⟨rfl, rfl, rfl, rfl, rfl, rfl, rfl, rfl, by
              simp [widerManifest, studyManifest, widerExperiment, studyExperiment,
                OrderedMap.get_insert, studyDefinition]⟩
          have binding : bindingOf studyManifest studyExperiment "worker" =
              bindingOf widerManifest widerExperiment "worker" := by
            simp [bindingOf, widerManifest, studyManifest, widerExperiment, studyExperiment,
              OrderedMap.get_insert, studyDefinition]
          have member : SameCandidate studyManifest widerManifest studyCatalog studyCatalog
              studyExperiment widerExperiment (studyCandidate .experiment "worker")
              (studyCandidate (.case "wide") "worker") :=
            { dataset := rfl
              problem := rfl
              implementation := rfl
              definition := by
                simp [studyCandidate, widerManifest, studyManifest, OrderedMap.get_insert]
              binding
              datasetIdentity := rfl
              problemIdentity := rfl
              implementationIdentity := rfl
              environmentIdentity := rfl
              schemaIdentity := fun _ _ _ _ => rfl }
          obtain ⟨planned, planned', at_, at', equal⟩ :=
            (planned_candidate_local studyHashes studyManifest widerManifest studyCatalog
              studyCatalog studyExperiments widerExperiments plan plan' ran ran').candidate 0 1 _ _ _
              _ 0 1 _ _ rfl rfl rfl rfl same member
          exact ⟨plan, plan', planned, planned', rfl, rfl, at_, at', equal⟩

end Study

end Metewand.Planning
