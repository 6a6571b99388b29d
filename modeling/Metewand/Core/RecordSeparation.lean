import Metewand.Core.Observation
import Metewand.Core.Records

/-!
# Records are told apart by their fields

For every record of `core/records.rs`: identity fields that are alike come from records that agree in
everything the fields cover.  Most records are then equal; where a list is written sorted, an absent value
as null or a document as it is, the agreement is stated by a structure of its own.
-/

namespace Metewand

open Lib Json IdentityRecord

/-! ## Names of variants -/

theorem InterpretedRunner.name_injective : Function.Injective InterpretedRunner.name := by
  intro a b same
  cases a <;> cases b <;> simp_all [name]

theorem ProtocolTransport.name_injective : Function.Injective ProtocolTransport.name := by
  intro a b same
  cases a <;> cases b <;> simp_all [name]

theorem NixOutputKind.name_injective : Function.Injective NixOutputKind.name := by
  intro a b same
  cases a <;> cases b <;> simp_all [name]

theorem ImplementationCapability.name_injective : Function.Injective ImplementationCapability.name := by
  intro a b same
  cases a <;> cases b <;> simp_all [name]

theorem WorkerWorkingDirectory.name_injective : Function.Injective WorkerWorkingDirectory.name := by
  intro a b _
  cases a
  cases b
  rfl

theorem TimingScope.name_injective : Function.Injective TimingScope.name := by
  intro a b same
  cases a <;> cases b <;> simp_all [name]

theorem PrimaryTime.name_injective : Function.Injective PrimaryTime.name := by
  intro a b same
  cases a <;> cases b <;> simp_all [name]

theorem RunOrder.name_injective : Function.Injective RunOrder.name := by
  intro a b same
  cases a <;> cases b <;> simp_all [name]

theorem Enforcement.name_injective : Function.Injective Enforcement.name := by
  intro a b same
  cases a <;> cases b <;> simp_all [name]

theorem ObservationKind.name_injective : Function.Injective ObservationKind.name := by
  intro a b same
  cases a <;> cases b <;> simp_all [name]

theorem ApplicabilityOutcome.name_injective : Function.Injective ApplicabilityOutcome.name := by
  intro a b same
  cases a <;> cases b <;> simp_all [name]

theorem CompletionStatus.name_injective : Function.Injective CompletionStatus.name := by
  intro a b same
  cases a <;> cases b <;> simp_all [name]

theorem StopReason.name_injective : Function.Injective StopReason.name := by
  intro a b same
  cases a <;> cases b <;> simp_all [name]

namespace Json

theorem alike_name {α : Type} {name : α → String} (injective : Function.Injective name) {a b : α} :
    Alike (.str (name a)) (.str (name b)) ↔ a = b := by
  rw [alike_str, Json.str.injEq]
  exact injective.eq_iff

theorem alike_optional_name {α : Type} {name : α → String} (injective : Function.Injective name)
    {a b : Option α}
    (alike : Alike (ofOption (fun a => .str (name a)) a) (ofOption (fun a => .str (name a)) b)) : a = b :=
  alike_optional (by simp) (fun _ _ => (alike_name injective).mp) alike

end Json

/-! ## Environments -/

theorem alike_set {a b : NameSet} : Alike a.json b.json ↔ a = b := by
  constructor
  · intro alike
    have names := alike_strs alike
    cases a
    cases b
    cases names
    rfl
  · rintro rfl
    exact alike_arr.mpr (List.forall₂_same.mpr fun v member => by
      obtain ⟨name, -, rfl⟩ := List.mem_map.mp member
      exact alike_str.mpr rfl)

/-- What is read back of a selection. -/
def NameSet.written (set : NameSet) : Json := if set.names.isEmpty then .null else set.json

theorem alike_written {a b : NameSet} (alike : Alike a.written b.written) : a = b := by
  unfold NameSet.written at alike
  split at alike
  · rename_i empty
    split at alike
    · rename_i empty'
      rw [List.isEmpty_iff] at empty empty'
      cases a
      cases b
      cases empty
      cases empty'
      rfl
    · cases null_alike.mp alike
  · split at alike
    · cases alike_null.mp alike
    · exact alike_set.mp alike

theorem alike_variables {a b : Variables} (alike : Alike (variablesJson a) (variablesJson b)) : a = b :=
  eq_of_alike_ofMap (fun _ _ => eq_of_alike) alike

attribute [ext] WorkerDefinitionRecord RemoteSourceRecord ProblemPreparationDefinitionRecord
  EnvironmentDefinitionRecord DatasetInstanceRecord ProblemInstanceRecord ResolvedEnvironmentRecord
  ResolvedLaunchRecord ExecutorDefinitionRecord ResolvedWorkerRecord RunAttemptRecord ExecutionPolicyRecord
  ObservationPolicyRecord DatasetConfigurationRecord ProblemConfigurationRecord
  ImplementationConfigurationRecord LogicalCandidateRecord OneShotLogicalSpecificationRecord
  LogicalAttemptSlotRecord DerivedSeedRecord ResolvedOneShotSpecificationRecord
  ResolvedObservationSlotRecord ResolvedAttemptSlotRecord Duration ArtifactReference
  ObservationTimingRecord

namespace EnvironmentDefinitionKind

theorem get_groups (project lockfile : String) (groups extras : NameSet) :
    (uv project lockfile groups extras).json.get "groups" = groups.written := by
  by_cases left : groups.names = [] <;> by_cases right : extras.names = [] <;>
    simp [json, NameSet.field, NameSet.written, left, right]

theorem get_extras (project lockfile : String) (groups extras : NameSet) :
    (uv project lockfile groups extras).json.get "extras" = extras.written := by
  by_cases left : groups.names = [] <;> by_cases right : extras.names = [] <;>
    simp [json, NameSet.field, NameSet.written, left, right]

/-- The name under which a kind of environment is written. -/
def tag : EnvironmentDefinitionKind → String
  | .local | .localWithVariables _ => "local"
  | .uv .. => "uv"
  | .renv .. => "renv"
  | .nix .. => "nix"
  | .oci _ => "oci"

theorem get_kind (kind : EnvironmentDefinitionKind) : kind.json.get "kind" = .str kind.tag := by
  cases kind <;> simp [json, tag]

theorem separated {a b : EnvironmentDefinitionKind} (alike : Alike a.json b.json) : a = b := by
  have kinds := alike.get "kind"
  rw [get_kind, get_kind, alike_str, Json.str.injEq] at kinds
  cases a with
  | «local» =>
      cases b with
      | «local» => rfl
      | localWithVariables environmentVariables =>
          have settings := alike.get "environment_variables"
          simp [json, variablesJson, ofMap] at settings
      | uv | renv | nix | oci => simp [tag] at kinds
  | localWithVariables environmentVariables =>
      cases b with
      | «local» =>
          have settings := alike.get "environment_variables"
          simp [json, variablesJson, ofMap] at settings
      | localWithVariables environmentVariables' =>
          have each := alike_object alike rfl (by simp)
          simp only [List.forall₂_cons] at each
          obtain ⟨-, ⟨-, settings⟩, -⟩ := each
          rw [alike_variables settings]
      | uv | renv | nix | oci => simp [tag] at kinds
  | uv project lockfile groups extras =>
      cases b with
      | uv project' lockfile' groups' extras' =>
          have project := alike.get "project"
          have lockfile := alike.get "lockfile"
          have groups := alike.get "groups"
          have extras := alike.get "extras"
          rw [get_groups, get_groups] at groups
          rw [get_extras, get_extras] at extras
          simp [json] at project lockfile
          rw [project, lockfile, alike_written groups, alike_written extras]
      | «local» | localWithVariables | renv | nix | oci => simp [tag] at kinds
  | renv project lockfile =>
      cases b with
      | renv project' lockfile' =>
          have each := alike_object alike rfl (by simp)
          simp only [List.forall₂_cons] at each
          obtain ⟨-, ⟨-, project⟩, ⟨-, lockfile⟩, -⟩ := each
          rw [eq_of_alike project, eq_of_alike lockfile]
      | «local» | localWithVariables | uv | nix | oci => simp [tag] at kinds
  | nix flake installable system outputKind output =>
      cases b with
      | nix flake' installable' system' outputKind' output' =>
          have each := alike_object alike rfl (by simp)
          simp only [List.forall₂_cons] at each
          obtain ⟨-, ⟨-, flake⟩, ⟨-, installable⟩, ⟨-, system⟩, ⟨-, outputKind⟩, ⟨-, output⟩, -⟩ := each
          rw [eq_of_alike flake, eq_of_alike installable,
            eq_of_alike system, (alike_name NixOutputKind.name_injective).mp outputKind,
            eq_of_alike output]
      | «local» | localWithVariables | uv | renv | oci => simp [tag] at kinds
  | oci image =>
      cases b with
      | oci image' =>
          have each := alike_object alike rfl (by simp)
          simp only [List.forall₂_cons] at each
          obtain ⟨-, ⟨-, image⟩, -⟩ := each
          rw [eq_of_alike image]
      | «local» | localWithVariables | uv | renv | nix => simp [tag] at kinds

end EnvironmentDefinitionKind

/-! ## Parts of records -/

theorem alike_duration {a b : Duration} (alike : Alike a.json b.json) : a = b := by
  have each := alike_object alike rfl (by simp)
  simp only [List.forall₂_cons] at each
  obtain ⟨⟨-, secs⟩, ⟨-, nanos⟩, -⟩ := each
  exact Duration.ext (alike_nat.mp secs).1 (alike_nat.mp nanos).1

theorem alike_optional_duration {a b : Option Duration}
    (alike : Alike (ofOption Duration.json a) (ofOption Duration.json b)) : a = b :=
  alike_optional (by simp [Duration.json, object]) (fun _ _ => alike_duration) alike

theorem alike_reference {a b : ArtifactReference} (alike : Alike a.json b.json) : a = b := by
  have each := alike_object alike rfl (by simp)
  simp only [List.forall₂_cons] at each
  obtain ⟨⟨-, id⟩, ⟨-, path⟩, ⟨-, sha256⟩, -⟩ := each
  exact ArtifactReference.ext (alike_id.mp id) (eq_of_alike path) (alike_digest.mp sha256)

theorem alike_timing {a b : ObservationTimingRecord} (alike : Alike a.json b.json) : a = b := by
  have each := alike_object alike rfl (by simp)
  simp only [List.forall₂_cons] at each
  obtain ⟨⟨-, primaryTime⟩, ⟨-, timedWallTime⟩, ⟨-, implementationTime⟩, ⟨-, evaluationTime⟩,
    ⟨-, cpuTime⟩, ⟨-, peakRssBytes⟩, -⟩ := each
  exact ObservationTimingRecord.ext ((alike_name PrimaryTime.name_injective).mp primaryTime)
    (alike_duration timedWallTime) (alike_optional_duration implementationTime)
    (alike_duration evaluationTime) (alike_optional_duration cpuTime) (alike_optional_nat peakRssBytes)

theorem alike_seed {a b : DerivedSeedRecord} (alike : Alike a.json b.json) : a = b := by
  have each := alike_object alike rfl (by simp)
  simp only [List.forall₂_cons] at each
  obtain ⟨⟨-, value⟩, ⟨-, derivationDigest⟩, -⟩ := each
  exact DerivedSeedRecord.ext (alike_nat.mp value).1 (alike_digest.mp derivationDigest)

theorem alike_launch {a b : WorkerLaunch} (alike : Alike a.json b.json) : a = b := by
  have kinds := alike.get "kind"
  cases a with
  | interpreted runner entrypoint sourceBundle =>
      cases b with
      | interpreted runner' entrypoint' sourceBundle' =>
          have each := alike_object alike rfl (by simp)
          simp only [List.forall₂_cons] at each
          obtain ⟨-, ⟨-, runner⟩, ⟨-, entrypoint⟩, ⟨-, sourceBundle⟩, -⟩ := each
          rw [(alike_name InterpretedRunner.name_injective).mp runner, eq_of_alike entrypoint,
            alike_id.mp sourceBundle]
      | command => simp [WorkerLaunch.json] at kinds
  | command program sourceBundle =>
      cases b with
      | interpreted => simp [WorkerLaunch.json] at kinds
      | command program' sourceBundle' =>
          have each := alike_object alike rfl (by simp)
          simp only [List.forall₂_cons] at each
          obtain ⟨-, ⟨-, program⟩, ⟨-, sourceBundle⟩, -⟩ := each
          rw [eq_of_alike program, alike_optional_id sourceBundle]

theorem WorkerDefinitionRecord.separated {a b : WorkerDefinitionRecord}
    (each : List.Forall₂ AlikeField a.fields b.fields) : a = b := by
  simp only [fields, List.forall₂_cons] at each
  obtain ⟨⟨-, launch⟩, ⟨-, args⟩, ⟨-, environment⟩, ⟨-, protocolTransport⟩, -⟩ := each
  exact WorkerDefinitionRecord.ext (alike_launch launch) (alike_strs args) (alike_id.mp environment)
    (alike_optional_name ProtocolTransport.name_injective protocolTransport)

theorem alike_worker {a b : WorkerDefinitionRecord} (alike : Alike a.json b.json) : a = b :=
  WorkerDefinitionRecord.separated (alike_object alike rfl (by simp [WorkerDefinitionRecord.fields]))

theorem alike_remote {a b : RemoteSourceRecord} (alike : Alike a.json b.json) : a = b := by
  have each := alike_object alike rfl (by simp)
  simp only [List.forall₂_cons] at each
  obtain ⟨⟨-, url⟩, ⟨-, sha256⟩, -⟩ := each
  exact RemoteSourceRecord.ext (eq_of_alike url) (alike_digest.mp sha256)

theorem alike_dataset_kind {a b : DatasetDefinitionKind} (alike : Alike a.json b.json) : a = b := by
  have kinds := alike.get "kind"
  cases a with
  | unit =>
      cases b with
      | unit => rfl
      | fixed | generated => simp [DatasetDefinitionKind.json] at kinds
  | fixed sourceBundle =>
      cases b with
      | fixed sourceBundle' =>
          have each := alike_object alike rfl (by simp)
          simp only [List.forall₂_cons] at each
          obtain ⟨-, ⟨-, sourceBundle⟩, -⟩ := each
          rw [alike_id.mp sourceBundle]
      | unit | generated => simp [DatasetDefinitionKind.json] at kinds
  | generated source materializer =>
      cases b with
      | generated source' materializer' =>
          have each := alike_object alike rfl (by simp)
          simp only [List.forall₂_cons] at each
          obtain ⟨-, ⟨-, remote⟩, ⟨-, worker⟩, -⟩ := each
          rw [alike_optional (by simp [RemoteSourceRecord.json, object]) (fun _ _ => alike_remote) remote,
            alike_worker worker]
      | unit | fixed => simp [DatasetDefinitionKind.json] at kinds

theorem alike_preparation {a b : ProblemPreparationDefinitionRecord} (alike : Alike a.json b.json) : a = b := by
  have each := alike_object alike rfl (by simp)
  simp only [List.forall₂_cons] at each
  obtain ⟨⟨-, worker⟩, ⟨-, outputSchema⟩, -⟩ := each
  exact ProblemPreparationDefinitionRecord.ext (alike_worker worker) (alike_id.mp outputSchema)

theorem alike_resolved {a b : ResolvedWorkerRecord} (alike : Alike a.json b.json) : a = b := by
  have each := alike_object alike rfl (by simp)
  simp only [List.forall₂_cons] at each
  obtain ⟨⟨-, sourceBundle⟩, ⟨-, environment⟩, ⟨-, launch⟩, -⟩ := each
  exact ResolvedWorkerRecord.ext (alike_optional_id sourceBundle) (alike_id.mp environment)
    (alike_id.mp launch)

theorem alike_role {a b : AttemptSlotRole} (alike : Alike a.json b.json) : a = b := by
  have kinds := alike.get "kind"
  cases a with
  | warmup warmupIndex =>
      cases b with
      | warmup warmupIndex' =>
          have each := alike_object alike rfl (by simp)
          simp only [List.forall₂_cons] at each
          obtain ⟨-, ⟨-, warmupIndex⟩, -⟩ := each
          rw [(alike_nat.mp warmupIndex).1]
      | measured => simp [AttemptSlotRole.json] at kinds
  | measured observationSlot =>
      cases b with
      | warmup => simp [AttemptSlotRole.json] at kinds
      | measured observationSlot' =>
          have each := alike_object alike rfl (by simp)
          simp only [List.forall₂_cons] at each
          obtain ⟨-, ⟨-, observationSlot⟩, -⟩ := each
          rw [alike_id.mp observationSlot]

/-! ## Sorted lists -/

section SortedTexts

variable {α : Type} {text : α → String}

theorem sortedTexts_perm (items : List α) : (sortedTexts text items).Perm (items.map text) :=
  List.mergeSort_perm _ _

theorem sortedTexts_sorted (items : List α) : (sortedTexts text items).Pairwise (· ≤ ·) := by
  have sorted : ((items.map text).mergeSort fun a b => decide (a ≤ b)).Pairwise
      fun a b => decide (a ≤ b) = true :=
    List.pairwise_mergeSort (fun a b c => by simpa using le_trans)
      (fun a b => by simpa using le_total a b) (items.map text)
  exact sorted.imp (by simp)

/-- Lists of names written sorted agree when they have the same elements, each as often. -/
theorem sortedTexts_eq (injective : Function.Injective text) {as bs : List α} :
    sortedTexts text as = sortedTexts text bs ↔ as.Perm bs := by
  rw [← List.map_perm_map_iff injective]
  constructor
  · intro same
    exact (sortedTexts_perm as).symm.trans (same ▸ sortedTexts_perm bs)
  · intro perm
    refine List.Perm.eq_of_pairwise (fun a b _ _ => le_antisymm) (sortedTexts_sorted as)
      (sortedTexts_sorted bs) ?_
    exact (sortedTexts_perm as).trans (perm.trans (sortedTexts_perm bs).symm)

end SortedTexts

/-! ## Records written field by field -/

section Identified

variable {T : Type} {kind : IdentityKind} [IdentityRecord T kind]

/-- The identity document of a record, before it is normalized. -/
def document (record : T) : Json := .object (("version", .nat identityVersion) :: identityFields record)

/-- The identity documents of two records are alike. -/
def AlikeRecords (a b : T) : Prop := Alike (document a) (document b)

theorem AlikeRecords.fields {a b : T} (alike : AlikeRecords a b)
    (keys : (identityFields a).map Prod.fst = (identityFields b).map Prod.fst)
    (distinct : ("version" :: (identityFields a).map Prod.fst).Nodup) :
    List.Forall₂ AlikeField (identityFields a) (identityFields b) := by
  have each := alike_object alike (congrArg ("version" :: ·) keys) distinct
  exact (List.forall₂_cons.mp each).2

end Identified

theorem EnvironmentDefinitionRecord.separated {a b : EnvironmentDefinitionRecord}
    (alike : AlikeRecords a b) : a = b := by
  have each := alike.fields rfl (by simp [identityFields])
  simp only [identityFields, List.forall₂_cons] at each
  obtain ⟨⟨-, name⟩, ⟨-, definition⟩, -⟩ := each
  exact EnvironmentDefinitionRecord.ext (eq_of_alike name) (EnvironmentDefinitionKind.separated definition)

theorem alike_canonicalJson {a b : Option CanonicalValue} :
    Alike (canonicalJson a) (canonicalJson b) ↔ canonicalJson a = canonicalJson b := by
  have normal : ∀ value, (canonicalJson value).normalize = .ok (canonicalJson value) := by
    intro value
    cases value with
    | none => rfl
    | some value => exact value.canonical
  constructor
  · intro alike
    have same := alike.same
    rw [normal, normal] at same
    exact Except.ok.inj same
  · intro same
    exact ⟨canonicalJson a, normal a, same ▸ normal b⟩

structure SameDatasetDefinition (a b : DatasetDefinitionRecord) : Prop where
  name : a.name = b.name
  parameterSchema : a.parameterSchema = b.parameterSchema
  parameterDefaults : canonicalJson a.parameterDefaults = canonicalJson b.parameterDefaults
  outputSchema : a.outputSchema = b.outputSchema
  kind : a.kind = b.kind

theorem DatasetDefinitionRecord.separated {a b : DatasetDefinitionRecord} (alike : AlikeRecords a b) :
    SameDatasetDefinition a b := by
  have each := alike.fields rfl (by simp [identityFields])
  simp only [identityFields, List.forall₂_cons] at each
  obtain ⟨⟨-, name⟩, ⟨-, parameterSchema⟩, ⟨-, parameterDefaults⟩, ⟨-, outputSchema⟩, ⟨-, definition⟩, -⟩ := each
  exact {
    name := eq_of_alike name
    parameterSchema := alike_optional_id parameterSchema
    parameterDefaults := alike_canonicalJson.mp parameterDefaults
    outputSchema := alike_id.mp outputSchema
    kind := alike_dataset_kind definition }

structure SameProblemDefinition (a b : ProblemDefinitionRecord) : Prop where
  name : a.name = b.name
  contract : a.contract = b.contract
  parameterDefaults : canonicalJson a.parameterDefaults = canonicalJson b.parameterDefaults
  evaluator : a.evaluator = b.evaluator
  preparation : a.preparation = b.preparation

theorem ProblemDefinitionRecord.get_preparation (record : ProblemDefinitionRecord) :
    (document record).get "preparation" =
      .ofOption ProblemPreparationDefinitionRecord.json record.preparation := by
  obtain ⟨_, _, _, _, preparation⟩ := record
  cases preparation <;> simp [document, identityFields, ofOption]

theorem ProblemDefinitionRecord.separated {a b : ProblemDefinitionRecord} (alike : AlikeRecords a b) :
    SameProblemDefinition a b := by
  have name : Alike (.str a.name) (.str b.name) := by
    simpa [document, identityFields] using alike.get "name"
  have contract : Alike a.contract.json b.contract.json := by
    simpa [document, identityFields] using alike.get "contract"
  have parameterDefaults : Alike (canonicalJson a.parameterDefaults) (canonicalJson b.parameterDefaults) := by
    simpa [document, identityFields] using alike.get "parameter_defaults"
  have evaluator : Alike a.evaluator.json b.evaluator.json := by
    simpa [document, identityFields] using alike.get "evaluator"
  have preparation := alike.get "preparation"
  rw [get_preparation, get_preparation] at preparation
  exact {
    name := eq_of_alike name
    contract := alike_id.mp contract
    parameterDefaults := alike_canonicalJson.mp parameterDefaults
    evaluator := alike_worker evaluator
    preparation := alike_optional (by simp [ProblemPreparationDefinitionRecord.json, object])
      (fun _ _ => alike_preparation) preparation }

structure SameImplementationDefinition (a b : ImplementationDefinitionRecord) : Prop where
  name : a.name = b.name
  worker : a.worker = b.worker
  problemContracts : a.problemContracts.Perm b.problemContracts
  parameterSchema : a.parameterSchema = b.parameterSchema
  parameterDefaults : canonicalJson a.parameterDefaults = canonicalJson b.parameterDefaults
  capabilities : a.capabilities.Perm b.capabilities

theorem ImplementationDefinitionRecord.separated {a b : ImplementationDefinitionRecord}
    (alike : AlikeRecords a b) : SameImplementationDefinition a b := by
  have each := alike.fields rfl (by simp [identityFields])
  simp only [identityFields, List.forall₂_cons] at each
  obtain ⟨⟨-, name⟩, ⟨-, worker⟩, ⟨-, problemContracts⟩, ⟨-, parameterSchema⟩, ⟨-, parameterDefaults⟩,
    ⟨-, capabilities⟩, -⟩ := each
  exact {
    name := eq_of_alike name
    worker := alike_worker worker
    problemContracts := (sortedTexts_eq fun _ _ => RecordId.text_injective).mp (alike_strs problemContracts)
    parameterSchema := alike_optional_id parameterSchema
    parameterDefaults := alike_canonicalJson.mp parameterDefaults
    capabilities := (sortedTexts_eq ImplementationCapability.name_injective).mp (alike_strs capabilities) }

theorem DatasetInstanceRecord.separated {a b : DatasetInstanceRecord} (alike : AlikeRecords a b) : a = b := by
  have each := alike.fields rfl (by simp [identityFields])
  simp only [identityFields, List.forall₂_cons] at each
  obtain ⟨⟨-, configuration⟩, ⟨-, artifact⟩, ⟨-, outputSchema⟩, -⟩ := each
  exact DatasetInstanceRecord.ext (alike_id.mp configuration) (alike_id.mp artifact) (alike_id.mp outputSchema)

theorem ProblemInstanceRecord.get_preparation (record : ProblemInstanceRecord) :
    (document record).get "preparation" = .ofOption RecordId.json record.preparation := by
  obtain ⟨_, _, preparation⟩ := record
  cases preparation <;> simp [document, identityFields, ofOption]

theorem ProblemInstanceRecord.separated {a b : ProblemInstanceRecord} (alike : AlikeRecords a b) : a = b := by
  have dataset : Alike a.dataset.json b.dataset.json := by
    simpa [document, identityFields] using alike.get "dataset"
  have configuration : Alike a.configuration.json b.configuration.json := by
    simpa [document, identityFields] using alike.get "configuration"
  have preparation := alike.get "preparation"
  rw [get_preparation, get_preparation] at preparation
  exact ProblemInstanceRecord.ext (alike_id.mp dataset) (alike_id.mp configuration)
    (alike_optional_id preparation)

theorem ResolvedEnvironmentRecord.separated {a b : ResolvedEnvironmentRecord} (alike : AlikeRecords a b) :
    a = b := by
  have each := alike.fields rfl (by simp [identityFields])
  simp only [identityFields, List.forall₂_cons] at each
  obtain ⟨⟨-, definition⟩, ⟨-, fingerprint⟩, -⟩ := each
  exact ResolvedEnvironmentRecord.ext (alike_id.mp definition) (alike_canonical.mp fingerprint)

theorem ResolvedLaunchRecord.separated {a b : ResolvedLaunchRecord} (alike : AlikeRecords a b) : a = b := by
  have each := alike.fields rfl (by simp [identityFields])
  simp only [identityFields, List.forall₂_cons] at each
  obtain ⟨⟨-, environment⟩, ⟨-, program⟩, ⟨-, args⟩, ⟨-, environmentVariables⟩, ⟨-, workingDirectory⟩, -⟩ := each
  exact ResolvedLaunchRecord.ext (alike_id.mp environment) (eq_of_alike program) (alike_strs args)
    (alike_variables environmentVariables)
    ((alike_name WorkerWorkingDirectory.name_injective).mp workingDirectory)

theorem ExecutorDefinitionRecord.separated {a b : ExecutorDefinitionRecord} (alike : AlikeRecords a b) :
    a = b := by
  have each := alike.fields rfl (by simp [identityFields])
  simp only [identityFields, List.forall₂_cons] at each
  obtain ⟨⟨-, kind⟩, ⟨-, configuration⟩, -⟩ := each
  exact ExecutorDefinitionRecord.ext (eq_of_alike kind) (alike_canonical.mp configuration)

theorem ResolvedWorkerRecord.separated {a b : ResolvedWorkerRecord} (alike : AlikeRecords a b) : a = b := by
  have each := alike.fields rfl (by simp [identityFields])
  simp only [identityFields, List.forall₂_cons] at each
  obtain ⟨⟨-, sourceBundle⟩, ⟨-, environment⟩, ⟨-, launch⟩, -⟩ := each
  exact ResolvedWorkerRecord.ext (alike_optional_id sourceBundle) (alike_id.mp environment)
    (alike_id.mp launch)

theorem RunAttemptRecord.separated {a b : RunAttemptRecord} (alike : AlikeRecords a b) : a = b := by
  have each := alike.fields rfl (by simp [identityFields])
  simp only [identityFields, List.forall₂_cons] at each
  obtain ⟨⟨-, slot⟩, ⟨-, retryIndex⟩, -⟩ := each
  exact RunAttemptRecord.ext (alike_id.mp slot) (alike_nat.mp retryIndex).1

theorem ExecutionPolicyRecord.separated {a b : ExecutionPolicyRecord} (alike : AlikeRecords a b) : a = b := by
  have each := alike.fields rfl (by simp [identityFields])
  simp only [identityFields, List.forall₂_cons] at each
  obtain ⟨⟨-, name⟩, ⟨-, cpus⟩, ⟨-, threads⟩, ⟨-, memory⟩, ⟨-, network⟩, ⟨-, workerReuse⟩, ⟨-, warmupRuns⟩,
    ⟨-, timeout⟩, ⟨-, timingScope⟩, ⟨-, primaryTime⟩, ⟨-, runOrder⟩, ⟨-, maxConcurrency⟩,
    ⟨-, enforcement⟩, -⟩ := each
  exact ExecutionPolicyRecord.ext (eq_of_alike name) (alike_optional_nat cpus) (alike_optional_nat threads)
    (alike_optional_str memory) (alike_bool.mp network) (alike_bool.mp workerReuse)
    (alike_nat.mp warmupRuns).1 (alike_optional_str timeout)
    ((alike_name TimingScope.name_injective).mp timingScope)
    ((alike_name PrimaryTime.name_injective).mp primaryTime)
    ((alike_name RunOrder.name_injective).mp runOrder) (alike_nat.mp maxConcurrency).1
    ((alike_name Enforcement.name_injective).mp enforcement)

theorem ObservationPolicyRecord.separated {a b : ObservationPolicyRecord} (alike : AlikeRecords a b) :
    a = b := by
  obtain ⟨profile, name, kind⟩ := a
  obtain ⟨profile', name', kind'⟩ := b
  -- A profile may be null, so its presence shows in the number of fields only.
  cases profile with
  | none =>
      cases profile' with
      | none =>
          have each := alike.fields rfl (by simp [identityFields])
          simp only [identityFields, List.append_nil, List.forall₂_cons] at each
          obtain ⟨⟨-, name⟩, ⟨-, kind⟩, -⟩ := each
          exact ObservationPolicyRecord.ext rfl (eq_of_alike name)
            ((alike_name ObservationKind.name_injective).mp kind)
      | some profile' =>
          have lengths := alike.fields_length (by simp [identityFields]) (by simp [identityFields])
          simp [identityFields] at lengths
  | some profile =>
      cases profile' with
      | none =>
          have lengths := alike.fields_length (by simp [identityFields]) (by simp [identityFields])
          simp [identityFields] at lengths
      | some profile' =>
          have each := alike.fields rfl (by simp [identityFields])
          simp only [identityFields, List.cons_append, List.nil_append, List.forall₂_cons] at each
          obtain ⟨⟨-, name⟩, ⟨-, kind⟩, ⟨-, profile⟩, -⟩ := each
          exact ObservationPolicyRecord.ext (congrArg some (alike_canonical.mp profile)) (eq_of_alike name)
            ((alike_name ObservationKind.name_injective).mp kind)

theorem DatasetConfigurationRecord.separated {a b : DatasetConfigurationRecord} (alike : AlikeRecords a b) :
    a = b := by
  have each := alike.fields rfl (by simp [identityFields])
  simp only [identityFields, List.forall₂_cons] at each
  obtain ⟨⟨-, definition⟩, ⟨-, parameters⟩, ⟨-, seed⟩, -⟩ := each
  exact DatasetConfigurationRecord.ext (alike_id.mp definition) (alike_canonical.mp parameters)
    (alike_seed seed)

theorem ProblemConfigurationRecord.separated {a b : ProblemConfigurationRecord} (alike : AlikeRecords a b) :
    a = b := by
  have each := alike.fields rfl (by simp [identityFields])
  simp only [identityFields, List.forall₂_cons] at each
  obtain ⟨⟨-, definition⟩, ⟨-, parameters⟩, -⟩ := each
  exact ProblemConfigurationRecord.ext (alike_id.mp definition) (alike_canonical.mp parameters)

theorem ImplementationConfigurationRecord.separated {a b : ImplementationConfigurationRecord}
    (alike : AlikeRecords a b) : a = b := by
  have each := alike.fields rfl (by simp [identityFields])
  simp only [identityFields, List.forall₂_cons] at each
  obtain ⟨⟨-, definition⟩, ⟨-, parameters⟩, ⟨-, environment⟩, -⟩ := each
  exact ImplementationConfigurationRecord.ext (alike_id.mp definition) (alike_canonical.mp parameters)
    (alike_id.mp environment)

theorem LogicalCandidateRecord.separated {a b : LogicalCandidateRecord} (alike : AlikeRecords a b) :
    a = b := by
  have each := alike.fields rfl (by simp [identityFields])
  simp only [identityFields, List.forall₂_cons] at each
  obtain ⟨⟨-, dataset⟩, ⟨-, problem⟩, ⟨-, implementation⟩, ⟨-, execution⟩, ⟨-, observation⟩, -⟩ := each
  exact LogicalCandidateRecord.ext (alike_id.mp dataset) (alike_id.mp problem) (alike_id.mp implementation)
    (alike_id.mp execution) (alike_id.mp observation)

theorem OneShotLogicalSpecificationRecord.separated {a b : OneShotLogicalSpecificationRecord}
    (alike : AlikeRecords a b) : a = b := by
  have each := alike.fields rfl (by simp [identityFields])
  simp only [identityFields, List.forall₂_cons] at each
  obtain ⟨-, ⟨-, candidate⟩, -, ⟨-, repetition⟩, ⟨-, seed⟩, -⟩ := each
  have budget : a.scientificBudget = b.scientificBudget := by
    cases a.scientificBudget
    cases b.scientificBudget
    rfl
  exact OneShotLogicalSpecificationRecord.ext (alike_id.mp candidate) budget (alike_nat.mp repetition).1
    (alike_seed seed)

theorem LogicalAttemptSlotRecord.separated {a b : LogicalAttemptSlotRecord} (alike : AlikeRecords a b) :
    a = b := by
  have each := alike.fields rfl (by simp [identityFields])
  simp only [identityFields, List.forall₂_cons] at each
  obtain ⟨⟨-, specification⟩, ⟨-, role⟩, ⟨-, priority⟩, -⟩ := each
  exact LogicalAttemptSlotRecord.ext (alike_id.mp specification) (alike_role role) (alike_digest.mp priority)

theorem ResolvedOneShotSpecificationRecord.get_applicability (record : ResolvedOneShotSpecificationRecord) :
    (document record).get "applicability" = .ofOption RecordId.json record.applicability := by
  obtain ⟨applicability⟩ := record
  cases applicability <;> simp [document, identityFields, ofOption]

theorem ResolvedOneShotSpecificationRecord.separated {a b : ResolvedOneShotSpecificationRecord}
    (alike : AlikeRecords a b) : a = b := by
  have applicability := alike.get "applicability"
  rw [get_applicability, get_applicability] at applicability
  have same := alike_optional_id applicability
  obtain ⟨decision, _, _, _, _, _, _, _⟩ := a
  obtain ⟨_, _, _, _, _, _, _, _⟩ := b
  dsimp only at same
  subst same
  cases decision with
  | none =>
      have each := alike.fields rfl (by simp [identityFields])
      simp only [identityFields, List.forall₂_cons] at each
      obtain ⟨-, ⟨-, specification⟩, ⟨-, problem⟩, ⟨-, implementation⟩, ⟨-, evaluator⟩, ⟨-, executor⟩,
        ⟨-, wire⟩, ⟨-, execution⟩, -⟩ := each
      exact ResolvedOneShotSpecificationRecord.ext rfl
        (alike_id.mp specification) (alike_id.mp problem) (alike_resolved implementation)
        (alike_resolved evaluator) (alike_id.mp executor) (alike_nat.mp wire).1 (alike_nat.mp execution).1
  | some decision =>
      have each := alike.fields rfl (by simp [identityFields])
      simp only [identityFields, List.forall₂_cons] at each
      obtain ⟨-, -, ⟨-, specification⟩, ⟨-, problem⟩, ⟨-, implementation⟩, ⟨-, evaluator⟩, ⟨-, executor⟩,
        ⟨-, wire⟩, ⟨-, execution⟩, -⟩ := each
      exact ResolvedOneShotSpecificationRecord.ext rfl
        (alike_id.mp specification) (alike_id.mp problem) (alike_resolved implementation)
        (alike_resolved evaluator) (alike_id.mp executor) (alike_nat.mp wire).1 (alike_nat.mp execution).1

theorem ResolvedObservationSlotRecord.separated {a b : ResolvedObservationSlotRecord}
    (alike : AlikeRecords a b) : a = b := by
  have each := alike.fields rfl (by simp [identityFields])
  simp only [identityFields, List.forall₂_cons] at each
  obtain ⟨⟨-, slot⟩, ⟨-, specification⟩, -⟩ := each
  exact ResolvedObservationSlotRecord.ext (alike_id.mp slot) (alike_id.mp specification)

theorem ResolvedAttemptSlotRecord.separated {a b : ResolvedAttemptSlotRecord} (alike : AlikeRecords a b) :
    a = b := by
  have each := alike.fields rfl (by simp [identityFields])
  simp only [identityFields, List.forall₂_cons] at each
  obtain ⟨⟨-, slot⟩, ⟨-, specification⟩, -⟩ := each
  exact ResolvedAttemptSlotRecord.ext (alike_id.mp slot) (alike_id.mp specification)

/-! ## Records that hold documents -/

/-- Documents that denote the same value. -/
def SameDocument (v w : Json) : Prop := v.normalize = w.normalize

/-- Optional documents, null standing for an absent one. -/
def SameOptional (v w : Option Json) : Prop := SameDocument (.ofOption id v) (.ofOption id w)

/-- Floats that are written alike: a zero has no sign. -/
def SameFloats (a b : List UInt64) : Prop := List.Forall₂ (fun x y => SameDocument (F64.json x) (F64.json y)) a b

structure SameFreshControl (a b : FreshControl) : Prop where
  scheduleIndex : a.scheduleIndex = b.scheduleIndex
  observationControl : SameDocument a.observationControl b.observationControl

theorem alike_control {a b : FreshControl} (alike : Alike a.json b.json) : SameFreshControl a b := by
  have each := alike_object alike rfl (by simp)
  simp only [List.forall₂_cons] at each
  obtain ⟨⟨-, scheduleIndex⟩, ⟨-, observationControl⟩, -⟩ := each
  exact ⟨(alike_nat.mp scheduleIndex).1, observationControl.same⟩

structure SameObservationSlot (a b : LogicalObservationSlotRecord) : Prop where
  fresh : Option.Rel SameFreshControl a.fresh b.fresh
  specification : a.specification = b.specification
  measurementIndex : a.measurementIndex = b.measurementIndex

theorem LogicalObservationSlotRecord.get_fresh (record : LogicalObservationSlotRecord) :
    (document record).get "fresh" = .ofOption FreshControl.json record.fresh := by
  obtain ⟨fresh, _, _⟩ := record
  cases fresh <;> simp [document, identityFields, ofOption]

theorem LogicalObservationSlotRecord.separated {a b : LogicalObservationSlotRecord}
    (alike : AlikeRecords a b) : SameObservationSlot a b := by
  have specification : Alike a.specification.json b.specification.json := by
    simpa [document, identityFields] using alike.get "specification"
  have measurementIndex : Alike (nat a.measurementIndex) (nat b.measurementIndex) := by
    simpa [document, identityFields] using alike.get "measurement_index"
  have fresh := alike.get "fresh"
  rw [get_fresh, get_fresh] at fresh
  exact {
    fresh := alike_ofOption (by simp [FreshControl.json, object]) (fun _ _ _ _ => alike_control) fresh
    specification := alike_id.mp specification
    measurementIndex := (alike_nat.mp measurementIndex).1 }

structure SameApplicability (a b : ApplicabilityDecisionRecord) : Prop where
  candidateId : a.candidateId = b.candidateId
  outcome : a.outcome = b.outcome
  code : a.code = b.code
  reason : a.reason = b.reason
  checkedInputs : SameOptional a.checkedInputs b.checkedInputs
  evidence : SameOptional a.evidence b.evidence
  details : SameOptional a.details b.details

theorem ApplicabilityDecisionRecord.separated {a b : ApplicabilityDecisionRecord} (alike : AlikeRecords a b) :
    SameApplicability a b := by
  have each := alike.fields rfl (by simp [identityFields])
  simp only [identityFields, List.forall₂_cons] at each
  obtain ⟨⟨-, candidate⟩, ⟨-, outcome⟩, ⟨-, code⟩, ⟨-, reason⟩, ⟨-, checkedInputs⟩, ⟨-, evidence⟩,
    ⟨-, details⟩, -⟩ := each
  exact {
    candidateId := alike_id.mp candidate
    outcome := (alike_name ApplicabilityOutcome.name_injective).mp outcome
    code := eq_of_alike code
    reason := eq_of_alike reason
    checkedInputs := checkedInputs.same
    evidence := evidence.same
    details := details.same }

theorem alike_floats {a b : List UInt64} (alike : Alike (.arr (a.map F64.json)) (.arr (b.map F64.json))) :
    SameFloats a b := by
  have each := alike_arr.mp alike
  rw [List.forall₂_map_left_iff, List.forall₂_map_right_iff] at each
  exact each.imp fun _ _ => Alike.same

structure SameBuffered (a b : BufferedObservationRecord) : Prop where
  instrumentedScope : a.instrumentedScope = b.instrumentedScope
  clock : a.clock = b.clock
  instrumentedTimeNs : a.instrumentedTimeNs = b.instrumentedTimeNs
  instrumentedTotalTimeNs : a.instrumentedTotalTimeNs = b.instrumentedTotalTimeNs
  traceIndex : a.traceIndex = b.traceIndex
  captureOrdinal : a.captureOrdinal = b.captureOrdinal
  thresholds : SameFloats a.thresholds b.thresholds
  provisionalMetrics : SameDocument a.provisionalMetrics b.provisionalMetrics

structure SameFresh (a b : FreshObservationRecord) : Prop where
  measurementIndex : a.measurementIndex = b.measurementIndex
  scheduleIndex : a.scheduleIndex = b.scheduleIndex
  observationControl : SameDocument a.observationControl b.observationControl

structure SameStreaming (a b : StreamingObservationRecord) : Prop where
  checkpointSequence : a.checkpointSequence = b.checkpointSequence
  checkIndex : a.checkIndex = b.checkIndex
  /-- The counters are a map. -/
  work : ∀ key, lookupEntry key a.work = lookupEntry key b.work
  terminal : a.terminal = b.terminal
  thresholds : SameFloats a.thresholds b.thresholds
  activeTimeNs : a.activeTimeNs = b.activeTimeNs
  elapsedWallTimeNs : a.elapsedWallTimeNs = b.elapsedWallTimeNs
  evaluationTimeNs : a.evaluationTimeNs = b.evaluationTimeNs
  decision : a.decision = b.decision
  stopReason : a.stopReason = b.stopReason

def SameProfile : ProfileObservationRecord → ProfileObservationRecord → Prop
  | .buffered a, .buffered b => SameBuffered a b
  | .fresh a, .fresh b => SameFresh a b
  | .streaming a, .streaming b => SameStreaming a b
  | _, _ => False

theorem get_work (work : List (String × Nat)) (key : String) :
    (object (work.map fun entry => (entry.1, nat entry.2))).get key = .ofOption nat (lookupEntry key work) := by
  induction work with
  | nil => rfl
  | cons entry rest ih =>
      obtain ⟨name, count⟩ := entry
      rw [List.map_cons, get_object_cons, lookupEntry]
      split
      · rfl
      · exact ih

theorem alike_work {a b : List (String × Nat)}
    (alike : Alike (object (a.map fun entry => (entry.1, nat entry.2)))
      (object (b.map fun entry => (entry.1, nat entry.2)))) (key : String) :
    lookupEntry key a = lookupEntry key b := by
  have counts := alike.get key
  rw [get_work, get_work] at counts
  exact alike_optional_nat counts

theorem alike_profile {a b : ProfileObservationRecord} (alike : Alike a.json b.json) : SameProfile a b := by
  have deliveries := alike.get "delivery"
  cases a with
  | buffered record =>
      cases b with
      | buffered record' =>
          have each := alike_object alike rfl (by simp)
          simp only [List.forall₂_cons] at each
          obtain ⟨-, -, ⟨-, scope⟩, ⟨-, clock⟩, ⟨-, time⟩, ⟨-, total⟩, ⟨-, trace⟩, ⟨-, capture⟩,
            ⟨-, thresholds⟩, ⟨-, metrics⟩, -⟩ := each
          exact ⟨eq_of_alike scope, eq_of_alike clock, (alike_nat.mp time).1, (alike_nat.mp total).1,
            (alike_nat.mp trace).1, (alike_nat.mp capture).1, alike_floats thresholds, metrics.same⟩
      | fresh | streaming =>
          simp [ProfileObservationRecord.json, StreamingObservationRecord.json] at deliveries
  | fresh record =>
      cases b with
      | fresh record' =>
          have each := alike_object alike rfl (by simp)
          simp only [List.forall₂_cons] at each
          obtain ⟨-, -, ⟨-, measurement⟩, ⟨-, schedule⟩, ⟨-, control⟩, -⟩ := each
          exact ⟨(alike_nat.mp measurement).1, (alike_nat.mp schedule).1, control.same⟩
      | buffered | streaming =>
          simp [ProfileObservationRecord.json, StreamingObservationRecord.json] at deliveries
  | streaming record =>
      cases b with
      | streaming record' =>
          have each := alike_object alike rfl (by simp)
          simp only [List.forall₂_cons] at each
          obtain ⟨-, -, ⟨-, sequence⟩, ⟨-, check⟩, ⟨-, work⟩, ⟨-, terminal⟩, ⟨-, thresholds⟩, ⟨-, active⟩,
            ⟨-, elapsed⟩, ⟨-, evaluation⟩, ⟨-, decision⟩, ⟨-, reason⟩, -⟩ := each
          exact ⟨(alike_nat.mp sequence).1, (alike_nat.mp check).1, alike_work work, alike_bool.mp terminal,
            alike_floats thresholds, (alike_nat.mp active).1, (alike_nat.mp elapsed).1,
            (alike_nat.mp evaluation).1, eq_of_alike decision,
            alike_optional_name StopReason.name_injective reason⟩
      | buffered | fresh =>
          simp [ProfileObservationRecord.json, StreamingObservationRecord.json] at deliveries

/-- Everything but the provenance. -/
structure SameRunObservation (a b : RunObservationRecord) : Prop where
  profile : Option.Rel SameProfile a.profile b.profile
  slot : a.slot = b.slot
  producingAttempt : a.producingAttempt = b.producingAttempt
  result : a.result = b.result
  metrics : a.metrics = b.metrics
  timing : a.timing = b.timing
  completion : a.completion = b.completion

theorem ProfileObservationRecord.json_filled (profile : ProfileObservationRecord) : profile.json ≠ .null := by
  cases profile <;> simp [ProfileObservationRecord.json, StreamingObservationRecord.json, object]

theorem RunObservationRecord.get_profile (record : RunObservationRecord) :
    (document record).get "profile" = .ofOption ProfileObservationRecord.json record.profile := by
  obtain ⟨profile⟩ := record
  cases profile <;> simp [document, identityFields, profileField, ofOption]

theorem RunObservationRecord.get_field (record : RunObservationRecord) {key : String} (other : key ≠ "profile") :
    (document record).get key = (document { record with profile := none }).get key := by
  obtain ⟨profile⟩ := record
  cases profile <;> simp [document, identityFields, profileField, other]

theorem RunObservationRecord.separated {a b : RunObservationRecord} (alike : AlikeRecords a b) :
    SameRunObservation a b := by
  have profile := alike.get "profile"
  rw [get_profile, get_profile] at profile
  have plain : ∀ key, key ≠ "profile" → Alike ((document { a with profile := none }).get key)
      ((document { b with profile := none }).get key) := by
    intro key other
    have field := alike.get key
    rwa [get_field a other, get_field b other] at field
  have slot := plain "slot" (by simp)
  have attempt := plain "producing_attempt" (by simp)
  have result := plain "result" (by simp)
  have metrics := plain "metrics" (by simp)
  have timing := plain "timing" (by simp)
  have completion := plain "completion" (by simp)
  simp [document, identityFields, profileField] at slot attempt result metrics timing completion
  exact {
    profile := alike_ofOption (fun profile _ => profile.json_filled) (fun _ _ _ _ => alike_profile) profile
    slot := alike_id.mp slot
    producingAttempt := alike_id.mp attempt
    result := alike_reference result
    metrics := alike_reference metrics
    timing := alike_timing timing
    completion := CompletionStatus.name_injective completion }

end Metewand
