import Metewand.Core.RecordSeparation
import Metewand.Protocol.Wire

/-!
# Typed identities separate records

The bytes hashed for an identity are its kind tag, a NUL and the canonical text of its fields
(`hash_identity`).  `Identified` gives each kind the record or resource it identifies, and `Same` what its
identity covers: equality of the fields, up to the order of the lists that are written sorted, to null
standing for an absent value, and to the spelling of numbers inside documents.  Two transcripts are equal
exactly for the same kind and the same covered fields (`transcripts_separate`).
-/

namespace Metewand

open Lib Json IdentityRecord

/-! ## What each kind identifies -/

/-- The record or resource under each kind; canonical resources share the `artifact` kind. -/
abbrev Identified : IdentityKind → Type
  | .schema | .problemContract | .sourceBundle | .artifact => CanonicalValue
  | .environmentDefinition => EnvironmentDefinitionRecord
  | .workerDefinition => WorkerDefinitionRecord
  | .datasetDefinition => DatasetDefinitionRecord
  | .problemDefinition => ProblemDefinitionRecord
  | .implementationDefinition => ImplementationDefinitionRecord
  | .executionPolicy => ExecutionPolicyRecord
  | .observationPolicy => ObservationPolicyRecord
  | .datasetConfiguration => DatasetConfigurationRecord
  | .problemConfiguration => ProblemConfigurationRecord
  | .implementationConfiguration => ImplementationConfigurationRecord
  | .datasetInstance => DatasetInstanceRecord
  | .problemInstance => ProblemInstanceRecord
  | .logicalCandidate => LogicalCandidateRecord
  | .logicalSpecification => OneShotLogicalSpecificationRecord
  | .logicalObservationSlot => LogicalObservationSlotRecord
  | .logicalAttemptSlot => LogicalAttemptSlotRecord
  | .resolvedEnvironment => ResolvedEnvironmentRecord
  | .resolvedLaunch => ResolvedLaunchRecord
  | .executorDefinition => ExecutorDefinitionRecord
  | .resolvedWorker => ResolvedWorkerRecord
  | .applicability => ApplicabilityDecisionRecord
  | .resolvedSpecification => ResolvedOneShotSpecificationRecord
  | .resolvedObservationSlot => ResolvedObservationSlotRecord
  | .resolvedAttemptSlot => ResolvedAttemptSlotRecord
  | .observation => RunObservationRecord
  | .attempt => RunAttemptRecord

namespace Identified

/-- The fields beneath `version`; a resource is wrapped as a value. -/
def fields : (kind : IdentityKind) → Identified kind → List (String × Json)
  | .schema, resource | .problemContract, resource | .sourceBundle, resource | .artifact, resource =>
      [("value", CanonicalValue.value resource)]
  | .environmentDefinition, record => identityFields (T := EnvironmentDefinitionRecord) record
  | .workerDefinition, record => identityFields (T := WorkerDefinitionRecord) record
  | .datasetDefinition, record => identityFields (T := DatasetDefinitionRecord) record
  | .problemDefinition, record => identityFields (T := ProblemDefinitionRecord) record
  | .implementationDefinition, record => identityFields (T := ImplementationDefinitionRecord) record
  | .executionPolicy, record => identityFields (T := ExecutionPolicyRecord) record
  | .observationPolicy, record => identityFields (T := ObservationPolicyRecord) record
  | .datasetConfiguration, record => identityFields (T := DatasetConfigurationRecord) record
  | .problemConfiguration, record => identityFields (T := ProblemConfigurationRecord) record
  | .implementationConfiguration, record => identityFields (T := ImplementationConfigurationRecord) record
  | .datasetInstance, record => identityFields (T := DatasetInstanceRecord) record
  | .problemInstance, record => identityFields (T := ProblemInstanceRecord) record
  | .logicalCandidate, record => identityFields (T := LogicalCandidateRecord) record
  | .logicalSpecification, record => identityFields (T := OneShotLogicalSpecificationRecord) record
  | .logicalObservationSlot, record => identityFields (T := LogicalObservationSlotRecord) record
  | .logicalAttemptSlot, record => identityFields (T := LogicalAttemptSlotRecord) record
  | .resolvedEnvironment, record => identityFields (T := ResolvedEnvironmentRecord) record
  | .resolvedLaunch, record => identityFields (T := ResolvedLaunchRecord) record
  | .executorDefinition, record => identityFields (T := ExecutorDefinitionRecord) record
  | .resolvedWorker, record => identityFields (T := ResolvedWorkerRecord) record
  | .applicability, record => identityFields (T := ApplicabilityDecisionRecord) record
  | .resolvedSpecification, record => identityFields (T := ResolvedOneShotSpecificationRecord) record
  | .resolvedObservationSlot, record => identityFields (T := ResolvedObservationSlotRecord) record
  | .resolvedAttemptSlot, record => identityFields (T := ResolvedAttemptSlotRecord) record
  | .observation, record => identityFields (T := RunObservationRecord) record
  | .attempt, record => identityFields (T := RunAttemptRecord) record

end Identified

/-! ## What an identity covers -/

namespace Identified

/-- Agreement in everything the identity of the kind covers. -/
def Same : (kind : IdentityKind) → Identified kind → Identified kind → Prop
  | .datasetDefinition, a, b => SameDatasetDefinition a b
  | .problemDefinition, a, b => SameProblemDefinition a b
  | .implementationDefinition, a, b => SameImplementationDefinition a b
  | .logicalObservationSlot, a, b => SameObservationSlot a b
  | .applicability, a, b => SameApplicability a b
  | .observation, a, b => SameRunObservation a b
  | _, a, b => a = b

/-- The identity document. -/
def document (kind : IdentityKind) (record : Identified kind) : Json :=
  .object (("version", .nat identityVersion) :: fields kind record)

theorem resource_separated {a b : CanonicalValue}
    (alike : Alike (.object [("version", .nat identityVersion), ("value", a.value)])
      (.object [("version", .nat identityVersion), ("value", b.value)])) : a = b := by
  have value := alike.get "value"
  simp only [get_object_cons] at value
  exact alike_canonical.mp (by simpa using value)

/-- Records with alike documents agree in what the identity covers. -/
theorem separated {kind : IdentityKind} {a b : Identified kind}
    (alike : Alike (document kind a) (document kind b)) : Same kind a b := by
  cases kind with
  | schema | problemContract | sourceBundle | artifact => exact resource_separated alike
  | environmentDefinition => exact EnvironmentDefinitionRecord.separated alike
  | workerDefinition =>
      exact WorkerDefinitionRecord.separated (AlikeRecords.fields alike rfl
        (by simp [identityFields, WorkerDefinitionRecord.fields]))
  | datasetDefinition => exact DatasetDefinitionRecord.separated alike
  | problemDefinition => exact ProblemDefinitionRecord.separated alike
  | implementationDefinition => exact ImplementationDefinitionRecord.separated alike
  | executionPolicy => exact ExecutionPolicyRecord.separated alike
  | observationPolicy => exact ObservationPolicyRecord.separated alike
  | datasetConfiguration => exact DatasetConfigurationRecord.separated alike
  | problemConfiguration => exact ProblemConfigurationRecord.separated alike
  | implementationConfiguration => exact ImplementationConfigurationRecord.separated alike
  | datasetInstance => exact DatasetInstanceRecord.separated alike
  | problemInstance => exact ProblemInstanceRecord.separated alike
  | logicalCandidate => exact LogicalCandidateRecord.separated alike
  | logicalSpecification => exact OneShotLogicalSpecificationRecord.separated alike
  | logicalObservationSlot => exact LogicalObservationSlotRecord.separated alike
  | logicalAttemptSlot => exact LogicalAttemptSlotRecord.separated alike
  | resolvedEnvironment => exact ResolvedEnvironmentRecord.separated alike
  | resolvedLaunch => exact ResolvedLaunchRecord.separated alike
  | executorDefinition => exact ExecutorDefinitionRecord.separated alike
  | resolvedWorker => exact ResolvedWorkerRecord.separated alike
  | applicability => exact ApplicabilityDecisionRecord.separated alike
  | resolvedSpecification => exact ResolvedOneShotSpecificationRecord.separated alike
  | resolvedObservationSlot => exact ResolvedObservationSlotRecord.separated alike
  | resolvedAttemptSlot => exact ResolvedAttemptSlotRecord.separated alike
  | observation => exact RunObservationRecord.separated alike
  | attempt => exact RunAttemptRecord.separated alike

/-! ## What is covered determines the document -/

theorem same_fields {kind : IdentityKind} {a b : Identified kind}
    (each : List.Forall₂ SameMember (fields kind a) (fields kind b)) :
    (document kind a).normalize = (document kind b).normalize :=
  normalize_object_congr (.cons (sameMember_self _) each)

theorem same_control {a b : FreshControl} (same : SameFreshControl a b) :
    a.json.normalize = b.json.normalize := by
  refine normalize_object_congr (.cons ?_ (.cons ⟨rfl, same.observationControl⟩ .nil))
  rw [same.scheduleIndex]
  exact sameMember_self _

theorem same_observation_slot {a b : LogicalObservationSlotRecord} (same : SameObservationSlot a b) :
    List.Forall₂ SameMember (identityFields a) (identityFields b) := by
  obtain ⟨fresh, _, _⟩ := a
  obtain ⟨fresh', _, _⟩ := b
  obtain ⟨controls, rfl, rfl⟩ := same
  cases controls with
  | none => exact .cons (sameMember_self _) (.cons (sameMember_self _) .nil)
  | some control =>
      exact .cons (sameMember_self _) (.cons (sameMember_self _) (.cons ⟨rfl, same_control control⟩ .nil))

theorem same_applicability {a b : ApplicabilityDecisionRecord} (same : SameApplicability a b) :
    List.Forall₂ SameMember (identityFields a) (identityFields b) := by
  refine .cons ?_ (.cons ?_ (.cons ?_ (.cons ?_ (.cons ⟨rfl, same.checkedInputs⟩
    (.cons ⟨rfl, same.evidence⟩ (.cons ⟨rfl, same.details⟩ .nil))))))
  · rw [same.candidateId]
    exact sameMember_self _
  · rw [same.outcome]
    exact sameMember_self _
  · rw [same.code]
    exact sameMember_self _
  · rw [same.reason]
    exact sameMember_self _

theorem same_floats {a b : List UInt64} (same : SameFloats a b) :
    (Json.arr (a.map F64.json)).normalize = (Json.arr (b.map F64.json)).normalize := by
  exact normalize_map_congr same fun _ _ => id

theorem lookup_work (work : List (String × Nat)) (key : String) :
    lookupEntry key ((work.map fun entry => (entry.1, nat entry.2)).foldr
      (fun field members => insertMember field.1 field.2 members) []) = (lookupEntry key work).map nat := by
  induction work with
  | nil => rfl
  | cons entry rest ih =>
      obtain ⟨name, count⟩ := entry
      rw [List.map_cons, List.foldr_cons, insertMember_eq, lookup_insertEntry, ih, lookupEntry]
      split <;> rfl

/-- Counters with the same lookups are written alike. -/
theorem same_work {a b : List (String × Nat)} (same : ∀ key, lookupEntry key a = lookupEntry key b) :
    object (a.map fun entry => (entry.1, nat entry.2)) = object (b.map fun entry => (entry.1, nat entry.2)) := by
  obtain ⟨members, built, ascending⟩ := object_ascending (a.map fun entry => (entry.1, nat entry.2))
  obtain ⟨others, built', ascending'⟩ := object_ascending (b.map fun entry => (entry.1, nat entry.2))
  rw [built, built']
  cases built
  cases built'
  refine congrArg Json.obj (ascending.ext ascending' fun key => ?_)
  rw [lookup_work, lookup_work, same]

theorem same_profile {a b : ProfileObservationRecord} (same : SameProfile a b) :
    a.json.normalize = b.json.normalize := by
  cases a with
  | buffered record =>
      cases b with
      | buffered record' =>
          obtain ⟨_, _, _, _, _, _, _, _⟩ := record
          obtain ⟨_, _, _, _, _, _, _, _⟩ := record'
          obtain ⟨rfl, rfl, rfl, rfl, rfl, rfl, thresholds, metrics⟩ := same
          refine normalize_object_congr ?_
          simp only [List.forall₂_cons, sameMember_self, true_and]
          exact ⟨⟨rfl, same_floats thresholds⟩, ⟨rfl, metrics⟩, .nil⟩
      | fresh | streaming => cases same
  | fresh record =>
      cases b with
      | fresh record' =>
          obtain ⟨_, _, _⟩ := record
          obtain ⟨_, _, _⟩ := record'
          obtain ⟨rfl, rfl, control⟩ := same
          refine normalize_object_congr ?_
          simp only [List.forall₂_cons, sameMember_self, true_and]
          exact ⟨⟨rfl, control⟩, .nil⟩
      | buffered | streaming => cases same
  | streaming record =>
      cases b with
      | streaming record' =>
          obtain ⟨_, _, _, _, _, _, _, _, _, _⟩ := record
          obtain ⟨_, _, _, _, _, _, _, _, _, _⟩ := record'
          obtain ⟨rfl, rfl, work, rfl, thresholds, rfl, rfl, rfl, rfl, rfl⟩ := same
          refine normalize_object_congr ?_
          simp only [List.forall₂_cons, sameMember_self, true_and, same_work work]
          exact ⟨⟨rfl, same_floats thresholds⟩, .nil⟩
      | buffered | fresh => cases same

theorem same_run_observation {a b : RunObservationRecord} (same : SameRunObservation a b) :
    List.Forall₂ SameMember (identityFields a) (identityFields b) := by
  obtain ⟨_, _, _, _, _, _, _, _⟩ := a
  obtain ⟨_, _, _, _, _, _, _, _⟩ := b
  obtain ⟨profile, rfl, rfl, rfl, rfl, rfl, rfl⟩ := same
  refine List.rel_append ?_ (sameMembers_self _)
  cases profile with
  | none => exact .nil
  | some profile => exact .cons ⟨rfl, same_profile profile⟩ .nil

/-- Records that agree in what the identity covers have one identity document. -/
theorem document_congr {kind : IdentityKind} {a b : Identified kind} (same : Same kind a b) :
    (document kind a).normalize = (document kind b).normalize := by
  cases kind with
  | datasetDefinition =>
      obtain ⟨_, _, _, _, _⟩ := a
      obtain ⟨_, _, _, _, _⟩ := b
      obtain ⟨rfl, rfl, defaults, rfl, rfl⟩ := same
      dsimp only at defaults
      simp only [document, fields, identityFields, defaults]
  | problemDefinition =>
      obtain ⟨_, _, _, _, _⟩ := a
      obtain ⟨_, _, _, _, _⟩ := b
      obtain ⟨rfl, rfl, defaults, rfl, rfl⟩ := same
      dsimp only at defaults
      simp only [document, fields, identityFields, defaults]
  | implementationDefinition =>
      obtain ⟨_, _, contracts, _, _, capabilities⟩ := a
      obtain ⟨_, _, contracts', _, _, capabilities'⟩ := b
      obtain ⟨rfl, rfl, contract, rfl, defaults, capability⟩ := same
      have first := (sortedTexts_eq fun _ _ => RecordId.text_injective).mpr contract
      have second := (sortedTexts_eq ImplementationCapability.name_injective).mpr capability
      dsimp only at defaults first second
      simp only [document, fields, identityFields, defaults, first, second]
  | logicalObservationSlot => exact @same_fields .logicalObservationSlot _ _ (same_observation_slot same)
  | applicability => exact same_fields (same_applicability same)
  | observation => exact same_fields (same_run_observation same)
  | _ => exact congrArg (fun record => (document _ record).normalize) same

end Identified

/-! ## Kind tags -/

namespace IdentityKind

def all : List IdentityKind := [
  .schema, .problemContract, .sourceBundle, .artifact, .environmentDefinition, .workerDefinition,
  .datasetDefinition, .problemDefinition, .implementationDefinition, .executionPolicy, .observationPolicy,
  .datasetConfiguration, .problemConfiguration, .implementationConfiguration, .datasetInstance,
  .problemInstance, .logicalCandidate, .logicalSpecification, .logicalObservationSlot, .logicalAttemptSlot,
  .resolvedEnvironment, .resolvedLaunch, .executorDefinition, .resolvedWorker, .applicability,
  .resolvedSpecification, .resolvedObservationSlot, .resolvedAttemptSlot, .observation, .attempt]

theorem ofTag (kind : IdentityKind) : all.find? (fun other => other.tag = kind.tag) = some kind := by
  cases kind <;> decide +kernel

theorem tag_injective : Function.Injective tag := by
  intro a b same
  have left := ofTag a
  rw [same, ofTag b] at left
  exact (Option.some.inj left).symm

/-- The NUL ends the tag. -/
theorem tag_filled (kind : IdentityKind) : 0 ∉ utf8 kind.tag := by
  cases kind <;> decide +kernel

end IdentityKind

/-- The spellings of identities of any two kinds tell kind and digest apart. -/
theorem RecordId.text_separates {kind kind' : IdentityKind} {a : RecordId kind} {b : RecordId kind'} :
    a.text = b.text ↔ kind = kind' ∧ a.digest = b.digest := by
  constructor
  · intro same
    have texts : kind.spelling.toList ++ a.digest.hex.toList = kind'.spelling.toList ++ b.digest.hex.toList := by
      have lists := congrArg String.toList same
      simpa only [RecordId.text, IdentityKind.spelling, String.toList_append, List.append_assoc] using lists
    -- Both digests have sixty-four digits, so the texts end in them.
    obtain ⟨spellings, digests⟩ := List.append_inj' texts
      (a.digest.hex_spelled.1.trans b.digest.hex_spelled.1.symm)
    refine ⟨IdentityKind.tag_injective ?_, hex_injective (String.toList_injective digests)⟩
    simpa [IdentityKind.spelling, String.toList_inj] using spellings
  · intro same
    obtain ⟨rfl, digests⟩ := same
    rw [RecordId.text, RecordId.text, digests]

/-! ## Transcripts -/

namespace JsonLibrary

variable (lib : JsonLibrary)

/-- The bytes that `hash_identity` digests. -/
def transcriptOf (kind : IdentityKind) (value : Json) : List UInt8 := utf8 kind.tag ++ 0 :: lib.encode value

def transcript (kind : IdentityKind) (record : Identified kind) :
    Except CanonicalValueViolation (List UInt8) :=
  (Identified.document kind record).normalize.map (lib.transcriptOf kind)

/-- `hash_identity`, on a canonical value. -/
def hasher (sha256 : List UInt8 → Digest) : Hasher := fun kind value => sha256 (lib.transcriptOf kind value)

/-- The identity of a record is the digest of its transcript. -/
theorem recordId_transcript (sha256 : List UInt8 → Digest) {T : Type} {kind : IdentityKind}
    [IdentityRecord T kind] (record : T) : recordId (lib.hasher sha256) record =
      (Metewand.document record).normalize.map fun value => ⟨sha256 (lib.transcriptOf kind value)⟩ :=
  rfl

variable {lib}

theorem transcript_ok {kind : IdentityKind} {record : Identified kind} {bytes : List UInt8}
    (hashed : lib.transcript kind record = .ok bytes) :
    ∃ value, (Identified.document kind record).normalize = .ok value ∧ lib.transcriptOf kind value = bytes := by
  unfold transcript at hashed
  cases normal : (Identified.document kind record).normalize with
  | error e =>
      rw [normal] at hashed
      cases hashed
  | ok value =>
      rw [normal] at hashed
      exact ⟨value, rfl, Except.ok.inj hashed⟩

/-- A transcript determines the kind and the value it was written for. -/
theorem transcriptOf_injective (spelled : lib.Spelled) {kind kind' : IdentityKind} {v w : Json}
    (normal : v.normalize = .ok v) (normal' : w.normalize = .ok w) (ordered : v.Ordered) (ordered' : w.Ordered)
    (same : lib.transcriptOf kind v = lib.transcriptOf kind' w) : kind = kind' ∧ v = w := by
  have parts : ∀ {left right tail rest : List UInt8}, 0 ∉ left → 0 ∉ right →
      left ++ 0 :: tail = right ++ 0 :: rest → left = right ∧ tail = rest := by
    intro left right tail rest filled filled' texts
    have heads := congrArg (List.takeWhile (· ≠ 0)) texts
    have whole : ∀ {text : List UInt8}, 0 ∉ text → ∀ byte ∈ text, decide (byte ≠ 0) = true := by
      intro text filled byte member
      exact decide_eq_true fun zero => filled (zero ▸ member)
    rw [List.takeWhile_append_of_pos (whole filled), List.takeWhile_append_of_pos (whole filled')] at heads
    simp only [ne_eq, not_true_eq_false, decide_false, Bool.false_eq_true, not_false_eq_true,
      List.takeWhile_cons_of_neg, List.append_nil] at heads
    subst heads
    exact ⟨rfl, (List.cons.inj (List.append_cancel_left texts)).2⟩
  obtain ⟨tags, texts⟩ := parts kind.tag_filled kind'.tag_filled same
  refine ⟨IdentityKind.tag_injective (utf8_injective tags), ?_⟩
  exact text_injective spelled normal normal' ordered ordered' (String.ofList_injective (utf8_injective texts))

/-- Two transcripts are the same bytes exactly for records of one kind that agree in what its identity
covers. -/
theorem transcripts_separate (spelled : lib.Spelled) {kind kind' : IdentityKind} {a : Identified kind}
    {b : Identified kind'} {bytes bytes' : List UInt8}
    (ordered : ∀ field ∈ Identified.fields kind a, field.2.Ordered)
    (ordered' : ∀ field ∈ Identified.fields kind' b, field.2.Ordered)
    (hashed : lib.transcript kind a = .ok bytes) (hashed' : lib.transcript kind' b = .ok bytes') :
    bytes = bytes' ↔ ∃ same : kind = kind', Identified.Same kind' (same ▸ a) b := by
  obtain ⟨value, normal, rfl⟩ := transcript_ok hashed
  obtain ⟨value', normal', rfl⟩ := transcript_ok hashed'
  have version : (nat identityVersion).Ordered := trivial
  have sorted := (normalize_shape _ normal).2 (object_ordered (List.forall_mem_cons.mpr ⟨version, ordered⟩))
  have sorted' := (normalize_shape _ normal').2 (object_ordered (List.forall_mem_cons.mpr ⟨version, ordered'⟩))
  constructor
  · intro same
    obtain ⟨rfl, rfl⟩ := transcriptOf_injective spelled (normalize_idempotent normal)
      (normalize_idempotent normal') sorted sorted' same
    exact ⟨rfl, Identified.separated ⟨value, normal, normal'⟩⟩
  · intro agree
    obtain ⟨rfl, same⟩ := agree
    have values := Identified.document_congr same
    rw [normal, normal'] at values
    rw [Except.ok.inj values]

/-- Where the digests of the transcripts do not collide, the spelled identities separate records too. -/
theorem spellings_separate (spelled : lib.Spelled) (sha256 : List UInt8 → Digest) {kind kind' : IdentityKind}
    {a : Identified kind} {b : Identified kind'} {bytes bytes' : List UInt8}
    (ordered : ∀ field ∈ Identified.fields kind a, field.2.Ordered)
    (ordered' : ∀ field ∈ Identified.fields kind' b, field.2.Ordered)
    (hashed : lib.transcript kind a = .ok bytes) (hashed' : lib.transcript kind' b = .ok bytes')
    (apart : sha256 bytes = sha256 bytes' → bytes = bytes') :
    (⟨sha256 bytes⟩ : RecordId kind).text = (⟨sha256 bytes'⟩ : RecordId kind').text ↔
      ∃ same : kind = kind', Identified.Same kind' (same ▸ a) b := by
  rw [← transcripts_separate spelled ordered ordered' hashed hashed', RecordId.text_separates]
  constructor
  · intro same
    exact apart same.2
  · intro same
    obtain ⟨kinds, -⟩ := (transcripts_separate spelled ordered ordered' hashed hashed').mp same
    exact ⟨kinds, congrArg sha256 same⟩

/-- Two attempts of one slot. -/
theorem transcripts_separate_sample : ∃ bytes bytes',
    Protocol.sampleText.transcript .attempt ⟨default, 0⟩ = .ok bytes ∧
      Protocol.sampleText.transcript .attempt ⟨default, 1⟩ = .ok bytes' ∧ bytes ≠ bytes' := by
  have written : ∀ index ≤ 1, ∃ bytes, Protocol.sampleText.transcript .attempt ⟨default, index⟩ = .ok bytes := by
    intro index small
    have normal : ∀ n ≤ 1, (nat n).normalize = .ok (nat n) := fun n le =>
      normalize_nat.mpr ⟨by unfold maxSafeInteger; omega, rfl⟩
    have document : (Identified.document .attempt ⟨default, index⟩).normalize =
        .ok (Identified.document .attempt ⟨default, index⟩) :=
      normalize_object (.cons ⟨rfl, normal 1 (by omega)⟩ (.cons ⟨rfl, rfl⟩ (.cons ⟨rfl, normal index small⟩ .nil)))
    exact ⟨_, by rw [transcript, document]; rfl⟩
  have ordered : ∀ index, ∀ field ∈ Identified.fields .attempt ⟨default, index⟩, field.2.Ordered := by
    intro index
    simp [Identified.fields, identityFields, RecordId.json, nat, Ordered]
  obtain ⟨bytes, hashed⟩ := written 0 (by omega)
  obtain ⟨bytes', hashed'⟩ := written 1 (by omega)
  refine ⟨bytes, bytes', hashed, hashed', fun same => ?_⟩
  obtain ⟨_, agree⟩ := (transcripts_separate Protocol.sampleText_spelled (ordered 0) (ordered 1)
    hashed hashed').mp same
  exact absurd (congrArg RunAttemptRecord.retryIndex agree) (by simp)

end JsonLibrary

end Metewand
