import Metewand.Core.Spelling
import Mathlib.Data.List.Basic

/-!
# Archive evidence

`core/archive.rs`: the committed coordination rows of a run store, independent of
its SQLite layout.  Records are typed; the members `definition`, `payload`,
`control` and `policy` are arbitrary JSON.  `ArchiveRecord.value` is the serialized
record, which is what the validator reads.
-/

namespace Metewand.Archive

/-- Compatibility version of result archives and their nested evidence. -/
def resultArchiveVersion : Nat := 1

/-- An optional text. -/
def optionalText (value : Option String) : Json := .ofOption .str value

/-! ## Records -/

structure ApplicabilityEvidence where
  id : String
  candidateId : String
  applicable : Bool
  definition : Json

def ApplicabilityEvidence.value (r : ApplicabilityEvidence) : Json :=
  .object [("id", .str r.id), ("candidate_id", .str r.candidateId),
    ("applicable", .bool r.applicable), ("definition", r.definition)]

structure ResolvedSpecificationEvidence where
  id : String
  logicalSpecificationId : String
  candidateId : String
  applicabilityId : String
  definition : Json

def ResolvedSpecificationEvidence.value (r : ResolvedSpecificationEvidence) : Json :=
  .object [("id", .str r.id), ("logical_specification_id", .str r.logicalSpecificationId),
    ("candidate_id", .str r.candidateId), ("applicability_id", .str r.applicabilityId),
    ("definition", r.definition)]

structure AttemptSlotEvidence where
  id : String
  logicalSlotId : String
  resolvedRunId : String
  role : String
  kind : String
  definition : Json

def AttemptSlotEvidence.value (r : AttemptSlotEvidence) : Json :=
  .object [("id", .str r.id), ("logical_slot_id", .str r.logicalSlotId),
    ("resolved_run_id", .str r.resolvedRunId), ("role", .str r.role), ("kind", .str r.kind),
    ("definition", r.definition)]

structure ObservationSlotEvidence where
  id : String
  logicalSlotId : String
  resolvedRunId : String
  definition : Json

def ObservationSlotEvidence.value (r : ObservationSlotEvidence) : Json :=
  .object [("id", .str r.id), ("logical_slot_id", .str r.logicalSlotId),
    ("resolved_run_id", .str r.resolvedRunId), ("definition", r.definition)]

structure SlotMembershipEvidence where
  attemptSlotId : String
  observationSlotId : String
  resolvedRunId : String

def SlotMembershipEvidence.value (r : SlotMembershipEvidence) : Json :=
  .object [("attempt_slot_id", .str r.attemptSlotId),
    ("observation_slot_id", .str r.observationSlotId), ("resolved_run_id", .str r.resolvedRunId)]

structure AttemptEvidence where
  id : String
  slotId : String
  retryIndex : Nat
  state : String
  revision : Nat
  startedAtNs : String
  updatedAtNs : String
  finishedAtNs : Option String
  failureCode : Option String
  artifactId : Option String
  leaseExpiresAtNs : Option String

def AttemptEvidence.value (r : AttemptEvidence) : Json :=
  .object [("id", .str r.id), ("slot_id", .str r.slotId), ("retry_index", .nat r.retryIndex),
    ("state", .str r.state), ("revision", .nat r.revision), ("started_at_ns", .str r.startedAtNs),
    ("updated_at_ns", .str r.updatedAtNs), ("finished_at_ns", optionalText r.finishedAtNs),
    ("failure_code", optionalText r.failureCode), ("artifact_id", optionalText r.artifactId),
    ("lease_expires_at_ns", optionalText r.leaseExpiresAtNs)]

structure TransitionEvidence where
  attemptId : String
  revision : Nat
  previousRevision : Option Nat
  fromState : Option String
  toState : String
  occurredAtNs : String
  eventSequence : Nat

def TransitionEvidence.value (r : TransitionEvidence) : Json :=
  .object [("attempt_id", .str r.attemptId), ("revision", .nat r.revision),
    ("previous_revision", .ofOption .nat r.previousRevision),
    ("from_state", optionalText r.fromState), ("to_state", .str r.toState),
    ("occurred_at_ns", .str r.occurredAtNs), ("event_sequence", .nat r.eventSequence)]

structure ObservationEvidence where
  id : String
  slotId : String
  attemptId : String
  attemptSlotId : String
  artifactId : String
  valid : Bool
  completion : String
  selected : Bool
  definition : Json

def ObservationEvidence.value (r : ObservationEvidence) : Json :=
  .object [("id", .str r.id), ("slot_id", .str r.slotId), ("attempt_id", .str r.attemptId),
    ("attempt_slot_id", .str r.attemptSlotId), ("artifact_id", .str r.artifactId),
    ("valid", .bool r.valid), ("completion", .str r.completion), ("selected", .bool r.selected),
    ("definition", r.definition)]

structure SelectionEvidence where
  slotId : String
  observationId : String
  selectedAtNs : String

def SelectionEvidence.value (r : SelectionEvidence) : Json :=
  .object [("slot_id", .str r.slotId), ("observation_id", .str r.observationId),
    ("selected_at_ns", .str r.selectedAtNs)]

structure StoredArtifactEvidence where
  id : String
  kind : String
  path : String
  sha256 : String
  storageKind : String
  manifestSha256 : Option String
  verifiedAtNs : String

def StoredArtifactEvidence.value (r : StoredArtifactEvidence) : Json :=
  .object [("id", .str r.id), ("kind", .str r.kind), ("path", .str r.path),
    ("sha256", .str r.sha256), ("storage_kind", .str r.storageKind),
    ("manifest_sha256", optionalText r.manifestSha256), ("verified_at_ns", .str r.verifiedAtNs)]

structure AttemptArtifactEvidence where
  attemptId : String
  role : String
  artifactId : String

def AttemptArtifactEvidence.value (r : AttemptArtifactEvidence) : Json :=
  .object [("attempt_id", .str r.attemptId), ("role", .str r.role),
    ("artifact_id", .str r.artifactId)]

structure ObservationArtifactEvidence where
  observationId : String
  role : String
  artifactId : String

def ObservationArtifactEvidence.value (r : ObservationArtifactEvidence) : Json :=
  .object [("observation_id", .str r.observationId), ("role", .str r.role),
    ("artifact_id", .str r.artifactId)]

structure EventEvidence where
  sequence : Nat
  attemptId : Option String
  occurredAtNs : String
  kind : String
  payload : Json

def EventEvidence.value (r : EventEvidence) : Json :=
  .object [("sequence", .nat r.sequence), ("attempt_id", optionalText r.attemptId),
    ("occurred_at_ns", .str r.occurredAtNs), ("kind", .str r.kind), ("payload", r.payload)]

structure FreshMemberEvidence where
  slotId : String
  resolvedRunId : String
  measurementIndex : Nat
  scheduleIndex : Nat
  control : Json
  observationSlotId : String

def FreshMemberEvidence.value (r : FreshMemberEvidence) : Json :=
  .object [("slot_id", .str r.slotId), ("resolved_run_id", .str r.resolvedRunId),
    ("measurement_index", .nat r.measurementIndex), ("schedule_index", .nat r.scheduleIndex),
    ("control", r.control), ("observation_slot_id", .str r.observationSlotId)]

structure FreshBudgetEvidence where
  attemptId : String
  reservedNs : Nat
  chargedNs : Option Nat

def FreshBudgetEvidence.value (r : FreshBudgetEvidence) : Json :=
  .object [("attempt_id", .str r.attemptId), ("reserved_ns", .nat r.reservedNs),
    ("charged_ns", .ofOption .nat r.chargedNs)]

structure FreshDispositionEvidence where
  slotId : String
  reason : String
  causingAttemptId : String

def FreshDispositionEvidence.value (r : FreshDispositionEvidence) : Json :=
  .object [("slot_id", .str r.slotId), ("reason", .str r.reason),
    ("causing_attempt_id", .str r.causingAttemptId)]

structure FreshPolicyEvidence where
  resolvedRunId : String
  measurementIndex : Nat
  policy : Json

def FreshPolicyEvidence.value (r : FreshPolicyEvidence) : Json :=
  .object [("resolved_run_id", .str r.resolvedRunId),
    ("measurement_index", .nat r.measurementIndex), ("policy", r.policy)]

/-- The serialized progress of a fresh sequence. -/
def progressValue (r : FreshSequenceProgress) : Json :=
  .object [("resolved_specification_id", .str r.resolvedSpecificationId),
    ("logical_specification_id", .str r.logicalSpecificationId),
    ("measurement_index", .nat r.measurementIndex), ("scheduled_points", .nat r.scheduledPoints),
    ("accepted_points", .nat r.acceptedPoints), ("consumed_time_ns", .nat r.consumedTimeNs),
    ("conservative_time_ns", .nat r.conservativeTimeNs), ("status", .str r.status),
    ("reason", optionalText r.reason)]

/-! ## The evidence -/

/-- Nested records inherit the enclosing archive's compatibility version. -/
inductive ArchiveRecord where
  | applicability (record : ApplicabilityEvidence)
  | resolvedSpecification (record : ResolvedSpecificationEvidence)
  | resolvedAttemptSlot (record : AttemptSlotEvidence)
  | resolvedObservationSlot (record : ObservationSlotEvidence)
  | slotMembership (record : SlotMembershipEvidence)
  | attempt (record : AttemptEvidence)
  | attemptTransition (record : TransitionEvidence)
  | observation (record : ObservationEvidence)
  | observationSelection (record : SelectionEvidence)
  | storedArtifact (record : StoredArtifactEvidence)
  | attemptArtifact (record : AttemptArtifactEvidence)
  | observationArtifact (record : ObservationArtifactEvidence)
  | event (record : EventEvidence)
  | freshMember (record : FreshMemberEvidence)
  | freshBudget (record : FreshBudgetEvidence)
  | freshDisposition (record : FreshDispositionEvidence)
  | freshPolicy (record : FreshPolicyEvidence)
  | freshSequence (record : FreshSequenceProgress)

def ArchiveRecord.value : ArchiveRecord → Json
  | .applicability record => record.value
  | .resolvedSpecification record => record.value
  | .resolvedAttemptSlot record => record.value
  | .resolvedObservationSlot record => record.value
  | .slotMembership record => record.value
  | .attempt record => record.value
  | .attemptTransition record => record.value
  | .observation record => record.value
  | .observationSelection record => record.value
  | .storedArtifact record => record.value
  | .attemptArtifact record => record.value
  | .observationArtifact record => record.value
  | .event record => record.value
  | .freshMember record => record.value
  | .freshBudget record => record.value
  | .freshDisposition record => record.value
  | .freshPolicy record => record.value
  | .freshSequence record => progressValue record

/-- The committed coordination evidence of an archive. -/
structure ArchiveEvidence where
  schemaVersion : Nat
  records : List ArchiveRecord

namespace ArchiveEvidence

variable (e : ArchiveEvidence)

/-! The records of one kind, in the order of the archive. -/

def applicability : List ApplicabilityEvidence :=
  e.records.filterMap fun | .applicability r => some r | _ => none

def runs : List ResolvedSpecificationEvidence :=
  e.records.filterMap fun | .resolvedSpecification r => some r | _ => none

def slots : List AttemptSlotEvidence :=
  e.records.filterMap fun | .resolvedAttemptSlot r => some r | _ => none

def observationSlots : List ObservationSlotEvidence :=
  e.records.filterMap fun | .resolvedObservationSlot r => some r | _ => none

def members : List SlotMembershipEvidence :=
  e.records.filterMap fun | .slotMembership r => some r | _ => none

def attempts : List AttemptEvidence :=
  e.records.filterMap fun | .attempt r => some r | _ => none

def transitions : List TransitionEvidence :=
  e.records.filterMap fun | .attemptTransition r => some r | _ => none

def observations : List ObservationEvidence :=
  e.records.filterMap fun | .observation r => some r | _ => none

def selections : List SelectionEvidence :=
  e.records.filterMap fun | .observationSelection r => some r | _ => none

def artifacts : List StoredArtifactEvidence :=
  e.records.filterMap fun | .storedArtifact r => some r | _ => none

def attemptArtifacts : List AttemptArtifactEvidence :=
  e.records.filterMap fun | .attemptArtifact r => some r | _ => none

def observationArtifacts : List ObservationArtifactEvidence :=
  e.records.filterMap fun | .observationArtifact r => some r | _ => none

def events : List EventEvidence :=
  e.records.filterMap fun | .event r => some r | _ => none

def freshMembers : List FreshMemberEvidence :=
  e.records.filterMap fun | .freshMember r => some r | _ => none

def freshBudgets : List FreshBudgetEvidence :=
  e.records.filterMap fun | .freshBudget r => some r | _ => none

def freshDispositions : List FreshDispositionEvidence :=
  e.records.filterMap fun | .freshDisposition r => some r | _ => none

def freshPolicies : List FreshPolicyEvidence :=
  e.records.filterMap fun | .freshPolicy r => some r | _ => none

def freshSequences : List FreshSequenceProgress :=
  e.records.filterMap fun | .freshSequence r => some r | _ => none

end ArchiveEvidence

end Metewand.Archive
