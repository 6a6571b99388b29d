import Metewand.Core.Json

/-!
# Typed content identities

An identity is a SHA-256 digest under a kind tag.  The hash itself is a
parameter (`Hasher`): it receives the kind and the canonical identity value,
which stands for the byte transcript `kind NUL canonical-bytes`.

`IdentityRecord` gives each record its explicit identity representation;
`canonicalIdentity` adds the top-level `version` and normalizes, and `recordId`
hashes the result.
-/

namespace Metewand

/-- Version of the canonical identity representation. -/
def identityVersion : Nat := 1

/-- Version of the public documents. -/
def publicSchemaVersion : Nat := 1

/-! ## Digests and identifiers -/

/-- Thirty-two bytes. -/
structure Digest where
  bytes : List UInt8
  size : bytes.length = 32
  deriving DecidableEq

/-- The digest made of one repeated byte. -/
def Digest.fill (byte : UInt8) : Digest := ⟨List.replicate 32 byte, by simp⟩

instance : Inhabited Digest := ⟨.fill 0⟩

def hexDigit (n : Nat) : Char :=
  if n < 10 then Char.ofNat (48 + n) else Char.ofNat (87 + n)

/-- Lowercase hexadecimal text. -/
def Digest.hex (digest : Digest) : String :=
  String.ofList (digest.bytes.flatMap fun byte =>
    [hexDigit (byte.toNat / 16), hexDigit (byte.toNat % 16)])

/-- The kinds of typed identities. -/
inductive IdentityKind where
  | schema | problemContract | sourceBundle | artifact | environmentDefinition
  | workerDefinition | datasetDefinition | problemDefinition | implementationDefinition
  | executionPolicy | observationPolicy | datasetConfiguration | problemConfiguration
  | implementationConfiguration | datasetInstance | problemInstance | logicalCandidate
  | logicalSpecification | logicalObservationSlot | logicalAttemptSlot
  | resolvedEnvironment | resolvedLaunch | executorDefinition | resolvedWorker
  | applicability | resolvedSpecification | resolvedObservationSlot
  | resolvedAttemptSlot | observation | attempt
  deriving DecidableEq, Repr

/-- The tag inserted into the public spelling and the digest domain separator. -/
def IdentityKind.tag : IdentityKind → String
  | .schema => "schema"
  | .problemContract => "problem-contract"
  | .sourceBundle => "source-bundle"
  | .artifact => "artifact"
  | .environmentDefinition => "environment-definition"
  | .workerDefinition => "worker-definition"
  | .datasetDefinition => "dataset-definition"
  | .problemDefinition => "problem-definition"
  | .implementationDefinition => "implementation-definition"
  | .executionPolicy => "execution-policy"
  | .observationPolicy => "observation-policy"
  | .datasetConfiguration => "dataset-configuration"
  | .problemConfiguration => "problem-configuration"
  | .implementationConfiguration => "implementation-configuration"
  | .datasetInstance => "dataset-instance"
  | .problemInstance => "problem-instance"
  | .logicalCandidate => "logical-candidate"
  | .logicalSpecification => "logical-specification"
  | .logicalObservationSlot => "logical-observation-slot"
  | .logicalAttemptSlot => "logical-attempt-slot"
  | .resolvedEnvironment => "resolved-environment"
  | .resolvedLaunch => "resolved-launch"
  | .executorDefinition => "executor-definition"
  | .resolvedWorker => "resolved-worker"
  | .applicability => "applicability"
  | .resolvedSpecification => "resolved-specification"
  | .resolvedObservationSlot => "resolved-observation-slot"
  | .resolvedAttemptSlot => "resolved-attempt-slot"
  | .observation => "observation"
  | .attempt => "attempt"

/-- A content identity of one kind. -/
structure RecordId (kind : IdentityKind) where
  digest : Digest
  deriving DecidableEq

instance {kind : IdentityKind} : Inhabited (RecordId kind) := ⟨⟨default⟩⟩

/-- The public spelling `mw1-<kind>-<sha256>`. -/
def RecordId.text {kind : IdentityKind} (id : RecordId kind) : String :=
  "mw1-" ++ kind.tag ++ "-" ++ id.digest.hex

/-- The identity as a document value. -/
def RecordId.json {kind : IdentityKind} (id : RecordId kind) : Json := .str id.text

/-- Text order of two identities of one kind: their digits compare as their bytes do. -/
def RecordId.le {kind : IdentityKind} (a b : RecordId kind) : Prop :=
  a.digest.bytes ≤ b.digest.bytes

instance {kind : IdentityKind} : DecidableRel (@RecordId.le kind) :=
  fun a b => inferInstanceAs (Decidable (a.digest.bytes ≤ b.digest.bytes))

/-! ## Identified records -/

/-- SHA-256 of the kind tag, a NUL byte and the canonical bytes of the value. -/
abbrev Hasher : Type := IdentityKind → Json → Digest

/-- A record with an explicit canonical identity representation. -/
class IdentityRecord (T : Type) (kind : outParam IdentityKind) where
  /-- The fields beneath the representation's top-level `version`. -/
  identityFields : T → List (String × Json)

open IdentityRecord in
/-- The canonical identity value of a record. -/
def canonicalIdentity {T : Type} {kind : IdentityKind} [IdentityRecord T kind] (record : T) :
    Except Json.CanonicalValueViolation Json :=
  (Json.object (("version", .nat identityVersion) :: identityFields record)).normalize

/-- The typed identity of a record. -/
def recordId (hash : Hasher) {T : Type} {kind : IdentityKind} [IdentityRecord T kind]
    (record : T) : Except Json.CanonicalValueViolation (RecordId kind) :=
  (canonicalIdentity record).map fun value => ⟨hash kind value⟩

/-- A record together with the identity its holder claims for it. -/
structure IdentifiedRecord (T : Type) (kind : IdentityKind) where
  id : RecordId kind
  record : T

/-- An attempt's identity before its terminal record exists. -/
def runAttemptId (hash : Hasher) (slot : RecordId .resolvedAttemptSlot) (retryIndex : Nat) :
    Except Json.CanonicalValueViolation (RecordId .attempt) :=
  (Json.object [("version", .nat identityVersion), ("slot", slot.json),
    ("retry_index", .nat retryIndex)]).normalize.map fun value => ⟨hash .attempt value⟩

/-! ## Applicability decisions -/

/-- Support state before or after resolution. -/
inductive ApplicabilityOutcome where
  | unchecked
  | applicable
  | notApplicable
  deriving DecidableEq, Repr

def ApplicabilityOutcome.name : ApplicabilityOutcome → String
  | .unchecked => "unchecked"
  | .applicable => "applicable"
  | .notApplicable => "not_applicable"

structure ApplicabilityDecisionRecord where
  candidateId : RecordId .logicalCandidate
  outcome : ApplicabilityOutcome
  code : String
  reason : String
  checkedInputs : Option Json
  evidence : Option Json
  details : Option Json

instance : IdentityRecord ApplicabilityDecisionRecord .applicability where
  identityFields record := [
    ("candidate_id", record.candidateId.json),
    ("outcome", .str record.outcome.name),
    ("code", .str record.code),
    ("reason", .str record.reason),
    ("checked_inputs", .ofOption id record.checkedInputs),
    ("evidence", .ofOption id record.evidence),
    ("details", .ofOption id record.details)]

/-! ## Resolved runs and slots -/

structure ResolvedWorkerRecord where
  sourceBundle : Option (RecordId .sourceBundle)
  environment : RecordId .resolvedEnvironment
  launch : RecordId .resolvedLaunch
  deriving DecidableEq

def ResolvedWorkerRecord.json (worker : ResolvedWorkerRecord) : Json :=
  .object [
    ("source_bundle", .ofOption RecordId.json worker.sourceBundle),
    ("environment", worker.environment.json),
    ("launch", worker.launch.json)]

structure ResolvedOneShotSpecificationRecord where
  applicability : Option (RecordId .applicability)
  logicalSpecification : RecordId .logicalSpecification
  problemInstance : RecordId .problemInstance
  implementation : ResolvedWorkerRecord
  evaluator : ResolvedWorkerRecord
  executor : RecordId .executorDefinition
  wireProtocolVersion : Nat
  executionSemanticsVersion : Nat

instance : IdentityRecord ResolvedOneShotSpecificationRecord .resolvedSpecification where
  identityFields record :=
    let fields := [
      ("kind", Json.str "one_shot"),
      ("logical_specification", record.logicalSpecification.json),
      ("problem_instance", record.problemInstance.json),
      ("implementation", record.implementation.json),
      ("evaluator", record.evaluator.json),
      ("executor", record.executor.json),
      ("wire_protocol_version", .nat record.wireProtocolVersion),
      ("execution_semantics_version", .nat record.executionSemanticsVersion)]
    match record.applicability with
    | some decision => ("applicability", decision.json) :: fields
    | none => fields

structure ResolvedObservationSlotRecord where
  logicalSlot : RecordId .logicalObservationSlot
  specification : RecordId .resolvedSpecification

instance : IdentityRecord ResolvedObservationSlotRecord .resolvedObservationSlot where
  identityFields record := [
    ("logical_slot", record.logicalSlot.json),
    ("specification", record.specification.json)]

structure ResolvedAttemptSlotRecord where
  logicalSlot : RecordId .logicalAttemptSlot
  specification : RecordId .resolvedSpecification

instance : IdentityRecord ResolvedAttemptSlotRecord .resolvedAttemptSlot where
  identityFields record := [
    ("logical_slot", record.logicalSlot.json),
    ("specification", record.specification.json)]

end Metewand
