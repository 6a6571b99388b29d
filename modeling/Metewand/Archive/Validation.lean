import Metewand.Archive.Evidence
import Metewand.Lib.Check
import Mathlib.Data.List.Sort

/-!
# Validation of archive evidence

`core/archive/validation.rs`.  The validator reads serialized rows by field name:
a missing field reads as `null`, like a field of a value that is no object.  One
definition stands for each loop of `validate`; the ordered maps the source builds
are lists of entries in ascending key order.

The hash is a parameter, and so is `readPolicy`, the deserializer the serialization
library derives for `ProfilePolicy`.
-/

namespace Metewand.Archive

open Lib Check

inductive ArchiveEvidenceError where
  | unsupportedVersion
  | unsettled
  | invalid (message : String)
  /-- `Invalid` with the text of the violation. -/
  | invalidValue (violation : Json.CanonicalValueViolation)

abbrev Checked (α : Type) : Type := Except ArchiveEvidenceError α

def invalid (message : String) : ArchiveEvidenceError := .invalid message

/-! ## Fields -/

def text (row : Json) (key : String) : Checked String :=
  expect (row.get key).asStr? (invalid ("missing string evidence field: " ++ key))

/-- `Value::as_u64`. -/
def asU64? : Json → Option Nat
  | .num (.int value) => if 0 ≤ value ∧ value < 2 ^ 64 then some value.toNat else none
  | _ => none

def integer (row : Json) (key : String) : Checked Nat :=
  expect (asU64? (row.get key)) (invalid ("missing integer evidence field: " ++ key))

def timestamp (row : Json) (key : String) : Checked Nat := do
  let value ← text row key
  expect (parseUnsigned value) (invalid "invalid evidence timestamp")

/-! ## Indexes -/

/-- Rows by the text of one of their fields, in ascending order of the text. -/
abbrev Index : Type := List (String × Json)

def Index.values (index : Index) : List Json := index.map Prod.snd

def Index.get (index : Index) (key : String) : Option Json := Json.lookupMember key index

/-- Enter one row; a second row with the key is refused. -/
def enter (key : String) (output : Index) (row : Json) : Checked Index := do
  let id ← text row key
  reject ((output.get id).isSome = true)
    (invalid "duplicate evidence identity or coordination key")
  pure (Json.insertMember id row output)

def index (rows : List Json) (key : String) : Checked Index := thread (enter key) [] rows

/-- No two rows agree on the keys; the compact texts the source compares differ for
different values. -/
def unique (rows : List Json) (keys : List String) : Checked Unit :=
  reject (¬(rows.map fun row => keys.map fun key => row.get key).Nodup)
    (invalid "duplicate evidence coordination key")

def reference (index : Index) (row : Json) (key : String) : Checked Json := do
  let id ← text row key
  expect (index.get id) (invalid ("missing referenced evidence: " ++ key))

/-! ## Identities -/

section Identities

variable (hash : Hasher)

def verifyIdentity (kind : IdentityKind) (id : String) (representation : Json) :
    Checked Unit := do
  reject (representation.get "version" ≠ .nat identityVersion)
    (invalid "unsupported canonical identity version")
  match RecordId.parse kind id with
  | .error e => throw (invalid e.message)
  | .ok expected =>
      match representation.normalize with
      | .error violation => throw (.invalidValue violation)
      | .ok canonical =>
          reject (expected ≠ ⟨hash kind canonical⟩)
            (invalid "canonical identity does not match its recorded representation")

/-- A duration of the observation document, in the form its identity uses. -/
def documentDuration (document : Json) (key : String) : Checked Json :=
  if (document.get "timing").get key = .null then pure .null
  else do
    let ns ← integer (document.get "timing") key
    pure (.object [("seconds", .nat (ns / 1000000000)), ("nanoseconds", .nat (ns % 1000000000))])

/-- The member of an object, `null` included, when there is one. -/
def member? (key : String) : Json → Option Json
  | .obj members => Json.lookupMember key members
  | _ => none

/-- The identity representation an observation row and its document determine. -/
def observationRepresentation (row document : Json)
    (wall implementation evaluation cpu : Json) : Json :=
  let representation := Json.object [
    ("version", .nat identityVersion),
    ("slot", row.get "slot_id"),
    ("producing_attempt", row.get "attempt_id"),
    ("result", document.get "result"),
    ("metrics", document.get "metrics"),
    ("completion", row.get "completion"),
    ("timing", .object [
      ("primary_time", (document.get "timing").get "primary_time"),
      ("timed_wall_time", wall),
      ("implementation_time", implementation),
      ("evaluation_time", evaluation),
      ("cpu_time", cpu),
      ("peak_rss_bytes", (document.get "timing").get "peak_rss_bytes")])]
  match member? "profile" document with
  | some profile => representation.set "profile" profile
  | none => representation

def verifyObservation (row : Json) : Checked Unit := do
  let document := row.get "definition"
  reject (document.get "id" ≠ row.get "id" ∨ document.get "slot_id" ≠ row.get "slot_id" ∨
      document.get "attempt_id" ≠ row.get "attempt_id" ∨
      (document.get "validity").get "valid" ≠ row.get "valid" ∨
      (document.get "validity").get "completion" ≠ row.get "completion")
    (invalid "observation projection disagrees with its document")
  let wall ← documentDuration document "timed_wall_time_ns"
  let implementation ← documentDuration document "implementation_time_ns"
  let evaluation ← documentDuration document "evaluation_time_ns"
  let cpu ← documentDuration document "cpu_time_ns"
  let id ← text row "id"
  verifyIdentity hash .observation id
    (observationRepresentation row document wall implementation evaluation cpu)

end Identities

/-! ## The checks of `validate` -/

/-- The records every other record refers to, by their keys. -/
structure Indexes where
  applicability : Index
  runs : Index
  slots : Index
  observationSlots : Index
  attempts : Index
  observations : Index
  artifacts : Index
  members : Index
  selections : Index

def buildIndexes (e : ArchiveEvidence) : Checked Indexes := do
  let applicability ← index (e.applicability.map ApplicabilityEvidence.value) "id"
  let runs ← index (e.runs.map ResolvedSpecificationEvidence.value) "id"
  let slots ← index (e.slots.map AttemptSlotEvidence.value) "id"
  let observationSlots ← index (e.observationSlots.map ObservationSlotEvidence.value) "id"
  let attempts ← index (e.attempts.map AttemptEvidence.value) "id"
  let observations ← index (e.observations.map ObservationEvidence.value) "id"
  let artifacts ← index (e.artifacts.map StoredArtifactEvidence.value) "id"
  let members ← index (e.members.map SlotMembershipEvidence.value) "observation_slot_id"
  let selections ← index (e.selections.map SelectionEvidence.value) "observation_id"
  pure ⟨applicability, runs, slots, observationSlots, attempts, observations, artifacts, members,
    selections⟩

def checkKeys (e : ArchiveEvidence) : Checked Unit := do
  unique (e.artifacts.map StoredArtifactEvidence.value) ["path"]
  unique (e.slots.map AttemptSlotEvidence.value) ["logical_slot_id", "resolved_run_id"]
  unique (e.observationSlots.map ObservationSlotEvidence.value)
    ["logical_slot_id", "resolved_run_id"]
  unique (e.attempts.map AttemptEvidence.value) ["slot_id", "retry_index"]
  unique (e.selections.map SelectionEvidence.value) ["slot_id"]
  unique (e.events.map EventEvidence.value) ["sequence"]
  unique (e.transitions.map TransitionEvidence.value) ["attempt_id", "revision"]
  unique (e.transitions.map TransitionEvidence.value) ["event_sequence"]
  unique (e.attemptArtifacts.map AttemptArtifactEvidence.value)
    ["attempt_id", "role", "artifact_id"]
  unique (e.observationArtifacts.map ObservationArtifactEvidence.value)
    ["observation_id", "role", "artifact_id"]

def artifactKinds : List String :=
  ["attempt", "observation", "result", "metrics", "dataset", "source", "environment", "other"]

def checkArtifact (artifact : Json) : Checked Unit := do
  let kind ← text artifact "kind"
  let storage ← text artifact "storage_kind"
  reject (kind ∉ artifactKinds ∨ storage ∉ ["file", "directory"] ∨
      (artifact.get "storage_kind" = .str "directory" ∧ artifact.get "manifest_sha256" = .null))
    (invalid "unsupported or incomplete artifact registration")
  let id ← text artifact "id"
  if startsWith "run-store-v1:" id = true then do
    let sha256 ← text artifact "sha256"
    reject (artifact.get "id" ≠ .str ("run-store-v1:" ++ kind ++ "-" ++ sha256))
      (invalid "stored artifact identity disagrees with its content hash")
  else pure ()

/-- The key of a decision that was synthesized for a candidate nobody checked. -/
def unconditionalKey : String := "run-store-v1:unconditional:"

section Checks

variable (hash : Hasher)

def checkDecision (decision : Json) : Checked Unit := do
  let outcome ← text (decision.get "definition") "outcome"
  reject (outcome ∉ ["applicable", "excluded"])
    (invalid "unsupported persisted applicability outcome")
  let id ← text decision "id"
  if startsWith unconditionalKey id = true then do
    let candidate ← text decision "candidate_id"
    reject (decision.get "id" ≠ .str (unconditionalKey ++ candidate) ∨
        decision.get "applicable" ≠ .bool true)
      (invalid "invalid legacy unconditional applicability")
  else verifyIdentity hash .applicability id (decision.get "definition")
  reject ((decision.get "definition").get "candidate_id" ≠ decision.get "candidate_id" ∨
      ¬((decision.get "definition").get "outcome" = .str "applicable" ↔
        decision.get "applicable" = .bool true))
    (invalid "applicability projection disagrees with its definition")

def checkRun (applicability : Index) (run : Json) : Checked Unit := do
  let id ← text run "id"
  verifyIdentity hash .resolvedSpecification id (run.get "definition")
  reject ((run.get "definition").get "logical_specification" ≠ run.get "logical_specification_id" ∨
      ((run.get "definition").get "applicability" ≠ .null ∧
        (run.get "definition").get "applicability" ≠ run.get "applicability_id"))
    (invalid "resolved run projection disagrees with its definition")
  let decision ← reference applicability run "applicability_id"
  reject (decision.get "applicable" ≠ .bool true ∨
      decision.get "candidate_id" ≠ run.get "candidate_id")
    (invalid "resolved run has inconsistent applicability evidence")

/-- A slot of either kind agrees with its definition and its run. -/
def checkSlotProjection (runs : Index) (slot : Json) : Checked Unit := do
  let _ ← reference runs slot "resolved_run_id"
  reject ((slot.get "definition").get "logical_slot" ≠ slot.get "logical_slot_id" ∨
      (slot.get "definition").get "specification" ≠ slot.get "resolved_run_id")
    (invalid "slot projection disagrees with its definition")

def checkObservationSlot (slot : Json) : Checked Unit := do
  let id ← text slot "id"
  verifyIdentity hash .resolvedObservationSlot id (slot.get "definition")

def checkAttemptSlot (slot : Json) : Checked Unit := do
  let id ← text slot "id"
  verifyIdentity hash .resolvedAttemptSlot id (slot.get "definition")
  reject (¬(∃ v ∈ ["measurement", "warmup"], slot.get "role" = .str v) ∨
      ¬∃ v ∈ ["one_shot", "buffered", "fresh_observation", "stream"], slot.get "kind" = .str v)
    (invalid "unsupported attempt slot role or delivery kind")

def checkMember (slots observationSlots : Index) (member : Json) : Checked Unit := do
  let slot ← reference slots member "attempt_slot_id"
  let observation ← reference observationSlots member "observation_slot_id"
  reject (slot.get "resolved_run_id" ≠ member.get "resolved_run_id" ∨
      observation.get "resolved_run_id" ≠ member.get "resolved_run_id")
    (invalid "observation membership crosses resolved runs")

/-- A row refers to existing rows by the given fields. -/
def checkReferences (targets : List (Index × String)) (row : Json) : Checked Unit :=
  each (fun target => do
    let _ ← reference target.1 row target.2
    pure ()) targets

/-! ### Attempts and their histories -/

def allowedTransition (source target : String) : Bool :=
  match source, target with
  | "reserved", "materializing" | "materializing", "starting" | "starting", "preparing"
  | "preparing", "executing" | "executing", "checkpointing" | "executing", "validating"
  | "checkpointing", "validating" | "validating", "evaluating" | "evaluating", "executing" => true
  | "reserved", "finalizing" | "materializing", "finalizing" | "starting", "finalizing"
  | "preparing", "finalizing" | "executing", "finalizing" | "checkpointing", "finalizing"
  | "validating", "finalizing" | "evaluating", "finalizing" => true
  | "finalizing", "accepted" | "finalizing", "censored" | "finalizing", "superseded"
  | "finalizing", "failed" => true
  | _, _ => false

/-- Order of two optional numbers, an absent one first. -/
def optionLe : Option Nat → Option Nat → Prop
  | none, _ => True
  | some _, none => False
  | some a, some b => a ≤ b

instance : DecidableRel optionLe := fun a b =>
  match a, b with
  | none, _ => isTrue trivial
  | some _, none => isFalse id
  | some a, some b => inferInstanceAs (Decidable (a ≤ b))

/-- The transitions of an attempt in the order of their revisions. -/
def historyRows (transitions : List Json) (attempt : Json) : List Json :=
  (transitions.filter fun row => row.get "attempt_id" = attempt.get "id").insertionSort
    fun a b => optionLe (asU64? (a.get "revision")) (asU64? (b.get "revision"))

/-- What follows from the transition before, or from being the first one. -/
def checkEdge (start : Nat) (previous : Option Json) (transition : Json) : Checked Unit :=
  match previous with
  | some previous => do
      let source ← text previous "to_state"
      let target ← text transition "to_state"
      reject (allowedTransition source target = false)
        (invalid "unsupported attempt state transition")
      reject (transition.get "previous_revision" ≠ previous.get "revision" ∨
          transition.get "from_state" ≠ previous.get "to_state")
        (invalid "attempt transitions do not form an ordered chain")
      let now ← timestamp transition "occurred_at_ns"
      let before ← timestamp previous "occurred_at_ns"
      reject (now < before) (invalid "attempt transitions do not form an ordered chain")
  | none => do
      reject (transition.get "to_state" ≠ .str "reserved" ∨ transition.get "from_state" ≠ .null ∨
          transition.get "previous_revision" ≠ .null)
        (invalid "attempt history does not start with its reservation")
      let now ← timestamp transition "occurred_at_ns"
      reject (now ≠ start) (invalid "attempt history does not start with its reservation")

def checkTransition (events : List Json) (attempt : Json) (start revision : Nat)
    (previous : Option Json) (transition : Json) : Checked Unit := do
  let found ← integer transition "revision"
  reject (found ≠ revision) (invalid "attempt revisions are not contiguous")
  checkEdge start previous transition
  let event ← expect
    (events.find? fun event => event.get "sequence" = transition.get "event_sequence")
    (invalid "attempt transition lacks its event")
  reject (event.get "attempt_id" ≠ attempt.get "id" ∨
      event.get "occurred_at_ns" ≠ transition.get "occurred_at_ns")
    (invalid "attempt transition disagrees with its event")

/-- The loop over a history; it returns the last transition. -/
def checkHistory (events : List Json) (attempt : Json) (start : Nat) :
    Nat → Option Json → List Json → Checked (Option Json)
  | _, previous, [] => pure previous
  | revision, previous, transition :: rest => do
      checkTransition events attempt start revision previous transition
      checkHistory events attempt start (revision + 1) (some transition) rest

def terminalStates : List String := ["accepted", "failed", "censored", "superseded"]

/-- An attempt's identity; a slot that is no identity of the current form is passed over. -/
def checkAttemptId (attempt : Json) (slot : String) : Checked Unit :=
  match RecordId.parse .resolvedAttemptSlot slot with
  | .error _ => pure ()
  | .ok slot => do
      let retry ← integer attempt "retry_index"
      match runAttemptId hash slot retry with
      | .error violation => throw (.invalidValue violation)
      | .ok expected => do
          let id ← text attempt "id"
          reject (expected.text ≠ id)
            (invalid "attempt identity disagrees with its slot and retry index")

/-- One attempt; the slots that have an accepted attempt are handed on. -/
def checkAttempt (e : ArchiveEvidence) (slots artifacts : Index) (accepted : List String)
    (attempt : Json) : Checked (List String) := do
  let _ ← reference slots attempt "slot_id"
  reject (¬(∃ v ∈ terminalStates, attempt.get "state" = .str v) ∨
    attempt.get "finished_at_ns" = .null) .unsettled
  let artifact ← reference artifacts attempt "artifact_id"
  reject (artifact.get "kind" ≠ .str "attempt")
    (invalid "terminal attempt references the wrong artifact kind")
  reject (¬(attempt.get "state" = .str "failed" ↔ attempt.get "failure_code" ≠ .null))
    (invalid "failure code disagrees with the attempt state")
  let start ← timestamp attempt "started_at_ns"
  let finished ← timestamp attempt "finished_at_ns"
  reject (finished < start ∨ attempt.get "updated_at_ns" ≠ attempt.get "finished_at_ns")
    (invalid "inconsistent terminal attempt timestamps")
  let slot ← text attempt "slot_id"
  reject (attempt.get "state" = .str "accepted" ∧ slot ∈ accepted)
    (invalid "several accepted attempts occupy one slot")
  checkAttemptId hash attempt slot
  let transitions := historyRows (e.transitions.map TransitionEvidence.value) attempt
  let revision ← integer attempt "revision"
  reject (2 ^ 64 ≤ revision + 1) (invalid "attempt revision overflows")
  reject (transitions.length ≠ revision + 1)
    (invalid "attempt transition history is incomplete")
  let last ← checkHistory (e.events.map EventEvidence.value) attempt start 0 none transitions
  reject (¬∃ last' ∈ last, last'.get "to_state" = attempt.get "state" ∧
      last'.get "occurred_at_ns" = attempt.get "finished_at_ns")
    (invalid "attempt projection disagrees with its transition history")
  pure (if attempt.get "state" = .str "accepted" then accepted ++ [slot] else accepted)

/-! ### Observations, selections and edges -/

def checkObservation (i : Indexes) (observation : Json) : Checked Unit := do
  verifyObservation hash observation
  let attempt ← reference i.attempts observation "attempt_id"
  let member ← reference i.members observation "slot_id"
  let artifact ← reference i.artifacts observation "artifact_id"
  reject (attempt.get "slot_id" ≠ observation.get "attempt_slot_id" ∨
      member.get "attempt_slot_id" ≠ observation.get "attempt_slot_id" ∨
      artifact.get "kind" ≠ .str "observation" ∨ observation.get "valid" ≠ .bool true)
    (invalid "observation disagrees with its producing attempt, slot, or artifact")
  if observation.get "selected" = .bool true then do
    let selection ← reference i.selections observation "id"
    reject (selection.get "slot_id" ≠ observation.get "slot_id" ∨
        attempt.get "state" ≠ .str "accepted")
      (invalid "selected observation has no accepted producing attempt")
  else do
    let id ← text observation "id"
    reject ((i.selections.get id).isSome = true)
      (invalid "observation selection flag disagrees with the selection record")

/-- An accepted measurement has produced observations, and all of them are selected. -/
def checkAccepted (i : Indexes) (attempt : Json) : Checked Unit := do
  let slot ← reference i.slots attempt "slot_id"
  if slot.get "role" = .str "measurement" then do
    let produced := i.observations.values.filter fun observation =>
      observation.get "attempt_id" = attempt.get "id"
    reject (produced = [] ∨ ∃ observation ∈ produced, observation.get "selected" ≠ .bool true)
      (invalid "accepted measurement lacks its selected observations")
  else pure ()

def checkEvent (attempts : Index) (event : Json) : Checked Unit :=
  if event.get "attempt_id" ≠ .null then do
    let _ ← reference attempts event "attempt_id"
    pure ()
  else pure ()

/-- The checks of what was registered before any attempt: decisions, runs, slots and
their memberships. -/
def checkRegistrations (i : Indexes) : Checked Unit := do
  each (checkDecision hash) i.applicability.values
  each (checkRun hash i.applicability) i.runs.values
  each (checkSlotProjection i.runs) (i.slots.values ++ i.observationSlots.values)
  each (checkObservationSlot hash) i.observationSlots.values
  each (checkAttemptSlot hash) i.slots.values
  each (checkMember i.slots i.observationSlots) i.members.values
  each (checkReferences [(i.members, "id")]) i.observationSlots.values

/-- The settled check on typed records that comes before everything else. -/
def checkSettled (record : ArchiveRecord) : Checked Unit :=
  match record with
  | .attempt attempt =>
      reject (attempt.finishedAtNs = none ∨ attempt.state ∉ terminalStates) .unsettled
  | _ => pure ()

end Checks

/-! ## The checks of `validate_fresh` -/

/-- The sequence a member or policy row belongs to. -/
def sequenceKey (row : Json) : Json × Json := (row.get "resolved_run_id", row.get "measurement_index")

/-- The sequence a progress row is about. -/
def progressKey (row : Json) : Json × Json :=
  (row.get "resolved_specification_id", row.get "measurement_index")

def checkFreshKeys (e : ArchiveEvidence) : Checked Unit := do
  unique (e.freshMembers.map FreshMemberEvidence.value)
    ["resolved_run_id", "measurement_index", "schedule_index"]
  unique (e.freshBudgets.map FreshBudgetEvidence.value) ["attempt_id"]
  unique (e.freshDispositions.map FreshDispositionEvidence.value) ["slot_id"]
  unique (e.freshPolicies.map FreshPolicyEvidence.value) ["resolved_run_id", "measurement_index"]
  unique (e.freshSequences.map progressValue) ["resolved_specification_id", "measurement_index"]

def checkFreshMember (slots memberships : Index) (policies : List Json) (member : Json) :
    Checked Unit := do
  let slot ← reference slots member "slot_id"
  let membership ← reference memberships member "observation_slot_id"
  reject (slot.get "resolved_run_id" ≠ member.get "resolved_run_id" ∨
      slot.get "kind" ≠ .str "fresh_observation" ∨
      membership.get "attempt_slot_id" ≠ member.get "slot_id")
    (invalid "inconsistent fresh-sequence membership")
  reject (¬∃ p ∈ policies, sequenceKey p = sequenceKey member)
    (invalid "fresh member has no sequence policy")

def checkFreshBudget (attempts members : Index) (budget : Json) : Checked Unit := do
  let attempt ← reference attempts budget "attempt_id"
  let _ ← reference members attempt "slot_id"
  reject ((∃ charged ∈ asU64? (budget.get "charged_ns"),
        (asU64? (budget.get "reserved_ns")).getD 0 < charged) ∨
      budget.get "reserved_ns" = .nat 0)
    (invalid "fresh time charge exceeds its reservation")

def checkFreshDisposition (attempts members : Index) (disposition : Json) : Checked Unit := do
  let member ← reference members disposition "slot_id"
  let cause ← reference attempts disposition "causing_attempt_id"
  let causing ← reference members cause "slot_id"
  reject (member.get "resolved_run_id" ≠ causing.get "resolved_run_id" ∨
      member.get "measurement_index" ≠ causing.get "measurement_index" ∨
      ¬∃ reason ∈ ["skipped_target_reached", "active_time_limit"],
        disposition.get "reason" = .str reason)
    (invalid "fresh stopping disposition crosses sequences or has an unsupported reason")

def checkFreshPolicy (runs : Index) (progress : List Json) (policy : Json) : Checked Unit := do
  let _ ← reference runs policy "resolved_run_id"
  reject (¬∃ p ∈ progress, progressKey p = sequenceKey policy)
    (invalid "fresh policy lacks its progress record")

/-- The row of an attempt whose slot is among the members. -/
def ofMembers (members : List Json) (attempt : Json) : Prop :=
  ∃ member ∈ members, member.get "slot_id" = attempt.get "slot_id"

instance (members : List Json) (attempt : Json) : Decidable (ofMembers members attempt) := by
  unfold ofMembers
  infer_instance

/-- Consumed and conservative time after one more budget row. -/
def addBudget (attempts : Index) (members : List Json) (totals : Nat × Nat) (budget : Json) :
    Checked (Nat × Nat) := do
  let attempt ← reference attempts budget "attempt_id"
  if ofMembers members attempt then do
    let reserved ← integer budget "reserved_ns"
    let charged := (asU64? (budget.get "charged_ns")).getD reserved
    reject (2 ^ 64 ≤ totals.1 + charged) (invalid "fresh time total overflows")
    if budget.get "charged_ns" = .null then do
      reject (2 ^ 64 ≤ totals.2 + reserved) (invalid "fresh conservative total overflows")
      pure (totals.1 + charged, totals.2 + reserved)
    else pure (totals.1 + charged, totals.2)
  else pure totals

/-- The status and reason the committed rows determine. -/
def progressStatus (target fixedCount : Prop) [Decidable target] [Decidable fixedCount]
    (accepted scheduled attempted consumed limit : Nat) : String × Option String :=
  if target then ("accepted", some "target_reached")
  else if fixedCount ∧ accepted = scheduled then ("accepted", some "fixed_count")
  else if limit ≤ consumed then ("censored", some "active_time_limit")
  else if attempted = scheduled then ("censored", some "schedule_exhausted")
  else ("partial", none)

/-- Some observation that reached the target was produced by an accepted member attempt. -/
def targetReached (attempts : Index) (members observations : List Json) : Prop :=
  ∃ observation ∈ observations, observation.get "completion" = .str "reached" ∧
    ∃ attempt ∈ attempts.get ((observation.get "attempt_id").asStr?.getD ""),
      attempt.get "state" = .str "accepted" ∧ ofMembers members attempt

instance (attempts : Index) (members observations : List Json) :
    Decidable (targetReached attempts members observations) := by
  unfold targetReached
  infer_instance

/-- A failure to read or validate a policy. -/
def policyResult {α : Type} (result : Except String α) : Checked α :=
  match result with
  | .ok value => pure value
  | .error message => throw (invalid message)

section Progress

variable (readPolicy : Json → Except String ProfilePolicy)

def checkProgress (e : ArchiveEvidence) (runs attempts members : Index) (progress : Json) :
    Checked Unit := do
  let policies := e.freshPolicies.map FreshPolicyEvidence.value
  let run ← reference runs progress "resolved_specification_id"
  reject (progress.get "logical_specification_id" ≠ run.get "logical_specification_id" ∨
      ¬∃ p ∈ policies, sequenceKey p = progressKey progress)
    (invalid "fresh progress lacks a matching run and policy")
  let sequenceMembers := members.values.filter fun member =>
    sequenceKey member = progressKey progress
  let accepted := (attempts.values.filter fun attempt =>
    attempt.get "state" = .str "accepted" ∧ ofMembers sequenceMembers attempt).length
  let scheduledPoints ← integer progress "scheduled_points"
  let acceptedPoints ← integer progress "accepted_points"
  reject (scheduledPoints ≠ sequenceMembers.length ∨ acceptedPoints ≠ accepted)
    (invalid "fresh progress counts disagree with committed attempts")
  let totals ← thread (addBudget attempts sequenceMembers) (0, 0)
    (e.freshBudgets.map FreshBudgetEvidence.value)
  -- the check above has found a policy of the sequence
  let row ← expect (policies.find? fun p => sequenceKey p = progressKey progress)
    (invalid "fresh progress lacks a matching run and policy")
  let policy ← policyResult (readPolicy (row.get "policy"))
  policyResult policy.validate
  let limit ← policyResult policy.activeTimeNs
  let attempted := (sequenceMembers.filter fun member =>
    ∃ attempt ∈ attempts.values, attempt.get "slot_id" = member.get "slot_id").length
  let status := progressStatus
    (targetReached attempts sequenceMembers (e.observations.map ObservationEvidence.value))
    (policy.metric = none) accepted sequenceMembers.length attempted totals.1 limit
  reject (progress.get "status" ≠ .str status.1 ∨ progress.get "reason" ≠ optionalText status.2)
    (invalid "fresh progress status disagrees with its committed observations and policy")
  let consumedTime ← integer progress "consumed_time_ns"
  let conservativeTime ← integer progress "conservative_time_ns"
  reject (consumedTime ≠ totals.1 ∨ conservativeTime ≠ totals.2)
    (invalid "fresh progress accounting disagrees with its reservations")

def validateFresh (e : ArchiveEvidence) (i : Indexes) : Checked Unit := do
  let policies := e.freshPolicies.map FreshPolicyEvidence.value
  let progress := e.freshSequences.map progressValue
  let members ← index (e.freshMembers.map FreshMemberEvidence.value) "slot_id"
  checkFreshKeys e
  each (checkFreshMember i.slots i.members policies) members.values
  each (checkReferences [(members, "id")])
    (i.slots.values.filter fun slot => slot.get "kind" = .str "fresh_observation")
  each (checkFreshBudget i.attempts members) (e.freshBudgets.map FreshBudgetEvidence.value)
  each (checkFreshDisposition i.attempts members)
    (e.freshDispositions.map FreshDispositionEvidence.value)
  each (checkFreshPolicy i.runs progress) policies
  each (checkProgress readPolicy e i.runs i.attempts members) progress

end Progress

/-! ## The validator -/

def validate (hash : Hasher) (readPolicy : Json → Except String ProfilePolicy)
    (e : ArchiveEvidence) : Checked Unit := do
  reject (e.schemaVersion ≠ resultArchiveVersion) .unsupportedVersion
  each checkSettled e.records
  let i ← buildIndexes e
  checkKeys e
  each checkArtifact i.artifacts.values
  checkRegistrations hash i
  let _ ← thread (checkAttempt hash e i.slots i.artifacts) [] i.attempts.values
  each (checkReferences [(i.attempts, "attempt_id")])
    (e.transitions.map TransitionEvidence.value)
  each (checkEvent i.attempts) (e.events.map EventEvidence.value)
  each (checkObservation hash i) i.observations.values
  each (checkReferences [(i.observations, "observation_id")]) i.selections.values
  each (checkAccepted i)
    (i.attempts.values.filter fun attempt => attempt.get "state" = .str "accepted")
  each (checkReferences [(i.attempts, "attempt_id"), (i.artifacts, "artifact_id")])
    (e.attemptArtifacts.map AttemptArtifactEvidence.value)
  each (checkReferences [(i.observations, "observation_id"), (i.artifacts, "artifact_id")])
    (e.observationArtifacts.map ObservationArtifactEvidence.value)
  validateFresh readPolicy e i

end Metewand.Archive
