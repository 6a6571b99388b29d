import Metewand.Archive.Indexes
import Mathlib.Data.List.Perm.Basic

/-!
# Accepted evidence is sound

`EvidenceSound` is what an archive is trusted for: settled attempts with complete
histories, one accepted attempt per slot, selections that name the observations of
accepted attempts, identities that are hashes, and references that resolve.
`evidence_sound_of_validate` derives it from the local checks of the validator.
-/

namespace Metewand.Archive

open Lib Check

/-! ## The guarantee -/

/-- The complete history of a settled attempt. -/
structure Settled (e : ArchiveEvidence) (a : AttemptEvidence) : Prop where
  state : a.state ∈ terminalStates
  finished : a.finishedAtNs ≠ none
  /-- The transitions of the attempt, ordered, are a path from its reservation to its
  state; each has one event of its own. -/
  history : ∃ ts : List TransitionEvidence,
    ts.Perm (e.transitions.filter fun t => t.attemptId = a.id) ∧ ts.length = a.revision + 1 ∧
      (∀ (k : Nat) (t : TransitionEvidence), ts[k]? = some t → t.revision = k) ∧
      List.IsChain Follows ts ∧
      (∃ start, parseUnsigned a.startedAtNs = some start ∧ ∀ t ∈ ts.head?, Begins start t) ∧
      (∃ t ∈ ts.getLast?, t.toState = a.state ∧ a.finishedAtNs = some t.occurredAtNs) ∧
      ∀ t ∈ ts, ∃ v, EventOf e.events a.id t v ∧
        ∀ v' ∈ e.events, v'.sequence = t.eventSequence → v' = v

/-- The identity of a record is the hash of its canonical definition. -/
def HashOf (hash : Hasher) (kind : IdentityKind) (id : String) (definition : Json) : Prop :=
  definition.get "version" = .nat identityVersion ∧
    ∃ canonical, definition.normalize = .ok canonical ∧
      id = (⟨hash kind canonical⟩ : RecordId kind).text

/-- The identity of an observation is the hash of the representation its document determines. -/
def ObservationHash (hash : Hasher) (o : ObservationEvidence) : Prop :=
  ∃ wall implementation evaluation cpu,
    documentDuration o.definition "timed_wall_time_ns" = .ok wall ∧
      documentDuration o.definition "implementation_time_ns" = .ok implementation ∧
      documentDuration o.definition "evaluation_time_ns" = .ok evaluation ∧
      documentDuration o.definition "cpu_time_ns" = .ok cpu ∧
      o.definition.get "id" = .str o.id ∧
      HashOf hash .observation o.id
        (observationRepresentation o.value o.definition wall implementation evaluation cpu)

structure Identified (hash : Hasher) (e : ArchiveEvidence) : Prop where
  decisions : ∀ d ∈ e.applicability, startsWith unconditionalKey d.id = false →
    HashOf hash .applicability d.id d.definition
  runs : ∀ r ∈ e.runs, HashOf hash .resolvedSpecification r.id r.definition
  slots : ∀ s ∈ e.slots, HashOf hash .resolvedAttemptSlot s.id s.definition
  observationSlots : ∀ s ∈ e.observationSlots,
    HashOf hash .resolvedObservationSlot s.id s.definition
  observations : ∀ o ∈ e.observations, ObservationHash hash o
  attempts : ∀ a ∈ e.attempts, ∀ slot, RecordId.parse .resolvedAttemptSlot a.slotId = .ok slot →
    ∃ id, runAttemptId hash slot a.retryIndex = .ok id ∧ a.id = id.text

/-- Every reference between records resolves. -/
structure Resolved (e : ArchiveEvidence) : Prop where
  runs : ∀ r ∈ e.runs, ∃ d ∈ e.applicability, d.id = r.applicabilityId ∧ d.applicable = true ∧
    d.candidateId = r.candidateId
  slots : ∀ s ∈ e.slots, ∃ r ∈ e.runs, r.id = s.resolvedRunId
  observationSlots : ∀ s ∈ e.observationSlots, (∃ r ∈ e.runs, r.id = s.resolvedRunId) ∧
    ∃ m ∈ e.members, m.observationSlotId = s.id
  members : ∀ m ∈ e.members,
    (∃ s ∈ e.slots, s.id = m.attemptSlotId ∧ s.resolvedRunId = m.resolvedRunId) ∧
      ∃ s ∈ e.observationSlots, s.id = m.observationSlotId ∧ s.resolvedRunId = m.resolvedRunId
  attempts : ∀ a ∈ e.attempts, (∃ s ∈ e.slots, s.id = a.slotId) ∧
    ∃ f ∈ e.artifacts, a.artifactId = some f.id ∧ f.kind = "attempt"
  transitions : ∀ t ∈ e.transitions, (∃ a ∈ e.attempts, a.id = t.attemptId) ∧
    ∃ v ∈ e.events, v.sequence = t.eventSequence
  events : ∀ v ∈ e.events, ∀ id ∈ v.attemptId, ∃ a ∈ e.attempts, a.id = id
  observations : ∀ o ∈ e.observations,
    (∃ a ∈ e.attempts, a.id = o.attemptId ∧ a.slotId = o.attemptSlotId) ∧
      (∃ m ∈ e.members, m.observationSlotId = o.slotId ∧ m.attemptSlotId = o.attemptSlotId) ∧
      (∃ s ∈ e.observationSlots, s.id = o.slotId) ∧
      ∃ f ∈ e.artifacts, f.id = o.artifactId ∧ f.kind = "observation"
  selections : ∀ s ∈ e.selections, ∃ o ∈ e.observations, o.id = s.observationId
  attemptArtifacts : ∀ x ∈ e.attemptArtifacts, (∃ a ∈ e.attempts, a.id = x.attemptId) ∧
    ∃ f ∈ e.artifacts, f.id = x.artifactId
  observationArtifacts : ∀ x ∈ e.observationArtifacts,
    (∃ o ∈ e.observations, o.id = x.observationId) ∧ ∃ f ∈ e.artifacts, f.id = x.artifactId
  freshMembers : ∀ m ∈ e.freshMembers,
    (∃ s ∈ e.slots, s.id = m.slotId ∧ s.resolvedRunId = m.resolvedRunId) ∧
      (∃ x ∈ e.members, x.observationSlotId = m.observationSlotId ∧ x.attemptSlotId = m.slotId) ∧
      ∃ p ∈ e.freshPolicies, p.resolvedRunId = m.resolvedRunId ∧
        p.measurementIndex = m.measurementIndex
  freshBudgets : ∀ b ∈ e.freshBudgets, ∃ a ∈ e.attempts, a.id = b.attemptId ∧
    ∃ m ∈ e.freshMembers, m.slotId = a.slotId
  freshDispositions : ∀ d ∈ e.freshDispositions, (∃ m ∈ e.freshMembers, m.slotId = d.slotId) ∧
    ∃ a ∈ e.attempts, a.id = d.causingAttemptId ∧ ∃ m ∈ e.freshMembers, m.slotId = a.slotId
  freshPolicies : ∀ p ∈ e.freshPolicies, ∃ r ∈ e.runs, r.id = p.resolvedRunId
  freshSequences : ∀ q ∈ e.freshSequences, (∃ r ∈ e.runs, r.id = q.resolvedSpecificationId ∧
    r.logicalSpecificationId = q.logicalSpecificationId) ∧
      ∃ p ∈ e.freshPolicies, p.resolvedRunId = q.resolvedSpecificationId ∧
        p.measurementIndex = q.measurementIndex

structure EvidenceSound (hash : Hasher) (e : ArchiveEvidence) : Prop where
  settled : ∀ a ∈ e.attempts, Settled e a
  /-- Distinct transitions have distinct events. -/
  eventOnce : (e.transitions.map TransitionEvidence.eventSequence).Nodup
  acceptedOnce : ((e.attempts.filter fun a => a.state = "accepted").map
    AttemptEvidence.slotId).Nodup
  /-- The selection records are those of the observations flagged selected, one each. -/
  selected : (e.selections.map SelectionEvidence.observationId).Nodup ∧
    (e.selections.map SelectionEvidence.observationId).Perm
      ((e.observations.filter fun o => o.selected).map ObservationEvidence.id) ∧
    ∀ s ∈ e.selections, ∀ o ∈ e.observations, o.id = s.observationId → s.slotId = o.slotId
  /-- A selected observation was produced by an accepted attempt, whose slot is the one
  the observation's slot is bound to. -/
  producer : ∀ o ∈ e.observations, o.selected = true → ∃ a ∈ e.attempts, a.id = o.attemptId ∧
    a.state = "accepted" ∧ ∃ m ∈ e.members, m.observationSlotId = o.slotId ∧
      m.attemptSlotId = a.slotId ∧ ∀ m' ∈ e.members, m'.observationSlotId = o.slotId → m' = m
  /-- The selected observations of a slot with an accepted measurement are that attempt's. -/
  unspliced : ∀ s ∈ e.slots, s.role = "measurement" → ∀ a ∈ e.attempts, a.state = "accepted" →
    a.slotId = s.id → ∀ m ∈ e.members, m.attemptSlotId = s.id → ∀ o ∈ e.observations,
      o.selected = true → o.slotId = m.observationSlotId → o.attemptId = a.id
  identified : Identified hash e
  resolved : Resolved e

/-! ## Reading the validator -/

section Typed

variable {α : Type} {xs : List α} {value : α → Json} {f : α → String} {m : Index}

/-- A check of every row of an index is a check of every record. -/
theorem Lists.all (lists : Lists xs value f m) {check : Json → Checked Unit}
    (accepted : ∀ row ∈ m.values, check row = .ok ()) : ∀ x ∈ xs, check (value x) = .ok () :=
  fun _ member => accepted _ (lists.mem_values member)

/-- What a reference leads to. -/
theorem Lists.target (lists : Lists xs value f m) {row target : Json} {key id : String}
    (found : reference m row key = .ok target) (field : row.get key = .str id) :
    ∃ x ∈ xs, value x = target ∧ f x = id := by
  obtain ⟨id', field', at_⟩ := ok_reference.mp found
  rw [field] at field'
  cases field'
  exact lists.found at_

end Typed

theorem checkReferences_ok {targets : List (Index × String)} {row : Json}
    (accepted : checkReferences targets row = .ok ()) :
    ∀ target ∈ targets, ∃ found, reference target.1 row target.2 = .ok found := by
  unfold checkReferences at accepted
  rw [ok_each] at accepted
  intro target member
  obtain ⟨found, read, -⟩ := ok_bind.mp (accepted target member)
  exact ⟨found, read⟩

/-- The checks accepted evidence has passed, record by record. -/
structure Accepts (hash : Hasher) (e : ArchiveEvidence) (i : Indexes) (fresh : Index) : Prop where
  settled : ∀ a ∈ e.attempts, a.state ∈ terminalStates ∧ a.finishedAtNs ≠ none
  applicability : Lists e.applicability ApplicabilityEvidence.value ApplicabilityEvidence.id
    i.applicability
  runs : Lists e.runs ResolvedSpecificationEvidence.value ResolvedSpecificationEvidence.id i.runs
  slots : Lists e.slots AttemptSlotEvidence.value AttemptSlotEvidence.id i.slots
  observationSlots : Lists e.observationSlots ObservationSlotEvidence.value
    ObservationSlotEvidence.id i.observationSlots
  attempts : Lists e.attempts AttemptEvidence.value AttemptEvidence.id i.attempts
  observations : Lists e.observations ObservationEvidence.value ObservationEvidence.id
    i.observations
  artifacts : Lists e.artifacts StoredArtifactEvidence.value StoredArtifactEvidence.id i.artifacts
  members : Lists e.members SlotMembershipEvidence.value SlotMembershipEvidence.observationSlotId
    i.members
  selections : Lists e.selections SelectionEvidence.value SelectionEvidence.observationId
    i.selections
  freshMembers : Lists e.freshMembers FreshMemberEvidence.value FreshMemberEvidence.slotId fresh
  keys : checkKeys e = .ok ()
  decision : ∀ d ∈ e.applicability, checkDecision hash d.value = .ok ()
  run : ∀ r ∈ e.runs, checkRun hash i.applicability r.value = .ok ()
  slotProjection : ∀ s ∈ e.slots, checkSlotProjection i.runs s.value = .ok ()
  observationSlotProjection : ∀ s ∈ e.observationSlots,
    checkSlotProjection i.runs s.value = .ok ()
  observationSlot : ∀ s ∈ e.observationSlots, checkObservationSlot hash s.value = .ok ()
  slot : ∀ s ∈ e.slots, checkAttemptSlot hash s.value = .ok ()
  member : ∀ m ∈ e.members, checkMember i.slots i.observationSlots m.value = .ok ()
  bound : ∀ s ∈ e.observationSlots, checkReferences [(i.members, "id")] s.value = .ok ()
  attempt : ∃ accepted,
    thread (checkAttempt hash e i.slots i.artifacts) [] i.attempts.values = .ok accepted
  transition : ∀ t ∈ e.transitions,
    checkReferences [(i.attempts, "attempt_id")] t.value = .ok ()
  event : ∀ v ∈ e.events, checkEvent i.attempts v.value = .ok ()
  observation : ∀ o ∈ e.observations, checkObservation hash i o.value = .ok ()
  selection : ∀ s ∈ e.selections,
    checkReferences [(i.observations, "observation_id")] s.value = .ok ()
  attemptArtifact : ∀ x ∈ e.attemptArtifacts, checkReferences
    [(i.attempts, "attempt_id"), (i.artifacts, "artifact_id")] x.value = .ok ()
  observationArtifact : ∀ x ∈ e.observationArtifacts, checkReferences
    [(i.observations, "observation_id"), (i.artifacts, "artifact_id")] x.value = .ok ()
  freshMember : ∀ m ∈ e.freshMembers, checkFreshMember i.slots i.members
    (e.freshPolicies.map FreshPolicyEvidence.value) m.value = .ok ()
  freshBudget : ∀ b ∈ e.freshBudgets, checkFreshBudget i.attempts fresh b.value = .ok ()
  freshDisposition : ∀ d ∈ e.freshDispositions,
    checkFreshDisposition i.attempts fresh d.value = .ok ()
  freshPolicy : ∀ p ∈ e.freshPolicies,
    checkFreshPolicy i.runs (e.freshSequences.map progressValue) p.value = .ok ()
  freshSequence : ∀ q ∈ e.freshSequences, ∃ readPolicy,
    checkProgress readPolicy e i.runs i.attempts fresh (progressValue q) = .ok ()

section Accepted

variable {hash : Hasher} {readPolicy : Json → Except String ProfilePolicy} {e : ArchiveEvidence}

theorem accepts_of_validate (accepted : validate hash readPolicy e = .ok ()) :
    ∃ i fresh, Accepts hash e i fresh := by
  simp only [validate, ok_bind, ok_reject, ok_each] at accepted
  obtain ⟨-, -, -, settled, i, indexes, ⟨⟩, keys, -, -, ⟨⟩, registrations, accepted, attempt, -,
    transition, -, event, -, observation, -, selection, -, -, -, attemptArtifact, -,
    observationArtifact, freshAccepted⟩ := accepted
  simp only [checkRegistrations, ok_bind, ok_each] at registrations
  obtain ⟨-, decision, -, run, -, projection, -, observationSlot, -, slot, -, member, bound⟩ :=
    registrations
  simp only [validateFresh, ok_bind, ok_each] at freshAccepted
  obtain ⟨fresh, freshIndex, -, -, -, freshMember, -, -, -, freshBudget, -, freshDisposition, -,
    freshPolicy, freshSequence⟩ := freshAccepted
  simp only [buildIndexes, ok_bind, ok_pure] at indexes
  obtain ⟨_, applicability, _, runs, _, slots, _, observationSlots, _, attempts, _, observations, _,
    artifacts, _, members, _, selections, rfl⟩ := indexes
  have listsApplicability := lists_of_index (f := ApplicabilityEvidence.id)
    (fun d => by simp [ApplicabilityEvidence.value]) applicability
  have listsRuns := lists_of_index (f := ResolvedSpecificationEvidence.id)
    (fun d => by simp [ResolvedSpecificationEvidence.value]) runs
  have listsSlots := lists_of_index (f := AttemptSlotEvidence.id)
    (fun d => by simp [AttemptSlotEvidence.value]) slots
  have listsObservationSlots := lists_of_index (f := ObservationSlotEvidence.id)
    (fun d => by simp [ObservationSlotEvidence.value]) observationSlots
  have listsAttempts := lists_of_index (f := AttemptEvidence.id)
    (fun d => by simp [AttemptEvidence.value]) attempts
  have listsObservations := lists_of_index (f := ObservationEvidence.id)
    (fun d => by simp [ObservationEvidence.value]) observations
  have listsArtifacts := lists_of_index (f := StoredArtifactEvidence.id)
    (fun d => by simp [StoredArtifactEvidence.value]) artifacts
  have listsMembers := lists_of_index (f := SlotMembershipEvidence.observationSlotId)
    (fun d => by simp [SlotMembershipEvidence.value]) members
  have listsSelections := lists_of_index (f := SelectionEvidence.observationId)
    (fun d => by simp [SelectionEvidence.value]) selections
  have listsFresh := lists_of_index (f := FreshMemberEvidence.slotId)
    (fun d => by simp [FreshMemberEvidence.value]) freshIndex
  exact ⟨_, fresh, {
    settled := by
      intro a member
      obtain ⟨record, inside, same⟩ := List.mem_filterMap.mp member
      have check := settled record inside
      cases record <;> simp only [reduceCtorEq, Option.some.injEq] at same
      subst same
      simp only [checkSettled, ok_reject, not_or, not_not] at check
      exact ⟨check.2, check.1⟩
    applicability := listsApplicability
    runs := listsRuns
    slots := listsSlots
    observationSlots := listsObservationSlots
    attempts := listsAttempts
    observations := listsObservations
    artifacts := listsArtifacts
    members := listsMembers
    selections := listsSelections
    freshMembers := listsFresh
    keys
    decision := listsApplicability.all decision
    run := listsRuns.all run
    slotProjection := listsSlots.all fun row member => projection row (List.mem_append_left _ member)
    observationSlotProjection := listsObservationSlots.all fun row member =>
      projection row (List.mem_append_right _ member)
    observationSlot := listsObservationSlots.all observationSlot
    slot := listsSlots.all slot
    member := listsMembers.all member
    bound := listsObservationSlots.all bound
    attempt := ⟨accepted, attempt⟩
    transition := fun t member => transition _ (List.mem_map_of_mem member)
    event := fun v member => event _ (List.mem_map_of_mem member)
    observation := listsObservations.all observation
    selection := listsSelections.all selection
    attemptArtifact := fun x member => attemptArtifact _ (List.mem_map_of_mem member)
    observationArtifact := fun x member => observationArtifact _ (List.mem_map_of_mem member)
    freshMember := listsFresh.all freshMember
    freshBudget := fun b member => freshBudget _ (List.mem_map_of_mem member)
    freshDisposition := fun d member => freshDisposition _ (List.mem_map_of_mem member)
    freshPolicy := fun p member => freshPolicy _ (List.mem_map_of_mem member)
    freshSequence := fun q member => ⟨readPolicy, freshSequence _ (List.mem_map_of_mem member)⟩ }⟩

/-! ## Identities -/

theorem verifyIdentity_ok {kind : IdentityKind} {id : String} {representation : Json}
    (accepted : verifyIdentity hash kind id representation = .ok ()) :
    HashOf hash kind id representation := by
  simp only [verifyIdentity, ok_bind, ok_reject, not_not] at accepted
  obtain ⟨⟨⟩, version, accepted⟩ := accepted
  refine ⟨version, ?_⟩
  cases parsed : RecordId.parse kind id with
  | error e =>
      rw [parsed] at accepted
      cases accepted
  | ok expected =>
      rw [parsed] at accepted
      cases normal : representation.normalize with
      | error violation =>
          simp only [normal] at accepted
          cases accepted
      | ok canonical =>
          simp only [normal, ok_reject, not_not] at accepted
          refine ⟨canonical, rfl, ?_⟩
          rw [← accepted]
          exact RecordId.parse_eq_ok.mp parsed

theorem verifyObservation_ok {o : ObservationEvidence}
    (accepted : verifyObservation hash o.value = .ok ()) : ObservationHash hash o := by
  have document : o.value.get "definition" = o.definition := by simp [ObservationEvidence.value]
  have id : o.value.get "id" = .str o.id := by simp [ObservationEvidence.value]
  simp only [verifyObservation, document, id, ok_bind, ok_reject, ok_text, not_or, not_not,
    Json.str.injEq] at accepted
  obtain ⟨⟨⟩, projection, wall, readWall, implementation, readImplementation, evaluation,
    readEvaluation, cpu, readCpu, _, rfl, identity⟩ := accepted
  exact ⟨wall, implementation, evaluation, cpu, readWall, readImplementation, readEvaluation,
    readCpu, projection.1, verifyIdentity_ok identity⟩

/-! ## Attempts -/

/-- What the examination of one attempt has found. -/
structure Examined (hash : Hasher) (e : ArchiveEvidence) (slots artifacts : Index)
    (a : AttemptEvidence) : Prop where
  slot : ∃ found, reference slots a.value "slot_id" = .ok found
  artifact : ∃ found, reference artifacts a.value "artifact_id" = .ok found ∧
    found.get "kind" = .str "attempt"
  identity : ∀ slot, RecordId.parse .resolvedAttemptSlot a.slotId = .ok slot →
    ∃ id, runAttemptId hash slot a.retryIndex = .ok id ∧ a.id = id.text
  history : ∃ ts : List TransitionEvidence,
    ts.Perm (e.transitions.filter fun t => t.attemptId = a.id) ∧ ts.length = a.revision + 1 ∧
      (∀ (k : Nat) (t : TransitionEvidence), ts[k]? = some t → t.revision = k) ∧
      List.IsChain Follows ts ∧
      (∃ start, parseUnsigned a.startedAtNs = some start ∧ ∀ t ∈ ts.head?, Begins start t) ∧
      (∃ t ∈ ts.getLast?, t.toState = a.state ∧ a.finishedAtNs = some t.occurredAtNs) ∧
      ∀ t ∈ ts, ∃ v, EventOf e.events a.id t v

theorem checkAttemptId_ok {a : AttemptEvidence}
    (accepted : checkAttemptId hash a.value a.slotId = .ok ()) :
    ∀ slot, RecordId.parse .resolvedAttemptSlot a.slotId = .ok slot →
      ∃ id, runAttemptId hash slot a.retryIndex = .ok id ∧ a.id = id.text := by
  intro slot parsed
  simp only [checkAttemptId, parsed, ok_bind] at accepted
  obtain ⟨retry, read, accepted⟩ := accepted
  have field := (ok_integer read).1
  simp [AttemptEvidence.value] at field
  subst field
  cases computed : runAttemptId hash slot a.retryIndex with
  | error violation =>
      rw [computed] at accepted
      cases accepted
  | ok id =>
      simp only [computed, ok_bind, ok_text, ok_reject, not_not] at accepted
      obtain ⟨_, field, same⟩ := accepted
      simp [AttemptEvidence.value] at field
      exact ⟨id, rfl, by rw [field, same]⟩

/-- The rows of a history are those of typed transitions. -/
theorem historyRows_eq (e : ArchiveEvidence) (a : AttemptEvidence) :
    ∃ ts : List TransitionEvidence,
      ts.Perm (e.transitions.filter fun t => t.attemptId = a.id) ∧
        historyRows (e.transitions.map TransitionEvidence.value) a.value =
          ts.map TransitionEvidence.value := by
  let earlier : TransitionEvidence → TransitionEvidence → Prop := fun t u =>
    optionLe (asU64? (t.value.get "revision")) (asU64? (u.value.get "revision"))
  refine ⟨(e.transitions.filter fun t => t.attemptId = a.id).insertionSort earlier,
    List.perm_insertionSort _ _, ?_⟩
  have owned : (e.transitions.map TransitionEvidence.value).filter
      (fun row => row.get "attempt_id" = a.value.get "id") =
        (e.transitions.filter fun t => t.attemptId = a.id).map TransitionEvidence.value := by
    rw [List.filter_map]
    refine congrArg (List.map _) (List.filter_congr fun t _ => ?_)
    simp [TransitionEvidence.value, AttemptEvidence.value]
  unfold historyRows
  rw [owned]
  exact (List.map_insertionSort earlier
    (fun a b => optionLe (asU64? (a.get "revision")) (asU64? (b.get "revision")))
    TransitionEvidence.value _ fun _ _ _ _ => Iff.rfl).symm

theorem checkAttempt_ok {slots artifacts : Index} {before after : List String}
    {a : AttemptEvidence}
    (accepted : checkAttempt hash e slots artifacts before a.value = .ok after) :
    Examined hash e slots artifacts a ∧
      (a.state = "accepted" → a.slotId ∉ before ∧ after = before ++ [a.slotId]) ∧
      (a.state ≠ "accepted" → after = before) := by
  simp only [checkAttempt, ok_bind, ok_reject, ok_timestamp, ok_text, ok_pure, not_not] at accepted
  obtain ⟨slot, slotRead, ⟨⟩, -, artifact, artifactRead, ⟨⟩, kind, ⟨⟩, -, start,
    ⟨_, startField, startTime⟩, -, -, ⟨⟩, -, slotId, slotField, ⟨⟩, single, ⟨⟩, identity, revision,
    revisionRead, ⟨⟩, -, ⟨⟩, size, last, run, ⟨⟩, end_, result⟩ := accepted
  obtain ⟨ts, sorted, rows⟩ := historyRows_eq e a
  have state : a.value.get "state" = .str a.state := by simp [AttemptEvidence.value]
  have field := (ok_integer revisionRead).1
  simp [AttemptEvidence.value] at startField slotField field
  subst slotField
  rw [rows] at run size
  obtain ⟨numbered, -, chained, owned, lastRow⟩ :=
    @checkHistory_ok e.events a start 0 none ts last run
  obtain ⟨chain, begins⟩ := chained rfl
  rw [lastRow, Option.or_none] at end_
  simp only [Option.mem_def, Option.map_eq_some_iff, exists_exists_and_eq_and] at end_
  obtain ⟨t, final, target, finish⟩ := end_
  simp [TransitionEvidence.value, AttemptEvidence.value] at target finish
  rw [List.length_map] at size
  refine ⟨⟨⟨slot, slotRead⟩, ⟨artifact, artifactRead, kind⟩, checkAttemptId_ok identity, ts, sorted,
    by rw [size, field], fun k t at_ => by simpa using numbered k t at_, chain,
    ⟨start, startField ▸ startTime, begins⟩, ⟨t, final, target, optionalText_eq_str.mp finish.symm⟩,
    owned⟩, ?_, ?_⟩
  · intro same
    rw [state, same] at single result
    exact ⟨fun inside => single ⟨rfl, inside⟩, by simpa using result.symm⟩
  · intro different
    rw [state] at result
    simpa [different] using result.symm

/-- Every attempt is examined, and the accepted ones are in different slots. -/
theorem attempts_ok {slots artifacts : Index} {attempts : List AttemptEvidence}
    {before after : List String} (distinct : before.Nodup)
    (run : thread (checkAttempt hash e slots artifacts) before
      (attempts.map AttemptEvidence.value) = .ok after) :
    (∀ a ∈ attempts, Examined hash e slots artifacts a) ∧ after.Nodup ∧
      after = before ++ (attempts.filter fun a => a.state = "accepted").map
        AttemptEvidence.slotId := by
  induction attempts generalizing before with
  | nil =>
      cases run
      simpa using distinct
  | cons a rest ih =>
      simp only [thread, List.map_cons, ok_bind] at run
      obtain ⟨next, head, tail⟩ := run
      obtain ⟨examined, hit, miss⟩ := checkAttempt_ok head
      by_cases same : a.state = "accepted"
      · obtain ⟨new, rfl⟩ := hit same
        have longer : (before ++ [a.slotId]).Nodup :=
          distinct.append (List.nodup_singleton _) (by simpa using new)
        obtain ⟨later, nodup, result⟩ := ih longer tail
        refine ⟨List.forall_mem_cons.mpr ⟨examined, later⟩, nodup, ?_⟩
        rw [result, List.filter_cons, if_pos (by simpa using same), List.map_cons,
          List.append_assoc, List.singleton_append]
      · obtain rfl := miss same
        obtain ⟨later, nodup, result⟩ := ih distinct tail
        refine ⟨List.forall_mem_cons.mpr ⟨examined, later⟩, nodup, ?_⟩
        rw [result, List.filter_cons, if_neg (by simpa using same)]

/-- The rows of an index are the typed records in some order. -/
theorem Lists.values_eq {α : Type} {xs : List α} {value : α → Json} {f : α → String} {m : Index}
    (lists : Lists xs value f m) : ∃ ys : List α, ys.Perm xs ∧ m.values = ys.map value := by
  have image : Relation.Comp (· = List.map value ·) List.Perm m.values xs := by
    rw [List.eq_map_comp_perm]
    exact lists.values
  obtain ⟨ys, rows, order⟩ := image
  exact ⟨ys, order, rows⟩

theorem Accepts.examined {i : Indexes} {fresh : Index} (checks : Accepts hash e i fresh) :
    (∀ a ∈ e.attempts, Examined hash e i.slots i.artifacts a) ∧
      ((e.attempts.filter fun a => a.state = "accepted").map AttemptEvidence.slotId).Nodup := by
  obtain ⟨ys, order, rows⟩ := checks.attempts.values_eq
  obtain ⟨after, run⟩ := checks.attempt
  rw [rows] at run
  obtain ⟨examined, distinct, rfl⟩ := attempts_ok .nil run
  refine ⟨fun a member => examined a (order.mem_iff.mpr member), ?_⟩
  rw [List.nil_append] at distinct
  exact ((order.filter _).map _).nodup_iff.mp distinct

/-! ## Observations -/

section Observations

variable {i : Indexes} {fresh : Index}

/-- What the check of an observation has found. -/
structure Attributed (e : ArchiveEvidence) (o : ObservationEvidence) : Prop where
  attempt : ∃ a ∈ e.attempts, a.id = o.attemptId ∧ a.slotId = o.attemptSlotId ∧
    (o.selected = true → a.state = "accepted")
  member : ∃ m ∈ e.members, m.observationSlotId = o.slotId ∧ m.attemptSlotId = o.attemptSlotId
  artifact : ∃ f ∈ e.artifacts, f.id = o.artifactId ∧ f.kind = "observation"
  selection : o.selected = true ↔ ∃ s ∈ e.selections, s.observationId = o.id
  slot : ∀ s ∈ e.selections, s.observationId = o.id → s.slotId = o.slotId

theorem Accepts.attributed (checks : Accepts hash e i fresh) {o : ObservationEvidence}
    (member : o ∈ e.observations) : Attributed e o ∧ ObservationHash hash o := by
  have accepted := checks.observation o member
  simp only [checkObservation, ok_bind, ok_reject, not_or, not_not] at accepted
  obtain ⟨⟨⟩, identity, _, attemptRead, _, memberRead, _, artifactRead, ⟨⟩, agrees, accepted⟩ :=
    accepted
  obtain ⟨a, knownAttempt, rfl, attemptId⟩ := checks.attempts.target attemptRead
    (show o.value.get "attempt_id" = .str o.attemptId by simp [ObservationEvidence.value])
  obtain ⟨m, knownMember, rfl, memberId⟩ := checks.members.target memberRead
    (show o.value.get "slot_id" = .str o.slotId by simp [ObservationEvidence.value])
  obtain ⟨f, knownArtifact, rfl, artifactId⟩ := checks.artifacts.target artifactRead
    (show o.value.get "artifact_id" = .str o.artifactId by simp [ObservationEvidence.value])
  simp [ObservationEvidence.value, AttemptEvidence.value, SlotMembershipEvidence.value,
    StoredArtifactEvidence.value] at agrees
  obtain ⟨attemptSlot, memberSlot, kind, -⟩ := agrees
  have flag : o.value.get "selected" = .bool o.selected := by simp [ObservationEvidence.value]
  have key : o.value.get "id" = .str o.id := by simp [ObservationEvidence.value]
  have place : o.value.get "slot_id" = .str o.slotId := by simp [ObservationEvidence.value]
  have state : a.value.get "state" = .str a.state := by simp [AttemptEvidence.value]
  refine ⟨?_, verifyObservation_ok identity⟩
  rw [flag] at accepted
  cases chosen : o.selected with
  | true =>
      simp only [chosen, if_true, ok_bind, ok_reject, not_or, not_not, place, state,
        Json.str.injEq] at accepted
      obtain ⟨selection, read, slot, winner⟩ := accepted
      obtain ⟨s, known, rfl, same⟩ := checks.selections.target read key
      have where_ : s.value.get "slot_id" = .str s.slotId := by simp [SelectionEvidence.value]
      rw [where_, Json.str.injEq] at slot
      refine ⟨⟨a, knownAttempt, attemptId, attemptSlot, fun _ => winner⟩,
        ⟨m, knownMember, memberId, memberSlot⟩, ⟨f, knownArtifact, artifactId, kind⟩,
        ⟨fun _ => ⟨s, known, same⟩, fun _ => chosen⟩, fun s' inside same' => ?_⟩
      rw [checks.selections.eq_of_key inside known (same'.trans same.symm)]
      exact slot
  | false =>
      have unselected : ¬∃ s ∈ e.selections, s.observationId = o.id := by
        rintro ⟨s, known, same⟩
        have there := checks.selections.get s known
        rw [chosen, if_neg (by simp)] at accepted
        simp only [ok_bind, ok_text, ok_reject] at accepted
        obtain ⟨_, field, absent⟩ := accepted
        cases key.symm.trans field
        rw [same] at there
        exact absent (by rw [there]; rfl)
      exact ⟨⟨a, knownAttempt, attemptId, attemptSlot, fun set => by rw [chosen] at set; cases set⟩,
        ⟨m, knownMember, memberId, memberSlot⟩, ⟨f, knownArtifact, artifactId, kind⟩,
        ⟨fun set => (by rw [chosen] at set; cases set), fun some_ => absurd some_ unselected⟩,
        fun s inside same => absurd ⟨s, inside, same⟩ unselected⟩

end Observations

/-! ## References -/

section References

variable {i : Indexes} {fresh : Index}

/-- A checked reference of a typed record leads to a typed record. -/
theorem Lists.resolves {α : Type} {xs : List α} {value : α → Json} {f : α → String} {m : Index}
    (lists : Lists xs value f m) {targets : List (Index × String)} {row : Json} {key id : String}
    (accepted : checkReferences targets row = .ok ()) (listed : (m, key) ∈ targets)
    (field : row.get key = .str id) : ∃ x ∈ xs, f x = id := by
  obtain ⟨found, read⟩ := checkReferences_ok accepted _ listed
  obtain ⟨x, member, -, same⟩ := lists.target read field
  exact ⟨x, member, same⟩

theorem Accepts.slot_resolves (checks : Accepts hash e i fresh) {row : Json} {run : String}
    (accepted : checkSlotProjection i.runs row = .ok ())
    (field : row.get "resolved_run_id" = .str run) : ∃ r ∈ e.runs, r.id = run := by
  simp only [checkSlotProjection, ok_bind, ok_reject] at accepted
  obtain ⟨_, read, -⟩ := accepted
  obtain ⟨r, member, -, same⟩ := checks.runs.target read field
  exact ⟨r, member, same⟩

theorem Accepts.resolved (checks : Accepts hash e i fresh) : Resolved e where
  runs := by
    intro r member
    have accepted := checks.run r member
    simp only [checkRun, ok_bind, ok_reject, not_or, not_not] at accepted
    obtain ⟨_, -, ⟨⟩, -, ⟨⟩, -, _, read, applicable, candidate⟩ := accepted
    obtain ⟨d, known, rfl, same⟩ := checks.applicability.target read
      (show r.value.get "applicability_id" = .str r.applicabilityId by
        simp [ResolvedSpecificationEvidence.value])
    simp [ApplicabilityEvidence.value, ResolvedSpecificationEvidence.value]
      at applicable candidate
    exact ⟨d, known, same, applicable, candidate⟩
  slots := fun s member => checks.slot_resolves (checks.slotProjection s member)
    (by simp [AttemptSlotEvidence.value])
  observationSlots := fun s member =>
    ⟨checks.slot_resolves (checks.observationSlotProjection s member)
      (by simp [ObservationSlotEvidence.value]),
    checks.members.resolves (checks.bound s member) (List.mem_singleton_self _)
      (by simp [ObservationSlotEvidence.value])⟩
  members := by
    intro m member
    have accepted := checks.member m member
    simp only [checkMember, ok_bind, ok_reject, not_or, not_not] at accepted
    obtain ⟨_, slotRead, _, observationRead, slotRun, observationRun⟩ := accepted
    obtain ⟨s, known, rfl, same⟩ := checks.slots.target slotRead
      (show m.value.get "attempt_slot_id" = .str m.attemptSlotId by
        simp [SlotMembershipEvidence.value])
    obtain ⟨o, known', rfl, same'⟩ := checks.observationSlots.target observationRead
      (show m.value.get "observation_slot_id" = .str m.observationSlotId by
        simp [SlotMembershipEvidence.value])
    simp [AttemptSlotEvidence.value, SlotMembershipEvidence.value, ObservationSlotEvidence.value]
      at slotRun observationRun
    exact ⟨⟨s, known, same, slotRun⟩, o, known', same', observationRun⟩
  attempts := by
    intro a member
    obtain ⟨_, slotRead⟩ := (checks.examined.1 a member).slot
    obtain ⟨_, artifactRead, kind⟩ := (checks.examined.1 a member).artifact
    obtain ⟨s, known, -, same⟩ := checks.slots.target slotRead
      (show a.value.get "slot_id" = .str a.slotId by simp [AttemptEvidence.value])
    obtain ⟨id, field, -⟩ := ok_reference.mp artifactRead
    obtain ⟨f, known', rfl, same'⟩ := checks.artifacts.target artifactRead field
    simp [AttemptEvidence.value, StoredArtifactEvidence.value] at field kind
    exact ⟨⟨s, known, same⟩, f, known', by rw [field, same'], kind⟩
  transitions := by
    intro t member
    obtain ⟨a, known, same⟩ := checks.attempts.resolves (checks.transition t member)
      (List.mem_singleton_self _)
      (show t.value.get "attempt_id" = .str t.attemptId by simp [TransitionEvidence.value])
    obtain ⟨ts, order, -, -, -, -, -, owned⟩ := (checks.examined.1 a known).history
    have inside : t ∈ ts := order.mem_iff.mpr (List.mem_filter.mpr ⟨member, by simpa using same.symm⟩)
    obtain ⟨v, event, sequence, -⟩ := owned t inside
    exact ⟨⟨a, known, same⟩, v, event, sequence⟩
  events := by
    intro v member id owner
    have accepted := checks.event v member
    have field : v.value.get "attempt_id" = .str id := by
      rw [Option.mem_def] at owner
      simp [EventEvidence.value, owner]
    simp only [checkEvent, field, ne_eq, reduceCtorEq, not_false_eq_true, if_true, ok_bind] at accepted
    obtain ⟨_, read, -⟩ := accepted
    obtain ⟨a, known, -, same⟩ := checks.attempts.target read field
    exact ⟨a, known, same⟩
  observations := by
    intro o member
    obtain ⟨⟨a, known, id, slot, -⟩, ⟨m, bound, place, owner⟩, artifact, -, -⟩ :=
      (checks.attributed member).1
    have accepted := checks.member m bound
    simp only [checkMember, ok_bind, ok_reject] at accepted
    obtain ⟨_, -, _, read, -⟩ := accepted
    obtain ⟨s, known', -, same⟩ := checks.observationSlots.target read
      (show m.value.get "observation_slot_id" = .str m.observationSlotId by
        simp [SlotMembershipEvidence.value])
    exact ⟨⟨a, known, id, slot⟩, ⟨m, bound, place, owner⟩, ⟨s, known', same.trans place⟩, artifact⟩
  selections := fun s member => checks.observations.resolves (checks.selection s member)
    (List.mem_singleton_self _) (by simp [SelectionEvidence.value])
  attemptArtifacts := fun x member =>
    ⟨checks.attempts.resolves (checks.attemptArtifact x member) List.mem_cons_self
      (by simp [AttemptArtifactEvidence.value]),
    checks.artifacts.resolves (checks.attemptArtifact x member)
      (List.mem_cons_of_mem _ (List.mem_singleton_self _))
      (by simp [AttemptArtifactEvidence.value])⟩
  observationArtifacts := fun x member =>
    ⟨checks.observations.resolves (checks.observationArtifact x member) List.mem_cons_self
      (by simp [ObservationArtifactEvidence.value]),
    checks.artifacts.resolves (checks.observationArtifact x member)
      (List.mem_cons_of_mem _ (List.mem_singleton_self _))
      (by simp [ObservationArtifactEvidence.value])⟩
  freshMembers := by
    intro m member
    have accepted := checks.freshMember m member
    simp only [checkFreshMember, ok_bind, ok_reject, not_or, not_not] at accepted
    obtain ⟨_, slotRead, _, memberRead, ⟨⟩, ⟨run, -, owner⟩, p, listed, key⟩ := accepted
    obtain ⟨s, known, rfl, same⟩ := checks.slots.target slotRead
      (show m.value.get "slot_id" = .str m.slotId by simp [FreshMemberEvidence.value])
    obtain ⟨x, known', rfl, same'⟩ := checks.members.target memberRead
      (show m.value.get "observation_slot_id" = .str m.observationSlotId by
        simp [FreshMemberEvidence.value])
    obtain ⟨p, policy, rfl⟩ := List.mem_map.mp listed
    simp [AttemptSlotEvidence.value, SlotMembershipEvidence.value, FreshMemberEvidence.value,
      FreshPolicyEvidence.value, sequenceKey] at run owner key
    exact ⟨⟨s, known, same, run⟩, ⟨x, known', same', owner⟩, p, policy, key⟩
  freshBudgets := by
    intro b member
    have accepted := checks.freshBudget b member
    simp only [checkFreshBudget, ok_bind, ok_reject] at accepted
    obtain ⟨_, attemptRead, _, memberRead, -⟩ := accepted
    obtain ⟨a, known, rfl, same⟩ := checks.attempts.target attemptRead
      (show b.value.get "attempt_id" = .str b.attemptId by simp [FreshBudgetEvidence.value])
    obtain ⟨m, known', -, same'⟩ := checks.freshMembers.target memberRead
      (show a.value.get "slot_id" = .str a.slotId by simp [AttemptEvidence.value])
    exact ⟨a, known, same, m, known', same'⟩
  freshDispositions := by
    intro d member
    have accepted := checks.freshDisposition d member
    simp only [checkFreshDisposition, ok_bind, ok_reject] at accepted
    obtain ⟨_, memberRead, _, causeRead, _, causingRead, -⟩ := accepted
    obtain ⟨m, known, -, same⟩ := checks.freshMembers.target memberRead
      (show d.value.get "slot_id" = .str d.slotId by simp [FreshDispositionEvidence.value])
    obtain ⟨a, known', rfl, same'⟩ := checks.attempts.target causeRead
      (show d.value.get "causing_attempt_id" = .str d.causingAttemptId by
        simp [FreshDispositionEvidence.value])
    obtain ⟨c, enrolled, -, slot⟩ := checks.freshMembers.target causingRead
      (show a.value.get "slot_id" = .str a.slotId by simp [AttemptEvidence.value])
    exact ⟨⟨m, known, same⟩, a, known', same', c, enrolled, slot⟩
  freshPolicies := by
    intro p member
    have accepted := checks.freshPolicy p member
    simp only [checkFreshPolicy, ok_bind] at accepted
    obtain ⟨_, read, -⟩ := accepted
    obtain ⟨r, known, -, same⟩ := checks.runs.target read
      (show p.value.get "resolved_run_id" = .str p.resolvedRunId by
        simp [FreshPolicyEvidence.value])
    exact ⟨r, known, same⟩
  freshSequences := by
    intro q member
    obtain ⟨readPolicy, accepted⟩ := checks.freshSequence q member
    simp only [checkProgress, ok_bind, ok_reject, not_or, not_not] at accepted
    obtain ⟨_, read, ⟨⟩, ⟨logical, p, listed, key⟩, -⟩ := accepted
    obtain ⟨r, known, rfl, same⟩ := checks.runs.target read
      (show (progressValue q).get "resolved_specification_id" = .str q.resolvedSpecificationId by
        simp [progressValue])
    obtain ⟨p, policy, rfl⟩ := List.mem_map.mp listed
    simp [progressValue, ResolvedSpecificationEvidence.value, FreshPolicyEvidence.value,
      sequenceKey, progressKey] at logical key
    exact ⟨⟨r, known, same, logical.symm⟩, p, policy, key⟩

theorem Accepts.identified (checks : Accepts hash e i fresh) : Identified hash e where
  decisions := by
    intro d member checked
    have accepted := checks.decision d member
    simp only [checkDecision, ok_bind, ok_text, ok_reject] at accepted
    obtain ⟨_, -, ⟨⟩, -, id, field, accepted⟩ := accepted
    have definition : d.value.get "definition" = d.definition := by
      simp [ApplicabilityEvidence.value]
    simp [ApplicabilityEvidence.value] at field
    subst field
    rw [if_neg (by rw [checked]; simp), definition] at accepted
    obtain ⟨⟨⟩, identity, -⟩ := ok_bind.mp accepted
    exact verifyIdentity_ok identity
  runs := by
    intro r member
    have accepted := checks.run r member
    simp only [checkRun, ok_bind, ok_text] at accepted
    obtain ⟨_, field, ⟨⟩, identity, -⟩ := accepted
    have definition : r.value.get "definition" = r.definition := by
      simp [ResolvedSpecificationEvidence.value]
    simp [ResolvedSpecificationEvidence.value] at field
    rw [definition, ← field] at identity
    exact verifyIdentity_ok identity
  slots := by
    intro s member
    have accepted := checks.slot s member
    simp only [checkAttemptSlot, ok_bind, ok_text] at accepted
    obtain ⟨_, field, ⟨⟩, identity, -⟩ := accepted
    have definition : s.value.get "definition" = s.definition := by simp [AttemptSlotEvidence.value]
    simp [AttemptSlotEvidence.value] at field
    rw [definition, ← field] at identity
    exact verifyIdentity_ok identity
  observationSlots := by
    intro s member
    have accepted := checks.observationSlot s member
    simp only [checkObservationSlot, ok_bind, ok_text] at accepted
    obtain ⟨_, field, identity⟩ := accepted
    have definition : s.value.get "definition" = s.definition := by
      simp [ObservationSlotEvidence.value]
    simp [ObservationSlotEvidence.value] at field
    rw [definition, ← field] at identity
    exact verifyIdentity_ok identity
  observations := fun _ member => (checks.attributed member).2
  attempts := fun a member => (checks.examined.1 a member).identity

end References

/-! ## The theorem -/

theorem evidence_sound_of_validate (accepted : validate hash readPolicy e = .ok ()) :
    EvidenceSound hash e := by
  obtain ⟨i, fresh, checks⟩ := accepts_of_validate accepted
  obtain ⟨examined, acceptedOnce⟩ := checks.examined
  have keys := checks.keys
  simp only [checkKeys, ok_bind] at keys
  obtain ⟨⟨⟩, -, ⟨⟩, -, ⟨⟩, -, ⟨⟩, -, ⟨⟩, -, ⟨⟩, eventKeys, ⟨⟩, -, ⟨⟩, transitionKeys, -⟩ := keys
  have eventNodup : (e.events.map EventEvidence.sequence).Nodup :=
    nodup_of_unique (fun v v' same => by simp [EventEvidence.value, same]) eventKeys
  -- two accepted attempts of one slot are one attempt
  have winner : ∀ a ∈ e.attempts, ∀ b ∈ e.attempts, a.state = "accepted" → b.state = "accepted" →
      a.slotId = b.slotId → a = b := by
    intro a left b right state state' same
    exact List.inj_on_of_nodup_map acceptedOnce (List.mem_filter.mpr ⟨left, by simpa using state⟩)
      (List.mem_filter.mpr ⟨right, by simpa using state'⟩) same
  refine ⟨fun a member => ?_, nodup_of_unique (fun t t' same => by
      simp [TransitionEvidence.value, same]) transitionKeys, acceptedOnce, ?_, fun o member set => ?_,
    ?_, checks.identified, checks.resolved⟩
  · obtain ⟨state, finished⟩ := checks.settled a member
    obtain ⟨ts, order, size, numbered, chain, start, end_, owned⟩ := (examined a member).history
    refine ⟨state, finished, ts, order, size, numbered, chain, start, end_, fun t inside => ?_⟩
    obtain ⟨v, event⟩ := owned t inside
    exact ⟨v, event, fun v' known same => List.inj_on_of_nodup_map eventNodup known event.1
      (same.trans event.2.1.symm)⟩
  · refine ⟨checks.selections.nodup, ?_, fun s member o known same =>
      (checks.attributed known).1.slot s member same.symm⟩
    have distinct : ((e.observations.filter fun o => o.selected).map
        ObservationEvidence.id).Nodup :=
      checks.observations.nodup.sublist (List.filter_sublist.map _)
    refine (List.perm_ext_iff_of_nodup checks.selections.nodup distinct).mpr fun id => ?_
    constructor
    · intro listed
      obtain ⟨s, member, rfl⟩ := List.mem_map.mp listed
      obtain ⟨o, known, same⟩ := checks.resolved.selections s member
      have set := (checks.attributed known).1.selection.mpr ⟨s, member, same.symm⟩
      exact List.mem_map.mpr ⟨o, List.mem_filter.mpr ⟨known, set⟩, same⟩
    · intro listed
      obtain ⟨o, flagged, rfl⟩ := List.mem_map.mp listed
      obtain ⟨known, set⟩ := List.mem_filter.mp flagged
      obtain ⟨s, member, same⟩ := (checks.attributed known).1.selection.mp set
      exact List.mem_map.mpr ⟨s, member, same⟩
  · obtain ⟨a, known, id, slot, state⟩ := (checks.attributed member).1.attempt
    obtain ⟨m, bound, place, owner⟩ := (checks.attributed member).1.member
    exact ⟨a, known, id, state set, m, bound, place, owner.trans slot.symm, fun m' other same =>
      checks.members.eq_of_key other bound (same.trans place.symm)⟩
  · intro s _ _ a known state slot m bound owner o member set place
    obtain ⟨b, known', id, slot', state'⟩ := (checks.attributed member).1.attempt
    obtain ⟨m', bound', place', owner'⟩ := (checks.attributed member).1.member
    have same : m' = m := checks.members.eq_of_key bound' bound (place'.trans place)
    have home : b.slotId = a.slotId := by rw [slot', ← owner', same, owner, slot]
    rw [← id, winner b known' a known (state' set) state home]

end Accepted

/-- The spelling every record of a kind has under a constant hash. -/
def sampleText (kind : IdentityKind) : String := (default : RecordId kind).text

/-- One accepted attempt that was reserved, finalized and selected. -/
def sampleEvidence : ArchiveEvidence :=
  let run := sampleText .resolvedSpecification
  let slot := sampleText .resolvedAttemptSlot
  let place := sampleText .resolvedObservationSlot
  let attempt := sampleText .attempt
  let observation := sampleText .observation
  let key := unconditionalKey ++ "candidate"
  ⟨1, [
    .applicability ⟨key, "candidate", true,
      .object [("candidate_id", .str "candidate"), ("outcome", .str "applicable")]⟩,
    .resolvedSpecification ⟨run, "specification", "candidate", key,
      .object [("version", .nat 1), ("logical_specification", .str "specification")]⟩,
    .resolvedAttemptSlot ⟨slot, "logical", run, "measurement", "one_shot",
      .object [("version", .nat 1), ("logical_slot", .str "logical"), ("specification", .str run)]⟩,
    .resolvedObservationSlot ⟨place, "logical", run,
      .object [("version", .nat 1), ("logical_slot", .str "logical"), ("specification", .str run)]⟩,
    .slotMembership ⟨slot, place, run⟩,
    .attempt ⟨attempt, slot, 0, "accepted", 2, "1", "3", some "3", none, some "final", none⟩,
    .attemptTransition ⟨attempt, 0, none, none, "reserved", "1", 0⟩,
    .attemptTransition ⟨attempt, 1, some 0, some "reserved", "finalizing", "2", 1⟩,
    .attemptTransition ⟨attempt, 2, some 1, some "finalizing", "accepted", "3", 2⟩,
    .event ⟨0, some attempt, "1", "attempt_reserved", .null⟩,
    .event ⟨1, some attempt, "2", "attempt_finalizing", .null⟩,
    .event ⟨2, some attempt, "3", "attempt_finished", .null⟩,
    .observation ⟨observation, place, attempt, slot, "result", true, "not_required", true,
      .object [("id", .str observation), ("slot_id", .str place), ("attempt_id", .str attempt),
        ("validity", .object [("valid", .bool true), ("completion", .str "not_required")])]⟩,
    .observationSelection ⟨place, observation, "2"⟩,
    .storedArtifact ⟨"final", "attempt", "artifacts/final", "0", "file", none, "3"⟩,
    .storedArtifact ⟨"result", "observation", "artifacts/result", "0", "file", none, "2"⟩]⟩

theorem evidence_sound_of_sampleEvidence :
    EvidenceSound (fun _ _ => default) sampleEvidence :=
  @evidence_sound_of_validate _ (fun _ => .error "no policy") _ (ok_of_toBool (by decide +kernel))

end Metewand.Archive
