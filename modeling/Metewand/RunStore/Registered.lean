import Metewand.RunStore.Documents
import Metewand.RunStore.Exported

/-!
# What registration leaves for the archive

Every row of a coordination table is defined by a record whose identity it has
(`Definitions`).  The archive's registration checks recompute exactly these
identities and projections, so they pass on every store (`registrations_pass`) that
holds no decision with the outcome `not_applicable`: that spelling is missing from
the validator's list.
-/

namespace Metewand.RunStore

open Lib Archive Check

section Definitions

variable (hash : Hasher) (allowed : ApplicabilityDecisionRecord → Prop)

/-- A decision row: a checked record, or the synthesized unconditional one. -/
def DecisionRow.Defined (d : DecisionRow) : Prop :=
  (∃ record id, d.id = .decided id ∧ recordId hash record = .ok id ∧
    canonicalIdentity record = .ok d.recordJson ∧ d.candidateId = record.candidateId ∧
    d.applicable = decide (record.outcome = .applicable) ∧ record.outcome ≠ .unchecked ∧
    allowed record) ∨
  (d.id = .unconditional d.candidateId ∧ d.applicable = true ∧
    d.recordJson = unconditionalRecord d.candidateId)

def RunRow.Defined (r : RunRow) : Prop :=
  ∃ record : ResolvedOneShotSpecificationRecord, recordId hash record = .ok r.id ∧
    canonicalIdentity record = .ok r.recordJson ∧
    r.logicalSpecificationId = record.logicalSpecification ∧
    ∀ decision ∈ record.applicability, r.applicabilityId = .decided decision

def AttemptSlotRow.Defined (s : AttemptSlotRow) : Prop :=
  ∃ record : ResolvedAttemptSlotRecord, recordId hash record = .ok s.id ∧
    canonicalIdentity record = .ok s.recordJson ∧ s.logicalSlotId = record.logicalSlot ∧
    s.resolvedRunId = record.specification

def ObservationSlotRow.Defined (s : ObservationSlotRow) : Prop :=
  ∃ record : ResolvedObservationSlotRecord, recordId hash record = .ok s.id ∧
    canonicalIdentity record = .ok s.recordJson ∧ s.logicalSlotId = record.logicalSlot ∧
    s.resolvedRunId = record.specification

/-- The rows of the registration tables are defined, and observation slots are bound. -/
structure Definitions (db : Db) : Prop where
  decisions : ∀ d ∈ db.applicabilityDecisions, d.Defined hash allowed
  runs : ∀ r ∈ db.resolvedRuns, r.Defined hash
  attemptSlots : ∀ s ∈ db.attemptSlots, s.Defined hash
  observationSlots : ∀ s ∈ db.observationSlots, s.Defined hash
  bound : ∀ s ∈ db.observationSlots,
    ∃ m ∈ db.attemptObservationSlots, m.observationSlotId = s.id

/-- What a transaction adds to the registration tables is defined and bound. -/
structure Adds (db db' : Db) : Prop where
  decisions : ∀ d ∈ db'.applicabilityDecisions,
    d ∈ db.applicabilityDecisions ∨ d.Defined hash allowed
  runs : ∀ r ∈ db'.resolvedRuns, r ∈ db.resolvedRuns ∨ r.Defined hash
  attemptSlots : ∀ s ∈ db'.attemptSlots, s ∈ db.attemptSlots ∨ s.Defined hash
  observationSlots : ∀ s ∈ db'.observationSlots, s ∈ db.observationSlots ∨
    (s.Defined hash ∧ ∃ m ∈ db'.attemptObservationSlots, m.observationSlotId = s.id)
  memberships : ∀ m ∈ db.attemptObservationSlots, m ∈ db'.attemptObservationSlots

end Definitions

namespace Adds

variable {hash : Hasher} {allowed : ApplicabilityDecisionRecord → Prop} {a b c db db' : Db}

theorem rfl (db : Db) : Adds hash allowed db db where
  decisions := fun _ member => .inl member
  runs := fun _ member => .inl member
  attemptSlots := fun _ member => .inl member
  observationSlots := fun _ member => .inl member
  memberships := fun _ member => member

/-- A transaction that writes none of the five tables. -/
theorem of_same {written : List Table} (same : SameBut written db db')
    (kept : .applicabilityDecisions ∉ written ∧ .resolvedRuns ∉ written ∧
      .attemptSlots ∉ written ∧ .observationSlots ∉ written ∧
      .attemptObservationSlots ∉ written) : Adds hash allowed db db' where
  decisions := fun _ member => .inl ((same.2 .applicabilityDecisions kept.1 :) ▸ member)
  runs := fun _ member => .inl ((same.2 .resolvedRuns kept.2.1 :) ▸ member)
  attemptSlots := fun _ member => .inl ((same.2 .attemptSlots kept.2.2.1 :) ▸ member)
  observationSlots := fun _ member => .inl ((same.2 .observationSlots kept.2.2.2.1 :) ▸ member)
  memberships := fun _ member =>
    (same.2 .attemptObservationSlots kept.2.2.2.2 :).symm ▸ member

theorem trans (first : Adds hash allowed a b) (second : Adds hash allowed b c) :
    Adds hash allowed a c where
  decisions := fun d member => (second.decisions d member).elim (first.decisions d) .inr
  runs := fun r member => (second.runs r member).elim (first.runs r) .inr
  attemptSlots := fun s member => (second.attemptSlots s member).elim (first.attemptSlots s) .inr
  observationSlots := by
    intro s member
    rcases second.observationSlots s member with older | new
    · rcases first.observationSlots s older with oldest | ⟨defined, m, bound, same⟩
      · exact .inl oldest
      · exact .inr ⟨defined, m, second.memberships m bound, same⟩
    · exact .inr new
  memberships := fun m member => second.memberships m (first.memberships m member)

theorem keeps (adds : Adds hash allowed db db') (old : Definitions hash allowed db) :
    Definitions hash allowed db' where
  decisions := fun d member => (adds.decisions d member).elim (old.decisions d) id
  runs := fun r member => (adds.runs r member).elim (old.runs r) id
  attemptSlots := fun s member => (adds.attemptSlots s member).elim (old.attemptSlots s) id
  observationSlots := fun s member =>
    (adds.observationSlots s member).elim (old.observationSlots s) And.left
  bound := by
    intro s member
    rcases adds.observationSlots s member with older | ⟨-, new⟩
    · obtain ⟨m, known, same⟩ := old.bound s older
      exact ⟨m, adds.memberships m known, same⟩
    · exact new

/-! ## Statements -/

theorem insertDecision {row : DecisionRow} {u : Unit} (defined : row.Defined hash allowed)
    (run : Tx.Yields (insertDecision row) db u db') : Adds hash allowed db db' := by
  simp only [RunStore.insertDecision, Tx.yields_get_bind, Tx.yields_ite, Tx.yields_pure,
    yields_constraint_bind, Tx.yields_modify] at run
  rcases run with ⟨-, -, rfl⟩ | ⟨-, -, rfl⟩
  · exact .rfl _
  · exact { (Adds.rfl db : Adds hash allowed db db) with
      decisions := fun d member => (List.mem_append.mp member).imp_right fun new => by
        rw [List.mem_singleton.mp new]
        exact defined }

theorem insertRun {row : RunRow} {u : Unit} (defined : row.Defined hash)
    (run : Tx.Yields (insertRun row) db u db') : Adds hash allowed db db' := by
  simp only [RunStore.insertRun, Tx.yields_get_bind, Tx.yields_ite, Tx.yields_pure,
    yields_constraint_bind, Tx.yields_modify] at run
  rcases run with ⟨-, -, rfl⟩ | ⟨-, -, -, rfl⟩
  · exact .rfl _
  · exact { (Adds.rfl db : Adds hash allowed db db) with
      runs := fun r member => (List.mem_append.mp member).imp_right fun new => by
        rw [List.mem_singleton.mp new]
        exact defined }

theorem insertAttemptSlot {row : AttemptSlotRow} {u : Unit} (defined : row.Defined hash)
    (run : Tx.Yields (insertAttemptSlot row) db u db') : Adds hash allowed db db' := by
  simp only [RunStore.insertAttemptSlot, Tx.yields_get_bind, Tx.yields_ite, Tx.yields_pure,
    yields_constraint_bind, Tx.yields_modify] at run
  rcases run with ⟨-, -, rfl⟩ | ⟨-, -, -, -, -, rfl⟩
  · exact .rfl _
  · exact { (Adds.rfl db : Adds hash allowed db db) with
      attemptSlots := fun s member => (List.mem_append.mp member).imp_right fun new => by
        rw [List.mem_singleton.mp new]
        exact defined }

/-- An observation slot and its membership are inserted together. -/
theorem insertBound {row : ObservationSlotRow} {member : MembershipRow} {mid : Db} {u v : Unit}
    (defined : row.Defined hash) (same : member.observationSlotId = row.id)
    (first : Tx.Yields (insertObservationSlot row) db u mid)
    (second : Tx.Yields (insertMembership member) mid v db') : Adds hash allowed db db' := by
  have bound : (∃ m ∈ db'.attemptObservationSlots, m.observationSlotId = row.id) ∧
      (∀ m ∈ mid.attemptObservationSlots, m ∈ db'.attemptObservationSlots) ∧
      SameBut [.attemptObservationSlots] mid db' := by
    have frame := (Uses.statement (.insertMembership member)
      (List.mem_singleton_self _)).sameBut second
    simp only [insertMembership, Tx.yields_get_bind, Tx.yields_ite, Tx.yields_pure,
      yields_constraint_bind, Tx.yields_modify] at second
    rcases second with ⟨⟨m, known, taken⟩, -, rfl⟩ | ⟨-, -, -, rfl⟩
    · exact ⟨⟨m, known, taken.trans same⟩, fun _ known => known, frame⟩
    · exact ⟨⟨member, List.mem_append_right _ (List.mem_singleton_self _), same⟩,
        fun _ known => List.mem_append_left _ known, frame⟩
  obtain ⟨there, kept, frame⟩ := bound
  have before := (Uses.statement (.insertObservationSlot row)
    (List.mem_singleton_self _)).sameBut first
  simp only [insertObservationSlot, Tx.yields_get_bind, Tx.yields_ite, Tx.yields_pure,
    yields_constraint_bind, Tx.yields_modify] at first
  have slots : ∀ s ∈ mid.observationSlots, s ∈ db.observationSlots ∨ s = row := by
    rcases first with ⟨-, -, rfl⟩ | ⟨-, -, -, -, rfl⟩
    · exact fun _ known => .inl known
    · exact fun s known => (List.mem_append.mp known).imp_right List.mem_singleton.mp
  refine ⟨fun d known => .inl ?_, fun r known => .inl ?_, fun s known => .inl ?_,
    fun s known => ?_, fun m known => ?_⟩
  · rw [show db'.applicabilityDecisions = mid.applicabilityDecisions from
      frame.2 .applicabilityDecisions (by decide)] at known
    rwa [show mid.applicabilityDecisions = db.applicabilityDecisions from
      before.2 .applicabilityDecisions (by decide)] at known
  · rw [show db'.resolvedRuns = mid.resolvedRuns from frame.2 .resolvedRuns (by decide)] at known
    rwa [show mid.resolvedRuns = db.resolvedRuns from before.2 .resolvedRuns (by decide)] at known
  · rw [show db'.attemptSlots = mid.attemptSlots from frame.2 .attemptSlots (by decide)] at known
    rwa [show mid.attemptSlots = db.attemptSlots from before.2 .attemptSlots (by decide)] at known
  · rw [show db'.observationSlots = mid.observationSlots from
      frame.2 .observationSlots (by decide)] at known
    rcases slots s known with older | rfl
    · exact .inl older
    · exact .inr ⟨defined, there⟩
  · refine kept m ?_
    rwa [show mid.attemptObservationSlots = db.attemptObservationSlots from
      before.2 .attemptObservationSlots (by decide)]

end Adds

/-! ## Registrations -/

section Registrations

variable {hash : Hasher} {allowed : ApplicabilityDecisionRecord → Prop} {db db' : Db} {u : Unit}

theorem yields_recordJson {T : Type} {kind : IdentityKind} [IdentityRecord T kind] {record : T}
    {json : Json} (run : Tx.Yields (recordJson record) db json db') :
    canonicalIdentity record = .ok json :=
  identityResult_ok (Tx.yields_check.mp run).1

theorem registerApplicability_adds
    {decision : IdentifiedRecord ApplicabilityDecisionRecord .applicability}
    (admitted : recordId hash decision.record = .ok decision.id → allowed decision.record)
    (run : Tx.Yields (registerApplicability hash decision) db u db') :
    Adds hash allowed db db' := by
  simp only [registerApplicability] at run
  obtain ⟨found, matched, run⟩ := Uses.matchesIdentity.readOnly_bind run
  have identity := yields_matchesIdentity matched
  simp only [Tx.yields_require_bind] at run
  obtain ⟨⟨same, resolved⟩, run⟩ := run
  obtain ⟨json, read, run⟩ := Uses.check.readOnly_bind run
  have canonical := yields_recordJson read
  obtain ⟨⟨⟩, mid, inserted, run⟩ := Tx.yields_bind.mp run
  simp only [Tx.yields_get_bind, Tx.yields_expect_bind, Tx.yields_require_bind,
    yields_commit] at run
  obtain ⟨_, -, -, -, rfl⟩ := run
  exact .insertDecision (.inl ⟨decision.record, decision.id, rfl, identity same, canonical, rfl, rfl,
    resolved, admitted (identity same)⟩) inserted

theorem resolveDecision_adds {candidate : RecordId .logicalCandidate}
    {run : ResolvedOneShotSpecificationRecord} {decision : DecisionId}
    (ran : Tx.Yields (resolveDecision candidate run) db decision db') :
    Adds hash allowed db db' ∧ ∀ checked ∈ run.applicability, decision = .decided checked := by
  unfold resolveDecision at ran
  split at ran
  · rename_i checked named
    simp only [Tx.yields_get_bind, Tx.yields_require_bind, Tx.yields_pure] at ran
    obtain ⟨-, rfl, rfl⟩ := ran
    refine ⟨.rfl _, fun other same => ?_⟩
    rw [named] at same
    cases same
    rfl
  · rename_i named
    obtain ⟨⟨⟩, mid, inserted, ran⟩ := Tx.yields_bind.mp ran
    obtain ⟨rfl, rfl⟩ := Tx.yields_pure.mp ran
    refine ⟨.insertDecision (.inr ⟨rfl, rfl, rfl⟩) inserted, fun other same => ?_⟩
    rw [named] at same
    cases same

theorem registerExtra_adds {run : RecordId .resolvedSpecification}
    {attempt : RecordId .resolvedAttemptSlot}
    {extra : IdentifiedRecord ResolvedObservationSlotRecord .resolvedObservationSlot}
    (ran : Tx.Yields (registerExtra hash run attempt extra) db u db') :
    Adds hash allowed db db' := by
  simp only [registerExtra] at ran
  obtain ⟨found, matched, ran⟩ := Uses.matchesIdentity.readOnly_bind ran
  have identity := yields_matchesIdentity matched
  simp only [Tx.yields_require_bind] at ran
  obtain ⟨⟨same, specification⟩, ran⟩ := ran
  obtain ⟨json, read, ran⟩ := Uses.check.readOnly_bind ran
  have canonical := yields_recordJson read
  obtain ⟨⟨⟩, mid, inserted, ran⟩ := Tx.yields_bind.mp ran
  simp only [Tx.yields_get_bind, Tx.yields_expect_bind, Tx.yields_require_bind] at ran
  obtain ⟨_, -, -, bound⟩ := ran
  exact .insertBound ⟨extra.record, identity same, canonical, rfl, specification.symm⟩ rfl inserted
    bound

theorem registerExecution_adds {candidate : RecordId .logicalCandidate}
    {run : IdentifiedRecord ResolvedOneShotSpecificationRecord .resolvedSpecification}
    {attempt : IdentifiedRecord ResolvedAttemptSlotRecord .resolvedAttemptSlot}
    {observations : List (IdentifiedRecord ResolvedObservationSlotRecord .resolvedObservationSlot)}
    {kind : SlotKind}
    (ran : Tx.Yields (registerExecution hash candidate run attempt observations kind) db u db') :
    Adds hash allowed db db' := by
  simp only [registerExecution, Tx.yields_expect_bind] at ran
  obtain ⟨observation, -, ran⟩ := ran
  obtain ⟨runFound, runMatched, ran⟩ := Uses.matchesIdentity.readOnly_bind ran
  have runIdentity := yields_matchesIdentity runMatched
  obtain ⟨slotFound, slotMatched, ran⟩ := Uses.matchesIdentity.readOnly_bind ran
  have slotIdentity := yields_matchesIdentity slotMatched
  obtain ⟨placeFound, placeMatched, ran⟩ := Uses.matchesIdentity.readOnly_bind ran
  have placeIdentity := yields_matchesIdentity placeMatched
  simp only [Tx.yields_require_bind] at ran
  obtain ⟨⟨runSame, slotSame, placeSame⟩, ⟨slotSpecification, placeSpecification⟩, ran⟩ := ran
  obtain ⟨decision, decided, resolving, ran⟩ := Tx.yields_bind.mp ran
  obtain ⟨resolved, checked⟩ := @resolveDecision_adds hash allowed _ _ _ _ _ resolving
  obtain ⟨runJson, runRead, ran⟩ := Uses.check.readOnly_bind ran
  have runCanonical := yields_recordJson runRead
  obtain ⟨⟨⟩, withRun, insertedRun, ran⟩ := Tx.yields_bind.mp ran
  obtain ⟨slotJson, slotRead, ran⟩ := Uses.check.readOnly_bind ran
  have slotCanonical := yields_recordJson slotRead
  obtain ⟨⟨⟩, withSlot, insertedSlot, ran⟩ := Tx.yields_bind.mp ran
  obtain ⟨placeJson, placeRead, ran⟩ := Uses.check.readOnly_bind ran
  have placeCanonical := yields_recordJson placeRead
  obtain ⟨⟨⟩, withPlace, insertedPlace, ran⟩ := Tx.yields_bind.mp ran
  obtain ⟨⟨⟩, withMember, insertedMember, ran⟩ := Tx.yields_bind.mp ran
  simp only [Tx.yields_get_bind, Tx.yields_expect_bind, Tx.yields_require_bind] at ran
  obtain ⟨_, -, _, -, _, -, -, ran⟩ := ran
  obtain ⟨⟨⟩, last, extras, ran⟩ := Tx.yields_bind.mp ran
  simp only [Tx.yields_get_bind, Tx.yields_expect_bind, Tx.yields_require_bind,
    yields_commit] at ran
  obtain ⟨_, -, -, -, rfl⟩ := ran
  have runAdded : Adds hash allowed decided withRun :=
    .insertRun ⟨run.record, runIdentity runSame, runCanonical, rfl, checked⟩ insertedRun
  have slotAdded : Adds hash allowed withRun withSlot :=
    .insertAttemptSlot ⟨attempt.record, slotIdentity slotSame, slotCanonical, rfl,
      slotSpecification.symm⟩ insertedSlot
  have placeAdded : Adds hash allowed withSlot withMember :=
    .insertBound ⟨observation.record, placeIdentity placeSame, placeCanonical, rfl,
      placeSpecification.symm⟩ rfl insertedPlace insertedMember
  have extrasAdded : Adds hash allowed withMember db' := by
    exact @Tx.each_induction _ _ _ _ (fun _ a b => Adds hash allowed a b) (fun a => .rfl a)
      (fun head tail => (registerExtra_adds head).trans tail) _ _ _ _ extras
  exact resolved.trans (runAdded.trans (slotAdded.trans (placeAdded.trans extrasAdded)))

end Registrations

/-! ## Runs -/

/-- A decision the step registers under its own identity is an allowed one. -/
def Label.Admits (hash : Hasher) (allowed : ApplicabilityDecisionRecord → Prop) : Label → Prop
  | .request (.registerApplicability decision) =>
      recordId hash decision.record = .ok decision.id → allowed decision.record
  | _ => True

section Runs

variable {hash : Hasher} {allowed : ApplicabilityDecisionRecord → Prop} {w : World}

theorem request_adds {request : Request} {answer : Answer} {db db' : Db}
    (registers : request.registers = true) (admits : (Label.request request).Admits hash allowed)
    (run : Tx.Yields (requestTransaction hash request) db answer db') :
    Adds hash allowed db db' := by
  cases request <;> simp only [Request.registers, Bool.false_eq_true] at registers
  case registerApplicability decision =>
    obtain ⟨⟨⟩, mid, ran, done⟩ := Tx.yields_bind.mp run
    obtain ⟨-, rfl⟩ := Tx.yields_pure.mp done
    exact registerApplicability_adds admits ran
  case registerOneShot =>
    obtain ⟨⟨⟩, mid, ran, done⟩ := Tx.yields_bind.mp run
    obtain ⟨-, rfl⟩ := Tx.yields_pure.mp done
    exact registerExecution_adds ran
  case registerStreaming =>
    obtain ⟨⟨⟩, mid, ran, done⟩ := Tx.yields_bind.mp run
    obtain ⟨-, rfl⟩ := Tx.yields_pure.mp done
    simp only [registerStreaming, Tx.yields_get_bind, Tx.yields_require_bind] at ran
    exact registerExecution_adds ran.2
  case registerBuffered =>
    obtain ⟨⟨⟩, mid, ran, done⟩ := Tx.yields_bind.mp run
    obtain ⟨-, rfl⟩ := Tx.yields_pure.mp done
    simp only [registerBuffered, Tx.yields_get_bind, Tx.yields_require_bind] at ran
    exact registerExecution_adds ran.2
  case registerFresh =>
    obtain ⟨⟨⟩, mid, ran, done⟩ := Tx.yields_bind.mp run
    obtain ⟨-, rfl⟩ := Tx.yields_pure.mp done
    simp only [registerFresh, Tx.yields_get_bind, Tx.yields_require_bind] at ran
    exact registerExecution_adds ran.2

theorem next_adds {label : Label} (admits : label.Admits hash allowed) :
    Adds hash allowed w.db (next hash w label).db := by
  unfold next
  cases transaction : w.transaction hash label with
  | none => exact .rfl _
  | some body =>
      rcases Tx.atomically_cases body w.db with ⟨answer, db', run, outcome⟩ | ⟨e, outcome⟩
      · simp only [outcome]
        cases works : label.registers w with
        | false => exact .of_same (((label_uses transaction).2 works).sameBut run) (by decide)
        | true =>
            cases label with
            | request request =>
                simp only [World.transaction] at transaction
                split at transaction
                · cases transaction
                  exact request_adds works admits run
                · cases transaction
            | resume index reading =>
                obtain ⟨call, at_, rfl⟩ := Option.map_eq_some_iff.mp transaction
                have registers : call.registers = true := by
                  simpa [Label.registers, at_] using works
                exact .of_same ((member_uses hash reading registers).sameBut run) (by decide)
      · simp only [outcome]
        exact .rfl _

theorem World.Initial.definitions {labels : List Label} (start : w.Initial)
    (admits : Meets (next hash) (fun _ label => label.Admits hash allowed) w labels) :
    Definitions hash allowed (run (next hash) w labels).db := by
  refine @run_invariant _ _ (next hash) _ w labels (fun w => Definitions hash allowed w.db)
    (fun w label old ok => (next_adds ok).keeps old) ?_ admits
  obtain ⟨layout, -, rfl⟩ := start
  exact ⟨nofun, nofun, nofun, nofun, nofun⟩

end Runs

/-! ## The archive's checks -/

section Checks

variable {hash : Hasher} {db : Db} {i : Indexes}

/-- A canonical value has the canonical members of its record. -/
theorem canonical_text {T : Type} {kind : IdentityKind} [IdentityRecord T kind] {record : T}
    {json : Json} {key value : String} (canonical : canonicalIdentity record = .ok json)
    (field : (Json.object (("version", .nat identityVersion) ::
      IdentityRecord.identityFields record)).get key = .str value) :
    json.get key = .str value := by
  have member := Json.normalize_get key canonical
  rw [field] at member
  exact (Except.ok.inj member).symm

theorem verifyIdentity_of_record {T : Type} {kind : IdentityKind} [IdentityRecord T kind]
    {record : T} {json : Json} {id : RecordId kind} (identity : recordId hash record = .ok id)
    (canonical : canonicalIdentity record = .ok json) :
    verifyIdentity hash kind id.text json = .ok () := by
  have version : json.get "version" = .nat identityVersion := by
    have member := Json.normalize_get "version" canonical
    rw [Json.get_object_cons, if_pos rfl] at member
    exact (Except.ok.inj member).symm
  have hashed : id = ⟨hash kind json⟩ := by
    unfold recordId at identity
    rw [canonical] at identity
    exact (Except.ok.inj identity).symm
  unfold verifyIdentity
  rw [RecordId.parse_eq_ok.mpr rfl, Json.normalize_idempotent canonical]
  simp only [ok_bind, ok_reject, not_not]
  exact ⟨(), version, hashed⟩

/-- Outcomes the validator has in its list. -/
def Listed (record : ApplicabilityDecisionRecord) : Prop := record.outcome ≠ .notApplicable

instance : DecidablePred Listed := fun record =>
  inferInstanceAs (Decidable (record.outcome ≠ .notApplicable))

theorem decided_key (id : RecordId .applicability) : startsWith unconditionalKey id.text = false := by
  simp [startsWith, unconditionalKey, RecordId.text, List.isPrefixOf]

theorem unconditional_key (candidate : RecordId .logicalCandidate) :
    startsWith unconditionalKey (DecisionId.unconditional candidate).text = true := by
  unfold startsWith
  rw [DecisionId.text_unconditional, String.toList_append]
  exact List.isPrefixOf_iff_prefix.mpr ⟨_, rfl⟩

theorem checkDecision_row {d : DecisionRow} (defined : d.Defined hash Listed) :
    checkDecision hash d.evidence.value = .ok () := by
  have id : d.evidence.value.get "id" = .str d.id.text := by
    simp [ApplicabilityEvidence.value, DecisionRow.evidence]
  have candidate : d.evidence.value.get "candidate_id" = .str d.candidateId.text := by
    simp [ApplicabilityEvidence.value, DecisionRow.evidence]
  have applicable : d.evidence.value.get "applicable" = .bool d.applicable := by
    simp [ApplicabilityEvidence.value, DecisionRow.evidence]
  have definition : d.evidence.value.get "definition" = d.recordJson := by
    simp [ApplicabilityEvidence.value, DecisionRow.evidence]
  -- both kinds of rows are applicable, for their candidate
  have fields : d.recordJson.get "outcome" = .str "applicable" ∧
      d.recordJson.get "candidate_id" = .str d.candidateId.text ∧ d.applicable = true := by
    rcases defined with ⟨record, id, -, -, canonical, same, projected, checked, listed⟩ |
      ⟨-, projected, record⟩
    · have outcome : record.outcome = .applicable := by
        cases known : record.outcome with
        | unchecked => exact absurd known checked
        | applicable => rfl
        | notApplicable => exact absurd known listed
      refine ⟨canonical_text canonical ?_, canonical_text canonical ?_, ?_⟩
      · simp [IdentityRecord.identityFields, outcome, ApplicabilityOutcome.name]
      · simp [IdentityRecord.identityFields, RecordId.json, same]
      · rw [projected, outcome]
        rfl
    · rw [record]
      exact ⟨by simp [unconditionalRecord], by simp [unconditionalRecord, RecordId.json], projected⟩
  obtain ⟨outcome, owner, positive⟩ := fields
  have agrees : ¬(d.recordJson.get "candidate_id" ≠ .str d.candidateId.text ∨
      ¬(d.recordJson.get "outcome" = .str "applicable" ↔ Json.bool d.applicable = .bool true)) := by
    rw [owner, outcome, positive]
    simp
  unfold checkDecision
  simp only [ok_bind, ok_text, ok_reject, ok_ite, id, candidate, applicable, definition]
  refine ⟨"applicable", outcome, (), by simp, d.id.text, rfl, ?_⟩
  rcases defined with ⟨record, id', decided, identity, canonical, -⟩ | ⟨unchecked, -⟩
  · refine .inr ⟨?_, (), ?_, agrees⟩
    · rw [decided, DecisionId.text_decided, decided_key]
      exact Bool.false_ne_true
    · rw [decided, DecisionId.text_decided]
      exact verifyIdentity_of_record identity canonical
  · refine .inl ⟨?_, d.candidateId.text, rfl, (), ?_, agrees⟩
    · rw [unchecked]
      exact unconditional_key d.candidateId
    · rw [positive, unchecked, DecisionId.text_unconditional]
      simp [unconditionalKey]

theorem checkRun_row (h : Integrity db) (lists : IndexesOf db i) {r : RunRow}
    (member : r ∈ db.resolvedRuns) (defined : r.Defined hash) :
    checkRun hash i.applicability r.evidence.value = .ok () := by
  obtain ⟨record, identity, canonical, logical, decided⟩ := defined
  obtain ⟨d, known, id, candidate, applicable⟩ := h.runDecision r member
  have specification : r.recordJson.get "logical_specification" =
      .str r.logicalSpecificationId.text := by
    refine canonical_text canonical ?_
    rw [logical]
    simp only [IdentityRecord.identityFields]
    split <;> simp [RecordId.json]
  have named : r.recordJson.get "applicability" = .null ∨
      r.recordJson.get "applicability" = .str r.applicabilityId.text := by
    cases choice : record.applicability with
    | none =>
        left
        have field := Json.normalize_get "applicability" canonical
        simp [IdentityRecord.identityFields, choice] at field
        exact (Except.ok.inj field).symm
    | some decision =>
        right
        refine canonical_text canonical ?_
        rw [decided decision choice, DecisionId.text_decided]
        simp [IdentityRecord.identityFields, choice, RecordId.json]
  unfold checkRun
  simp only [ok_bind, ok_text, ok_reject, ok_reference]
  refine ⟨r.id.text, by simp [RunRow.evidence, ResolvedSpecificationEvidence.value], (), ?_, (), ?_,
    d.evidence.value, ⟨d.id.text, ?_, lists.applicability.get d known⟩, ?_⟩
  · simpa [RunRow.evidence, ResolvedSpecificationEvidence.value] using
      verifyIdentity_of_record identity canonical
  · simp [RunRow.evidence, ResolvedSpecificationEvidence.value, specification]
    rcases named with absent | present
    · exact fun some => absurd absent some
    · exact fun _ => present
  · simp [RunRow.evidence, ResolvedSpecificationEvidence.value, id]
  · simp [RunRow.evidence, ResolvedSpecificationEvidence.value, DecisionRow.evidence,
      ApplicabilityEvidence.value, candidate, applicable]

theorem checkAttemptSlot_row (h : Integrity db) (lists : IndexesOf db i) {s : AttemptSlotRow}
    (member : s ∈ db.attemptSlots) (defined : s.Defined hash) :
    checkSlotProjection i.runs s.evidence.value = .ok () ∧
      checkAttemptSlot hash s.evidence.value = .ok () := by
  obtain ⟨record, identity, canonical, logical, specification⟩ := defined
  obtain ⟨r, known, id⟩ := h.attemptSlotRun s member
  have logicalField : s.recordJson.get "logical_slot" = .str s.logicalSlotId.text := by
    refine canonical_text canonical ?_
    simp [IdentityRecord.identityFields, RecordId.json, logical]
  have runField : s.recordJson.get "specification" = .str s.resolvedRunId.text := by
    refine canonical_text canonical ?_
    simp [IdentityRecord.identityFields, RecordId.json, specification]
  have hashed := verifyIdentity_of_record identity canonical
  constructor
  · unfold checkSlotProjection
    simp only [ok_bind, ok_reject, ok_reference]
    refine ⟨r.evidence.value, ⟨r.id.text, ?_, lists.runs.get r known⟩, ?_⟩
    · simp [AttemptSlotRow.evidence, AttemptSlotEvidence.value, id]
    · simp [AttemptSlotRow.evidence, AttemptSlotEvidence.value, logicalField, runField]
  · unfold checkAttemptSlot
    simp only [ok_bind, ok_text, ok_reject]
    refine ⟨s.id.text, ?_, (), ?_, ?_⟩
    · simp [AttemptSlotRow.evidence, AttemptSlotEvidence.value]
    · simpa [AttemptSlotRow.evidence, AttemptSlotEvidence.value] using hashed
    · simp only [AttemptSlotRow.evidence, AttemptSlotEvidence.value]
      cases s.role <;> cases s.kind <;> simp [SlotRole.name, SlotKind.name]

theorem checkObservationSlot_row (h : Integrity db) (lists : IndexesOf db i)
    {s : ObservationSlotRow} (member : s ∈ db.observationSlots) (defined : s.Defined hash) :
    checkSlotProjection i.runs s.evidence.value = .ok () ∧
      checkObservationSlot hash s.evidence.value = .ok () := by
  obtain ⟨record, identity, canonical, logical, specification⟩ := defined
  obtain ⟨r, known, id⟩ := h.observationSlotRun s member
  have logicalField : s.recordJson.get "logical_slot" = .str s.logicalSlotId.text := by
    refine canonical_text canonical ?_
    simp [IdentityRecord.identityFields, RecordId.json, logical]
  have runField : s.recordJson.get "specification" = .str s.resolvedRunId.text := by
    refine canonical_text canonical ?_
    simp [IdentityRecord.identityFields, RecordId.json, specification]
  have hashed := verifyIdentity_of_record identity canonical
  constructor
  · unfold checkSlotProjection
    simp only [ok_bind, ok_reject, ok_reference]
    refine ⟨r.evidence.value, ⟨r.id.text, ?_, lists.runs.get r known⟩, ?_⟩
    · simp [ObservationSlotRow.evidence, ObservationSlotEvidence.value, id]
    · simp [ObservationSlotRow.evidence, ObservationSlotEvidence.value, logicalField, runField]
  · unfold checkObservationSlot
    simp only [ok_bind, ok_text]
    refine ⟨s.id.text, ?_, ?_⟩
    · simp [ObservationSlotRow.evidence, ObservationSlotEvidence.value]
    · simpa [ObservationSlotRow.evidence, ObservationSlotEvidence.value] using hashed

theorem checkMember_row (h : Integrity db) (lists : IndexesOf db i) {m : MembershipRow}
    (member : m ∈ db.attemptObservationSlots) :
    checkMember i.slots i.observationSlots m.evidence.value = .ok () := by
  obtain ⟨s, slot, slotId, slotRun⟩ := h.membershipSlot m member
  obtain ⟨o, place, placeId, placeRun⟩ := h.membershipObservation m member
  unfold checkMember
  simp only [ok_bind, ok_reject, ok_reference]
  refine ⟨s.evidence.value, ⟨s.id.text, ?_, lists.slots.get s slot⟩, o.evidence.value,
    ⟨o.id.text, ?_, lists.observationSlots.get o place⟩, ?_⟩
  · simp [MembershipRow.evidence, SlotMembershipEvidence.value, slotId]
  · simp [MembershipRow.evidence, SlotMembershipEvidence.value, placeId]
  · simp [MembershipRow.evidence, SlotMembershipEvidence.value, AttemptSlotRow.evidence,
      AttemptSlotEvidence.value, ObservationSlotRow.evidence, ObservationSlotEvidence.value,
      slotRun, placeRun]

theorem checkRegistrations_of_definitions (h : Integrity db)
    (defined : Definitions hash Listed db) (lists : IndexesOf db i) :
    checkRegistrations hash i = .ok () := by
  have bound : ∀ s ∈ db.observationSlots,
      checkReferences [(i.members, "id")] s.evidence.value = .ok () := by
    intro s member
    obtain ⟨m, known, same⟩ := defined.bound s member
    simp only [checkReferences, ok_each, List.mem_singleton, forall_eq, ok_bind, ok_reference, ok_pure]
    refine ⟨m.evidence.value, ⟨m.observationSlotId.text, ?_, lists.members.get m known⟩, trivial⟩
    simp [ObservationSlotRow.evidence, ObservationSlotEvidence.value, same]
  have projections : each (checkSlotProjection i.runs)
      (i.slots.values ++ i.observationSlots.values) = .ok () := by
    rw [ok_each]
    intro row member
    rcases List.mem_append.mp member with slot | place
    · exact ok_each.mp (lists.slots.each fun s inside =>
        (checkAttemptSlot_row h lists inside (defined.attemptSlots s inside)).1) row slot
    · exact ok_each.mp (lists.observationSlots.each fun s inside =>
        (checkObservationSlot_row h lists inside (defined.observationSlots s inside)).1) row place
  unfold checkRegistrations
  simp only [ok_bind]
  refine ⟨(), ?_, (), ?_, (), projections, (), ?_, (), ?_, (), ?_, ?_⟩
  · exact lists.applicability.each fun d inside => checkDecision_row (defined.decisions d inside)
  · exact lists.runs.each fun r inside => checkRun_row h lists inside (defined.runs r inside)
  · exact lists.observationSlots.each fun s inside =>
      (checkObservationSlot_row h lists inside (defined.observationSlots s inside)).2
  · exact lists.slots.each fun s inside =>
      (checkAttemptSlot_row h lists inside (defined.attemptSlots s inside)).2
  · exact lists.members.each fun m inside => checkMember_row h lists inside
  · exact lists.observationSlots.each bound

end Checks

/-- The validator indexes the evidence and accepts what was registered. -/
def RegistrationsPass (hash : Hasher) (e : ArchiveEvidence) : Prop :=
  ∃ i, buildIndexes e = .ok i ∧ checkRegistrations hash i = .ok ()

/-- What the calls of a run register passes the archive's checks, whatever the fresh tables
hold, unless a decision `not_applicable` is among it. -/
theorem registrations_pass_of_listed {hash : Hasher} {w : World} {labels : List Label}
    (start : w.Initial)
    (listed : Meets (next hash) (fun _ label => label.Admits hash Listed) w labels) :
    (∀ fresh, (∀ r ∈ fresh, ofFreshTable r = true) →
      RegistrationsPass hash (evidenceWith (run (next hash) w labels).db fresh)) ∧
    ∀ e db', Tx.Yields archiveEvidence (run (next hash) w labels).db e db' →
      RegistrationsPass hash e := by
  have reach : Reachable hash (run (next hash) w labels) := ⟨w, labels, start, rfl⟩
  have integrity : Integrity (run (next hash) w labels).db := reach.sound.db.toIntegrity
  have passes : ∀ e, Exported (run (next hash) w labels).db e → RegistrationsPass hash e := by
    intro e rows
    obtain ⟨i, built, lists⟩ := exists_indexes integrity rows
    exact ⟨i, built, checkRegistrations_of_definitions integrity (start.definitions listed) lists⟩
  exact ⟨fun fresh only => passes _ (exported_evidenceWith only),
    fun e db' exported => passes e (exported_of_archiveEvidence exported)⟩

/-! ## Sample registrations -/

def sampleDecision (outcome : ApplicabilityOutcome) :
    IdentifiedRecord ApplicabilityDecisionRecord .applicability :=
  identify sampleHash ⟨default, outcome, "code", "reason", none, none, none⟩

def decidedSpecification :
    IdentifiedRecord ResolvedOneShotSpecificationRecord .resolvedSpecification :=
  identify sampleHash ⟨some (sampleDecision .applicable).id, default, default, sampleWorker,
    sampleWorker, default, 1, 1⟩

/-- A checked decision and a run that rests on it. -/
def registeredRun : List Label := [
  .request (.registerApplicability (sampleDecision .applicable)),
  .request (.registerOneShot default decidedSpecification
    (identify sampleHash ⟨default, decidedSpecification.id⟩)
    (identify sampleHash ⟨default, decidedSpecification.id⟩))]

theorem registrations_pass_of_registeredRun :
    (sampleWorld 3).Initial ∧
      Meets (next sampleHash) (fun _ label => label.Admits sampleHash Listed) (sampleWorld 3)
        registeredRun ∧
      (run (next sampleHash) (sampleWorld 3) registeredRun).db.attemptSlots.length = 1 ∧
      RegistrationsPass sampleHash
        (evidenceWith (run (next sampleHash) (sampleWorld 3) registeredRun).db []) := by
  have listed : Meets (next sampleHash) (fun _ label => label.Admits sampleHash Listed)
      (sampleWorld 3) registeredRun := ⟨fun _ => by decide, trivial, trivial⟩
  exact ⟨sampleWorld_initial, listed, by decide +kernel,
    (registrations_pass_of_listed sampleWorld_initial listed).1 [] fun _ member =>
      absurd member List.not_mem_nil⟩

/-- A candidate that was checked and found not to be applicable. -/
def excludedRun : List Label :=
  [.request (.registerApplicability (sampleDecision .notApplicable))]

/-- The decision is registered under its own identity and the store is exported, but the
validator does not know the spelling of the outcome. -/
theorem excludedRun_refused :
    Reachable sampleHash (run (next sampleHash) (sampleWorld 3) excludedRun) ∧
      (recordId sampleHash (sampleDecision .notApplicable).record).toOption =
        some (sampleDecision .notApplicable).id ∧
      (run (next sampleHash) (sampleWorld 3) excludedRun).db.applicabilityDecisions.map
        DecisionRow.id = [.decided (sampleDecision .notApplicable).id] ∧
      ∃ e, Tx.Yields archiveEvidence (run (next sampleHash) (sampleWorld 3) excludedRun).db e
        (run (next sampleHash) (sampleWorld 3) excludedRun).db ∧
          ¬RegistrationsPass sampleHash e := by
  refine ⟨⟨_, excludedRun, sampleWorld_initial, rfl⟩, by decide +kernel, by decide +kernel,
    evidenceWith (run (next sampleHash) (sampleWorld 3) excludedRun).db [], ?_, ?_⟩
  · rfl
  · rintro ⟨i, built, passed⟩
    have refused : (buildIndexes (evidenceWith
        (run (next sampleHash) (sampleWorld 3) excludedRun).db []) >>=
          checkRegistrations sampleHash).toBool = false := by decide +kernel
    rw [built] at refused
    simp only [Except.bind, bind, passed] at refused
    cases refused

end Metewand.RunStore
