import Metewand.RunStore.Registered

/-!
# Registered executions

What a successful `register_execution` has checked and left (`Registration`), after which the
same call succeeds and changes nothing (`Registration.again`).

The statement that binds an observation slot skips a slot that is bound, and nothing compares
the binding it finds with the attempt slot of the call.  So a successful call has bound its
observation slots to its attempt slot exactly when none of them was bound elsewhere
(`register_execution_bound`).
-/

namespace Metewand.RunStore

open Lib

section Registration

variable {hash : Hasher} {db db' : Db} {u : Unit}

/-! ## Steps of the transaction -/

theorem identityResult_iff {α : Type} {x : Except Json.CanonicalValueViolation α} {a : α} :
    identityResult x = .ok a ↔ x = .ok a := by
  refine ⟨identityResult_ok, ?_⟩
  rintro rfl
  rfl

theorem yields_matchesIdentity_bind {T α : Type} {kind : IdentityKind} [IdentityRecord T kind]
    {identified : IdentifiedRecord T kind} {f : Bool → StoreTx α} {a : α} :
    Tx.Yields (matchesIdentity hash identified >>= f) db a db' ↔
      ∃ id, recordId hash identified.record = .ok id ∧ Tx.Yields (f (decide (id = identified.id))) db a db' := by
  simp only [matchesIdentity, bind_assoc, Tx.yields_check_bind, identityResult_iff, Tx.yields_pure_bind]

theorem yields_recordJson_bind {T α : Type} {kind : IdentityKind} [IdentityRecord T kind] {record : T}
    {f : Json → StoreTx α} {a : α} : Tx.Yields (recordJson record >>= f) db a db' ↔
      ∃ json, canonicalIdentity record = .ok json ∧ Tx.Yields (f json) db a db' := by
  simp only [recordJson, Tx.yields_check_bind, identityResult_iff]

/-- A statement without a result, and the rest of the body. -/
theorem yields_then {α : Type} {x : StoreTx Unit} {f : Unit → StoreTx α} {a : α} :
    Tx.Yields (x >>= f) db a db' ↔ ∃ mid, Tx.Yields x db () mid ∧ Tx.Yields (f ()) mid a db' := by
  rw [Tx.yields_bind]
  constructor
  · rintro ⟨⟨⟩, mid, first, rest⟩
    exact ⟨mid, first, rest⟩
  · rintro ⟨mid, first, rest⟩
    exact ⟨(), mid, first, rest⟩

/-- A statement leaves the other tables, and loses no row of its own. -/
theorem statement_frame {t : Table} {α : Type} {x : StoreTx α} {a : α} (statement : Statement t x)
    (ran : Tx.Yields x db a db') : SameBut [t] db db' ∧ Grown db db' := by
  have uses : Uses [t] x := .statement statement (List.mem_singleton_self _)
  exact ⟨uses.sameBut ran, uses.grown ran⟩

/-! ## Inserts -/

theorem yields_insertDecision {row : DecisionRow} (ran : Tx.Yields (insertDecision row) db u db') :
    ∃ d ∈ db'.applicabilityDecisions, d.id = row.id := by
  simp only [insertDecision, Tx.yields_get_bind, Tx.yields_ite, Tx.yields_pure, yields_constraint_bind,
    Tx.yields_modify] at ran
  rcases ran with ⟨there, -, rfl⟩ | ⟨-, -, rfl⟩
  · exact there
  · exact ⟨row, List.mem_append_right _ (List.mem_singleton_self _), rfl⟩

theorem yields_insertRun {row : RunRow} (ran : Tx.Yields (insertRun row) db u db') :
    ∃ r ∈ db'.resolvedRuns, r.id = row.id := by
  simp only [insertRun, Tx.yields_get_bind, Tx.yields_ite, Tx.yields_pure, yields_constraint_bind,
    Tx.yields_modify] at ran
  rcases ran with ⟨there, -, rfl⟩ | ⟨-, -, -, rfl⟩
  · exact there
  · exact ⟨row, List.mem_append_right _ (List.mem_singleton_self _), rfl⟩

/-- The memberships after binding one slot: a slot that is bound stays bound as it was. -/
def addMembership (rows : List MembershipRow) (row : MembershipRow) : List MembershipRow :=
  if ∃ m ∈ rows, m.observationSlotId = row.observationSlotId then rows else rows ++ [row]

theorem yields_insertMembership {row : MembershipRow} (ran : Tx.Yields (insertMembership row) db u db') :
    db'.attemptObservationSlots = addMembership db.attemptObservationSlots row := by
  simp only [insertMembership, Tx.yields_get_bind, Tx.yields_ite, Tx.yields_pure, yields_constraint_bind,
    Tx.yields_modify] at ran
  unfold addMembership
  rcases ran with ⟨there, -, rfl⟩ | ⟨free, -, -, rfl⟩
  · rw [if_pos there]
  · rw [if_neg free]

theorem exists_addMembership (rows : List MembershipRow) (row : MembershipRow) :
    ∃ m ∈ addMembership rows row, m.observationSlotId = row.observationSlotId := by
  unfold addMembership
  split
  · assumption
  · exact ⟨row, List.mem_append_right _ (List.mem_singleton_self _), rfl⟩

theorem insertDecision_again {row : DecisionRow} (there : ∃ d ∈ db.applicabilityDecisions, d.id = row.id) :
    Tx.Yields (insertDecision row) db () db := by
  simp only [insertDecision, Tx.yields_get_bind, Tx.yields_ite]
  exact .inl ⟨there, rfl⟩

theorem insertRun_again {row : RunRow} (there : ∃ r ∈ db.resolvedRuns, r.id = row.id) :
    Tx.Yields (insertRun row) db () db := by
  simp only [insertRun, Tx.yields_get_bind, Tx.yields_ite]
  exact .inl ⟨there, rfl⟩

theorem insertAttemptSlot_again {row : AttemptSlotRow} (there : ∃ s ∈ db.attemptSlots, s.id = row.id) :
    Tx.Yields (insertAttemptSlot row) db () db := by
  simp only [insertAttemptSlot, Tx.yields_get_bind, Tx.yields_ite]
  exact .inl ⟨there, rfl⟩

theorem insertObservationSlot_again {row : ObservationSlotRow}
    (there : ∃ s ∈ db.observationSlots, s.id = row.id) : Tx.Yields (insertObservationSlot row) db () db := by
  simp only [insertObservationSlot, Tx.yields_get_bind, Tx.yields_ite]
  exact .inl ⟨there, rfl⟩

theorem insertMembership_again {row : MembershipRow}
    (there : ∃ m ∈ db.attemptObservationSlots, m.observationSlotId = row.observationSlotId) :
    Tx.Yields (insertMembership row) db () db := by
  simp only [insertMembership, Tx.yields_get_bind, Tx.yields_ite]
  exact .inl ⟨there, rfl⟩

/-! ## What a registration leaves -/

/-- The decision a run rests on is there. -/
def Decides (db : Db) (candidate : RecordId .logicalCandidate) (record : ResolvedOneShotSpecificationRecord) :
    Prop :=
  match record.applicability with
  | some decision => ∃ d ∈ db.applicabilityDecisions,
      d.id = .decided decision ∧ d.candidateId = candidate ∧ d.applicable = true
  | none => ∃ d ∈ db.applicabilityDecisions, d.id = .unconditional candidate

variable (hash) (db) in
/-- An observation slot that is stored as given for a run, and bound. -/
structure SlotRegistered (run : RecordId .resolvedSpecification)
    (slot : IdentifiedRecord ResolvedObservationSlotRecord .resolvedObservationSlot) : Prop where
  identity : recordId hash slot.record = .ok slot.id
  specification : slot.record.specification = run
  stored : ∃ s ∈ db.observationSlots, s.id = slot.id ∧ canonicalIdentity slot.record = .ok s.recordJson
  bound : ∃ m ∈ db.attemptObservationSlots, m.observationSlotId = slot.id

variable (hash) (db) in
/-- An execution that is stored as given. -/
structure Registration (candidate : RecordId .logicalCandidate)
    (run : IdentifiedRecord ResolvedOneShotSpecificationRecord .resolvedSpecification)
    (attempt : IdentifiedRecord ResolvedAttemptSlotRecord .resolvedAttemptSlot)
    (observations : List (IdentifiedRecord ResolvedObservationSlotRecord .resolvedObservationSlot))
    (kind : SlotKind) : Prop where
  some : observations ≠ []
  runIdentity : recordId hash run.record = .ok run.id
  attemptIdentity : recordId hash attempt.record = .ok attempt.id
  specification : attempt.record.specification = run.id
  decision : Decides db candidate run.record
  storedRun : ∃ r ∈ db.resolvedRuns, r.id = run.id ∧ canonicalIdentity run.record = .ok r.recordJson
  storedAttempt : ∃ s ∈ db.attemptSlots, s.id = attempt.id ∧
    canonicalIdentity attempt.record = .ok s.recordJson ∧ s.kind = kind
  observations : ∀ o ∈ observations, SlotRegistered hash db run.id o
  projected : Projected db

theorem exists_grown {α : Type} {rows rows' : List α} {p : α → Prop} (grown : Extends Eq rows rows')
    (old : ∃ r ∈ rows, p r) : ∃ r ∈ rows', p r := by
  obtain ⟨r, member, holds⟩ := old
  obtain ⟨_, member', rfl⟩ := grown.mem member
  exact ⟨r, member', holds⟩

theorem SlotRegistered.grown {run : RecordId .resolvedSpecification}
    {slot : IdentifiedRecord ResolvedObservationSlotRecord .resolvedObservationSlot}
    (registered : SlotRegistered hash db run slot) (grown : Grown db db') : SlotRegistered hash db' run slot where
  identity := registered.identity
  specification := registered.specification
  stored := exists_grown grown.observationSlots registered.stored
  bound := exists_grown grown.memberships registered.bound

theorem yields_registerExtra {run : RecordId .resolvedSpecification} {attempt : RecordId .resolvedAttemptSlot}
    {extra : IdentifiedRecord ResolvedObservationSlotRecord .resolvedObservationSlot}
    (ran : Tx.Yields (registerExtra hash run attempt extra) db u db') :
    SlotRegistered hash db' run extra ∧
      db'.attemptObservationSlots = addMembership db.attemptObservationSlots ⟨attempt, extra.id, run⟩ := by
  simp only [registerExtra, yields_matchesIdentity_bind, Tx.yields_require_bind, yields_recordJson_bind,
    yields_then, Tx.yields_get_bind, Tx.yields_expect_bind] at ran
  obtain ⟨id, identity, ⟨same, specification⟩, json, canonical, mid, inserted, row, found, equal, bound⟩ := ran
  have before := (statement_frame (.insertObservationSlot _) inserted).1
  have after := (statement_frame (.insertMembership _) bound).1
  have slots : db'.observationSlots = mid.observationSlots := after.2 .observationSlots (by decide)
  have memberships : mid.attemptObservationSlots = db.attemptObservationSlots :=
    before.2 .attemptObservationSlots (by decide)
  have added := yields_insertMembership bound
  rw [memberships] at added
  refine ⟨⟨of_decide_eq_true same ▸ identity, specification, ⟨row, ?_, ?_, ?_⟩, ?_⟩, added⟩
  · rw [slots]
    exact List.mem_of_find?_eq_some found
  · simpa using List.find?_some found
  · rw [equal]
    exact canonical
  · rw [added]
    exact exists_addMembership _ ⟨attempt, extra.id, run⟩

theorem find_stored {run : RecordId .resolvedSpecification} (h : Integrity db)
    {slot : IdentifiedRecord ResolvedObservationSlotRecord .resolvedObservationSlot}
    (registered : SlotRegistered hash db run slot) : ∃ s, db.observationSlots.find? (fun s => s.id = slot.id) = some s ∧
      canonicalIdentity slot.record = .ok s.recordJson := by
  obtain ⟨s, member, id, canonical⟩ := registered.stored
  have found := h.observationSlotIds.find_of_mem member
  rw [id] at found
  exact ⟨s, found, canonical⟩

theorem registerExtra_again {run : RecordId .resolvedSpecification} {attempt : RecordId .resolvedAttemptSlot}
    {extra : IdentifiedRecord ResolvedObservationSlotRecord .resolvedObservationSlot} (h : Integrity db)
    (registered : SlotRegistered hash db run extra) :
    Tx.Yields (registerExtra hash run attempt extra) db () db := by
  obtain ⟨s, found, canonical⟩ := find_stored h registered
  obtain ⟨s', member, id, -⟩ := registered.stored
  simp only [registerExtra, yields_matchesIdentity_bind, Tx.yields_require_bind, yields_recordJson_bind,
    yields_then, Tx.yields_get_bind, Tx.yields_expect_bind]
  exact ⟨extra.id, registered.identity, ⟨decide_eq_true rfl, registered.specification⟩, s.recordJson, canonical,
    db, insertObservationSlot_again ⟨s', member, id⟩, s, found, rfl, insertMembership_again registered.bound⟩

/-! ## The whole transaction -/

/-- The memberships after binding the slots one by one. -/
def bindAll (attempt : RecordId .resolvedAttemptSlot) (run : RecordId .resolvedSpecification)
    (rows : List MembershipRow)
    (slots : List (IdentifiedRecord ResolvedObservationSlotRecord .resolvedObservationSlot)) :
    List MembershipRow :=
  slots.foldl (fun rows slot => addMembership rows ⟨attempt, slot.id, run⟩) rows

theorem yields_registerExtras {run : RecordId .resolvedSpecification} {attempt : RecordId .resolvedAttemptSlot}
    {extras : List (IdentifiedRecord ResolvedObservationSlotRecord .resolvedObservationSlot)}
    (ran : Tx.Yields (Tx.each (registerExtra hash run attempt) extras) db u db') :
    (∀ extra ∈ extras, SlotRegistered hash db' run extra) ∧
      db'.attemptObservationSlots = bindAll attempt run db.attemptObservationSlots extras := by
  induction extras generalizing db with
  | nil =>
      rw [Tx.yields_each_nil] at ran
      rw [ran]
      exact ⟨by simp, rfl⟩
  | cons extra rest ih =>
      obtain ⟨mid, head, tail⟩ := Tx.yields_each_cons.mp ran
      obtain ⟨registered, added⟩ := yields_registerExtra head
      obtain ⟨others, rows⟩ := ih tail
      have grown : Grown mid db' := Uses.grown (.each fun _ => .registerExtra) tail
      refine ⟨List.forall_mem_cons.mpr ⟨registered.grown grown, others⟩, ?_⟩
      rw [rows, added, bindAll, bindAll, List.foldl_cons]

theorem registerExtras_again {run : RecordId .resolvedSpecification} {attempt : RecordId .resolvedAttemptSlot}
    {extras : List (IdentifiedRecord ResolvedObservationSlotRecord .resolvedObservationSlot)} (h : Integrity db)
    (registered : ∀ extra ∈ extras, SlotRegistered hash db run extra) :
    Tx.Yields (Tx.each (registerExtra hash run attempt) extras) db () db := by
  induction extras with
  | nil => exact Tx.yields_each_nil.mpr rfl
  | cons extra rest ih =>
      obtain ⟨head, tail⟩ := List.forall_mem_cons.mp registered
      exact Tx.yields_each_cons.mpr ⟨db, registerExtra_again h head, ih tail⟩

variable {candidate : RecordId .logicalCandidate}
  {run : IdentifiedRecord ResolvedOneShotSpecificationRecord .resolvedSpecification}
  {attempt : IdentifiedRecord ResolvedAttemptSlotRecord .resolvedAttemptSlot}
  {observations : List (IdentifiedRecord ResolvedObservationSlotRecord .resolvedObservationSlot)}
  {kind : SlotKind}

theorem yields_resolveDecision {record : ResolvedOneShotSpecificationRecord} {decision : DecisionId}
    (ran : Tx.Yields (resolveDecision candidate record) db decision db') :
    Decides db' candidate record ∧ db'.attemptObservationSlots = db.attemptObservationSlots := by
  unfold resolveDecision at ran
  unfold Decides
  cases named : record.applicability with
  | some checked =>
      simp only [named, Tx.yields_get_bind, Tx.yields_require_bind, Tx.yields_pure] at ran
      obtain ⟨there, -, rfl⟩ := ran
      exact ⟨there, rfl⟩
  | none =>
      simp only [named, yields_then] at ran
      obtain ⟨mid, inserted, ran⟩ := ran
      obtain ⟨-, rfl⟩ := Tx.yields_pure.mp ran
      have frame := (statement_frame (.insertDecision _) inserted).1
      exact ⟨yields_insertDecision inserted, frame.2 .attemptObservationSlots (by decide)⟩

theorem resolveDecision_again {record : ResolvedOneShotSpecificationRecord}
    (decides : Decides db candidate record) :
    ∃ decision, Tx.Yields (resolveDecision candidate record) db decision db := by
  unfold Decides at decides
  unfold resolveDecision
  cases named : record.applicability with
  | some checked =>
      rw [named] at decides
      exact ⟨.decided checked, Tx.yields_get_bind.mpr (Tx.yields_require_bind.mpr
        ⟨decides, Tx.yields_pure.mpr ⟨rfl, rfl⟩⟩)⟩
  | none =>
      rw [named] at decides
      exact ⟨.unconditional candidate, yields_then.mpr
        ⟨db, insertDecision_again decides, Tx.yields_pure.mpr ⟨rfl, rfl⟩⟩⟩

theorem Decides.grown {record : ResolvedOneShotSpecificationRecord} (decides : Decides db candidate record)
    (grown : Grown db db') : Decides db' candidate record := by
  unfold Decides at decides ⊢
  cases named : record.applicability with
  | some checked =>
      rw [named] at decides
      exact exists_grown grown.decisions decides
  | none =>
      rw [named] at decides
      exact exists_grown grown.decisions decides

theorem yields_registerExecution (h : Integrity db)
    (ran : Tx.Yields (registerExecution hash candidate run attempt observations kind) db u db') :
    Registration hash db' candidate run attempt observations kind ∧
      db'.attemptObservationSlots = bindAll attempt.id run.id db.attemptObservationSlots observations := by
  have sound := Uses.registerExecution.integrity ran h
  simp only [registerExecution, Tx.yields_expect_bind, yields_matchesIdentity_bind, Tx.yields_require_bind] at ran
  obtain ⟨observation, head, runId, runIdentity, slotId, slotIdentity, placeId, placeIdentity,
    ⟨runSame, slotSame, placeSame⟩, ⟨slotSpecification, placeSpecification⟩, ran⟩ := ran
  obtain ⟨decision, decided, resolving, ran⟩ := Tx.yields_bind.mp ran
  simp only [yields_recordJson_bind, yields_then, Tx.yields_get_bind, Tx.yields_expect_bind,
    Tx.yields_require_bind, yields_commit] at ran
  obtain ⟨runJson, runCanonical, withRun, insertedRun, slotJson, slotCanonical, withSlot, insertedSlot,
    placeJson, placeCanonical, withPlace, insertedPlace, withMember, insertedMember, runRow, foundRun, slotRow,
    foundSlot, placeRow, foundPlace, ⟨sameRun, sameSlot, samePlace⟩, last, extras, finalRow, foundFinal,
    sameKind, projected, rfl⟩ := ran
  obtain ⟨decides, decisionRows⟩ := yields_resolveDecision resolving
  obtain ⟨runFrame, runGrown⟩ := statement_frame (.insertRun _) insertedRun
  obtain ⟨slotFrame, slotGrown⟩ := statement_frame (.insertAttemptSlot _) insertedSlot
  obtain ⟨placeFrame, placeGrown⟩ := statement_frame (.insertObservationSlot _) insertedPlace
  obtain ⟨memberFrame, memberGrown⟩ := statement_frame (.insertMembership _) insertedMember
  have extrasUse : Uses Uses.registrationTables (Tx.each (registerExtra hash run.id attempt.id) observations.tail) :=
    .each fun _ => .registerExtra
  have extrasGrown := extrasUse.grown extras
  have later := ((runGrown.trans slotGrown).trans (placeGrown.trans memberGrown)).trans extrasGrown
  obtain ⟨registered, rows⟩ := yields_registerExtras extras
  have bound := yields_insertMembership insertedMember
  have runRows : withRun.attemptObservationSlots = decided.attemptObservationSlots :=
    runFrame.2 .attemptObservationSlots (by decide)
  have slotRows : withSlot.attemptObservationSlots = withRun.attemptObservationSlots :=
    slotFrame.2 .attemptObservationSlots (by decide)
  have placeRows : withPlace.attemptObservationSlots = withSlot.attemptObservationSlots :=
    placeFrame.2 .attemptObservationSlots (by decide)
  have unbound := placeRows.trans (slotRows.trans (runRows.trans decisionRows))
  obtain ⟨rest, whole⟩ := List.head?_eq_some_iff.mp head
  subst whole
  have place : SlotRegistered hash withMember run.id observation := by
    refine ⟨of_decide_eq_true placeSame ▸ placeIdentity, placeSpecification,
      ⟨placeRow, List.mem_of_find?_eq_some foundPlace, by simpa using List.find?_some foundPlace, ?_⟩, ?_⟩
    · rw [samePlace]
      exact placeCanonical
    · rw [bound]
      exact exists_addMembership _ ⟨attempt.id, observation.id, run.id⟩
  constructor
  · exact {
      some := by simp
      runIdentity := of_decide_eq_true runSame ▸ runIdentity
      attemptIdentity := of_decide_eq_true slotSame ▸ slotIdentity
      specification := slotSpecification
      decision := decides.grown later
      storedRun := by
        refine exists_grown extrasGrown.runs ⟨runRow, List.mem_of_find?_eq_some foundRun,
          by simpa using List.find?_some foundRun, ?_⟩
        rw [sameRun]
        exact runCanonical
      storedAttempt := by
        obtain ⟨_, member, rfl⟩ := extrasGrown.attemptSlots.mem (List.mem_of_find?_eq_some foundSlot)
        have id : slotRow.id = attempt.id := by simpa using List.find?_some foundSlot
        have id' : finalRow.id = attempt.id := by simpa using List.find?_some foundFinal
        have one := sound.attemptSlotIds.eq_of_key (List.mem_of_find?_eq_some foundFinal) member
          (id'.trans id.symm)
        rw [one] at sameKind
        refine ⟨slotRow, member, id, ?_, sameKind⟩
        rw [sameSlot]
        exact slotCanonical
      observations := List.forall_mem_cons.mpr ⟨place.grown extrasGrown, registered⟩
      projected := projected }
  · rw [rows, bound, unbound]
    rfl

/-- A registered execution is registered again without a change. -/
theorem Registration.again (h : Integrity db)
    (registration : Registration hash db candidate run attempt observations kind) :
    Tx.Yields (registerExecution hash candidate run attempt observations kind) db () db := by
  obtain ⟨decision, resolved⟩ := resolveDecision_again registration.decision
  obtain ⟨runRow, runMember, runId, runCanonical⟩ := registration.storedRun
  obtain ⟨slotRow, slotMember, slotId, slotCanonical, sameKind⟩ := registration.storedAttempt
  have foundRun := h.runIds.find_of_mem runMember
  have foundSlot := h.attemptSlotIds.find_of_mem slotMember
  rw [runId] at foundRun
  rw [slotId] at foundSlot
  cases observations with
  | nil => exact absurd rfl registration.some
  | cons observation rest =>
      obtain ⟨place, others⟩ := List.forall_mem_cons.mp registration.observations
      obtain ⟨placeRow, foundPlace, placeCanonical⟩ := find_stored h place
      obtain ⟨placeRow', placeMember, placeId, -⟩ := place.stored
      simp only [registerExecution, Tx.yields_expect_bind, yields_matchesIdentity_bind, Tx.yields_require_bind]
      refine ⟨observation, rfl, run.id, registration.runIdentity, attempt.id, registration.attemptIdentity,
        observation.id, place.identity, ⟨decide_eq_true rfl, decide_eq_true rfl, decide_eq_true rfl⟩,
        ⟨registration.specification, place.specification⟩, ?_⟩
      refine Tx.yields_bind.mpr ⟨decision, db, resolved, ?_⟩
      simp only [yields_recordJson_bind, yields_then, Tx.yields_get_bind, Tx.yields_expect_bind,
        Tx.yields_require_bind, yields_commit]
      exact ⟨runRow.recordJson, runCanonical, db, insertRun_again ⟨runRow, runMember, runId⟩, slotRow.recordJson,
        slotCanonical, db, insertAttemptSlot_again ⟨slotRow, slotMember, slotId⟩, placeRow.recordJson,
        placeCanonical, db, insertObservationSlot_again ⟨placeRow', placeMember, placeId⟩, db,
        insertMembership_again place.bound, runRow, foundRun, slotRow, foundSlot, placeRow, foundPlace,
        ⟨rfl, rfl, rfl⟩, db, registerExtras_again h others, slotRow, foundSlot, sameKind,
        registration.projected, rfl⟩

/-! ## Bindings -/

/-- The slot is bound to nothing but the attempt slot. -/
def BoundOnlyTo (rows : List MembershipRow) (attempt : RecordId .resolvedAttemptSlot)
    (slot : RecordId .resolvedObservationSlot) : Prop :=
  ∀ m ∈ rows, m.observationSlotId = slot → m.attemptSlotId = attempt

theorem boundOnlyTo_add {rows : List MembershipRow} {attempt : RecordId .resolvedAttemptSlot}
    {slot other : RecordId .resolvedObservationSlot} {run : RecordId .resolvedSpecification} :
    BoundOnlyTo (addMembership rows ⟨attempt, other, run⟩) attempt slot ↔ BoundOnlyTo rows attempt slot := by
  unfold addMembership BoundOnlyTo
  split
  · exact Iff.rfl
  · simp only [List.mem_append, List.mem_singleton, or_imp, forall_and, forall_eq]
    exact and_iff_left fun _ => trivial

/-- Binding skips what is bound: no slot is taken from, or given to, another attempt slot. -/
theorem boundOnlyTo_bindAll {attempt : RecordId .resolvedAttemptSlot} {run : RecordId .resolvedSpecification}
    {slot : RecordId .resolvedObservationSlot}
    {slots : List (IdentifiedRecord ResolvedObservationSlotRecord .resolvedObservationSlot)}
    {rows : List MembershipRow} :
    BoundOnlyTo (bindAll attempt run rows slots) attempt slot ↔ BoundOnlyTo rows attempt slot := by
  induction slots generalizing rows with
  | nil => exact Iff.rfl
  | cons head rest ih =>
      rw [bindAll, List.foldl_cons]
      exact ih.trans boundOnlyTo_add

/-- The slot is bound, to the attempt slot alone. -/
def BoundTo (rows : List MembershipRow) (attempt : RecordId .resolvedAttemptSlot)
    (slot : RecordId .resolvedObservationSlot) : Prop :=
  (∃ m ∈ rows, m.observationSlotId = slot) ∧ BoundOnlyTo rows attempt slot

variable (hash candidate run attempt observations kind) in
/-- What a call of `register_execution` comes to: its answer and the database it leaves. -/
def registered (db : Db) : Except RunStoreError Unit × Db :=
  Tx.atomically (registerExecution hash candidate run attempt observations kind) db

theorem registered_ok (success : (registered hash candidate run attempt observations kind db).1 = .ok ()) :
    Tx.Yields (registerExecution hash candidate run attempt observations kind) db ()
      (registered hash candidate run attempt observations kind db).2 := by
  unfold registered at success ⊢
  rcases Tx.atomically_cases (registerExecution hash candidate run attempt observations kind) db with
    ⟨⟨⟩, left, ran, outcome⟩ | ⟨e, -, outcome⟩
  · rw [outcome]
    exact ran
  · rw [outcome] at success
    cases success

theorem registered_error {e : RunStoreError}
    (failure : (registered hash candidate run attempt observations kind db).1 = .error e) :
    (registered hash candidate run attempt observations kind db).2 = db := by
  unfold registered at failure ⊢
  rcases Tx.atomically_cases (registerExecution hash candidate run attempt observations kind) db with
    ⟨⟨⟩, left, ran, outcome⟩ | ⟨e, -, outcome⟩
  · rw [outcome] at failure
    cases failure
  · rw [outcome]

end Registration

/-- A call that fails changes nothing.  A call that succeeds has stored the execution as given and
changes nothing when it is repeated; it has bound the observation slots to the attempt slot
exactly when none of them was bound elsewhere. -/
theorem register_execution_bound {hash : Hasher} {w : World} (reach : Reachable hash w)
    (candidate : RecordId .logicalCandidate)
    (run : IdentifiedRecord ResolvedOneShotSpecificationRecord .resolvedSpecification)
    (attempt : IdentifiedRecord ResolvedAttemptSlotRecord .resolvedAttemptSlot)
    (observations : List (IdentifiedRecord ResolvedObservationSlotRecord .resolvedObservationSlot))
    (kind : SlotKind) :
    let call := registered hash candidate run attempt observations kind
    (∀ e, (call w.db).1 = .error e → (call w.db).2 = w.db) ∧
    ((call w.db).1 = .ok () →
      Integrity (call w.db).2 ∧ Registration hash (call w.db).2 candidate run attempt observations kind ∧
      ((∀ o ∈ observations, BoundTo (call w.db).2.attemptObservationSlots attempt.id o.id) ↔
        ∀ o ∈ observations, BoundOnlyTo w.db.attemptObservationSlots attempt.id o.id) ∧
      call (call w.db).2 = (.ok (), (call w.db).2)) := by
  intro call
  refine ⟨fun e failure => registered_error failure, fun success => ?_⟩
  have ran := registered_ok success
  have integrity := Uses.registerExecution.integrity ran reach.sound.db.toIntegrity
  obtain ⟨registration, rows⟩ := yields_registerExecution reach.sound.db.toIntegrity ran
  refine ⟨integrity, registration, forall₂_congr fun o member => ?_, ?_⟩
  · have kept : BoundOnlyTo (call w.db).2.attemptObservationSlots attempt.id o.id ↔ _ :=
      rows ▸ boundOnlyTo_bindAll
    exact (and_iff_right (registration.observations o member).bound).trans kept
  · have again : registerExecution hash candidate run attempt observations kind (call w.db).2 =
        .ok ((), (call w.db).2) := registration.again integrity
    change Tx.atomically _ _ = _
    unfold Tx.atomically
    rw [again]

/-! ## An observation slot of two attempt slots -/

/-- The sample hash, which also tells the second attempt slot from the first. -/
def reboundHash : Hasher := fun kind value =>
  if value.get "logical_slot" = (⟨.fill 7⟩ : RecordId .logicalAttemptSlot).json then .fill 9
  else sampleHash kind value

def secondSlot : IdentifiedRecord ResolvedAttemptSlotRecord .resolvedAttemptSlot :=
  identify reboundHash ⟨⟨.fill 7⟩, sampleSpecification.id⟩

/-- A store with one registered execution. -/
def boundWorld : World :=
  Lib.run (next reboundHash) (sampleWorld 3)
    [.request (.registerOneShot default sampleSpecification sampleSlot sampleObservationSlot)]

theorem boundWorld_reachable : Reachable reboundHash boundWorld :=
  ⟨sampleWorld 3, _, sampleWorld_initial, rfl⟩

/-- The first registration binds the slot; the second attempt slot does not get it. -/
theorem register_execution_bound_sample :
    let first := registered reboundHash default sampleSpecification sampleSlot [sampleObservationSlot] .oneShot
      (sampleWorld 3).db
    BoundTo first.2.attemptObservationSlots sampleSlot.id sampleObservationSlot.id := by
  intro first
  have start : Reachable reboundHash (sampleWorld 3) := ⟨sampleWorld 3, [], sampleWorld_initial, rfl⟩
  have success : first.1.toOption = some () := by decide +kernel
  obtain ⟨-, -, bound, -⟩ := (register_execution_bound start default sampleSpecification sampleSlot
    [sampleObservationSlot] .oneShot).2 (Check.toOption_eq_some.mp success)
  exact bound.mpr (fun o _ m member => absurd member List.not_mem_nil) _ (List.mem_singleton_self _)

/-- A second attempt slot of the run registers the bound observation slot, and does not get it. -/
theorem register_execution_rebound :
    let call := registered reboundHash default sampleSpecification secondSlot [sampleObservationSlot] .oneShot
      boundWorld.db
    Reachable reboundHash boundWorld ∧ call.1 = .ok () ∧
      ¬BoundTo call.2.attemptObservationSlots secondSlot.id sampleObservationSlot.id := by
  intro call
  have success : call.1.toOption = some () := by decide +kernel
  have taken : call.2.attemptObservationSlots.map (fun m => (m.observationSlotId, m.attemptSlotId)) =
      [(sampleObservationSlot.id, sampleSlot.id)] := by decide +kernel
  have other : sampleSlot.id ≠ secondSlot.id := by decide +kernel
  refine ⟨boundWorld_reachable, Check.toOption_eq_some.mp success, fun bound => ?_⟩
  obtain ⟨m, member, pair⟩ := List.mem_map.mp (taken ▸ List.mem_singleton_self _ :
    (sampleObservationSlot.id, sampleSlot.id) ∈ call.2.attemptObservationSlots.map
      fun m => (m.observationSlotId, m.attemptSlotId))
  obtain ⟨observation, attempt⟩ := Prod.mk.inj pair
  exact other (attempt.symm.trans (bound.2 m member observation))

end Metewand.RunStore
