import Metewand.RunStore.Terminal

/-!
# What one step can do

`Change hash db actor db'` is everything a step of the system can do to the
database, with the evidence it was done under; `actor` is whom the step acts for.  `next_change` says that there is nothing else, so each invariant of
the store is a case analysis on `Change`.

The database a step starts from is `Sound`, every guard that was issued is
`Issued`, and every suspended call is `CallSound`; these three hold in every
reachable world.
-/

namespace Metewand.RunStore

open Lib

/-! ## Changes -/

/-- The member a registration adds to a sequence, if it adds one. -/
structure Enrolled (db db' : Db) (slot : RecordId .resolvedAttemptSlot) : Prop where
  kind : ∃ s ∈ db.attemptSlots, s.id = slot ∧ s.kind = .freshObservation
  layout : supported db
  members : db'.freshMembers = db.freshMembers ∨
    ∃ row, row.slotId = slot ∧ (∀ m ∈ db.freshMembers, m.slotId ≠ slot) ∧
      db'.freshMembers = db.freshMembers ++ [row]
  controls : ∀ m ∈ db'.freshMembers, m ∈ db.freshMembers ∨
    m.controlJson.normalize = .ok m.controlJson
  sequences : Extends Eq db.freshSequences db'.freshSequences
  same : SameBut [.freshSequences, .freshMembers] db db'

/-- Who may finish an attempt: its owner under the fence, or recovery after it lapsed. -/
def Authority (db : Db) (g : OwnedAttempt) (a : AttemptRow) : Prop :=
  (∃ now, Fenced db g now a) ∨ ∃ now l, StillExpired db g now a l

/-- A terminal commit with what it rests on. -/
structure Settled (db db' : Db) (g : OwnedAttempt) (outcome : TerminalOutcome) (finished : Nat)
    (a b : AttemptRow) : Prop extends Finished db db' g outcome finished a b where
  authority : Authority db g a
  guardSlot : a.slotId = g.slot
  guardTime : a.updatedAtNs = g.updatedAtNs
  acceptance : outcome = .accepted → ∃ slot, Acceptance db g slot

/-- Whom a step acts for; a step that can commit an outcome names it. -/
inductive Actor where
  | system
  | attempt (id : RecordId .attempt)
  | finishing (g : OwnedAttempt) (outcome : TerminalOutcome)

/-- The attempt a step acts for. -/
def Actor.id : Actor → Option (RecordId .attempt)
  | .system => none
  | .attempt id => some id
  | .finishing g _ => some g.id

/-- What a step does to the database on behalf of an attempt. -/
inductive Change (hash : Hasher) (db : Db) : Actor → Db → Prop
  | idle (actor : Actor) : Change hash db actor db
  | registered {db' : Db} (same : SameBut Uses.registrationTables db db') :
      Change hash db .system db'
  | enrolled {db' : Db} {slot : RecordId .resolvedAttemptSlot} (row : Enrolled db db' slot) :
      Change hash db .system db'
  | imported {db' : Db} (same : SameBut [.artifacts] db db') : Change hash db .system db'
  | reserved {db' : Db} {g : OwnedAttempt} (row : Reserved hash db db' g) :
      Change hash db (.attempt g.id) db'
  | advanced {db' : Db} {a b : AttemptRow} (row : Advanced db db' a b) :
      Change hash db (.attempt a.id) db'
  | claimed {db' : Db} {a b : AttemptRow} (row : Claimed db db' a b) :
      Change hash db (.attempt a.id) db'
  | leased {db' : Db} (actor : Actor)
      (active : ∀ id ∈ actor.id, ∃ a ∈ db.attempts, a.id = id ∧ a.finishedAtNs = none)
      (rows : Leased db db') : Change hash db actor db'
  | observed {db' : Db} {a : AttemptRow} {o : ObservationRow} {select : Bool} {now : Nat}
      (row : Observed db db' a o select now) : Change hash db (.attempt a.id) db'
  | budgeted {db' : Db} {a : AttemptRow} {sequence : SequenceKey} {limit used reserved : Nat}
      (row : Budgeted db db' a sequence limit used reserved) : Change hash db (.attempt a.id) db'
  | charged {db' : Db} {a : AttemptRow} {measured : Nat} (row : Charged db db' a measured) :
      Change hash db (.attempt a.id) db'
  | finished {db' : Db} {g : OwnedAttempt} {outcome : TerminalOutcome} {finished : Nat}
      {a b : AttemptRow} (row : Settled db db' g outcome finished a b) :
      Change hash db (.finishing g outcome) db'

/-- Leases change for the owner of an unfinished attempt. -/
theorem Change.of_fenced {hash : Hasher} {db db' : Db} {g : OwnedAttempt}
    (fenced : ∃ now a, Fenced db g now a) (rows : Leased db db') :
    Change hash db (.attempt g.id) db' := by
  obtain ⟨now, a, fenced⟩ := fenced
  refine .leased _ (fun id same => ?_) rows
  obtain rfl := Option.some.inj same
  exact ⟨a, fenced.member, fenced.row.1, fenced.row.2.2.2.2⟩

/-- How a change treats the table of attempts. -/
theorem Change.attempts {hash : Hasher} {db db' : Db} {actor : Actor}
    (change : Change hash db actor db') :
    (db'.attempts = db.attempts ∧ db'.attemptTransitions = db.attemptTransitions) ∨
      (∃ g, Reserved hash db db' g) ∨ ∃ a b, Moved db db' a b := by
  cases change with
  | idle => exact .inl ⟨rfl, rfl⟩
  | registered same =>
      exact .inl ⟨same.2 .attempts (by decide), same.2 .attemptTransitions (by decide)⟩
  | enrolled row =>
      exact .inl ⟨row.same.2 .attempts (by decide), row.same.2 .attemptTransitions (by decide)⟩
  | imported same =>
      exact .inl ⟨same.2 .attempts (by decide), same.2 .attemptTransitions (by decide)⟩
  | reserved row => exact .inr (.inl ⟨_, row⟩)
  | advanced row => exact .inr (.inr ⟨_, _, row.toMoved⟩)
  | claimed row => exact .inr (.inr ⟨_, _, row.toMoved⟩)
  | leased _ _ rows =>
      exact .inl ⟨rows.same.2 .attempts (by decide), rows.same.2 .attemptTransitions (by decide)⟩
  | observed row =>
      exact .inl ⟨row.same.2 .attempts (by decide), row.same.2 .attemptTransitions (by decide)⟩
  | budgeted row =>
      exact .inl ⟨row.same.2 .attempts (by decide), row.same.2 .attemptTransitions (by decide)⟩
  | charged row =>
      exact .inl ⟨row.same.2 .attempts (by decide), row.same.2 .attemptTransitions (by decide)⟩
  | finished row => exact .inr (.inr ⟨_, _, row.toMoved⟩)

/-- How a change treats the claims. -/
theorem Change.claims {hash : Hasher} {db db' : Db} {actor : Actor}
    (change : Change hash db actor db') :
    db'.finalizationClaims = db.finalizationClaims ∨ (∃ a b, Claimed db db' a b) ∨
      ∃ g outcome finished a b, Settled db db' g outcome finished a b := by
  cases change with
  | idle => exact .inl rfl
  | registered same => exact .inl (same.2 .finalizationClaims (by decide))
  | enrolled row => exact .inl (row.same.2 .finalizationClaims (by decide))
  | imported same => exact .inl (same.2 .finalizationClaims (by decide))
  | reserved row => exact .inl (row.same.2 .finalizationClaims (by decide))
  | advanced row => exact .inl (row.same.2 .finalizationClaims (by decide))
  | claimed row => exact .inr (.inl ⟨_, _, row⟩)
  | leased _ _ rows => exact .inl (rows.same.2 .finalizationClaims (by decide))
  | observed row => exact .inl (row.same.2 .finalizationClaims (by decide))
  | budgeted row => exact .inl (row.same.2 .finalizationClaims (by decide))
  | charged row => exact .inl (row.same.2 .finalizationClaims (by decide))
  | finished row => exact .inr (.inr ⟨_, _, _, _, _, row⟩)

/-- How a change treats observations, selections and the claims they rest on. -/
theorem Change.evidence {hash : Hasher} {db db' : Db} {actor : Actor}
    (change : Change hash db actor db') :
    (db'.observations = db.observations ∧ db'.selectedObservations = db.selectedObservations ∧
        ∀ c ∈ db.finalizationClaims, c ∈ db'.finalizationClaims) ∨
      (∃ a o select now, actor = .attempt a.id ∧ Observed db db' a o select now) ∨
      ∃ g outcome finished a b, actor = .finishing g outcome ∧
        Settled db db' g outcome finished a b := by
  have untouched : ∀ {written : List Table}, SameBut written db db' → .observations ∉ written →
      .selectedObservations ∉ written → .finalizationClaims ∉ written →
      db'.observations = db.observations ∧ db'.selectedObservations = db.selectedObservations ∧
        ∀ c ∈ db.finalizationClaims, c ∈ db'.finalizationClaims := by
    intro written same observations selections claims
    refine ⟨same.2 .observations observations, same.2 .selectedObservations selections, ?_⟩
    rw [show db'.finalizationClaims = db.finalizationClaims from
      same.2 .finalizationClaims claims]
    exact fun _ member => member
  cases change with
  | idle => exact .inl ⟨rfl, rfl, fun _ member => member⟩
  | registered same => exact .inl (untouched same (by decide) (by decide) (by decide))
  | enrolled row => exact .inl (untouched row.same (by decide) (by decide) (by decide))
  | imported same => exact .inl (untouched same (by decide) (by decide) (by decide))
  | reserved row => exact .inl (untouched row.same (by decide) (by decide) (by decide))
  | advanced row => exact .inl (untouched row.same (by decide) (by decide) (by decide))
  | claimed row =>
      obtain ⟨lease, r, -, -, -, -, -, -, -, -, -, claims⟩ := row.leases
      refine .inl ⟨row.same.2 .observations (by decide),
        row.same.2 .selectedObservations (by decide), ?_⟩
      rw [claims]
      exact fun _ member => List.mem_append_left _ member
  | leased _ _ rows => exact .inl (untouched rows.same (by decide) (by decide) (by decide))
  | observed row => exact .inr (.inl ⟨_, _, _, _, rfl, row⟩)
  | budgeted row => exact .inl (untouched row.same (by decide) (by decide) (by decide))
  | charged row => exact .inl (untouched row.same (by decide) (by decide) (by decide))
  | finished row => exact .inr (.inr ⟨_, _, _, _, _, rfl, row⟩)

/-- Only a terminal commit adds dispositions. -/
theorem Change.dispositions {hash : Hasher} {db db' : Db} {actor : Actor}
    (change : Change hash db actor db') : db'.freshDispositions = db.freshDispositions ∨
      ∃ g outcome finished a b, Settled db db' g outcome finished a b := by
  cases change with
  | idle => exact .inl rfl
  | registered same => exact .inl (same.2 .freshDispositions (by decide))
  | enrolled row => exact .inl (row.same.2 .freshDispositions (by decide))
  | imported same => exact .inl (same.2 .freshDispositions (by decide))
  | reserved row => exact .inl (row.same.2 .freshDispositions (by decide))
  | advanced row => exact .inl (row.same.2 .freshDispositions (by decide))
  | claimed row => exact .inl (row.same.2 .freshDispositions (by decide))
  | leased _ _ rows => exact .inl (rows.same.2 .freshDispositions (by decide))
  | observed row => exact .inl (row.same.2 .freshDispositions (by decide))
  | budgeted row => exact .inl (row.same.2 .freshDispositions (by decide))
  | charged row => exact .inl (row.same.2 .freshDispositions (by decide))
  | finished row => exact .inr ⟨_, _, _, _, _, row⟩

/-! ## Sound databases, guards and calls -/

/-- A database some transaction has committed. -/
structure Sound (hash : Hasher) (db : Db) : Prop extends Integrity db where
  projected : Projected db
  bounded : ∀ a ∈ db.attempts, a.retryIndex ≤ i64Max ∧ a.revision ≤ maxSafeInteger ∧
    a.updatedAtNs ≤ i64Max
  identities : ∀ a ∈ db.attempts, runAttemptId hash a.slotId a.retryIndex = .ok a.id

theorem Sound.create (hash : Hasher) (layout : Nat) : Sound hash (Db.create layout) :=
  { Integrity.create layout with
    projected := fun _ member => nomatch member
    bounded := fun _ member => nomatch member
    identities := fun _ member => nomatch member }

/-- The guard was issued for a row, an edge and a reservation lease of the store. -/
structure Issued (db : Db) (g : OwnedAttempt) : Prop where
  fits : g.Fits
  row : ∃ a ∈ db.attempts, a.id = g.id ∧ a.slotId = g.slot ∧ a.retryIndex = g.retryIndex ∧
    g.revision ≤ a.revision
  edge : ∃ t ∈ db.attemptTransitions, t.attemptId = g.id ∧ t.revision = g.revision ∧
    t.occurredAtNs = g.updatedAtNs
  lease : ∃ l ∈ db.leases, l.id = g.leaseId ∧ l.ownerToken = g.ownerToken ∧
    l.attemptId = g.id ∧ l.purpose = .reservation

theorem Issued.grown {db db' : Db} {g : OwnedAttempt} (issued : Issued db g)
    (grown : Grown db db') : Issued db' g where
  fits := issued.fits
  row := by
    obtain ⟨a, member, id, slot, retry, revision⟩ := issued.row
    obtain ⟨b, inside, later⟩ := grown.attempts.mem member
    exact ⟨b, inside, later.id.trans id, later.slotId.trans slot, later.retryIndex.trans retry,
      revision.trans later.revision⟩
  edge := by
    obtain ⟨t, member, facts⟩ := issued.edge
    exact ⟨t, mem_of_extends_eq grown.transitions member, facts⟩
  lease := by
    obtain ⟨l, member, id, owner, attempt, purpose⟩ := issued.lease
    obtain ⟨m, inside, later⟩ := grown.leases.mem member
    exact ⟨m, inside, later.id.trans id, later.ownerToken.trans owner,
      later.attemptId.trans attempt, later.purpose.trans purpose⟩

/-- A guard of the current revision agrees with the row on everything it carries. -/
theorem Issued.current {db : Db} (h : Integrity db) (projected : Projected db)
    {g : OwnedAttempt} (issued : Issued db g) {a : AttemptRow} (member : a ∈ db.attempts)
    (id : a.id = g.id) (revision : a.revision = g.revision) : a.updatedAtNs = g.updatedAtNs := by
  obtain ⟨t, inside, owner, at_, time⟩ := issued.edge
  obtain ⟨s, last, owner', at', -, time'⟩ := projected a member
  have equal : s = t := h.transitionKeys.eq_of_key last inside (by
    simp only [owner, at_, owner', at', id, revision])
  rw [← time', equal, time]

theorem Issued.slot_of_id {db : Db} (h : Integrity db) {g : OwnedAttempt} (issued : Issued db g)
    {a : AttemptRow} (member : a ∈ db.attempts) (id : a.id = g.id) :
    a.slotId = g.slot ∧ a.retryIndex = g.retryIndex ∧ g.revision ≤ a.revision := by
  obtain ⟨b, inside, same, facts⟩ := issued.row
  rw [h.attemptIds.eq_of_key member inside (id.trans same.symm)]
  exact facts

theorem StagingLease.grown {db db' : Db} {id : String} (staging : StagingLease db id)
    (grown : Grown db db') : StagingLease db' id := by
  obtain ⟨l, member, named, purpose⟩ := staging
  obtain ⟨m, inside, later⟩ := grown.leases.mem member
  exact ⟨m, inside, later.id.trans named, later.purpose.trans purpose⟩

/-- What a suspended call has established. -/
def CallSound (db : Db) : Call → Prop
  | .registerMember _ slot _ => supported db ∧
      ∃ s ∈ db.attemptSlots, s.id = slot ∧ s.kind = .freshObservation
  | .publishArtifact g _ _ | .documentOutcome g _ _ _ | .publishFinalization g _ _ _ _ _ =>
      Issued db g
  | .recover pass =>
      (∀ s ∈ pass.stages, ∀ id ∈ s.leaseId, StagingLease db id) ∧
        match pass.phase with
        | .scanning _ | .choosing _ => True
        | .checking g _ _ valid _ => Issued db g ∧ ∀ found ∈ valid, found.2.Parsed found.1
        | .publishing g _ _ => Issued db g
        | .quarantining stages => ∀ s ∈ stages, ∀ id ∈ s.leaseId, StagingLease db id

theorem CallSound.grown {db db' : Db} {call : Call} (sound : CallSound db call)
    (grown : Grown db db') : CallSound db' call := by
  cases call with
  | registerMember run slot point =>
      obtain ⟨layout, s, member, named⟩ := sound
      refine ⟨?_, s, mem_of_extends_eq grown.attemptSlots member, named⟩
      unfold supported at *
      rw [grown.layout]
      exact layout
  | publishArtifact g kind stage => exact Issued.grown sound grown
  | documentOutcome g outcome references stage => exact Issued.grown sound grown
  | publishFinalization g outcome references finished stage document =>
      exact Issued.grown sound grown
  | recover pass =>
      obtain ⟨stages, local_⟩ := sound
      refine ⟨fun s member id named => (stages s member id named).grown grown, ?_⟩
      revert local_
      cases pass.phase with
      | scanning names => exact fun _ => trivial
      | choosing attempts => exact fun _ => trivial
      | checking g checked orphans valid attempts =>
          exact fun facts => ⟨facts.1.grown grown, facts.2⟩
      | publishing g failure attempts => exact fun issued => Issued.grown issued grown
      | quarantining stages =>
          exact fun facts s member id named => (facts s member id named).grown grown

/-! ## Requests -/

theorem SameBut.projected {written : List Table} {db db' : Db} (same : SameBut written db db')
    (attempts : .attempts ∉ written) (history : .attemptTransitions ∉ written)
    (projected : Projected db) : Projected db' := by
  unfold Projected
  rw [show db'.attempts = db.attempts from same.2 .attempts attempts,
    show db'.attemptTransitions = db.attemptTransitions from same.2 .attemptTransitions history]
  exact projected

/-- The moved row is in the new table. -/
theorem Moved.member' {db db' : Db} {a b : AttemptRow} (moved : Moved db db' a b) :
    b ∈ db'.attempts := by
  rw [moved.attempts]
  refine List.mem_map.mpr ⟨a, moved.member, ?_⟩
  simp [AttemptRow.replace]

theorem Issued.after {db db' : Db} {g : OwnedAttempt} {a b : AttemptRow} (h : Integrity db)
    (issued : Issued db g) (grown : Grown db db') (moved : Moved db db' a b)
    (id : a.id = g.id) : Issued db' (g.after b) where
  fits := by
    have bound := moved.bound
    have small : maxSafeInteger ≤ i64Max := by decide
    exact ⟨issued.fits.1, bound.trans small, moved.timeBound⟩
  row := by
    obtain ⟨slot, retry, -⟩ := issued.slot_of_id h moved.member id
    exact ⟨b, moved.member', moved.id.trans id, moved.slotId.trans slot,
      moved.retryIndex.trans retry, le_refl _⟩
  edge := by
    obtain ⟨sequence, appended⟩ := moved.transitions
    refine ⟨_, by rw [appended]; exact List.mem_append_right _ (List.mem_singleton_self _), id,
      rfl, rfl⟩
  lease := (issued.grown grown).lease

theorem Issued.of_reserved {hash : Hasher} {db db' : Db} {g : OwnedAttempt}
    (row : Reserved hash db db' g) : Issued db' g where
  fits := row.fits
  row := by
    refine ⟨_, by rw [row.attempts]; exact List.mem_append_right _ (List.mem_singleton_self _),
      rfl, rfl, rfl, ?_⟩
    rw [row.revision]
  edge := by
    obtain ⟨sequence, appended⟩ := row.transitions
    refine ⟨_, by rw [appended]; exact List.mem_append_right _ (List.mem_singleton_self _), rfl,
      ?_, rfl⟩
    rw [row.revision]
  lease := by
    obtain ⟨expires, appended⟩ := row.leases
    exact ⟨_, by rw [appended]; exact List.mem_append_right _ (List.mem_singleton_self _), rfl,
      rfl, rfl, rfl⟩

/-- A successful transaction of the system. -/
structure Stepped (hash : Hasher) (db : Db) (answer : Answer)
    (actor : Actor) (db' : Db) : Prop where
  change : Change hash db actor db'
  projected : Projected db'
  guards : ∀ g ∈ answer.guards, Issued db' g
  calls : ∀ c ∈ answer.calls, CallSound db' c

theorem Stepped.done {hash : Hasher} {db db' : Db} {actor : Actor}
    (change : Change hash db actor db') (projected : Projected db') :
    Stepped hash db .done actor db' :=
  ⟨change, projected, fun _ member => absurd member List.not_mem_nil,
    fun _ member => absurd member List.not_mem_nil⟩

/-- Whom a request acts for; a reservation acts for the attempt it allocates. -/
def Request.actor (hash : Hasher) (db : Db) : Request → Actor
  | .reserve slot _ _ _ =>
      match runAttemptId hash slot (nextIndex db slot) with
      | .ok id => .attempt id
      | .error _ => .system
  | .commitFinalization g outcome _ _ _ => .finishing g outcome
  | request =>
      match request.guard with
      | some g => .attempt g.id
      | none => .system

section Registration

variable {hash : Hasher} {db db' : Db} {candidate : RecordId .logicalCandidate}
  {run : IdentifiedRecord ResolvedOneShotSpecificationRecord .resolvedSpecification}
  {attempt : IdentifiedRecord ResolvedAttemptSlotRecord .resolvedAttemptSlot}
  {observations : List (IdentifiedRecord ResolvedObservationSlotRecord .resolvedObservationSlot)}
  {kind : SlotKind} {u : Unit}

/-- A registered execution's slot is there, with the kind it was registered for. -/
theorem registerExecution_slot
    (ran : Tx.Yields (registerExecution hash candidate run attempt observations kind) db u db') :
    ∃ s ∈ db'.attemptSlots, s.id = attempt.id ∧ s.kind = kind := by
  simp only [registerExecution, Tx.yields_expect_bind] at ran
  obtain ⟨observation, -, ran⟩ := ran
  obtain ⟨_, _, -, ran⟩ := Tx.yields_bind.mp ran
  obtain ⟨_, _, -, ran⟩ := Tx.yields_bind.mp ran
  obtain ⟨_, _, -, ran⟩ := Tx.yields_bind.mp ran
  simp only [Tx.yields_require_bind] at ran
  obtain ⟨-, -, ran⟩ := ran
  obtain ⟨_, _, -, ran⟩ := Tx.yields_bind.mp ran
  obtain ⟨_, _, -, ran⟩ := Tx.yields_bind.mp ran
  obtain ⟨_, _, -, ran⟩ := Tx.yields_bind.mp ran
  obtain ⟨_, _, -, ran⟩ := Tx.yields_bind.mp ran
  obtain ⟨_, _, -, ran⟩ := Tx.yields_bind.mp ran
  obtain ⟨_, _, -, ran⟩ := Tx.yields_bind.mp ran
  obtain ⟨_, _, -, ran⟩ := Tx.yields_bind.mp ran
  obtain ⟨_, _, -, ran⟩ := Tx.yields_bind.mp ran
  simp only [Tx.yields_get_bind, Tx.yields_expect_bind, Tx.yields_require_bind] at ran
  obtain ⟨_, -, _, -, _, -, -, ran⟩ := ran
  obtain ⟨_, last, -, ran⟩ := Tx.yields_bind.mp ran
  simp only [Tx.yields_get_bind, Tx.yields_expect_bind, Tx.yields_require_bind,
    yields_commit] at ran
  obtain ⟨slot, found, same, -, rfl⟩ := ran
  exact ⟨slot, List.mem_of_find?_eq_some found, by simpa using List.find?_some found, same⟩

end Registration

theorem canonicalPayload_ok {value payload : Json} (h : canonicalPayload value = .ok payload) :
    value.normalize = .ok payload := by
  unfold canonicalPayload at h
  split at h
  · cases h
    assumption
  · cases h

theorem yields_registerMember {db db' : Db} {run : RecordId .resolvedSpecification}
    {slot : RecordId .resolvedAttemptSlot} {point : FreshPointRegistration} {u : Unit}
    (layout : supported db)
    (kind : ∃ s ∈ db.attemptSlots, s.id = slot ∧ s.kind = .freshObservation)
    (ran : Tx.Yields (registerMember run slot point) db u db') :
    Enrolled db db' slot ∧ Projected db' := by
  have same := Uses.registerMember.sameBut ran
  have grown := Uses.registerMember.grown ran
  simp only [registerMember, Tx.yields_check_bind, yields_timestamp_bind] at ran
  obtain ⟨policy, -, control, canonical, -, ran⟩ := ran
  obtain ⟨⟨⟩, first, inserted, ran⟩ := Tx.yields_bind.mp ran
  simp only [Tx.yields_get_bind, Tx.yields_expect_bind, Tx.yields_require_bind,
    yields_timestamp_bind] at ran
  obtain ⟨previous, -, -, -, ran⟩ := ran
  obtain ⟨⟨⟩, second, enrolled, ran⟩ := Tx.yields_bind.mp ran
  simp only [Tx.yields_get_bind, Tx.yields_expect_bind, Tx.yields_require_bind,
    yields_commit] at ran
  obtain ⟨member, -, -, projected, rfl⟩ := ran
  have before : first.freshMembers = db.freshMembers :=
    (Uses.statement (.insertSequence _) (List.mem_singleton_self _)).sameBut inserted |>.2
      .freshMembers (by decide)
  simp only [insertMember, Tx.yields_get_bind, Tx.yields_ite, Tx.yields_pure,
    yields_constraint_bind, Tx.yields_modify] at enrolled
  rcases enrolled with ⟨-, -, rfl⟩ | ⟨free, -, -, -, rfl⟩
  · refine ⟨⟨kind, layout, .inl before, fun m member => .inl ?_, grown.sequences, same⟩, projected⟩
    rw [← before]
    exact member
  · refine ⟨⟨kind, layout, .inr ⟨⟨slot, run, point.measurementIndex, point.control.scheduleIndex,
      control⟩, rfl, fun m member same => free ⟨m, before ▸ member, .inl same⟩, ?_⟩, ?_,
      grown.sequences, same⟩, projected⟩
    · rw [← before]
    · intro m member
      rcases List.mem_append.mp member with older | new
      · exact .inl (before ▸ older)
      · rw [List.mem_singleton.mp new]
        exact .inr (Json.normalize_idempotent (canonicalPayload_ok canonical))

theorem OwnerFinished.change {hash : Hasher} {db db' : Db} {g : OwnedAttempt}
    {outcome : TerminalOutcome} {finished checked : Nat} {a b : AttemptRow}
    (h : Sound hash db) (issued : Issued db g)
    (done : OwnerFinished db db' g outcome finished checked a b) :
    Change hash db (.finishing g outcome) db' :=
  .finished { done.toFinished with
    authority := .inl ⟨_, done.fenced⟩
    guardSlot := done.fenced.row.2.1
    guardTime := issued.current h.toIntegrity h.projected done.member done.guard
      done.guardRevision
    acceptance := done.acceptance }

/-- The lease of a stage a pass has found is a stage's lease. -/
theorem lockStages_staging {db : Db} (h : Integrity db) {lock : String → StageLock}
    {paths : List String}
    {found : List RecoveredStage × List String × List (RecordId .attempt)}
    (locked : lockStages db lock paths = .ok found) :
    ∀ s ∈ found.1, ∀ id ∈ s.leaseId, StagingLease db id := by
  induction paths generalizing found with
  | nil =>
      cases locked
      exact fun _ member => absurd member List.not_mem_nil
  | cons path rest ih =>
      rw [lockStages] at locked
      cases tail : lockStages db lock rest with
      | error e => split at locked <;> simp_all
      | ok later =>
          have named : ∀ id ∈ (db.leases.find? fun l => l.stagingPath = some path).map LeaseRow.id,
              StagingLease db id := by
            intro id named
            obtain ⟨l, at_, rfl⟩ := Option.map_eq_some_iff.mp named
            have member := List.mem_of_find?_eq_some at_
            have path_ : l.stagingPath = some path := by simpa using List.find?_some at_
            exact ⟨l, member, rfl, (h.leaseStaging l member).mpr (by rw [path_]; rfl)⟩
          rw [tail] at locked
          cases state : lock path <;> simp only [state] at locked
          case unsafeEntry => cases locked
          case unreadable => cases locked
          case held =>
              cases locked
              exact fun s member => ih tail s member
          all_goals
            cases locked
            intro s member
            rcases List.mem_cons.mp member with rfl | older
            · exact named
            · exact ih tail s older

/-- A request that succeeds is one of the changes. -/
theorem request_stepped {hash : Hasher} {db db' : Db} {request : Request} {answer : Answer}
    (h : Sound hash db) (issued : ∀ g ∈ request.guard, Issued db g)
    (run : Tx.Yields (requestTransaction hash request) db answer db') :
    Stepped hash db answer (request.actor hash db) db' := by
  cases request with
  | registerApplicability decision =>
      obtain ⟨⟨⟩, mid, ran, run⟩ := Tx.yields_bind.mp run
      obtain ⟨rfl, rfl⟩ := Tx.yields_pure.mp run
      have same := Uses.registerApplicability.sameBut ran
      exact .done (.registered same) (same.projected (by decide) (by decide) h.projected)
  | registerOneShot candidate spec slot observation =>
      obtain ⟨⟨⟩, mid, ran, run⟩ := Tx.yields_bind.mp run
      obtain ⟨rfl, rfl⟩ := Tx.yields_pure.mp run
      have same := Uses.registerExecution.sameBut ran
      exact .done (.registered same) (same.projected (by decide) (by decide) h.projected)
  | registerStreaming candidate spec slot observations =>
      obtain ⟨⟨⟩, mid, ran, run⟩ := Tx.yields_bind.mp run
      obtain ⟨rfl, rfl⟩ := Tx.yields_pure.mp run
      simp only [registerStreaming, Tx.yields_get_bind, Tx.yields_require_bind] at ran
      have same := Uses.registerExecution.sameBut ran.2
      exact .done (.registered same) (same.projected (by decide) (by decide) h.projected)
  | registerBuffered candidate spec slot observations =>
      obtain ⟨⟨⟩, mid, ran, run⟩ := Tx.yields_bind.mp run
      obtain ⟨rfl, rfl⟩ := Tx.yields_pure.mp run
      simp only [registerBuffered, Tx.yields_get_bind, Tx.yields_require_bind] at ran
      have same := Uses.registerExecution.sameBut ran.2
      exact .done (.registered same) (same.projected (by decide) (by decide) h.projected)
  | registerFresh candidate spec slot observation point =>
      obtain ⟨⟨⟩, mid, ran, run⟩ := Tx.yields_bind.mp run
      obtain ⟨rfl, rfl⟩ := Tx.yields_pure.mp run
      simp only [registerFresh, Tx.yields_get_bind, Tx.yields_require_bind] at ran
      have same := Uses.registerExecution.sameBut ran.2
      refine ⟨.registered same, same.projected (by decide) (by decide) h.projected,
        fun _ member => absurd member List.not_mem_nil, fun call member => ?_⟩
      rw [List.mem_singleton.mp member]
      refine ⟨?_, registerExecution_slot ran.2⟩
      unfold supported
      rw [same.1]
      exact ran.1
  | reserve slot authorization lease now =>
      obtain ⟨g, mid, ran, run⟩ := Tx.yields_bind.mp run
      obtain ⟨rfl, rfl⟩ := Tx.yields_pure.mp run
      obtain ⟨rfl, row, projected⟩ := yields_reserve ran
      have actor : Request.actor hash db (.reserve g.slot authorization lease now) =
          .attempt g.id := by
        simp only [Request.actor]
        rw [← row.index, row.identity]
      rw [actor]
      refine ⟨.reserved row, projected, fun x member => ?_,
        fun _ member => absurd member List.not_mem_nil⟩
      rw [List.mem_singleton.mp member]
      exact .of_reserved row
  | advance g phase now =>
      obtain ⟨g', mid, ran, run⟩ := Tx.yields_bind.mp run
      obtain ⟨rfl, rfl⟩ := Tx.yields_pure.mp run
      obtain ⟨a, b, fenced, row, rfl, projected⟩ :=
        yields_advance h.toIntegrity h.projected ran
      change Stepped hash db _ (.attempt g.id) _
      rw [← fenced.row.1]
      refine ⟨.advanced row, projected, fun x member => ?_,
        fun _ member => absurd member List.not_mem_nil⟩
      rw [List.mem_singleton.mp member]
      exact (issued g rfl).after h.toIntegrity (Uses.advance.grown ran) row.toMoved fenced.row.1
  | renew g expires now =>
      obtain ⟨⟨⟩, mid, ran, run⟩ := Tx.yields_bind.mp run
      obtain ⟨rfl, rfl⟩ := Tx.yields_pure.mp run
      obtain ⟨fenced, rows, projected⟩ := yields_renew ran
      exact .done (.of_fenced ⟨_, fenced⟩ rows) projected
  | beginFinalization g lease now =>
      obtain ⟨f, mid, ran, run⟩ := Tx.yields_bind.mp run
      obtain ⟨rfl, rfl⟩ := Tx.yields_pure.mp run
      obtain ⟨a, b, fenced, guard, projected, lost | won⟩ :=
        yields_beginFinalization h.toIntegrity h.projected ran
      · change Stepped hash db _ (.attempt g.id) _
        rw [← fenced.row.1]
        refine ⟨.advanced lost.2, projected, fun x member => ?_,
          fun _ member => absurd member List.not_mem_nil⟩
        rw [List.mem_singleton.mp member, guard]
        exact (issued g rfl).after h.toIntegrity (Uses.beginFinalization.grown ran)
          lost.2.toMoved fenced.row.1
      · change Stepped hash db _ (.attempt g.id) _
        rw [← fenced.row.1]
        refine ⟨.claimed won.2, projected, fun x member => ?_,
          fun _ member => absurd member List.not_mem_nil⟩
        rw [List.mem_singleton.mp member, guard]
        exact (issued g rfl).after h.toIntegrity (Uses.beginFinalization.grown ran)
          won.2.toMoved fenced.row.1
  | registerObservation g observation artifact select now =>
      obtain ⟨⟨⟩, mid, ran, run⟩ := Tx.yields_bind.mp run
      obtain ⟨rfl, rfl⟩ := Tx.yields_pure.mp run
      obtain ⟨a, o, fenced, -, row, projected⟩ := yields_registerObservation ran
      change Stepped hash db _ (.attempt g.id) _
      rw [← fenced.row.1]
      exact .done (.observed row) projected
  | commitFinalization g outcome artifact references now =>
      obtain ⟨terminal, mid, ran, run⟩ := Tx.yields_bind.mp run
      obtain ⟨rfl, rfl⟩ := Tx.yields_pure.mp run
      obtain ⟨⟨a, b, done⟩, projected⟩ :=
        yields_commitFinalization h.toIntegrity h.projected ran
      exact .done (done.change h (issued g rfl)) projected
  | reserveFreshTime g pointLimit now =>
      obtain ⟨r, mid, ran, run⟩ := Tx.yields_bind.mp run
      obtain ⟨rfl, rfl⟩ := Tx.yields_pure.mp run
      obtain ⟨a, fenced, projected, rfl | ⟨sequence, limit, used, reserved, -, row⟩⟩ :=
        yields_reserveFreshTime h.projected ran
      · exact .done (.idle _) projected
      · change Stepped hash db _ (.attempt g.id) _
        rw [← fenced.row.1]
        exact .done (.budgeted row) projected
  | recordFreshTime g measured now =>
      obtain ⟨⟨⟩, mid, ran, run⟩ := Tx.yields_bind.mp run
      obtain ⟨rfl, rfl⟩ := Tx.yields_pure.mp run
      obtain ⟨a, fenced, row, projected⟩ := yields_recordFreshTime ran
      change Stepped hash db _ (.attempt g.id) _
      rw [← fenced.row.1]
      exact .done (.charged row) projected
  | publishArtifact g kind relative now =>
      simp only [requestTransaction, Tx.yields_require_bind] at run
      obtain ⟨-, run⟩ := run
      obtain ⟨taken, mid, ran, run⟩ := Tx.yields_bind.mp run
      obtain ⟨rfl, rfl⟩ := Tx.yields_pure.mp run
      obtain ⟨fenced, rows, projected, -⟩ := yields_stage ran
      refine ⟨.of_fenced ⟨_, fenced⟩ rows, projected, fun _ member => absurd member List.not_mem_nil,
        fun call member => ?_⟩
      rw [List.mem_singleton.mp member]
      exact (issued g rfl).grown (Uses.stage.grown ran)
  | publishFinalization g outcome references relative now =>
      simp only [requestTransaction, Tx.yields_check_bind] at run
      obtain ⟨details, -, run⟩ := run
      obtain ⟨taken, mid, ran, run⟩ := Tx.yields_bind.mp run
      obtain ⟨rfl, rfl⟩ := Tx.yields_pure.mp run
      obtain ⟨fenced, rows, projected, -⟩ := yields_stage ran
      refine ⟨.of_fenced ⟨_, fenced⟩ rows, projected, fun _ member => absurd member List.not_mem_nil,
        fun call member => ?_⟩
      rw [List.mem_singleton.mp member]
      exact (issued g rfl).grown (Uses.stage.grown ran)
  | recover clock staged lock names =>
      obtain ⟨pass, mid, ran, run⟩ := Tx.yields_bind.mp run
      obtain ⟨rfl, rfl⟩ := Tx.yields_pure.mp run
      simp only [beginRecovery, yields_timestamp_bind, Tx.yields_get_bind, Tx.yields_check_bind,
        Tx.yields_pure] at ran
      obtain ⟨-, paths, -, found, locked, rfl, rfl⟩ := ran
      refine ⟨.idle _, h.projected, fun _ member => absurd member List.not_mem_nil,
        fun call member => ?_⟩
      rw [List.mem_singleton.mp member]
      exact ⟨lockStages_staging h.toIntegrity locked, trivial⟩

/-! ## Suspended calls -/

/-- Whom a pass acts for in its next transaction. -/
def Phase.actor : Phase → Actor
  | .scanning _ | .choosing [] | .quarantining _ => .system
  | .choosing (id :: _) => .attempt id
  | .checking g _ [] [(_, evidence)] _ => .finishing g evidence.outcome
  | .checking g _ _ _ _ => .attempt g.id
  | .publishing g _ _ => .finishing g interruptedOutcome

/-- Whom a suspended call acts for in its next transaction. -/
def Call.actor : Call → Actor
  | .registerMember _ _ _ => .system
  | .publishArtifact g _ _ | .documentOutcome g _ _ _ => .attempt g.id
  | .publishFinalization g outcome _ _ _ _ => .finishing g outcome
  | .recover pass => pass.phase.actor

theorem RecoveryFinished.change {hash : Hasher} {db db' : Db} {g : OwnedAttempt}
    {outcome : TerminalOutcome} {finished checked : Nat} {a b : AttemptRow}
    (h : Sound hash db) (issued : Issued db g)
    (acceptance : outcome = .accepted → ∃ slot, Acceptance db g slot)
    (done : RecoveryFinished db db' g outcome finished checked a b) :
    Change hash db (.finishing g outcome) db' := by
  obtain ⟨l, expired⟩ := done.expired
  exact .finished { done.toFinished with
    authority := .inr ⟨_, l, expired⟩
    guardSlot := (issued.slot_of_id h.toIntegrity done.member done.guard).1
    guardTime := issued.current h.toIntegrity h.projected done.member done.guard
      done.guardRevision
    acceptance }

/-- The guard recovery takes an expired attempt over with. -/
theorem Expired.issued {hash : Hasher} {db : Db} (h : Sound hash db) {now : Nat}
    {a : AttemptRow} {l : LeaseRow} (expired : Expired db now a l) :
    Issued db (recoveryGuard a l) where
  fits := by
    obtain ⟨retry, revision, time⟩ := h.bounded a expired.member
    have small : maxSafeInteger ≤ i64Max := by decide
    exact ⟨retry, revision.trans small, time⟩
  row := ⟨a, expired.member, rfl, rfl, rfl, le_refl _⟩
  edge := by
    obtain ⟨t, member, owner, at_, -, time⟩ := h.projected a expired.member
    exact ⟨t, member, owner, at_, time⟩
  lease := ⟨l, expired.lease, rfl, rfl, expired.attempt, expired.purpose⟩

/-- The world a pass leaves suspended. -/
structure PassStepped (hash : Hasher) (db : Db) (pass' : Pass)
    (actor : Actor) (db' : Db) : Prop where
  change : Change hash db actor db'
  projected : Projected db'
  sound : CallSound db' (.recover pass')

section Passes

variable {hash : Hasher} {db db' : Db} {pass pass' : Pass}

theorem findOrphan_stepped (h : Sound hash db)
    (stages : ∀ s ∈ pass.stages, ∀ id ∈ s.leaseId, StagingLease db id) {name : String}
    {names : List String} {directory : Directory}
    (run : Tx.Yields (pass.findOrphan name names directory) db pass' db') :
    PassStepped hash db pass' .system db' := by
  have idle : ∀ next : Pass, next.stages = pass.stages → next.phase = .scanning names →
      PassStepped hash db next .system db := by
    intro next same phase
    refine ⟨.idle _, h.projected, ?_, ?_⟩
    · rw [same]
      exact stages
    · rw [phase]
      trivial
  simp only [Pass.findOrphan, Tx.yields_get_bind, Tx.yields_ite] at run
  rcases run with ⟨-, run⟩ | ⟨-, run⟩
  · obtain ⟨rfl, rfl⟩ := Tx.yields_pure.mp run
    exact idle _ rfl rfl
  · split at run
    · obtain ⟨rfl, rfl⟩ := Tx.yields_pure.mp run
      exact idle _ rfl rfl
    · simp only [Tx.yields_ite] at run
      rcases run with ⟨-, run⟩ | ⟨-, run⟩
      · split at run
        · obtain ⟨rfl, rfl⟩ := Tx.yields_pure.mp run
          exact idle _ rfl rfl
        · split at run
          · simp only [Tx.yields_ite] at run
            rcases run with ⟨-, run⟩ | ⟨-, run⟩
            · obtain ⟨rfl, rfl⟩ := Tx.yields_pure.mp run
              exact idle _ rfl rfl
            · obtain ⟨rfl, rfl⟩ := Tx.yields_pure.mp run
              exact idle _ rfl rfl
          · obtain ⟨rfl, rfl⟩ := Tx.yields_pure.mp run
            exact idle _ rfl rfl
      · obtain ⟨⟨⟩, mid, registered, run⟩ := Tx.yields_bind.mp run
        simp only [yields_commit_bind, Tx.yields_pure] at run
        obtain ⟨projected, rfl, rfl⟩ := run
        have grown := Uses.registerArtifact.grown registered
        exact ⟨.imported (Uses.registerArtifact.sameBut registered), projected,
          fun s member id named => (stages s member id named).grown grown, trivial⟩

theorem choose_stepped (h : Sound hash db)
    (stages : ∀ s ∈ pass.stages, ∀ id ∈ s.leaseId, StagingLease db id)
    {id : RecordId .attempt} {attempts : List (RecordId .attempt)} {clock : Nat}
    (run : Tx.Yields (pass.choose hash id attempts clock) db pass' db') :
    PassStepped hash db pass' (.attempt id) db' := by
  simp only [Pass.choose, Tx.yields_ite, Tx.yields_pure, yields_timestamp_bind] at run
  rcases run with ⟨-, rfl, rfl⟩ | ⟨-, small, run⟩
  · exact ⟨.idle _, h.projected, stages, trivial⟩
  · obtain ⟨taken, mid, taking, rest⟩ := Tx.yields_bind.mp run
    have grown := Uses.takeOver.grown taking
    obtain ⟨projected, ⟨rfl, same, -⟩ | ⟨a, l, rfl, expired, cases_⟩⟩ :=
      yields_takeOver h.toIntegrity h.projected small taking
    · obtain ⟨rfl, rfl⟩ := Tx.yields_pure.mp rest
      rw [same] at projected ⊢
      exact ⟨.idle _, projected, stages, trivial⟩
    · have issued := expired.issued h
      rcases cases_ with ⟨-, rfl, same⟩ | ⟨b, row, -, rfl⟩
      · obtain ⟨rfl, rfl⟩ := Tx.yields_pure.mp rest
        rw [same] at projected ⊢
        exact ⟨.idle _, projected, stages, issued, fun _ member =>
          absurd member List.not_mem_nil⟩
      · obtain ⟨rfl, rfl⟩ := Tx.yields_pure.mp rest
        exact ⟨.advanced row, projected,
          fun s member id named => (stages s member id named).grown grown,
          issued.after h.toIntegrity grown row.toMoved rfl,
          fun _ member => absurd member List.not_mem_nil⟩

theorem checkNext_stepped (h : Sound hash db)
    (stages : ∀ s ∈ pass.stages, ∀ id ∈ s.leaseId, StagingLease db id) {g : OwnedAttempt}
    {checked : Nat} {orphan : Orphan} {orphans : List Orphan}
    {valid : List (Orphan × Evidence)} {attempts : List (RecordId .attempt)}
    {intact : ArtifactRow → Except RunStoreError Unit} (issued : Issued db g)
    (parsed : ∀ found ∈ valid, found.2.Parsed found.1)
    (run : Tx.Yields (pass.checkNext hash g checked orphan orphans valid attempts intact) db pass'
      db') : PassStepped hash db pass' (.attempt g.id) db' := by
  simp only [Pass.checkNext, Tx.yields_get_bind] at run
  split at run
  · rename_i evidence last found
    obtain ⟨rfl, rfl⟩ := Tx.yields_pure.mp run
    refine ⟨.idle _, h.projected, stages, issued, ?_⟩
    simp only [checkOrphan] at found
    obtain ⟨e, validated, rest⟩ := Uses.validateOrphan.readOnly_bind found
    obtain ⟨_, _, -, rest⟩ := Tx.yields_bind.mp rest
    simp only [yields_commit_bind, Tx.yields_pure] at rest
    obtain ⟨-, rfl, -⟩ := rest
    refine forall_append_one parsed ?_
    exact (yields_validateOrphan validated).parsed
  · simp at run
  · simp at run
  · obtain ⟨rfl, rfl⟩ := Tx.yields_pure.mp run
    exact ⟨.idle _, h.projected, stages, issued, parsed⟩

theorem foldl_reject {v : List (Orphan × Evidence)} {next : Pass} {e : RunStoreError} :
    (v.foldl (fun next found => next.reject found.1.artifact.relativePath e) next).stages =
        next.stages ∧
      (v.foldl (fun next found => next.reject found.1.artifact.relativePath e) next).busy =
        next.busy ∧
      (v.foldl (fun next found => next.reject found.1.artifact.relativePath e) next).phase =
        next.phase := by
  induction v generalizing next with
  | nil => exact ⟨rfl, rfl, rfl⟩
  | cons found rest ih => exact ih

theorem conclude_stepped (h : Sound hash db)
    (stages : ∀ s ∈ pass.stages, ∀ id ∈ s.leaseId, StagingLease db id) {g : OwnedAttempt}
    {checked : Nat} {valid : List (Orphan × Evidence)} {attempts : List (RecordId .attempt)}
    {reading : Reading} (issued : Issued db g) (parsed : ∀ found ∈ valid, found.2.Parsed found.1)
    (run : Tx.Yields (pass.conclude hash g checked valid attempts reading) db pass' db') :
    PassStepped hash db pass' (Phase.actor (.checking g checked [] valid attempts)) db' := by
  have failed : ∀ {next : Pass} {failure : Interrupted}, next.stages = pass.stages →
      next.phase = .publishing g failure attempts → PassStepped hash db next
        (Phase.actor (.checking g checked [] valid attempts)) db := by
    intro next failure same phase
    refine ⟨.idle _, h.projected, ?_, ?_⟩
    · rw [same]
      exact stages
    · rw [phase]
      exact issued
  unfold Pass.conclude at run
  split at run
  · rename_i orphan evidence
    obtain ⟨⟨⟩, mid, intact, run⟩ := Tx.yields_bind.mp run
    obtain rfl : db = mid := by
      have reads : Uses [] (Tx.each (fun root => Tx.check (reading.intact root)) evidence.roots) :=
        .each fun _ => .check
      exact (reads.readOnly intact).symm
    obtain ⟨terminal, last, importing, run⟩ := Tx.yields_bind.mp run
    obtain ⟨rfl, rfl⟩ := Tx.yields_pure.mp run
    obtain ⟨⟨a, b, done⟩, ⟨evidence', validated, outcome, -⟩, projected⟩ :=
      yields_importOutcome h.toIntegrity h.projected
        (parsed (orphan, evidence) (List.mem_singleton_self _)) importing
    have grown := Uses.importOutcome.grown importing
    refine ⟨done.change h issued ?_, projected,
      fun s member id named => (stages s member id named).grown grown, trivial⟩
    rw [← outcome]
    exact validated.acceptance
  · obtain ⟨failure, documented, run⟩ := Uses.documentInterrupted.readOnly_bind run
    obtain ⟨rfl, rfl⟩ := Tx.yields_pure.mp run
    obtain ⟨same, -, phase⟩ := foldl_reject (v := valid)
    exact failed same phase

theorem quarantine_stepped (h : Sound hash db)
    (stages : ∀ s ∈ pass.stages, ∀ id ∈ s.leaseId, StagingLease db id) {stage : RecoveredStage}
    {rest : List RecoveredStage} {reading : Reading}
    (staging : ∀ s ∈ stage :: rest, ∀ id ∈ s.leaseId, StagingLease db id)
    (run : Tx.Yields (pass.quarantine stage rest reading) db pass' db') :
    PassStepped hash db pass' .system db' := by
  obtain ⟨settled, mid, settling, run⟩ := Tx.yields_bind.mp run
  obtain ⟨rfl, rfl⟩ := Tx.yields_pure.mp run
  obtain ⟨rows, projected⟩ := yields_settleStage h.toIntegrity h.projected
    (staging stage (List.mem_cons_self ..)) settling
  have grown := Uses.settleStage.grown settling
  exact ⟨.leased .system (fun _ absent => nomatch absent) rows, projected,
    fun s member id named => (stages s member id named).grown grown,
    fun s member id named => (staging s (List.mem_cons_of_mem _ member) id named).grown grown⟩

/-- A pass that goes on is one of the changes. -/
theorem advance_stepped (h : Sound hash db) (sound : CallSound db (.recover pass))
    {reading : Reading} {next : Pass ⊕ RecoveryReport}
    (run : Tx.Yields (pass.advance hash reading) db next db') :
    (∃ pass', next = .inl pass' ∧ PassStepped hash db pass' (Call.actor (.recover pass)) db') ∨
      ((∃ report, next = .inr report) ∧ db' = db) := by
  obtain ⟨stages, local_⟩ := sound
  simp only [Call.actor]
  revert local_
  unfold Pass.advance at run
  split at run
  · rename_i name names phase
    rw [phase]
    intro _
    obtain ⟨next', mid, found, run⟩ := Tx.yields_bind.mp run
    obtain ⟨rfl, rfl⟩ := Tx.yields_pure.mp run
    exact .inl ⟨next', rfl, findOrphan_stepped h stages found⟩
  · rename_i phase
    rw [phase]
    intro _
    simp only [Tx.yields_get_bind, Tx.yields_pure] at run
    obtain ⟨rfl, rfl⟩ := run
    exact .inl ⟨_, rfl, .idle _, h.projected, stages, trivial⟩
  · rename_i id attempts phase
    rw [phase]
    intro _
    obtain ⟨next', mid, chosen, run⟩ := Tx.yields_bind.mp run
    obtain ⟨rfl, rfl⟩ := Tx.yields_pure.mp run
    exact .inl ⟨next', rfl, choose_stepped h stages chosen⟩
  · rename_i phase
    rw [phase]
    intro _
    obtain ⟨rfl, rfl⟩ := Tx.yields_pure.mp run
    exact .inl ⟨_, rfl, .idle _, h.projected, stages, stages⟩
  · rename_i g checked orphan orphans valid attempts phase
    rw [phase]
    intro facts
    obtain ⟨next', mid, checked, run⟩ := Tx.yields_bind.mp run
    obtain ⟨rfl, rfl⟩ := Tx.yields_pure.mp run
    exact .inl ⟨next', rfl, checkNext_stepped h stages facts.1 facts.2 checked⟩
  · rename_i g checked valid attempts phase
    rw [phase]
    intro facts
    obtain ⟨next', mid, concluded, run⟩ := Tx.yields_bind.mp run
    obtain ⟨rfl, rfl⟩ := Tx.yields_pure.mp run
    exact .inl ⟨next', rfl, conclude_stepped h stages facts.1 facts.2 concluded⟩
  · rename_i g failure attempts phase
    rw [phase]
    intro issued
    obtain ⟨terminal, mid, failed, run⟩ := Tx.yields_bind.mp run
    obtain ⟨rfl, rfl⟩ := Tx.yields_pure.mp run
    obtain ⟨⟨a, b, done⟩, projected⟩ := yields_failInterrupted h.toIntegrity h.projected failed
    have grown := Uses.failInterrupted.grown failed
    refine .inl ⟨_, rfl, done.change h issued (fun accepted => ?_), projected,
      fun s member id named => (stages s member id named).grown grown, trivial⟩
    exact absurd accepted (by simp [interruptedOutcome])
  · rename_i stage rest phase
    rw [phase]
    intro facts
    obtain ⟨next', mid, settled, run⟩ := Tx.yields_bind.mp run
    obtain ⟨rfl, rfl⟩ := Tx.yields_pure.mp run
    exact .inl ⟨next', rfl, quarantine_stepped h stages facts settled⟩
  · intro _
    obtain ⟨rfl, rfl⟩ := Tx.yields_pure.mp run
    exact .inr ⟨⟨_, rfl⟩, rfl⟩

end Passes

/-- A suspended call that goes on is one of the changes. -/
theorem call_stepped {hash : Hasher} {db db' : Db} {reading : Reading} {call : Call}
    {answer : Answer} (h : Sound hash db) (sound : CallSound db call)
    (run : Tx.Yields (resumeCall hash reading call) db answer db') :
    Stepped hash db answer call.actor db' := by
  unfold resumeCall at run
  split at run
  · simp at run
  cases call with
  | registerMember spec slot point =>
      obtain ⟨⟨⟩, mid, ran, run⟩ := Tx.yields_bind.mp run
      obtain ⟨rfl, rfl⟩ := Tx.yields_pure.mp run
      obtain ⟨row, projected⟩ := yields_registerMember sound.1 sound.2 ran
      exact .done (.enrolled row) projected
  | publishArtifact g kind stage =>
      obtain ⟨artifact, mid, ran, run⟩ := Tx.yields_bind.mp run
      obtain ⟨rfl, rfl⟩ := Tx.yields_pure.mp run
      obtain ⟨fenced, rows, projected⟩ := yields_publishArtifact h.toIntegrity ran
      exact .done (.of_fenced ⟨_, fenced⟩ rows) projected
  | documentOutcome g outcome references stage =>
      obtain ⟨document, ran, run⟩ := Uses.outcomeDocument.readOnly_bind run
      obtain ⟨rfl, rfl⟩ := Tx.yields_pure.mp run
      refine ⟨.idle _, h.projected, fun _ member => absurd member List.not_mem_nil,
        fun call member => ?_⟩
      rw [List.mem_singleton.mp member]
      exact sound
  | publishFinalization g outcome references finished stage document =>
      obtain ⟨terminal, mid, ran, run⟩ := Tx.yields_bind.mp run
      obtain ⟨rfl, rfl⟩ := Tx.yields_pure.mp run
      obtain ⟨⟨a, b, done⟩, -, projected⟩ :=
        yields_publishFinalization h.toIntegrity h.projected ran
      exact .done (done.change h sound) projected
  | recover pass =>
      obtain ⟨next', mid, ran, run⟩ := Tx.yields_bind.mp run
      rcases advance_stepped h sound ran with ⟨pass', rfl, stepped⟩ | ⟨⟨report, rfl⟩, same⟩
      · obtain ⟨rfl, rfl⟩ := Tx.yields_pure.mp run
        refine ⟨stepped.change, stepped.projected,
          fun _ member => absurd member List.not_mem_nil, fun call member => ?_⟩
        rw [List.mem_singleton.mp member]
        exact stepped.sound
      · obtain ⟨rfl, rfl⟩ := Tx.yields_pure.mp run
        rw [same]
        exact .done (.idle _) h.projected

/-! ## Worlds -/

/-- The tables that are written once the slots are registered. -/
def workTables : List Table :=
  [.artifacts, .attempts, .events, .attemptTransitions, .leases, .finalizationClaims,
    .observations, .selectedObservations, .attemptArtifacts, .leasedArtifacts, .freshBudget,
    .freshDispositions]

/-- The request registers what the planner resolved. -/
def Request.registers : Request → Bool
  | .registerApplicability _ | .registerOneShot _ _ _ _ | .registerStreaming _ _ _ _
  | .registerBuffered _ _ _ _ | .registerFresh _ _ _ _ _ => true
  | _ => false

/-- The call goes on with a registration. -/
def Call.registers : Call → Bool
  | .registerMember _ _ _ => true
  | _ => false

theorem registration_uses (hash : Hasher) {request : Request}
    (registers : request.registers = true) :
    Uses Uses.registrationTables (requestTransaction hash request) := by
  cases request with
  | registerApplicability => exact .bind (Uses.registerApplicability.mono (by decide)) fun _ => .pure
  | registerOneShot => exact .bind .registerExecution fun _ => .pure
  | registerStreaming =>
      exact .bind (.bind .get fun _ => .bind .require fun _ => .registerExecution) fun _ => .pure
  | registerBuffered =>
      exact .bind (.bind .get fun _ => .bind .require fun _ => .registerExecution) fun _ => .pure
  | registerFresh =>
      exact .bind (.bind .get fun _ => .bind .require fun _ => .registerExecution) fun _ => .pure
  | _ => cases registers

/-- Every other request works on slots that are there. -/
theorem request_uses (hash : Hasher) {request : Request} (works : request.registers = false) :
    Uses workTables (requestTransaction hash request) := by
  cases request with
  | reserve => exact .bind (Uses.reserve.mono (by decide)) fun _ => .pure
  | advance => exact .bind (Uses.advance.mono (by decide)) fun _ => .pure
  | renew => exact .bind (Uses.renew.mono (by decide)) fun _ => .pure
  | beginFinalization => exact .bind (Uses.beginFinalization.mono (by decide)) fun _ => .pure
  | registerObservation => exact .bind (Uses.registerObservation.mono (by decide)) fun _ => .pure
  | commitFinalization => exact .bind (Uses.commitFinalization.mono (by decide)) fun _ => .pure
  | reserveFreshTime => exact .bind (Uses.reserveFreshTime.mono (by decide)) fun _ => .pure
  | recordFreshTime => exact .bind (Uses.recordFreshTime.mono (by decide)) fun _ => .pure
  | publishArtifact =>
      exact .bind .require fun _ => .bind (Uses.stage.mono (by decide)) fun _ => .pure
  | publishFinalization =>
      exact .bind .check fun _ => .bind (Uses.stage.mono (by decide)) fun _ => .pure
  | recover =>
      exact .bind (.bind .timestamp fun _ => .bind .get fun _ => .bind .check fun _ =>
        .bind .check fun _ => .pure) fun _ => .pure
  | _ => cases works

theorem findOrphan_uses (pass : Pass) (name : String) (names : List String)
    (directory : Directory) : Uses workTables (pass.findOrphan name names directory) := by
  refine .bind .get fun db => .ite .pure ?_
  split
  · exact .pure
  · refine .ite ?_ (.bind (Uses.registerArtifact.mono (by decide)) fun _ =>
      .bind .commit fun _ => .pure)
    split
    · exact .pure
    · split
      · exact .ite .pure .pure
      · exact .pure

theorem advance_uses (hash : Hasher) (pass : Pass) (reading : Reading) :
    Uses workTables (pass.advance hash reading) := by
  unfold Pass.advance
  split
  · exact .bind (findOrphan_uses pass _ _ reading.directory) fun _ => .pure
  · exact .bind .get fun _ => .pure
  · refine .bind (.ite .pure (.bind .timestamp fun _ =>
      .bind (Uses.takeOver.mono (by decide)) fun taken => ?_)) fun _ => .pure
    cases taken with
    | none => exact .pure
    | some g => exact .pure
  · exact .pure
  · refine .bind (.bind .get fun db => ?_) fun _ => .pure
    split
    · exact .pure
    · exact .throw
    · exact .throw
    · exact .pure
  · unfold Pass.conclude
    split
    · exact .bind (.bind (.each fun _ => .check) fun _ =>
        .bind (Uses.importOutcome.mono (by decide)) fun _ => .pure) fun _ => .pure
    · exact .bind (.bind .documentInterrupted fun _ => .pure) fun _ => .pure
  · exact .bind (Uses.failInterrupted.mono (by decide)) fun _ => .pure
  · exact .bind (.bind (Uses.settleStage.mono (by decide)) fun _ => .pure) fun _ => .pure
  · exact .pure

theorem call_uses (hash : Hasher) (reading : Reading) {call : Call}
    (works : call.registers = false) : Uses workTables (resumeCall hash reading call) := by
  unfold resumeCall
  split
  · exact .throw
  cases call with
  | registerMember => cases works
  | publishArtifact => exact .bind (Uses.publishArtifact.mono (by decide)) fun _ => .pure
  | documentOutcome => exact .bind .outcomeDocument fun _ => .pure
  | publishFinalization => exact .bind (Uses.publishFinalization.mono (by decide)) fun _ => .pure
  | recover pass =>
      refine .bind (advance_uses hash pass reading) fun next => ?_
      cases next with
      | inl pass' => exact .pure
      | inr report => exact .pure

theorem member_uses (hash : Hasher) (reading : Reading) {call : Call}
    (registers : call.registers = true) :
    Uses [.freshSequences, .freshMembers] (resumeCall hash reading call) := by
  unfold resumeCall
  split
  · exact .throw
  cases call with
  | registerMember => exact .bind .registerMember fun _ => .pure
  | _ => cases registers

/-- The step is a registration. -/
def Label.registers (w : World) : Label → Bool
  | .request call => call.registers
  | .resume index _ => w.calls[index]?.any Call.registers

/-- A step uses the tables of a registration, or those of the work on registered slots. -/
theorem label_uses {hash : Hasher} {w : World} {label : Label} {body : StoreTx Answer}
    (transaction : w.transaction hash label = some body) :
    (∃ written, Uses written body) ∧ (label.registers w = false → Uses workTables body) := by
  cases label with
  | request request =>
      simp only [World.transaction] at transaction
      split at transaction
      · cases transaction
        refine ⟨?_, request_uses hash⟩
        cases kind : request.registers with
        | true => exact ⟨_, registration_uses hash kind⟩
        | false => exact ⟨_, request_uses hash kind⟩
      · cases transaction
  | resume index reading =>
      obtain ⟨call, at_, rfl⟩ := Option.map_eq_some_iff.mp transaction
      have kind : Label.registers w (.resume index reading) = call.registers := by
        simp only [Label.registers, at_, Option.any_some]
      rw [kind]
      refine ⟨?_, call_uses hash reading⟩
      cases kind : call.registers with
      | true => exact ⟨_, member_uses hash reading kind⟩
      | false => exact ⟨_, call_uses hash reading kind⟩

theorem Sound.step {hash : Hasher} {db db' : Db} {actor : Actor}
    (h : Sound hash db) (integrity : Integrity db') (projected : Projected db')
    (change : Change hash db actor db') : Sound hash db' := by
  rcases change.attempts with ⟨same, -⟩ | ⟨g, row⟩ | ⟨a, b, moved⟩
  · exact { integrity with
      projected
      bounded := by
        rw [same]
        exact h.bounded
      identities := by
        rw [same]
        exact h.identities }
  · exact { integrity with
      projected
      bounded := by
        rw [row.attempts]
        exact forall_append_one h.bounded ⟨row.fits.1, by simp, row.fits.2.2⟩
      identities := by
        rw [row.attempts]
        exact forall_append_one h.identities row.identity }
  · refine { integrity with projected, bounded := ?_, identities := ?_ }
    · rw [moved.attempts]
      intro x member
      obtain ⟨y, inside, rfl⟩ := List.mem_map.mp member
      unfold AttemptRow.replace
      split
      · rw [moved.retryIndex]
        exact ⟨(h.bounded a moved.member).1, moved.bound, moved.timeBound⟩
      · exact h.bounded y inside
    · rw [moved.attempts]
      intro x member
      obtain ⟨y, inside, rfl⟩ := List.mem_map.mp member
      unfold AttemptRow.replace
      split
      · rw [moved.slotId, moved.retryIndex, moved.id]
        exact h.identities a moved.member
      · exact h.identities y inside

/-- What holds in every reachable world before any claim about it. -/
structure World.Sound (hash : Hasher) (w : World) : Prop where
  db : RunStore.Sound hash w.db
  guards : ∀ g ∈ w.guards, Issued w.db g
  calls : ∀ c ∈ w.calls, CallSound w.db c

/-- Whom a step acts for. -/
def Label.actor (hash : Hasher) (w : World) : Label → Actor
  | .request call => call.actor hash w.db
  | .resume index _ =>
      match w.calls[index]? with
      | some call => call.actor
      | none => .system

/-- One step of a sound world. -/
structure World.Stepped (hash : Hasher) (w : World) (label : Label) : Prop where
  change : Change hash w.db (label.actor hash w) (next hash w label).db
  grown : Grown w.db (next hash w label).db
  sound : (next hash w label).Sound hash

theorem World.suspended_subset (w : World) (label : Label) :
    ∀ c ∈ w.suspended label, c ∈ w.calls := by
  cases label with
  | request request => exact fun _ member => member
  | resume index reading => exact fun _ member => List.mem_of_mem_eraseIdx member

/-- A step whose transaction writes nothing leaves the database. -/
theorem next_idle {hash : Hasher} {w : World} {label : Label}
    (idle : ∀ {body : StoreTx Answer} {answer : Answer} {db' : Db},
      w.transaction hash label = some body → Tx.Yields body w.db answer db' → db' = w.db) :
    (next hash w label).db = w.db := by
  unfold next
  cases transaction : w.transaction hash label with
  | none => rfl
  | some body =>
      rcases Tx.atomically_cases body w.db with ⟨answer, db', run, outcome⟩ | ⟨e, -, outcome⟩
      · simp only [outcome]
        exact idle transaction run
      · simp only [outcome]

/-- A world after a transaction that was answered. -/
theorem World.Stepped.of_answer {hash : Hasher} {w : World} {label : Label} {answer : Answer}
    {db' : Db} {body : StoreTx Answer} {written : List Table} (sound : w.Sound hash)
    (uses : Uses written body) (transaction : w.transaction hash label = some body)
    (run : Tx.Yields body w.db answer db')
    (stepped : RunStore.Stepped hash w.db answer (label.actor hash w) db') :
    w.Stepped hash label := by
  have grown := uses.grown run
  have after : next hash w label =
      ⟨db', w.guards ++ answer.guards, w.suspended label ++ answer.calls⟩ := by
    simp only [next, transaction]
    rw [Tx.atomically_of_yields run]
  refine ⟨by rw [after]; exact stepped.change, by rw [after]; exact grown, ?_⟩
  rw [after]
  refine ⟨sound.db.step (uses.integrity run sound.db.toIntegrity) stepped.projected stepped.change,
    fun g member => ?_, fun c member => ?_⟩
  · rcases List.mem_append.mp member with older | issued
    · exact (sound.guards g older).grown grown
    · exact stepped.guards g issued
  · rcases List.mem_append.mp member with older | fresh
    · exact (sound.calls c (w.suspended_subset label c older)).grown grown
    · exact stepped.calls c fresh

/-- Every step is one of the changes and keeps the world sound. -/
theorem World.Sound.stepped {hash : Hasher} {w : World} (sound : w.Sound hash) (label : Label) :
    w.Stepped hash label := by
  cases transaction : w.transaction hash label with
  | none =>
      have same : next hash w label = w := by simp only [next, transaction]
      exact ⟨by rw [same]; exact .idle _, by rw [same]; exact .rfl _, by rw [same]; exact sound⟩
  | some body =>
      rcases Tx.atomically_cases body w.db with ⟨answer, db', run, -⟩ | ⟨e, outcome⟩
      · obtain ⟨⟨written, uses⟩, -⟩ := label_uses transaction
        cases label with
        | request request =>
            simp only [World.transaction] at transaction
            split at transaction
            · rename_i held
              cases transaction
              refine .of_answer sound uses (if_pos held) run ?_
              exact request_stepped sound.db (fun g guard => sound.guards g (held g guard)) run
            · cases transaction
        | resume index reading =>
            obtain ⟨call, at_, rfl⟩ := Option.map_eq_some_iff.mp transaction
            refine .of_answer sound uses transaction run ?_
            have member := List.mem_of_getElem? at_
            have actor : Label.actor hash w (.resume index reading) = call.actor := by
              simp only [Label.actor, at_]
            rw [actor]
            exact call_stepped sound.db (sound.calls call member) run
      · have same : next hash w label = ⟨w.db, w.guards, w.suspended label⟩ := by
          simp only [next, transaction, outcome]
        refine ⟨by rw [same]; exact .idle _, by rw [same]; exact .rfl _, ?_⟩
        rw [same]
        exact ⟨sound.db, sound.guards,
          fun c member => sound.calls c (w.suspended_subset label c member)⟩

theorem World.Sound.of_initial {hash : Hasher} {w : World} (start : w.Initial) :
    w.Sound hash := by
  obtain ⟨layout, -, rfl⟩ := start
  exact ⟨.create hash layout, fun _ member => absurd member List.not_mem_nil,
    fun _ member => absurd member List.not_mem_nil⟩

theorem Reachable.sound {hash : Hasher} {w : World} (reach : Reachable hash w) :
    w.Sound hash :=
  Lib.Reachable.invariant (fun _ start => World.Sound.of_initial start)
    (fun _ label sound => (sound.stepped label).sound) reach

/-- The rule every invariant of the database is proved with. -/
theorem Reachable.keeps {hash : Hasher} {inv : Db → Prop} {w : World}
    (start : ∀ layout, inv (Db.create layout))
    (step : ∀ {db db' : Db} {actor : Actor}, RunStore.Sound hash db →
      Grown db db' → inv db → Change hash db actor db' → inv db')
    (reach : Reachable hash w) : inv w.db := by
  have both : w.Sound hash ∧ inv w.db := by
    refine @Lib.Reachable.invariant _ _ (next hash) World.Initial w
      (fun w => w.Sound hash ∧ inv w.db) (fun w first => ?_) (fun w label hold => ?_) reach
    · refine ⟨.of_initial first, ?_⟩
      obtain ⟨layout, -, rfl⟩ := first
      exact start layout
    · have stepped := hold.1.stepped label
      exact ⟨stepped.sound, step hold.1.db stepped.grown hold.2 stepped.change⟩
  exact both.2

theorem Reachable.after {hash : Hasher} {w : World} (reach : Reachable hash w) (label : Label) :
    Reachable hash (next hash w label) :=
  Lib.Reachable.step reach label

theorem Reachable.of_initial {hash : Hasher} {w : World} (start : w.Initial) :
    Reachable hash w :=
  ⟨w, [], start, rfl⟩

/-- The rule for an invariant of the runs whose steps all meet a condition; what is
known of reachable worlds may be used at both ends of a step. -/
theorem World.Initial.keeps {hash : Hasher} {inv : Db → Prop} {ok : World → Label → Prop}
    {w : World} {labels : List Label} (start : w.Initial) (created : inv w.db)
    (step : ∀ w label, Reachable hash w → inv w.db → ok w label → inv (next hash w label).db)
    (meets : Lib.Meets (next hash) ok w labels) : inv (Lib.run (next hash) w labels).db :=
  @Lib.run_invariant_of _ _ (next hash) ok w labels (Reachable hash) (fun w => inv w.db)
    (fun _ label reach => reach.after label) step (.of_initial start) created meets

/-- The same rule without a condition. -/
theorem Reachable.always {hash : Hasher} {inv : Db → Prop} {w : World}
    (created : ∀ layout, inv (Db.create layout))
    (step : ∀ w label, Reachable hash w → inv w.db → inv (next hash w label).db)
    (reach : Reachable hash w) : inv w.db := by
  obtain ⟨w₀, labels, start, rfl⟩ := reach
  refine start.keeps ?_ (fun w label reach hold _ => step w label reach hold) (.trivial labels)
  obtain ⟨layout, -, rfl⟩ := start
  exact created layout

/-- What happens to the database along a run. -/
theorem Reachable.grown {hash : Hasher} {w : World} (reach : Reachable hash w)
    (labels : List Label) : Grown w.db (Lib.run (next hash) w labels).db :=
  @Lib.run_related _ _ (next hash) (fun _ _ => True) w labels (fun v w => Grown v.db w.db)
    (fun _ => .rfl _) .trans (World.Sound hash) (fun _ label sound => (World.Sound.stepped sound label).sound)
    (fun _ label sound _ => (World.Sound.stepped sound label).grown) reach.sound (.trivial labels)

end Metewand.RunStore
