import Metewand.RunStore.Footprint

/-!
# What the schema guarantees

`Grown db db'` is how every table develops: insert-only tables grow at the end,
attempts, leases and budget rows keep their place and move forward.  `Integrity db`
collects the keys, references and clauses of the schema.  Both hold along every
transaction because every statement effect keeps them.
-/

namespace Metewand.RunStore

open Lib

/-! ## Rows that move -/

/-- `b` is `a` at the same or a later revision; a terminal row stays as it is. -/
structure AttemptRow.Later (a b : AttemptRow) : Prop where
  id : b.id = a.id
  slotId : b.slotId = a.slotId
  retryIndex : b.retryIndex = a.retryIndex
  startedAtNs : b.startedAtNs = a.startedAtNs
  revision : a.revision ≤ b.revision
  updatedAtNs : a.updatedAtNs ≤ b.updatedAtNs
  fixed : a.state.terminal = true → b = a

/-- `m` is `l`, possibly extended or released; a released row stays as it is. -/
structure LeaseRow.Later (l m : LeaseRow) : Prop where
  id : m.id = l.id
  ownerToken : m.ownerToken = l.ownerToken
  attemptId : m.attemptId = l.attemptId
  purpose : m.purpose = l.purpose
  stagingPath : m.stagingPath = l.stagingPath
  acquiredAtNs : m.acquiredAtNs = l.acquiredAtNs
  expiresAtNs : l.expiresAtNs ≤ m.expiresAtNs
  fixed : l.releasedAtNs ≠ none → m = l

/-- `c` is `b`, possibly charged; a charged row stays as it is. -/
structure BudgetRow.Later (b c : BudgetRow) : Prop where
  attemptId : c.attemptId = b.attemptId
  reservedNs : c.reservedNs = b.reservedNs
  fixed : b.chargedNs ≠ none → c = b

theorem AttemptRow.Later.rfl (a : AttemptRow) : a.Later a :=
  ⟨Eq.refl _, Eq.refl _, Eq.refl _, Eq.refl _, le_refl _, le_refl _, fun _ => Eq.refl _⟩

theorem LeaseRow.Later.rfl (l : LeaseRow) : l.Later l :=
  ⟨Eq.refl _, Eq.refl _, Eq.refl _, Eq.refl _, Eq.refl _, Eq.refl _, le_refl _,
    fun _ => Eq.refl _⟩

theorem BudgetRow.Later.rfl (b : BudgetRow) : b.Later b :=
  ⟨Eq.refl _, Eq.refl _, fun _ => Eq.refl _⟩

theorem AttemptRow.Later.trans {a b c : AttemptRow} (first : a.Later b) (second : b.Later c) :
    a.Later c where
  id := second.id.trans first.id
  slotId := second.slotId.trans first.slotId
  retryIndex := second.retryIndex.trans first.retryIndex
  startedAtNs := second.startedAtNs.trans first.startedAtNs
  revision := first.revision.trans second.revision
  updatedAtNs := first.updatedAtNs.trans second.updatedAtNs
  fixed done := by
    have same := first.fixed done
    subst same
    exact second.fixed done

theorem LeaseRow.Later.trans {l m n : LeaseRow} (first : l.Later m) (second : m.Later n) :
    l.Later n where
  id := second.id.trans first.id
  ownerToken := second.ownerToken.trans first.ownerToken
  attemptId := second.attemptId.trans first.attemptId
  purpose := second.purpose.trans first.purpose
  stagingPath := second.stagingPath.trans first.stagingPath
  acquiredAtNs := second.acquiredAtNs.trans first.acquiredAtNs
  expiresAtNs := first.expiresAtNs.trans second.expiresAtNs
  fixed done := by
    have same := first.fixed done
    subst same
    exact second.fixed done

theorem BudgetRow.Later.trans {b c d : BudgetRow} (first : b.Later c) (second : c.Later d) :
    b.Later d where
  attemptId := second.attemptId.trans first.attemptId
  reservedNs := second.reservedNs.trans first.reservedNs
  fixed done := by
    have same := first.fixed done
    subst same
    exact second.fixed done

section Updates

variable (id : RecordId .attempt) (expected : Nat) (state : AttemptState)
  (revision updatedAtNs : Nat) (finishedAtNs : Option Nat)
  (failureCode finalArtifactId : Option String) (a : AttemptRow)

@[simp]
theorem AttemptRow.update_id : (AttemptRow.update id expected state revision updatedAtNs
    finishedAtNs failureCode finalArtifactId a).id = a.id := by
  unfold AttemptRow.update
  split <;> rfl

@[simp]
theorem AttemptRow.update_slotId : (AttemptRow.update id expected state revision updatedAtNs
    finishedAtNs failureCode finalArtifactId a).slotId = a.slotId := by
  unfold AttemptRow.update
  split <;> rfl

end Updates

@[simp]
theorem LeaseRow.release_id (p : LeaseRow → Prop) [DecidablePred p] (released : LeaseRow → Nat)
    (l : LeaseRow) : (LeaseRow.release p released l).id = l.id := by
  unfold LeaseRow.release
  split <;> rfl

theorem LeaseRow.release_later (p : LeaseRow → Prop) [DecidablePred p]
    (released : LeaseRow → Nat) (l : LeaseRow) : l.Later (LeaseRow.release p released l) := by
  unfold LeaseRow.release
  split
  · rename_i chosen
    exact ⟨rfl, rfl, rfl, rfl, rfl, rfl, le_refl _, fun held => absurd chosen.2 held⟩
  · exact .rfl l

theorem LeaseRow.extend_later {p : LeaseRow → Prop} [DecidablePred p] {expiresAtNs : Nat}
    {l : LeaseRow} (later : p l → l.releasedAtNs = none → l.expiresAtNs ≤ expiresAtNs) :
    l.Later (LeaseRow.extend p expiresAtNs l) := by
  unfold LeaseRow.extend
  split
  · rename_i chosen
    exact ⟨rfl, rfl, rfl, rfl, rfl, rfl, later chosen.1 chosen.2,
      fun held => absurd chosen.2 held⟩
  · exact .rfl l

theorem BudgetRow.charge_later {attemptId : RecordId .attempt} {measured : Int} {b : BudgetRow}
    (once : b.attemptId = attemptId → b.chargedNs = none) :
    b.Later (BudgetRow.charge attemptId measured b) := by
  unfold BudgetRow.charge
  split
  · rename_i chosen
    exact ⟨rfl, rfl, fun charged => absurd (once chosen) charged⟩
  · exact .rfl b

theorem AttemptRow.update_later {id : RecordId .attempt} {expected : Nat} {state : AttemptState}
    {revision updatedAtNs : Nat} {finishedAtNs : Option Nat}
    {failureCode finalArtifactId : Option String} {a : AttemptRow}
    (advance : a.id = id → a.revision = expected →
      a.state.terminal = false ∧ revision = a.revision + 1 ∧ a.updatedAtNs ≤ updatedAtNs) :
    a.Later (AttemptRow.update id expected state revision updatedAtNs finishedAtNs failureCode
      finalArtifactId a) := by
  unfold AttemptRow.update
  split
  · rename_i chosen
    obtain ⟨active, next, time⟩ := advance chosen.1 chosen.2
    refine ⟨rfl, rfl, rfl, rfl, ?_, time, ?_⟩
    · change a.revision ≤ revision
      omega
    · intro done
      rw [active] at done
      cases done
  · exact .rfl a

/-! ## Growth -/

/-- How the tables of a database develop. -/
structure Grown (db db' : Db) : Prop where
  layout : db'.userVersion = db.userVersion
  decisions : Extends Eq db.applicabilityDecisions db'.applicabilityDecisions
  runs : Extends Eq db.resolvedRuns db'.resolvedRuns
  observationSlots : Extends Eq db.observationSlots db'.observationSlots
  attemptSlots : Extends Eq db.attemptSlots db'.attemptSlots
  memberships : Extends Eq db.attemptObservationSlots db'.attemptObservationSlots
  artifacts : Extends Eq db.artifacts db'.artifacts
  attempts : Extends AttemptRow.Later db.attempts db'.attempts
  events : Extends Eq db.events db'.events
  transitions : Extends Eq db.attemptTransitions db'.attemptTransitions
  leases : Extends LeaseRow.Later db.leases db'.leases
  observations : Extends Eq db.observations db'.observations
  selections : Extends Eq db.selectedObservations db'.selectedObservations
  attemptArtifacts : Extends Eq db.attemptArtifacts db'.attemptArtifacts
  leasedArtifacts : Extends Eq db.leasedArtifacts db'.leasedArtifacts
  sequences : Extends Eq db.freshSequences db'.freshSequences
  members : Extends Eq db.freshMembers db'.freshMembers
  budget : Extends BudgetRow.Later db.freshBudget db'.freshBudget
  dispositions : Extends Eq db.freshDispositions db'.freshDispositions

theorem Grown.rfl (db : Db) : Grown db db where
  layout := Eq.refl _
  decisions := .rfl Eq.refl
  runs := .rfl Eq.refl
  observationSlots := .rfl Eq.refl
  attemptSlots := .rfl Eq.refl
  memberships := .rfl Eq.refl
  artifacts := .rfl Eq.refl
  attempts := .rfl AttemptRow.Later.rfl
  events := .rfl Eq.refl
  transitions := .rfl Eq.refl
  leases := .rfl LeaseRow.Later.rfl
  observations := .rfl Eq.refl
  selections := .rfl Eq.refl
  attemptArtifacts := .rfl Eq.refl
  leasedArtifacts := .rfl Eq.refl
  sequences := .rfl Eq.refl
  members := .rfl Eq.refl
  budget := .rfl BudgetRow.Later.rfl
  dispositions := .rfl Eq.refl

theorem Grown.trans {a b c : Db} (first : Grown a b) (second : Grown b c) : Grown a c where
  layout := second.layout.trans first.layout
  decisions := first.decisions.trans Eq.trans second.decisions
  runs := first.runs.trans Eq.trans second.runs
  observationSlots := first.observationSlots.trans Eq.trans second.observationSlots
  attemptSlots := first.attemptSlots.trans Eq.trans second.attemptSlots
  memberships := first.memberships.trans Eq.trans second.memberships
  artifacts := first.artifacts.trans Eq.trans second.artifacts
  attempts := first.attempts.trans AttemptRow.Later.trans second.attempts
  events := first.events.trans Eq.trans second.events
  transitions := first.transitions.trans Eq.trans second.transitions
  leases := first.leases.trans LeaseRow.Later.trans second.leases
  observations := first.observations.trans Eq.trans second.observations
  selections := first.selections.trans Eq.trans second.selections
  attemptArtifacts := first.attemptArtifacts.trans Eq.trans second.attemptArtifacts
  leasedArtifacts := first.leasedArtifacts.trans Eq.trans second.leasedArtifacts
  sequences := first.sequences.trans Eq.trans second.sequences
  members := first.members.trans Eq.trans second.members
  budget := first.budget.trans BudgetRow.Later.trans second.budget
  dispositions := first.dispositions.trans Eq.trans second.dispositions

theorem Effect.grown {db db' : Db} {t : Table} (effect : Effect db t db') : Grown db db' := by
  have start := Grown.rfl db
  cases effect with
  | keep => exact start
  | insertDecision => exact { start with decisions := .append Eq.refl _ }
  | insertRun => exact { start with runs := .append Eq.refl _ }
  | insertObservationSlot => exact { start with observationSlots := .append Eq.refl _ }
  | insertAttemptSlot => exact { start with attemptSlots := .append Eq.refl _ }
  | insertMembership => exact { start with memberships := .append Eq.refl _ }
  | insertArtifact => exact { start with artifacts := .append Eq.refl _ }
  | insertAttempt => exact { start with attempts := .append AttemptRow.Later.rfl _ }
  | updateAttempt id expected state revision updatedAtNs finishedAtNs _ _ advance =>
      exact { start with attempts := .map fun a member =>
        AttemptRow.update_later (advance a member) }
  | insertEvent => exact { start with events := .append Eq.refl _ }
  | insertTransition => exact { start with transitions := .append Eq.refl _ }
  | insertLease => exact { start with leases := .append LeaseRow.Later.rfl _ }
  | releaseLeases p released =>
      exact { start with leases := .map fun l _ => LeaseRow.release_later p released l }
  | extendLeases p expiresAtNs later =>
      exact { start with leases := .map fun l member => LeaseRow.extend_later (later l member) }
  | insertClaim => exact { start with }
  | deleteClaims => exact { start with }
  | insertObservation => exact { start with observations := .append Eq.refl _ }
  | insertSelection => exact { start with selections := .append Eq.refl _ }
  | insertAttemptArtifact => exact { start with attemptArtifacts := .append Eq.refl _ }
  | insertLeasedArtifact => exact { start with leasedArtifacts := .append Eq.refl _ }
  | insertSequence => exact { start with sequences := .append Eq.refl _ }
  | insertMember => exact { start with members := .append Eq.refl _ }
  | insertBudget => exact { start with budget := .append BudgetRow.Later.rfl _ }
  | chargeBudget attemptId measured once =>
      exact { start with budget := .map fun b member => BudgetRow.charge_later (once b member) }
  | insertDisposition => exact { start with dispositions := .append Eq.refl _ }

/-- Every transaction lets the tables grow. -/
theorem Uses.grown {written : List Table} {α : Type} {x : StoreTx α} (body : Uses written x)
    {db db' : Db} {a : α} (run : Tx.Yields x db a db') : Grown db db' :=
  body.evolves Grown.rfl Grown.trans (fun _ effect => effect.grown) run

/-! ## Integrity -/

/-- The row a transition starts from. -/
def TransitionRow.Follows (db : Db) (t : TransitionRow) : Prop :=
  ∀ previous ∈ t.previousRevision, ∀ source ∈ t.fromState,
    ∃ s ∈ db.attemptTransitions, s.attemptId = t.attemptId ∧ s.revision = previous ∧
      s.toState = source

/-- The keys, references and clauses of the schema. -/
structure Integrity (db : Db) : Prop where
  decisionIds : Keyed DecisionRow.id db.applicabilityDecisions
  runIds : Keyed RunRow.id db.resolvedRuns
  runDecision : ∀ r ∈ db.resolvedRuns, ∃ d ∈ db.applicabilityDecisions,
    d.id = r.applicabilityId ∧ d.candidateId = r.candidateId ∧ d.applicable = true
  observationSlotIds : Keyed ObservationSlotRow.id db.observationSlots
  observationSlotRun : ∀ s ∈ db.observationSlots, ∃ r ∈ db.resolvedRuns, r.id = s.resolvedRunId
  attemptSlotIds : Keyed AttemptSlotRow.id db.attemptSlots
  attemptSlotRun : ∀ s ∈ db.attemptSlots, ∃ r ∈ db.resolvedRuns, r.id = s.resolvedRunId
  membershipIds : Keyed MembershipRow.observationSlotId db.attemptObservationSlots
  membershipSlot : ∀ m ∈ db.attemptObservationSlots, ∃ s ∈ db.attemptSlots,
    s.id = m.attemptSlotId ∧ s.resolvedRunId = m.resolvedRunId
  membershipObservation : ∀ m ∈ db.attemptObservationSlots, ∃ s ∈ db.observationSlots,
    s.id = m.observationSlotId ∧ s.resolvedRunId = m.resolvedRunId
  artifactIds : Keyed ArtifactRow.id db.artifacts
  attemptIds : Keyed AttemptRow.id db.attempts
  attemptSlot : ∀ a ∈ db.attempts, ∃ s ∈ db.attemptSlots, s.id = a.slotId
  attemptFinish : ∀ a ∈ db.attempts, a.finishedAtNs.isSome = a.state.terminal
  acceptedOnce : ∀ a ∈ db.attempts, ∀ b ∈ db.attempts, a.slotId = b.slotId →
    a.state = .accepted → b.state = .accepted → a.id = b.id
  transitionKeys : Keyed (fun t => (t.attemptId, t.revision)) db.attemptTransitions
  transitionShape : ∀ t ∈ db.attemptTransitions, t.wellFormed ∧ t.Follows db
  transitionAttempt : ∀ t ∈ db.attemptTransitions, ∃ a ∈ db.attempts, a.id = t.attemptId
  leaseIds : Keyed LeaseRow.id db.leases
  leaseAttempt : ∀ l ∈ db.leases, ∃ a ∈ db.attempts, a.id = l.attemptId
  leaseStaging : ∀ l ∈ db.leases, l.purpose = .staging ↔ l.stagingPath.isSome = true
  leasePaths : ∀ l ∈ db.leases, ∀ m ∈ db.leases, ∀ path, l.stagingPath = some path →
    m.stagingPath = some path → l.id = m.id
  claimSlots : Keyed ClaimRow.slotId db.finalizationClaims
  claimAttempts : Keyed ClaimRow.attemptId db.finalizationClaims
  claimAttempt : ∀ c ∈ db.finalizationClaims, ∃ a ∈ db.attempts,
    a.id = c.attemptId ∧ a.slotId = c.slotId
  claimLease : ∀ c ∈ db.finalizationClaims, ∃ l ∈ db.leases,
    l.id = c.leaseId ∧ l.attemptId = c.attemptId ∧ l.purpose = .finalization
  observationIds : Keyed ObservationRow.id db.observations
  observationProducer : ∀ o ∈ db.observations, ∃ a ∈ db.attempts,
    a.id = o.producingAttemptId ∧ a.slotId = o.attemptSlotId
  observationBound : ∀ o ∈ db.observations, ∃ m ∈ db.attemptObservationSlots,
    m.attemptSlotId = o.attemptSlotId ∧ m.observationSlotId = o.slotId
  selectionSlots : Keyed SelectionRow.slotId db.selectedObservations
  selectionObservations : Keyed SelectionRow.observationId db.selectedObservations
  selectionTarget : ∀ s ∈ db.selectedObservations, ∃ o ∈ db.observations,
    o.id = s.observationId ∧ o.slotId = s.slotId ∧ o.valid = true
  sequenceKeys : Keyed SequenceRow.key db.freshSequences
  sequenceRun : ∀ s ∈ db.freshSequences, ∃ r ∈ db.resolvedRuns, r.id = s.resolvedRunId
  memberSlots : Keyed MemberRow.slotId db.freshMembers
  memberPlaces : Keyed (fun m => (m.sequence, m.scheduleIndex)) db.freshMembers
  memberSlot : ∀ m ∈ db.freshMembers, ∃ s ∈ db.attemptSlots, s.id = m.slotId
  memberSequence : ∀ m ∈ db.freshMembers, ∃ s ∈ db.freshSequences, s.key = m.sequence
  budgetAttempts : Keyed BudgetRow.attemptId db.freshBudget
  budgetAttempt : ∀ b ∈ db.freshBudget, ∃ a ∈ db.attempts, a.id = b.attemptId
  budgetBounds : ∀ b ∈ db.freshBudget, 0 < b.reservedNs ∧
    ∀ charged ∈ b.chargedNs, 0 ≤ charged ∧ charged ≤ b.reservedNs
  dispositionSlots : Keyed DispositionRow.slotId db.freshDispositions
  dispositionSlot : ∀ d ∈ db.freshDispositions, ∃ m ∈ db.freshMembers, m.slotId = d.slotId
  dispositionCause : ∀ d ∈ db.freshDispositions, ∃ a ∈ db.attempts, a.id = d.causingAttemptId

theorem Integrity.create (layout : Nat) : Integrity (Db.create layout) := by
  constructor <;> first | exact Keyed.nil | exact fun _ member => nomatch member

section Preservation

variable {db : Db}

/-- What held of every row holds of every row after an insert that checked it. -/
theorem forall_append_one {α : Type} {rows : List α} {row : α} {p : α → Prop}
    (old : ∀ r ∈ rows, p r) (new : p row) : ∀ r ∈ rows ++ [row], p r := by
  intro r member
  rcases List.mem_append.mp member with before | added
  · exact old r before
  · rw [List.mem_singleton] at added
    subst added
    exact new

/-- A referenced row is still there after an insert. -/
theorem exists_append_one {α : Type} {rows : List α} {row : α} {p : α → Prop}
    (old : ∃ r ∈ rows, p r) : ∃ r ∈ rows ++ [row], p r := by
  obtain ⟨r, member, holds⟩ := old
  exact ⟨r, List.mem_append_left _ member, holds⟩

/-- A referenced row is still there after an update that keeps what is referenced. -/
theorem exists_map {α : Type} {rows : List α} {f : α → α} {p : α → Prop}
    (keeps : ∀ r, p r → p (f r)) (old : ∃ r ∈ rows, p r) : ∃ r ∈ rows.map f, p r := by
  obtain ⟨r, member, holds⟩ := old
  exact ⟨f r, List.mem_map_of_mem member, keeps r holds⟩

/-- References survive the growth of the table they point into. -/
theorem references {α β : Type} {rows : List α} {targets targets' : List β}
    {p : α → β → Prop} (grow : ∀ r, (∃ b ∈ targets, p r b) → ∃ b ∈ targets', p r b)
    (old : ∀ r ∈ rows, ∃ b ∈ targets, p r b) : ∀ r ∈ rows, ∃ b ∈ targets', p r b :=
  fun r member => grow r (old r member)

theorem Integrity.insertAttempt {row : AttemptRow} (h : Integrity db)
    (start : row.state = .reserved ∧ row.revision = 0 ∧ row.updatedAtNs = row.startedAtNs)
    (new : ∀ a ∈ db.attempts, a.id ≠ row.id) (slot : ∃ s ∈ db.attemptSlots, s.id = row.slotId)
    (unfinished : row.finishedAtNs = none) :
    Integrity { db with attempts := db.attempts ++ [row] } :=
  { h with
    attemptIds := h.attemptIds.append_one new
    attemptSlot := forall_append_one h.attemptSlot slot
    attemptFinish := forall_append_one h.attemptFinish (by rw [unfinished, start.1]; rfl)
    acceptedOnce := by
      have notAccepted : row.state ≠ .accepted := by rw [start.1]; decide
      intro a left b right same first second
      rcases List.mem_append.mp left with left | left
      · rcases List.mem_append.mp right with right | right
        · exact h.acceptedOnce a left b right same first second
        · exact absurd (List.mem_singleton.mp right ▸ second) notAccepted
      · exact absurd (List.mem_singleton.mp left ▸ first) notAccepted
    transitionAttempt := references (fun _ => exists_append_one) h.transitionAttempt
    leaseAttempt := references (fun _ => exists_append_one) h.leaseAttempt
    claimAttempt := references (fun _ => exists_append_one) h.claimAttempt
    observationProducer := references (fun _ => exists_append_one) h.observationProducer
    budgetAttempt := references (fun _ => exists_append_one) h.budgetAttempt
    dispositionCause := references (fun _ => exists_append_one) h.dispositionCause }

theorem Integrity.updateAttempt {id : RecordId .attempt} {expected : Nat} {state : AttemptState}
    {revision updatedAtNs : Nat} {finishedAtNs : Option Nat}
    {failureCode finalArtifactId : Option String} (h : Integrity db)
    (shape : ∀ old ∈ db.attempts, old.id = id → old.revision = expected →
      state.terminal = finishedAtNs.isSome)
    (single : state = .accepted → ∀ old ∈ db.attempts, old.id = id → old.revision = expected →
      ∀ b ∈ db.attempts, b.slotId = old.slotId → b.state = .accepted → b.id = old.id) :
    Integrity { db with attempts := db.attempts.map (AttemptRow.update id expected state revision
      updatedAtNs finishedAtNs failureCode finalArtifactId) } :=
  { h with
    attemptIds := h.attemptIds.map fun a => by simp
    attemptSlot := by
      intro a member
      obtain ⟨old, inside, rfl⟩ := List.mem_map.mp member
      rw [AttemptRow.update_slotId]
      exact h.attemptSlot old inside
    attemptFinish := by
      intro a member
      obtain ⟨old, inside, rfl⟩ := List.mem_map.mp member
      unfold AttemptRow.update
      split
      · rename_i chosen
        exact (shape old inside chosen.1 chosen.2).symm
      · exact h.attemptFinish old inside
    acceptedOnce := by
      intro a left b right same first second
      obtain ⟨x, insideX, rfl⟩ := List.mem_map.mp left
      obtain ⟨y, insideY, rfl⟩ := List.mem_map.mp right
      simp only [AttemptRow.update_slotId, AttemptRow.update_id] at same ⊢
      unfold AttemptRow.update at first second
      -- which of the two rows, if any, the statement has just moved to `accepted`
      split at first <;> split at second
      · rename_i movedX movedY
        rw [movedX.1, movedY.1]
      · rename_i movedX _
        exact (single first x insideX movedX.1 movedX.2 y insideY same.symm second).symm
      · rename_i _ movedY
        exact single second y insideY movedY.1 movedY.2 x insideX same first
      · exact h.acceptedOnce x insideX y insideY same first second
    transitionAttempt := references
      (fun _ => exists_map fun _ same => by simpa using same) h.transitionAttempt
    leaseAttempt := references
      (fun _ => exists_map fun _ same => by simpa using same) h.leaseAttempt
    claimAttempt := references
      (fun _ => exists_map fun _ same => by simpa using same) h.claimAttempt
    observationProducer := references
      (fun _ => exists_map fun _ same => by simpa using same) h.observationProducer
    budgetAttempt := references
      (fun _ => exists_map fun _ same => by simpa using same) h.budgetAttempt
    dispositionCause := references
      (fun _ => exists_map fun _ same => by simpa using same) h.dispositionCause }

theorem Integrity.insertTransition {row : TransitionRow} (h : Integrity db)
    (shape : row.wellFormed) (attempt : ∃ a ∈ db.attempts, a.id = row.attemptId)
    (new : ∀ t ∈ db.attemptTransitions,
      ¬(t.attemptId = row.attemptId ∧ t.revision = row.revision))
    (source : row.Follows db) :
    Integrity { db with attemptTransitions := db.attemptTransitions ++ [row] } :=
  { h with
    transitionKeys := h.transitionKeys.append_one fun t member same =>
      new t member (Prod.mk.inj same)
    transitionShape := by
      refine forall_append_one (fun t member => ?_) ⟨shape, ?_⟩
      · obtain ⟨formed, follows⟩ := h.transitionShape t member
        exact ⟨formed, fun r at_ s from_ => exists_append_one (follows r at_ s from_)⟩
      · exact fun r at_ s from_ => exists_append_one (source r at_ s from_)
    transitionAttempt := forall_append_one h.transitionAttempt attempt }

theorem Integrity.updateLeases {f : LeaseRow → LeaseRow} (h : Integrity db)
    (later : ∀ l ∈ db.leases, l.Later (f l)) :
    Integrity { db with leases := db.leases.map f } := by
  have ids : (db.leases.map f).map LeaseRow.id = db.leases.map LeaseRow.id := by
    rw [List.map_map]
    exact List.map_congr_left fun l member => (later l member).id
  exact { h with
    leaseIds := by
      have keyed := h.leaseIds
      unfold Keyed at keyed ⊢
      rw [ids]
      exact keyed
    leaseAttempt := by
      intro l member
      obtain ⟨old, inside, rfl⟩ := List.mem_map.mp member
      rw [(later old inside).attemptId]
      exact h.leaseAttempt old inside
    leaseStaging := by
      intro l member
      obtain ⟨old, inside, rfl⟩ := List.mem_map.mp member
      rw [(later old inside).purpose, (later old inside).stagingPath]
      exact h.leaseStaging old inside
    leasePaths := by
      intro l left m right path here there
      obtain ⟨x, inside, rfl⟩ := List.mem_map.mp left
      obtain ⟨y, inside', rfl⟩ := List.mem_map.mp right
      rw [(later x inside).stagingPath] at here
      rw [(later y inside').stagingPath] at there
      rw [(later x inside).id, (later y inside').id]
      exact h.leasePaths x inside y inside' path here there
    claimLease := by
      intro c member
      obtain ⟨l, inside, same, owner, purpose⟩ := h.claimLease c member
      have moved := later l inside
      exact ⟨f l, List.mem_map_of_mem inside, moved.id.trans same, moved.attemptId.trans owner,
        moved.purpose.trans purpose⟩ }

theorem Integrity.chargeBudget {attemptId : RecordId .attempt} {measured : Int}
    (h : Integrity db)
    (bounds : ∀ b ∈ db.freshBudget, b.attemptId = attemptId →
      0 ≤ min measured b.reservedNs ∧ min measured b.reservedNs ≤ b.reservedNs) :
    Integrity { db with
      freshBudget := db.freshBudget.map (BudgetRow.charge attemptId measured) } := by
  have owner : ∀ b, (BudgetRow.charge attemptId measured b).attemptId = b.attemptId := by
    intro b
    unfold BudgetRow.charge
    split <;> rfl
  exact { h with
    budgetAttempts := h.budgetAttempts.map owner
    budgetAttempt := by
      intro b member
      obtain ⟨old, inside, rfl⟩ := List.mem_map.mp member
      rw [owner]
      exact h.budgetAttempt old inside
    budgetBounds := by
      intro b member
      obtain ⟨old, inside, rfl⟩ := List.mem_map.mp member
      unfold BudgetRow.charge
      split
      · rename_i chosen
        refine ⟨(h.budgetBounds old inside).1, ?_⟩
        rintro charged ⟨⟩
        exact bounds old inside chosen
      · exact h.budgetBounds old inside }

end Preservation

/-- Every statement effect keeps the schema's guarantees. -/
theorem Effect.integrity {db db' : Db} {t : Table} (effect : Effect db t db')
    (h : Integrity db) : Integrity db' := by
  cases effect with
  | keep => exact h
  | insertDecision row new object =>
      exact { h with
        decisionIds := h.decisionIds.append_one new
        runDecision := references (fun _ => exists_append_one) h.runDecision }
  | insertRun row new object decision =>
      exact { h with
        runIds := h.runIds.append_one new
        runDecision := forall_append_one h.runDecision decision
        observationSlotRun := references (fun _ => exists_append_one) h.observationSlotRun
        attemptSlotRun := references (fun _ => exists_append_one) h.attemptSlotRun
        sequenceRun := references (fun _ => exists_append_one) h.sequenceRun }
  | insertObservationSlot row new object run =>
      exact { h with
        observationSlotIds := h.observationSlotIds.append_one new
        observationSlotRun := forall_append_one h.observationSlotRun run
        membershipObservation := references (fun _ => exists_append_one)
          h.membershipObservation }
  | insertAttemptSlot row new layout object run =>
      exact { h with
        attemptSlotIds := h.attemptSlotIds.append_one new
        attemptSlotRun := forall_append_one h.attemptSlotRun run
        membershipSlot := references (fun _ => exists_append_one) h.membershipSlot
        attemptSlot := references (fun _ => exists_append_one) h.attemptSlot
        memberSlot := references (fun _ => exists_append_one) h.memberSlot }
  | insertMembership row new slot observation =>
      exact { h with
        membershipIds := h.membershipIds.append_one new
        membershipSlot := forall_append_one h.membershipSlot slot
        membershipObservation := forall_append_one h.membershipObservation observation
        observationBound := references (fun _ => exists_append_one) h.observationBound }
  | insertArtifact row new => exact { h with artifactIds := h.artifactIds.append_one new }
  | insertAttempt row start new slot unfinished =>
      exact h.insertAttempt start new slot unfinished.1
  | updateAttempt id expected state revision updatedAtNs finishedAtNs _ _ advance claim shape
      single =>
      exact h.updateAttempt (fun old member same at_ => (shape old member same at_).1) single
  | insertEvent => exact { h with }
  | insertTransition row shape attempt new source =>
      exact h.insertTransition shape attempt new source
  | insertLease row new attempt staging path =>
      exact { h with
        leaseIds := h.leaseIds.append_one new
        leaseAttempt := forall_append_one h.leaseAttempt attempt
        leaseStaging := forall_append_one h.leaseStaging staging
        leasePaths := by
          intro l left m right p here there
          rcases List.mem_append.mp left with old | added
          · rcases List.mem_append.mp right with old' | added'
            · exact h.leasePaths l old m old' p here there
            · rw [List.mem_singleton.mp added'] at there
              exact absurd here (path p there l old)
          · rcases List.mem_append.mp right with old' | added'
            · rw [List.mem_singleton.mp added] at here
              exact absurd there (path p here m old')
            · rw [List.mem_singleton.mp added, List.mem_singleton.mp added']
        claimLease := references (fun _ => exists_append_one) h.claimLease }
  | releaseLeases p released =>
      exact h.updateLeases fun l _ => LeaseRow.release_later p released l
  | extendLeases p expiresAtNs later =>
      exact h.updateLeases fun l member => LeaseRow.extend_later (later l member)
  | insertClaim row new attempt lease =>
      exact { h with
        claimSlots := h.claimSlots.append_one fun c member => (new c member).1
        claimAttempts := h.claimAttempts.append_one fun c member => (new c member).2.1
        claimAttempt := forall_append_one h.claimAttempt attempt
        claimLease := forall_append_one h.claimLease lease }
  | deleteClaims attemptId =>
      exact { h with
        claimSlots := h.claimSlots.filter _
        claimAttempts := h.claimAttempts.filter _
        claimAttempt := fun c member => h.claimAttempt c (List.mem_of_mem_filter member)
        claimLease := fun c member => h.claimLease c (List.mem_of_mem_filter member) }
  | insertObservation row new producer bound =>
      exact { h with
        observationIds := h.observationIds.append_one new
        observationProducer := forall_append_one h.observationProducer producer
        observationBound := forall_append_one h.observationBound bound
        selectionTarget := references (fun _ => exists_append_one) h.selectionTarget }
  | insertSelection row new single observation =>
      exact { h with
        selectionSlots := h.selectionSlots.append_one new
        selectionObservations := h.selectionObservations.append_one single
        selectionTarget := forall_append_one h.selectionTarget observation }
  | insertAttemptArtifact => exact { h with }
  | insertLeasedArtifact => exact { h with }
  | insertSequence row new run =>
      exact { h with
        sequenceKeys := h.sequenceKeys.append_one new
        sequenceRun := forall_append_one h.sequenceRun run
        memberSequence := references (fun _ => exists_append_one) h.memberSequence }
  | insertMember row new place slot sequence =>
      exact { h with
        memberSlots := h.memberSlots.append_one new
        memberPlaces := h.memberPlaces.append_one fun m member same =>
          place m member (Prod.mk.inj same)
        memberSlot := forall_append_one h.memberSlot slot
        memberSequence := forall_append_one h.memberSequence sequence
        dispositionSlot := references (fun _ => exists_append_one) h.dispositionSlot }
  | insertBudget row new attempt positive charged =>
      exact { h with
        budgetAttempts := h.budgetAttempts.append_one new
        budgetAttempt := forall_append_one h.budgetAttempt attempt
        budgetBounds := forall_append_one h.budgetBounds ⟨positive, charged⟩ }
  | chargeBudget attemptId measured once bounds => exact h.chargeBudget bounds
  | insertDisposition row new slot cause =>
      exact { h with
        dispositionSlots := h.dispositionSlots.append_one new
        dispositionSlot := forall_append_one h.dispositionSlot slot
        dispositionCause := forall_append_one h.dispositionCause cause }

/-- Every transaction keeps the schema's guarantees. -/
theorem Uses.integrity {written : List Table} {α : Type} {x : StoreTx α} (body : Uses written x)
    {db db' : Db} {a : α} (run : Tx.Yields x db a db') (h : Integrity db) : Integrity db' := by
  have kept : Tx.Evolves (fun db db' => Integrity db → Integrity db') x :=
    body.evolves (fun _ h => h) (fun first second h => second (first h))
      fun _ effect => effect.integrity
  exact kept run h

end Metewand.RunStore
