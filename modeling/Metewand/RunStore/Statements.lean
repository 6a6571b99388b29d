import Metewand.Lib.Table
import Metewand.RunStore.System

/-!
# What one statement can do

Every transaction is composed of the statements of `Schema`.  `Statement t x` says
that `x` is a statement on table `t`, and `Effect db t db'` is everything such a
statement can do to the database when it succeeds, with the clauses it has passed.
What holds of every effect therefore holds of every transaction, whatever the
order of its statements: `Uses.evolves`.
-/

namespace Metewand.RunStore

open Lib

/-! ## Tables -/

inductive Table where
  | applicabilityDecisions | resolvedRuns | observationSlots | attemptSlots
  | attemptObservationSlots | artifacts | attempts | events | attemptTransitions | leases
  | finalizationClaims | observations | selectedObservations | attemptArtifacts
  | leasedArtifacts | freshSequences | freshMembers | freshBudget | freshDispositions
  deriving DecidableEq, Repr

/-- The table has the same rows in both databases. -/
def Table.Same (db db' : Db) : Table → Prop
  | .applicabilityDecisions => db'.applicabilityDecisions = db.applicabilityDecisions
  | .resolvedRuns => db'.resolvedRuns = db.resolvedRuns
  | .observationSlots => db'.observationSlots = db.observationSlots
  | .attemptSlots => db'.attemptSlots = db.attemptSlots
  | .attemptObservationSlots => db'.attemptObservationSlots = db.attemptObservationSlots
  | .artifacts => db'.artifacts = db.artifacts
  | .attempts => db'.attempts = db.attempts
  | .events => db'.events = db.events
  | .attemptTransitions => db'.attemptTransitions = db.attemptTransitions
  | .leases => db'.leases = db.leases
  | .finalizationClaims => db'.finalizationClaims = db.finalizationClaims
  | .observations => db'.observations = db.observations
  | .selectedObservations => db'.selectedObservations = db.selectedObservations
  | .attemptArtifacts => db'.attemptArtifacts = db.attemptArtifacts
  | .leasedArtifacts => db'.leasedArtifacts = db.leasedArtifacts
  | .freshSequences => db'.freshSequences = db.freshSequences
  | .freshMembers => db'.freshMembers = db.freshMembers
  | .freshBudget => db'.freshBudget = db.freshBudget
  | .freshDispositions => db'.freshDispositions = db.freshDispositions

theorem Table.Same.rfl {db : Db} (t : Table) : t.Same db db := by
  cases t <;> exact Eq.refl _

theorem Table.Same.trans {a b c : Db} {t : Table} (first : t.Same a b) (second : t.Same b c) :
    t.Same a c := by
  cases t <;> exact Eq.trans second first

/-- The tables outside `written` and the layout are as before. -/
def SameBut (written : List Table) (db db' : Db) : Prop :=
  db'.userVersion = db.userVersion ∧ ∀ t ∉ written, t.Same db db'

theorem SameBut.mono {written more : List Table} {db db' : Db} (same : SameBut written db db')
    (sub : ∀ t ∈ written, t ∈ more) : SameBut more db db' :=
  ⟨same.1, fun t out => same.2 t fun listed => out (sub t listed)⟩

theorem SameBut.trans {written : List Table} {a b c : Db} (first : SameBut written a b)
    (second : SameBut written b c) : SameBut written a c :=
  ⟨second.1.trans first.1, fun t out => (first.2 t out).trans (second.2 t out)⟩

/-! ## Statements -/

/-- A statement and the table it writes. -/
inductive Statement : Table → ∀ {α : Type}, StoreTx α → Prop
  | insertDecision (row : DecisionRow) :
      Statement .applicabilityDecisions (insertDecision row)
  | insertRun (row : RunRow) : Statement .resolvedRuns (insertRun row)
  | insertObservationSlot (row : ObservationSlotRow) :
      Statement .observationSlots (insertObservationSlot row)
  | insertAttemptSlot (row : AttemptSlotRow) : Statement .attemptSlots (insertAttemptSlot row)
  | insertMembership (row : MembershipRow) :
      Statement .attemptObservationSlots (insertMembership row)
  | insertArtifact (row : ArtifactRow) : Statement .artifacts (insertArtifact row)
  | insertAttempt (row : AttemptRow) : Statement .attempts (insertAttempt row)
  | updateAttempt (id : RecordId .attempt) (expected : Nat) (state : AttemptState)
      (revision updatedAtNs : Nat) (finishedAtNs : Option Nat)
      (failureCode finalArtifactId : Option String) :
      Statement .attempts (updateAttempt id expected state revision updatedAtNs finishedAtNs
        failureCode finalArtifactId)
  | insertEvent (attemptId : RecordId .attempt) (occurredAtNs : Nat) (kind : EventKind)
      (payload : Json) : Statement .events (insertEvent attemptId occurredAtNs kind payload)
  | insertTransition (row : TransitionRow) :
      Statement .attemptTransitions (insertTransition row)
  | insertLeaseRow (row : LeaseRow) : Statement .leases (insertLeaseRow row)
  | releaseLeases (p : LeaseRow → Prop) [DecidablePred p] (released : LeaseRow → Nat) :
      Statement .leases (releaseLeases p released)
  | extendLeases (p : LeaseRow → Prop) [DecidablePred p] (expiresAtNs : Nat) :
      Statement .leases (extendLeases p expiresAtNs)
  | insertClaim (row : ClaimRow) : Statement .finalizationClaims (insertClaim row)
  | deleteClaims (attemptId : RecordId .attempt) :
      Statement .finalizationClaims (deleteClaims attemptId)
  | insertObservation (row : ObservationRow) :
      Statement .observations (insertObservation row)
  | insertSelection (row : SelectionRow) :
      Statement .selectedObservations (insertSelection row)
  | insertAttemptArtifact (row : AttemptArtifactRow) :
      Statement .attemptArtifacts (insertAttemptArtifact row)
  | insertLeasedArtifact (row : LeasedArtifactRow) :
      Statement .leasedArtifacts (insertLeasedArtifact row)
  | insertSequence (row : SequenceRow) : Statement .freshSequences (insertSequence row)
  | insertMember (row : MemberRow) : Statement .freshMembers (insertMember row)
  | insertBudget (row : BudgetRow) : Statement .freshBudget (insertBudget row)
  | chargeBudget (attemptId : RecordId .attempt) (measured : Int) :
      Statement .freshBudget (chargeBudget attemptId measured)
  | insertDisposition (row : DispositionRow) :
      Statement .freshDispositions (insertDisposition row)

/-- The row an `UPDATE attempts` leaves in place of `a`. -/
def AttemptRow.update (id : RecordId .attempt) (expected : Nat) (state : AttemptState)
    (revision updatedAtNs : Nat) (finishedAtNs : Option Nat)
    (failureCode finalArtifactId : Option String) (a : AttemptRow) : AttemptRow :=
  if a.id = id ∧ a.revision = expected then
    a.moved state revision updatedAtNs finishedAtNs failureCode finalArtifactId
  else a

/-- The row a release leaves in place of `l`. -/
def LeaseRow.release (p : LeaseRow → Prop) [DecidablePred p] (released : LeaseRow → Nat)
    (l : LeaseRow) : LeaseRow :=
  if p l ∧ l.releasedAtNs = none then { l with releasedAtNs := some (released l) } else l

/-- The row a renewal leaves in place of `l`. -/
def LeaseRow.extend (p : LeaseRow → Prop) [DecidablePred p] (expiresAtNs : Nat)
    (l : LeaseRow) : LeaseRow :=
  if p l ∧ l.releasedAtNs = none then { l with expiresAtNs := expiresAtNs } else l

/-- The row a charge leaves in place of `b`. -/
def BudgetRow.charge (attemptId : RecordId .attempt) (measured : Int) (b : BudgetRow) :
    BudgetRow :=
  if b.attemptId = attemptId then { b with chargedNs := some (min measured b.reservedNs) } else b

/-- What a statement on a table does when it succeeds, with the clauses it passed. -/
inductive Effect (db : Db) : Table → Db → Prop
  | keep (t : Table) : Effect db t db
  | insertDecision (row : DecisionRow)
      (new : ∀ d ∈ db.applicabilityDecisions, d.id ≠ row.id)
      (object : row.recordJson.isObject = true) :
      Effect db .applicabilityDecisions
        { db with applicabilityDecisions := db.applicabilityDecisions ++ [row] }
  | insertRun (row : RunRow) (new : ∀ r ∈ db.resolvedRuns, r.id ≠ row.id)
      (object : row.recordJson.isObject = true)
      (decision : ∃ d ∈ db.applicabilityDecisions,
        d.id = row.applicabilityId ∧ d.candidateId = row.candidateId ∧ d.applicable = true) :
      Effect db .resolvedRuns { db with resolvedRuns := db.resolvedRuns ++ [row] }
  | insertObservationSlot (row : ObservationSlotRow)
      (new : ∀ s ∈ db.observationSlots, s.id ≠ row.id)
      (object : row.recordJson.isObject = true)
      (run : ∃ r ∈ db.resolvedRuns, r.id = row.resolvedRunId) :
      Effect db .observationSlots { db with observationSlots := db.observationSlots ++ [row] }
  | insertAttemptSlot (row : AttemptSlotRow)
      (new : ∀ s ∈ db.attemptSlots, s.id ≠ row.id)
      (layout : row.kind = .buffered → 2 ≤ db.userVersion)
      (object : row.recordJson.isObject = true)
      (run : ∃ r ∈ db.resolvedRuns, r.id = row.resolvedRunId) :
      Effect db .attemptSlots { db with attemptSlots := db.attemptSlots ++ [row] }
  | insertMembership (row : MembershipRow)
      (new : ∀ m ∈ db.attemptObservationSlots, m.observationSlotId ≠ row.observationSlotId)
      (slot : ∃ s ∈ db.attemptSlots,
        s.id = row.attemptSlotId ∧ s.resolvedRunId = row.resolvedRunId)
      (observation : ∃ s ∈ db.observationSlots,
        s.id = row.observationSlotId ∧ s.resolvedRunId = row.resolvedRunId) :
      Effect db .attemptObservationSlots
        { db with attemptObservationSlots := db.attemptObservationSlots ++ [row] }
  | insertArtifact (row : ArtifactRow) (new : ∀ a ∈ db.artifacts, a.id ≠ row.id) :
      Effect db .artifacts { db with artifacts := db.artifacts ++ [row] }
  | insertAttempt (row : AttemptRow)
      (start : row.state = .reserved ∧ row.revision = 0 ∧ row.updatedAtNs = row.startedAtNs)
      (new : ∀ a ∈ db.attempts, a.id ≠ row.id)
      (slot : ∃ s ∈ db.attemptSlots, s.id = row.slotId)
      (open_ : row.finishedAtNs = none ∧ row.failureCode = none ∧ row.finalArtifactId = none) :
      Effect db .attempts { db with attempts := db.attempts ++ [row] }
  | updateAttempt (id : RecordId .attempt) (expected : Nat) (state : AttemptState)
      (revision updatedAtNs : Nat) (finishedAtNs : Option Nat)
      (failureCode finalArtifactId : Option String)
      (advance : ∀ old ∈ db.attempts, old.id = id → old.revision = expected →
        old.state.terminal = false ∧ revision = old.revision + 1 ∧ old.updatedAtNs ≤ updatedAtNs)
      (claim : state = .accepted → ∀ old ∈ db.attempts, old.id = id → old.revision = expected →
        ∃ c ∈ db.finalizationClaims, c.slotId = old.slotId ∧ c.attemptId = old.id)
      (shape : ∀ old ∈ db.attempts, old.id = id → old.revision = expected →
        state.terminal = finishedAtNs.isSome ∧
        (finishedAtNs = none ∨ finishedAtNs = some updatedAtNs) ∧
        state.terminal = finalArtifactId.isSome)
      (single : state = .accepted → ∀ old ∈ db.attempts, old.id = id → old.revision = expected →
        ∀ b ∈ db.attempts, b.slotId = old.slotId → b.state = .accepted → b.id = old.id) :
      Effect db .attempts { db with attempts := db.attempts.map (AttemptRow.update id expected
        state revision updatedAtNs finishedAtNs failureCode finalArtifactId) }
  | insertEvent (row : EventRow) (attempt : ∃ a ∈ db.attempts, a.id = row.attemptId)
      (next : row.sequence = db.events.length + 1) :
      Effect db .events { db with events := db.events ++ [row] }
  | insertTransition (row : TransitionRow) (shape : row.wellFormed)
      (attempt : ∃ a ∈ db.attempts, a.id = row.attemptId)
      (new : ∀ t ∈ db.attemptTransitions,
        ¬(t.attemptId = row.attemptId ∧ t.revision = row.revision))
      (source : ∀ previous ∈ row.previousRevision, ∀ source ∈ row.fromState,
        ∃ t ∈ db.attemptTransitions, t.attemptId = row.attemptId ∧ t.revision = previous ∧
          t.toState = source) :
      Effect db .attemptTransitions
        { db with attemptTransitions := db.attemptTransitions ++ [row] }
  | insertLease (row : LeaseRow) (new : ∀ l ∈ db.leases, l.id ≠ row.id)
      (attempt : ∃ a ∈ db.attempts, a.id = row.attemptId)
      (staging : row.purpose = .staging ↔ row.stagingPath.isSome = true)
      (path : ∀ path ∈ row.stagingPath, ∀ l ∈ db.leases, l.stagingPath ≠ some path) :
      Effect db .leases { db with leases := db.leases ++ [row] }
  | releaseLeases (p : LeaseRow → Prop) [DecidablePred p] (released : LeaseRow → Nat) :
      Effect db .leases { db with leases := db.leases.map (LeaseRow.release p released) }
  | extendLeases (p : LeaseRow → Prop) [DecidablePred p] (expiresAtNs : Nat)
      (later : ∀ l ∈ db.leases, p l → l.releasedAtNs = none → l.expiresAtNs ≤ expiresAtNs) :
      Effect db .leases { db with leases := db.leases.map (LeaseRow.extend p expiresAtNs) }
  | insertClaim (row : ClaimRow)
      (new : ∀ c ∈ db.finalizationClaims, c.slotId ≠ row.slotId ∧
        c.attemptId ≠ row.attemptId ∧ c.leaseId ≠ row.leaseId)
      (attempt : ∃ a ∈ db.attempts, a.id = row.attemptId ∧ a.slotId = row.slotId)
      (lease : ∃ l ∈ db.leases, l.id = row.leaseId ∧ l.attemptId = row.attemptId ∧
        l.purpose = .finalization) :
      Effect db .finalizationClaims
        { db with finalizationClaims := db.finalizationClaims ++ [row] }
  | deleteClaims (attemptId : RecordId .attempt) :
      Effect db .finalizationClaims { db with
        finalizationClaims := db.finalizationClaims.filter fun c => c.attemptId ≠ attemptId }
  | insertObservation (row : ObservationRow) (new : ∀ o ∈ db.observations, o.id ≠ row.id)
      (producer : ∃ a ∈ db.attempts,
        a.id = row.producingAttemptId ∧ a.slotId = row.attemptSlotId)
      (bound : ∃ m ∈ db.attemptObservationSlots,
        m.attemptSlotId = row.attemptSlotId ∧ m.observationSlotId = row.slotId) :
      Effect db .observations { db with observations := db.observations ++ [row] }
  | insertSelection (row : SelectionRow)
      (new : ∀ s ∈ db.selectedObservations, s.slotId ≠ row.slotId)
      (single : ∀ s ∈ db.selectedObservations, s.observationId ≠ row.observationId)
      (observation : ∃ o ∈ db.observations, o.id = row.observationId ∧ o.slotId = row.slotId ∧
        o.valid = true) :
      Effect db .selectedObservations
        { db with selectedObservations := db.selectedObservations ++ [row] }
  | insertAttemptArtifact (row : AttemptArtifactRow) :
      Effect db .attemptArtifacts { db with attemptArtifacts := db.attemptArtifacts ++ [row] }
  | insertLeasedArtifact (row : LeasedArtifactRow) :
      Effect db .leasedArtifacts { db with leasedArtifacts := db.leasedArtifacts ++ [row] }
  | insertSequence (row : SequenceRow) (new : ∀ s ∈ db.freshSequences, s.key ≠ row.key)
      (run : ∃ r ∈ db.resolvedRuns, r.id = row.resolvedRunId) :
      Effect db .freshSequences { db with freshSequences := db.freshSequences ++ [row] }
  | insertMember (row : MemberRow) (new : ∀ m ∈ db.freshMembers, m.slotId ≠ row.slotId)
      (place : ∀ m ∈ db.freshMembers,
        ¬(m.sequence = row.sequence ∧ m.scheduleIndex = row.scheduleIndex))
      (slot : ∃ s ∈ db.attemptSlots, s.id = row.slotId)
      (sequence : ∃ s ∈ db.freshSequences, s.key = row.sequence) :
      Effect db .freshMembers { db with freshMembers := db.freshMembers ++ [row] }
  | insertBudget (row : BudgetRow) (new : ∀ b ∈ db.freshBudget, b.attemptId ≠ row.attemptId)
      (attempt : ∃ a ∈ db.attempts, a.id = row.attemptId) (positive : 0 < row.reservedNs)
      (charged : ∀ charged ∈ row.chargedNs, 0 ≤ charged ∧ charged ≤ row.reservedNs) :
      Effect db .freshBudget { db with freshBudget := db.freshBudget ++ [row] }
  | chargeBudget (attemptId : RecordId .attempt) (measured : Int)
      (once : ∀ b ∈ db.freshBudget, b.attemptId = attemptId → b.chargedNs = none)
      (bounds : ∀ b ∈ db.freshBudget, b.attemptId = attemptId →
        0 ≤ min measured b.reservedNs ∧ min measured b.reservedNs ≤ b.reservedNs) :
      Effect db .freshBudget { db with
        freshBudget := db.freshBudget.map (BudgetRow.charge attemptId measured) }
  | insertDisposition (row : DispositionRow)
      (new : ∀ d ∈ db.freshDispositions, d.slotId ≠ row.slotId)
      (slot : ∃ m ∈ db.freshMembers, m.slotId = row.slotId)
      (cause : ∃ a ∈ db.attempts, a.id = row.causingAttemptId) :
      Effect db .freshDispositions
        { db with freshDispositions := db.freshDispositions ++ [row] }

theorem Effect.sameBut {db db' : Db} {t : Table} (effect : Effect db t db') :
    SameBut [t] db db' := by
  refine ⟨?_, ?_⟩
  · cases effect <;> rfl
  · intro u other
    cases effect <;> cases u <;>
      first
      | exact Eq.refl _
      | exact absurd (List.mem_singleton.mpr rfl) other

/-! ## Statements have effects -/

section Inversion

variable {db db' : Db} {u : Unit}

/-- An insert that gives way to an existing row. -/
theorem Effect.of_conflict {t : Table} {p : Prop} [Decidable p] {insert : StoreTx Unit}
    (run : Tx.Yields (if p then pure () else insert) db u db')
    (inserted : ¬p → Tx.Yields insert db u db' → Effect db t db') : Effect db t db' := by
  rcases Tx.yields_ite.mp run with ⟨_, kept⟩ | ⟨absent, ran⟩
  · rw [(Tx.yields_pure.mp kept).2]
    exact .keep t
  · exact inserted absent ran

theorem updateAttempt_effect {id : RecordId .attempt} {expected : Nat} {state : AttemptState}
    {revision updatedAtNs : Nat} {finishedAtNs : Option Nat}
    {failureCode finalArtifactId : Option String} {changed : Nat}
    (run : Tx.Yields (updateAttempt id expected state revision updatedAtNs finishedAtNs
      failureCode finalArtifactId) db changed db') : Effect db .attempts db' := by
  simp only [updateAttempt, Tx.yields_get_bind, yields_constraint_bind, Tx.yields_modify_bind,
    Tx.yields_pure, List.mem_filter, decide_eq_true_eq] at run
  obtain ⟨advance, claim, shape, single, -, -, rfl⟩ := run
  refine .updateAttempt id expected state revision updatedAtNs finishedAtNs failureCode
    finalArtifactId ?_ ?_ ?_ ?_
  · intro old member same at_
    exact advance old ⟨member, same, at_⟩
  · intro accepted old member same at_
    exact claim accepted old ⟨member, same, at_⟩
  · intro old member same at_
    rcases shape with none | ⟨finished, time, -, -, artifact⟩
    · have : old ∈ ([] : List AttemptRow) := none ▸ List.mem_filter.mpr ⟨member, by simp [same, at_]⟩
      cases this
    · exact ⟨finished, time, artifact⟩
  · intro accepted old member same at_
    exact single accepted old ⟨member, same, at_⟩

theorem insertTransition_effect {row : TransitionRow}
    (run : Tx.Yields (insertTransition row) db u db') : Effect db .attemptTransitions db' := by
  simp only [insertTransition, Tx.yields_get_bind, yields_constraint_bind,
    Tx.yields_modify] at run
  obtain ⟨shape, attempt, new, -, source, -, rfl⟩ := run
  exact .insertTransition row shape attempt new source

theorem insertLeaseRow_effect {row : LeaseRow} (run : Tx.Yields (insertLeaseRow row) db u db') :
    Effect db .leases db' := by
  simp only [insertLeaseRow, Tx.yields_get_bind, yields_constraint_bind, Tx.yields_modify] at run
  obtain ⟨new, -, attempt, staging, path, -, -, -, rfl⟩ := run
  exact .insertLease row new attempt staging fun p named => (path p named).2

/-- Every statement that succeeds has one of the effects on its table. -/
theorem Statement.effect {t : Table} {α : Type} {x : StoreTx α} {a : α}
    (statement : Statement t x) (run : Tx.Yields x db a db') : Effect db t db' := by
  cases statement with
  | insertDecision row =>
      refine Effect.of_conflict run fun absent ran => ?_
      simp only [yields_constraint_bind, Tx.yields_modify] at ran
      obtain ⟨object, rfl⟩ := ran
      exact .insertDecision row (fun d member same => absent ⟨d, member, same⟩) object
  | insertRun row =>
      refine Effect.of_conflict run fun absent ran => ?_
      simp only [yields_constraint_bind, Tx.yields_modify] at ran
      obtain ⟨object, decision, rfl⟩ := ran
      exact .insertRun row (fun r member same => absent ⟨r, member, same⟩) object decision
  | insertObservationSlot row =>
      refine Effect.of_conflict run fun absent ran => ?_
      simp only [yields_constraint_bind, Tx.yields_modify] at ran
      obtain ⟨object, owner, -, rfl⟩ := ran
      exact .insertObservationSlot row (fun s member same => absent ⟨s, member, same⟩) object owner
  | insertAttemptSlot row =>
      refine Effect.of_conflict run fun absent ran => ?_
      simp only [yields_constraint_bind, Tx.yields_modify] at ran
      obtain ⟨layout, object, owner, -, rfl⟩ := ran
      exact .insertAttemptSlot row (fun s member same => absent ⟨s, member, same⟩) layout object
        owner
  | insertMembership row =>
      refine Effect.of_conflict run fun absent ran => ?_
      simp only [yields_constraint_bind, Tx.yields_modify] at ran
      obtain ⟨slot, observation, rfl⟩ := ran
      exact .insertMembership row (fun m member same => absent ⟨m, member, same⟩) slot observation
  | insertArtifact row =>
      simp only [RunStore.insertArtifact, Tx.yields_get_bind, yields_constraint_bind,
        Tx.yields_modify] at run
      obtain ⟨new, -, -, -, rfl⟩ := run
      exact .insertArtifact row new
  | insertAttempt row =>
      simp only [RunStore.insertAttempt, Tx.yields_get_bind, yields_constraint_bind,
        Tx.yields_modify] at run
      obtain ⟨start, new, -, slot, open_, rfl⟩ := run
      exact .insertAttempt row start new slot open_
  | updateAttempt => exact updateAttempt_effect run
  | insertEvent attemptId occurredAtNs kind payload =>
      simp only [RunStore.insertEvent, Tx.yields_get_bind, yields_constraint_bind,
        Tx.yields_modify_bind, Tx.yields_pure] at run
      obtain ⟨attempt, -, rfl⟩ := run
      exact .insertEvent ⟨db.events.length + 1, attemptId, occurredAtNs, kind, payload⟩ attempt rfl
  | insertTransition row => exact insertTransition_effect run
  | insertLeaseRow row => exact insertLeaseRow_effect run
  | releaseLeases p released =>
      simp only [RunStore.releaseLeases, Tx.yields_get_bind, yields_constraint_bind,
        Tx.yields_modify] at run
      obtain ⟨-, rfl⟩ := run
      exact .releaseLeases p released
  | extendLeases p expiresAtNs =>
      simp only [RunStore.extendLeases, Tx.yields_get_bind, yields_constraint_bind,
        Tx.yields_modify_bind, Tx.yields_pure, List.mem_filter, decide_eq_true_eq] at run
      obtain ⟨later, -, -, rfl⟩ := run
      exact .extendLeases p expiresAtNs fun l member chosen held => later l ⟨member, chosen, held⟩
  | insertClaim row =>
      simp only [RunStore.insertClaim, Tx.yields_get_bind, yields_constraint_bind,
        Tx.yields_modify] at run
      obtain ⟨-, new, attempt, lease, rfl⟩ := run
      exact .insertClaim row new attempt lease
  | deleteClaims attemptId =>
      simp only [RunStore.deleteClaims, Tx.yields_get_bind, yields_constraint_bind,
        Tx.yields_modify] at run
      obtain ⟨-, rfl⟩ := run
      exact .deleteClaims attemptId
  | insertObservation row =>
      simp only [RunStore.insertObservation, Tx.yields_get_bind, yields_constraint_bind,
        Tx.yields_modify] at run
      obtain ⟨new, -, producer, bound, -, rfl⟩ := run
      exact .insertObservation row new producer bound
  | insertSelection row =>
      refine Effect.of_conflict run fun absent ran => ?_
      simp only [yields_constraint_bind, Tx.yields_modify] at ran
      obtain ⟨single, observation, rfl⟩ := ran
      exact .insertSelection row (fun s member same => absent ⟨s, member, same⟩) single observation
  | insertAttemptArtifact row =>
      simp only [RunStore.insertAttemptArtifact, Tx.yields_get_bind, yields_constraint_bind,
        Tx.yields_modify] at run
      obtain ⟨-, -, -, -, rfl⟩ := run
      exact .insertAttemptArtifact row
  | insertLeasedArtifact row =>
      refine Effect.of_conflict run fun absent ran => ?_
      simp only [yields_constraint_bind, Tx.yields_modify] at ran
      obtain ⟨-, -, rfl⟩ := ran
      exact .insertLeasedArtifact row
  | insertSequence row =>
      refine Effect.of_conflict run fun absent ran => ?_
      simp only [yields_constraint_bind, Tx.yields_modify] at ran
      obtain ⟨owner, rfl⟩ := ran
      refine .insertSequence row (fun s member same => absent ⟨s, member, ?_⟩) owner
      exact Prod.mk.inj same
  | insertMember row =>
      refine Effect.of_conflict run fun absent ran => ?_
      simp only [yields_constraint_bind, Tx.yields_modify] at ran
      obtain ⟨-, slot, ⟨s, member, first, second⟩, rfl⟩ := ran
      refine .insertMember row (fun m member same => absent ⟨m, member, .inl same⟩)
        (fun m member place => absent ⟨m, member, .inr ?_⟩) slot ⟨s, member, ?_⟩
      · obtain ⟨same, index⟩ := place
        exact ⟨(Prod.mk.inj same).1, (Prod.mk.inj same).2, index⟩
      · rw [SequenceRow.key, MemberRow.sequence, first, second]
  | insertBudget row =>
      simp only [RunStore.insertBudget, Tx.yields_get_bind, yields_constraint_bind,
        Tx.yields_modify] at run
      obtain ⟨new, attempt, positive, charged, rfl⟩ := run
      exact .insertBudget row new attempt positive charged
  | chargeBudget attemptId measured =>
      simp only [RunStore.chargeBudget, Tx.yields_get_bind, yields_constraint_bind,
        Tx.yields_modify] at run
      obtain ⟨once, bounds, rfl⟩ := run
      exact .chargeBudget attemptId measured once bounds
  | insertDisposition row =>
      refine Effect.of_conflict run fun absent ran => ?_
      simp only [yields_constraint_bind, Tx.yields_modify] at ran
      obtain ⟨slot, cause, rfl⟩ := ran
      exact .insertDisposition row (fun d member same => absent ⟨d, member, same⟩) slot cause

end Inversion

/-! ## Bodies by the tables they write -/

/-- The body is composed of statements on the tables `written`. -/
def Uses (written : List Table) {α : Type} (x : StoreTx α) : Prop :=
  Tx.Composed (fun {_} y => ∃ t ∈ written, Statement t y) x

namespace Uses

variable {written : List Table} {α β : Type} {x : StoreTx α}

theorem statement {t : Table} (s : Statement t x) (listed : t ∈ written) : Uses written x :=
  Tx.Composed.statement ⟨t, listed, s⟩

theorem mono {more : List Table} (body : Uses written x) (sub : ∀ t ∈ written, t ∈ more) :
    Uses more x := by
  refine Tx.Composed.mono body ?_
  rintro β y ⟨t, listed, s⟩
  exact ⟨t, sub t listed, s⟩

theorem pure {a : α} : Uses written (pure a : StoreTx α) := Tx.Composed.pure a

theorem throw {e : RunStoreError} : Uses written (throw e : StoreTx α) := Tx.Composed.throw e

theorem get : Uses written (get : StoreTx Db) := Tx.Composed.get

theorem bind {f : α → StoreTx β} (first : Uses written x) (rest : ∀ a, Uses written (f a)) :
    Uses written (x >>= f) :=
  Tx.Composed.bind first rest

theorem ite {p : Prop} [Decidable p] {y : StoreTx α} (left : Uses written x)
    (right : Uses written y) : Uses written (if p then x else y) :=
  Tx.Composed.ite left right

theorem each {f : α → StoreTx Unit} (body : ∀ a, Uses written (f a)) {as : List α} :
    Uses written (Tx.each f as) :=
  Tx.Composed.each body as

theorem require {p : Prop} [Decidable p] {e : RunStoreError} :
    Uses written (Tx.require p e : StoreTx Unit) :=
  Tx.Composed.require

theorem expect {o : Option α} {e : RunStoreError} :
    Uses written (Tx.expect o e : StoreTx α) :=
  Tx.Composed.expect

theorem check {r : Except RunStoreError α} : Uses written (Tx.check r : StoreTx α) :=
  Tx.Composed.check

theorem timestamp {value : Nat} : Uses written (timestamp value) :=
  .bind .require fun _ => .pure

theorem unsigned {value : Int} : Uses written (unsigned value) :=
  .bind .require fun _ => .pure

theorem commit : Uses written commit :=
  .bind .get fun _ => .require

/-- A preorder that every effect follows, the body follows. -/
theorem evolves {rel : Db → Db → Prop} (body : Uses written x) (refl : ∀ db, rel db db)
    (trans : ∀ {a b c}, rel a b → rel b c → rel a c)
    (step : ∀ {t db db'}, t ∈ written → Effect db t db' → rel db db') : Tx.Evolves rel x := by
  refine Tx.Composed.evolves refl @trans ?_ body
  rintro β y ⟨t, listed, s⟩ db a db' run
  exact step listed (s.effect run)

/-- Tables the body does not write keep their rows. -/
theorem sameBut (body : Uses written x) : Tx.Evolves (SameBut written) x := by
  refine body.evolves (fun _ => ⟨rfl, fun t _ => .rfl t⟩) ?_ ?_
  · exact SameBut.trans
  · intro t db db' listed effect
    refine effect.sameBut.mono fun u single => ?_
    rw [List.mem_singleton.mp single]
    exact listed

end Uses

end Metewand.RunStore
