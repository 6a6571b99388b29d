import Metewand.RunStore.Statements

/-!
# The tables each operation writes

One decomposition per operation.  A table outside an operation's list is
unchanged by it (`Uses.sameBut`); a body with no written table only reads
(`Uses.readOnly`).
-/

namespace Metewand.RunStore

open Lib

/-- A body without statements leaves the database as it is. -/
theorem Uses.readOnly {α : Type} {x : StoreTx α} (body : Uses [] x) {db db' : Db} {a : α}
    (run : Tx.Yields x db a db') : db' = db := by
  obtain ⟨layout, same⟩ := body.sameBut run
  have all : ∀ t : Table, t.Same db db' := fun t => same t (List.not_mem_nil)
  cases db
  cases db'
  have h1 := all .applicabilityDecisions
  have h2 := all .resolvedRuns
  have h3 := all .observationSlots
  have h4 := all .attemptSlots
  have h5 := all .attemptObservationSlots
  have h6 := all .artifacts
  have h7 := all .attempts
  have h8 := all .events
  have h9 := all .attemptTransitions
  have h10 := all .leases
  have h11 := all .finalizationClaims
  have h12 := all .observations
  have h13 := all .selectedObservations
  have h14 := all .attemptArtifacts
  have h15 := all .leasedArtifacts
  have h16 := all .freshSequences
  have h17 := all .freshMembers
  have h18 := all .freshBudget
  have h19 := all .freshDispositions
  simp only [Table.Same] at *
  simp only [Db.mk.injEq]
  exact ⟨layout, h1, h2, h3, h4, h5, h6, h7, h8, h9, h10, h11, h12, h13, h14, h15, h16, h17, h18,
    h19⟩

/-- A body without statements that does not fail yields something. -/
theorem Uses.yields_of_success {α : Type} {x : StoreTx α} (body : Uses [] x) {db : Db}
    (success : (x db).toBool = true) : ∃ a, Tx.Yields x db a db := by
  cases result : x db with
  | error e =>
      rw [result] at success
      cases success
  | ok p =>
      have run : Tx.Yields x db p.1 p.2 := result
      rw [body.readOnly run] at run
      exact ⟨p.1, run⟩

/-- A reading step followed by the rest of the body. -/
theorem Uses.readOnly_bind {α β : Type} {x : StoreTx α} {f : α → StoreTx β} (body : Uses [] x)
    {db db' : Db} {b : β} (run : Tx.Yields (x >>= f) db b db') :
    ∃ a, Tx.Yields x db a db ∧ Tx.Yields (f a) db b db' := by
  obtain ⟨a, mid, first, rest⟩ := Tx.yields_bind.mp run
  obtain rfl : db = mid := (body.readOnly first).symm
  exact ⟨a, first, rest⟩

namespace Uses

variable {written : List Table}

/-! ## Fencing and transitions -/

theorem validateLease {lease : LeaseRequest} {now : Nat} :
    Uses written (validateLease lease now) :=
  .bind .timestamp fun _ => .require

theorem insertLease {attempt : RecordId .attempt} {purpose : LeasePurpose} {lease : LeaseRequest}
    {now : Nat} : Uses [.leases] (insertLease attempt purpose lease now) :=
  .bind .timestamp fun _ => .statement (.insertLeaseRow _) (by decide)

theorem fence {attempt : OwnedAttempt} {now : Nat} : Uses written (fence attempt now) :=
  .bind .timestamp fun _ => .bind .timestamp fun _ => .bind .timestamp fun _ =>
    .bind .get fun _ => .bind .expect fun _ => .pure

theorem appendTransition {id : RecordId .attempt} {source : Option AttemptState}
    {target : AttemptState} {revision now : Nat} {details : Json} :
    Uses [.events, .attemptTransitions]
      (appendTransition id source target revision now details) :=
  .bind .require fun _ => .bind .check fun _ =>
    .bind (.statement (.insertEvent _ _ _ _) (by decide)) fun _ => .bind .timestamp fun _ =>
      .statement (.insertTransition _) (by decide)

theorem transition {attempt : OwnedAttempt} {source target : AttemptState} {now : Nat}
    {details : Json} {terminal : Option TerminalProjection} :
    Uses [.events, .attemptTransitions, .attempts]
      (transition attempt source target now details terminal) :=
  .bind .require fun _ => .bind .timestamp fun _ =>
    .bind (Uses.appendTransition.mono (by decide)) fun _ => .bind .timestamp fun _ =>
      .bind (.statement (.updateAttempt _ _ _ _ _ _ _ _) (by decide)) fun _ =>
        .bind .require fun _ => .pure

theorem validateAcceptance {attempt : OwnedAttempt} : Uses written (validateAcceptance attempt) :=
  .bind .get fun _ => .bind .expect fun _ => .ite .require
    (.bind .require fun _ => .ite .require .require)

theorem validateFinalization {attempt : OwnedAttempt} {outcome : TerminalOutcome} {now : Nat} :
    Uses written (validateFinalization attempt outcome now) :=
  .bind .fence fun _ => .bind .require fun _ =>
    .ite (.bind .get fun _ => .bind .require fun _ => .validateAcceptance) (.pure)

/-! ## Fresh sequences -/

theorem sequencePolicy {sequence : SequenceKey} {message : String} :
    Uses written (sequencePolicy sequence message) :=
  .bind .get fun _ => .bind .expect fun _ => .expect

theorem allowance {sequence : SequenceKey} : Uses written (allowance sequence) :=
  .bind .timestamp fun _ => .bind .sequencePolicy fun _ =>
    .bind .expect fun _ => .bind .get fun _ => .bind .check fun _ => .bind .unsigned fun _ =>
      .pure

theorem registerMember {run : RecordId .resolvedSpecification}
    {attempt : RecordId .resolvedAttemptSlot} {point : FreshPointRegistration} :
    Uses [.freshSequences, .freshMembers] (registerMember run attempt point) :=
  .bind .check fun _ => .bind .check fun _ => .bind .timestamp fun _ =>
    .bind (.statement (.insertSequence _) (by decide)) fun _ => .bind .get fun _ =>
      .bind .expect fun _ => .bind .require fun _ => .bind .timestamp fun _ =>
        .bind (.statement (.insertMember _) (by decide)) fun _ => .bind .get fun _ =>
          .bind .expect fun _ => .bind .require fun _ => .commit

theorem checkReservation {slot : RecordId .resolvedAttemptSlot} :
    Uses written (checkReservation slot) := by
  refine .bind .get fun db => ?_
  cases membership db slot with
  | none => exact .require
  | some sequence =>
      exact .bind .require fun _ => .bind .require fun _ => .bind .allowance fun _ => .require

theorem reserveFreshTime {attempt : OwnedAttempt} {pointLimit : Option Nat} {now : Nat} :
    Uses [.freshBudget] (reserveFreshTime attempt pointLimit now) := by
  refine .bind .timestamp fun _ => .bind .fence fun _ => .bind .get fun db => ?_
  cases membership db attempt.slot with
  | none => exact .pure
  | some sequence =>
      exact .bind .allowance fun _ => .bind .require fun _ => .bind .timestamp fun _ =>
        .bind (.statement (.insertBudget _) (by decide)) fun _ => .bind .commit fun _ => .pure

theorem recordFreshTime {attempt : OwnedAttempt} {measured now : Nat} :
    Uses [.freshBudget] (recordFreshTime attempt measured now) :=
  .bind .timestamp fun _ => .bind .fence fun _ => .bind .timestamp fun _ =>
    .bind (.statement (.chargeBudget _ _) (by decide)) fun _ => .commit

theorem effect {attempt : OwnedAttempt} {outcome : TerminalOutcome} :
    Uses written (effect attempt outcome) := by
  refine .bind .get fun db => ?_
  cases membership db attempt.slot with
  | none => exact .pure
  | some sequence =>
      exact .ite (.pure) (.bind .allowance fun _ => .bind .unsigned fun _ => .pure)

theorem finish {attempt : OwnedAttempt} {outcome : TerminalOutcome} :
    Uses [.freshDispositions] (finish attempt outcome) := by
  refine .bind .effect fun reason => ?_
  cases reason with
  | none => exact .pure
  | some reason =>
      refine .bind .get fun db => ?_
      cases membership db attempt.slot with
      | none => exact .pure
      | some sequence =>
          exact .each (fun m => .statement (.insertDisposition _) (by decide))

theorem freshSnapshot {attempt : OwnedAttempt} {outcome : TerminalOutcome} :
    Uses written (freshSnapshot attempt outcome) := by
  refine .bind .get fun db => ?_
  cases membership db attempt.slot with
  | none => exact .pure
  | some sequence =>
      exact .bind .timestamp fun _ => .bind .expect fun _ => .bind .check fun _ =>
        .bind .effect fun _ => .pure

/-! ## Attempts -/

theorem authorize {authorization : RetryAuthorization} {next : Nat} :
    Uses written (authorize authorization next) := by
  cases authorization with
  | firstAttempt => exact .require
  | next retry => cases retry <;> exact .require
  | retry _ _ => exact .require

theorem reserve {hash : Hasher} {slot : RecordId .resolvedAttemptSlot}
    {authorization : RetryAuthorization} {lease : LeaseRequest} {now : Nat} :
    Uses [.attempts, .leases, .events, .attemptTransitions]
      (reserve hash slot authorization lease now) :=
  .bind .timestamp fun _ => .bind .validateLease fun _ => .bind .get fun _ =>
    .bind .require fun _ => .bind .require fun _ => .bind .checkReservation fun _ =>
      .bind .require fun _ => .bind .authorize fun _ => .bind .check fun _ =>
        .bind (.statement (.insertAttempt _) (by decide)) fun _ =>
          .bind (Uses.insertLease.mono (by decide)) fun _ =>
            .bind (Uses.appendTransition.mono (by decide)) fun _ =>
              .bind .commit fun _ => .pure

theorem advance {attempt : OwnedAttempt} {phase : AttemptPhase} {now : Nat} :
    Uses [.events, .attemptTransitions, .attempts] (advance attempt phase now) :=
  .bind .timestamp fun _ => .bind .fence fun _ => .bind .transition fun _ =>
    .bind .commit fun _ => .pure

theorem renew {attempt : OwnedAttempt} {expires now : Nat} :
    Uses [.leases] (renew attempt expires now) := by
  refine .bind .timestamp fun _ => .bind .timestamp fun _ => .bind .require fun _ =>
    .bind .fence fun _ => .bind .timestamp fun _ => .bind .get fun _ =>
      .bind (.each fun lease => ?_) fun _ => .commit
  exact .bind .require fun _ => .bind (.statement (.extendLeases _ _) (by decide)) fun _ =>
    .require

theorem beginFinalization {attempt : OwnedAttempt} {lease : LeaseRequest} {now : Nat} :
    Uses [.events, .attemptTransitions, .attempts, .leases, .finalizationClaims]
      (beginFinalization attempt lease now) := by
  refine .bind .timestamp fun _ => .bind .timestamp fun _ => .bind .validateLease fun _ =>
    .bind .require fun _ => .bind .fence fun _ => .bind .get fun _ => .ite ?_ ?_
  · exact .bind (Uses.transition.mono (by decide)) fun _ => .bind .commit fun _ => .pure
  · exact .bind (Uses.transition.mono (by decide)) fun _ =>
      .bind (Uses.insertLease.mono (by decide)) fun _ =>
        .bind (.statement (.insertClaim _) (by decide)) fun _ => .bind .commit fun _ => .pure

theorem selectTrajectory {attempt : OwnedAttempt} {outcome : TerminalOutcome} {now : Nat} :
    Uses [.selectedObservations] (selectTrajectory attempt outcome now) :=
  .ite (.bind .get fun _ => .bind .expect fun _ => .ite
    (.bind .timestamp fun _ => .each (fun _ => .statement (.insertSelection _) (by decide)))
    (.pure)) (.pure)

theorem recordArtifacts {attempt : OwnedAttempt} {artifact : ArtifactRegistration}
    {references : List (String × String)} {verified : Nat} :
    Uses [.artifacts, .attemptArtifacts]
      (recordArtifacts attempt artifact references verified) :=
  .bind (.statement (.insertArtifact _) (by decide)) fun _ =>
    .bind (.statement (.insertAttemptArtifact _) (by decide)) fun _ =>
      .each (fun _ => .statement (.insertAttemptArtifact _) (by decide))

/-- The tables of a terminal commit. -/
def terminalTables : List Table :=
  [.selectedObservations, .freshDispositions, .artifacts, .attemptArtifacts, .events,
    .attemptTransitions, .attempts, .finalizationClaims, .leases]

theorem commitTerminalIn {attempt : OwnedAttempt} {outcome : TerminalOutcome}
    {artifact : ArtifactRegistration} {references : List (String × String)} {now checked : Nat} :
    Uses terminalTables
      (commitTerminalIn attempt outcome artifact references now checked) :=
  .bind (Uses.selectTrajectory.mono (by decide)) fun _ => .bind .timestamp fun _ =>
    .bind .timestamp fun _ => .bind .timestamp fun _ => .bind .timestamp fun _ =>
      .bind .require fun _ => .bind (Uses.finish.mono (by decide)) fun _ =>
        .bind .check fun _ => .bind (Uses.recordArtifacts.mono (by decide)) fun _ =>
          .bind (Uses.transition.mono (by decide)) fun _ => .bind .get fun _ =>
            .bind .expect fun _ =>
              .bind (.statement (.deleteClaims _) (by decide)) fun _ =>
                .bind (.statement (.releaseLeases _ _) (by decide)) fun _ => .pure

theorem commitFinalizationIn {attempt : OwnedAttempt} {outcome : TerminalOutcome}
    {artifact : ArtifactRegistration} {references : List (String × String)} {now checked : Nat} :
    Uses terminalTables
      (commitFinalizationIn attempt outcome artifact references now checked) :=
  .bind .timestamp fun _ => .bind .timestamp fun _ => .bind .timestamp fun _ =>
    .bind .validateFinalization fun _ => .commitTerminalIn

theorem commitFinalization {attempt : OwnedAttempt} {outcome : TerminalOutcome}
    {artifact : ArtifactRegistration} {references : List (String × String)} {now : Nat} :
    Uses terminalTables (commitFinalization attempt outcome artifact references now) :=
  .bind .commitFinalizationIn fun _ => .bind .commit fun _ => .pure

/-! ## Registration -/

/-- The tables of a registration. -/
def registrationTables : List Table :=
  [.applicabilityDecisions, .resolvedRuns, .observationSlots, .attemptSlots,
    .attemptObservationSlots]

theorem matchesIdentity {hash : Hasher} {T : Type} {kind : IdentityKind} [IdentityRecord T kind]
    {identified : IdentifiedRecord T kind} : Uses written (matchesIdentity hash identified) :=
  .bind .check fun _ => .pure

theorem registerApplicability {hash : Hasher}
    {decision : IdentifiedRecord ApplicabilityDecisionRecord .applicability} :
    Uses registrationTables (registerApplicability hash decision) :=
  .bind .matchesIdentity fun _ => .bind .require fun _ => .bind .check fun _ =>
    .bind (.statement (.insertDecision _) (by decide)) fun _ => .bind .get fun _ =>
      .bind .expect fun _ => .bind .require fun _ => .commit

theorem resolveDecision {candidate : RecordId .logicalCandidate}
    {run : ResolvedOneShotSpecificationRecord} :
    Uses registrationTables (resolveDecision candidate run) := by
  unfold RunStore.resolveDecision
  cases run.applicability with
  | some decision => exact .bind .get fun _ => .bind .require fun _ => .pure
  | none => exact .bind (.statement (.insertDecision _) (by decide)) fun _ => .pure

theorem registerExtra {hash : Hasher} {run : RecordId .resolvedSpecification}
    {attempt : RecordId .resolvedAttemptSlot}
    {extra : IdentifiedRecord ResolvedObservationSlotRecord .resolvedObservationSlot} :
    Uses registrationTables (registerExtra hash run attempt extra) :=
  .bind .matchesIdentity fun _ => .bind .require fun _ => .bind .check fun _ =>
    .bind (.statement (.insertObservationSlot _) (by decide)) fun _ => .bind .get fun _ =>
      .bind .expect fun _ => .bind .require fun _ =>
        .statement (.insertMembership _) (by decide)

theorem registerExecution {hash : Hasher} {candidate : RecordId .logicalCandidate}
    {run : IdentifiedRecord ResolvedOneShotSpecificationRecord .resolvedSpecification}
    {attempt : IdentifiedRecord ResolvedAttemptSlotRecord .resolvedAttemptSlot}
    {observations : List
      (IdentifiedRecord ResolvedObservationSlotRecord .resolvedObservationSlot)}
    {kind : SlotKind} :
    Uses registrationTables
      (registerExecution hash candidate run attempt observations kind) :=
  .bind .expect fun _ => .bind .matchesIdentity fun _ => .bind .matchesIdentity fun _ =>
    .bind .matchesIdentity fun _ => .bind .require fun _ => .bind .require fun _ =>
      .bind .resolveDecision fun _ => .bind .check fun _ =>
        .bind (.statement (.insertRun _) (by decide)) fun _ => .bind .check fun _ =>
          .bind (.statement (.insertAttemptSlot _) (by decide)) fun _ => .bind .check fun _ =>
            .bind (.statement (.insertObservationSlot _) (by decide)) fun _ =>
              .bind (.statement (.insertMembership _) (by decide)) fun _ => .bind .get fun _ =>
                .bind .expect fun _ => .bind .expect fun _ => .bind .expect fun _ =>
                  .bind .require fun _ => .bind (.each fun _ => .registerExtra) fun _ =>
                    .bind .get fun _ => .bind .expect fun _ => .bind .require fun _ => .commit

theorem selectObservation {attempt : OwnedAttempt}
    {observation : IdentifiedRecord RunObservationRecord .observation} {select : Bool}
    {now : Nat} :
    Uses [.selectedObservations] (selectObservation attempt observation select now) :=
  .ite (.bind .get fun _ => .bind .require fun _ =>
    .statement (.insertSelection _) (by decide)) .pure

theorem recordProfile {attempt : OwnedAttempt}
    {observation : IdentifiedRecord RunObservationRecord .observation} {select : Bool}
    {now : Nat} : Uses [.events] (recordProfile attempt observation select now) := by
  unfold RunStore.recordProfile
  split
  · exact .bind .get fun _ => .bind .expect fun _ => .bind .require fun _ => .bind .check fun _ =>
      .bind (.statement (.insertEvent _ _ _ _) (by decide)) fun _ => .pure
  · exact .pure

theorem registerObservation {hash : Hasher} {attempt : OwnedAttempt}
    {observation : IdentifiedRecord RunObservationRecord .observation}
    {artifact : ArtifactRegistration} {select : Bool} {now : Nat} :
    Uses [.observations, .selectedObservations, .events]
      (registerObservation hash attempt observation artifact select now) :=
  .bind .matchesIdentity fun _ => .bind .require fun _ => .bind .require fun _ =>
    .bind .expect fun _ => .bind .timestamp fun _ => .bind .fence fun _ =>
      .bind (.statement (.insertObservation _) (by decide)) fun _ =>
        .bind (Uses.selectObservation.mono (by decide)) fun _ =>
          .bind (Uses.recordProfile.mono (by decide)) fun _ => .commit

/-! ## Publication -/

theorem stage {attempt : OwnedAttempt} {relative : String} {now : Nat} :
    Uses [.leases] (stage attempt relative now) :=
  .bind .timestamp fun _ => .bind .timestamp fun _ => .bind .fence fun _ => .bind .get fun _ =>
    .bind (.each fun _ => .statement (.insertLeaseRow _) (by decide)) fun _ =>
      .bind .commit fun _ => .pure

theorem checkStage {attempt : OwnedAttempt} {stage : Stage} {now : Nat} :
    Uses written (checkStage attempt stage now) :=
  .bind .timestamp fun _ => .bind .fence fun _ => .bind .get fun _ => .require

theorem registerArtifact {artifact : ArtifactRegistration} {kind : ArtifactKind} :
    Uses [.artifacts] (registerArtifact artifact kind) :=
  .bind .timestamp fun _ =>
    .bind (.bind .get fun _ => .ite .pure (.statement (.insertArtifact _) (by decide))) fun _ =>
      .bind .get fun _ => .bind .expect fun _ => .require

theorem publishArtifact {attempt : OwnedAttempt} {kind : ArtifactKind} {stage : Stage}
    {content manifest : Digest} {clock : Nat} :
    Uses [.artifacts, .leasedArtifacts, .leases]
      (publishArtifact attempt kind stage content manifest clock) :=
  .bind .checkStage fun _ => .bind (Uses.registerArtifact.mono (by decide)) fun _ =>
    .bind (.statement (.insertLeasedArtifact _) (by decide)) fun _ =>
      .bind (.bind .timestamp fun _ => .statement (.releaseLeases _ _) (by decide)) fun _ =>
        .bind .commit fun _ => .pure

theorem coordinationSnapshot {attempt : OwnedAttempt} {outcome : TerminalOutcome}
    {finished : Nat} : Uses written (coordinationSnapshot attempt outcome finished) := by
  refine .bind .get fun _ => .bind .check fun _ => .bind .freshSnapshot fun fresh => ?_
  cases fresh <;> exact .pure

theorem buildOutcomeDocument {attempt : OwnedAttempt} {outcome : TerminalOutcome}
    {references : List (String × String)} {finished : Nat} :
    Uses written (buildOutcomeDocument attempt outcome references finished) :=
  .bind .check fun _ => .bind .get fun _ => .bind .check fun _ => .bind .expect fun _ =>
    .bind .coordinationSnapshot fun _ => .bind .check fun _ => .check

theorem outcomeDocument {attempt : OwnedAttempt} {outcome : TerminalOutcome}
    {references : List (String × String)} {finished : Nat} {stage : Stage} :
    Uses written (outcomeDocument attempt outcome references finished stage) :=
  .bind .timestamp fun _ => .bind .checkStage fun _ => .bind .validateFinalization fun _ =>
    .bind .buildOutcomeDocument fun _ => .bind .commit fun _ => .pure

theorem publishFinalization {attempt : OwnedAttempt} {outcome : TerminalOutcome}
    {references : List (String × String)} {finished : Nat} {stage : Stage} {document : Json}
    {content manifest : Digest} {clock : Nat} :
    Uses terminalTables (publishFinalization attempt outcome references finished stage document
      content manifest clock) :=
  .bind .checkStage fun _ => .bind .coordinationSnapshot fun _ => .bind .require fun _ =>
    .bind .commitFinalizationIn fun _ => .bind .commit fun _ => .pure

/-! ## Recovery -/

theorem expiredAttempt {hash : Hasher} {id : RecordId .attempt} {now : Nat} :
    Uses written (expiredAttempt hash id now) := by
  refine .bind .get fun db => ?_
  cases expiredRow db id now with
  | none => exact .pure
  | some row => exact .bind .check fun _ => .bind .require fun _ => .pure

theorem requireExpired {hash : Hasher} {attempt : OwnedAttempt} {now : Nat} :
    Uses written (requireExpired hash attempt now) := by
  refine .bind .expiredAttempt fun current => ?_
  cases current with
  | none => exact .throw
  | some row => exact .require

theorem validateOrphan {hash : Hasher} {attempt : OwnedAttempt} {orphan : Orphan} {now : Nat} :
    Uses written (validateOrphan hash attempt orphan now) :=
  .bind .timestamp fun _ => .bind .requireExpired fun _ => .bind .check fun _ =>
    .bind .require fun _ => .bind .check fun _ => .bind .check fun _ =>
      .bind .buildOutcomeDocument fun _ => .bind .require fun _ =>
        .bind (.ite (.bind .timestamp fun _ => .bind .get fun _ => .bind .require fun _ =>
          .validateAcceptance) .pure) fun _ =>
            .bind .get fun _ => .bind .check fun _ => .pure

theorem checkOrphan {hash : Hasher} {attempt : OwnedAttempt} {orphan : Orphan} {now : Nat}
    {intact : ArtifactRow → Except RunStoreError Unit} :
    Uses written (checkOrphan hash attempt orphan now intact) :=
  .bind .validateOrphan fun _ => .bind (.each fun _ => .check) fun _ => .bind .commit fun _ =>
    .pure

theorem takeOver {hash : Hasher} {id : RecordId .attempt} {checked : Nat} :
    Uses [.events, .attemptTransitions, .attempts] (takeOver hash id checked) := by
  refine .bind .expiredAttempt fun expired => ?_
  cases expired with
  | none => exact .pure
  | some row =>
      exact .ite (.bind .commit fun _ => .pure)
        (.bind .transition fun _ => .bind .commit fun _ => .pure)

theorem importOutcome {hash : Hasher} {attempt : OwnedAttempt} {orphan : Orphan}
    {evidence : Evidence} {checked : Nat} :
    Uses terminalTables (importOutcome hash attempt orphan evidence checked) :=
  .bind .timestamp fun _ => .bind .requireExpired fun _ => .bind .validateOrphan fun _ =>
    .bind .commitTerminalIn fun _ => .bind .commit fun _ => .pure

theorem documentInterrupted {hash : Hasher} {attempt : OwnedAttempt} {finished : Nat} :
    Uses written (documentInterrupted hash attempt finished) :=
  .bind .timestamp fun _ => .bind .requireExpired fun _ => .bind .get fun _ =>
    .bind .buildOutcomeDocument fun _ => .bind .commit fun _ => .pure

theorem failInterrupted {hash : Hasher} {attempt : OwnedAttempt} {failure : Interrupted}
    {content manifest : Digest} {checked : Nat} :
    Uses terminalTables (failInterrupted hash attempt failure content manifest checked) :=
  .bind .timestamp fun _ => .bind .requireExpired fun _ => .bind .buildOutcomeDocument fun _ =>
    .bind .require fun _ => .bind .commitTerminalIn fun _ => .bind .commit fun _ => .pure

theorem settleStage {stage : RecoveredStage} {checked : Nat} :
    Uses [.leases] (settleStage stage checked) := by
  unfold RunStore.settleStage
  refine .bind .timestamp fun _ => ?_
  cases stage.leaseId with
  | none => exact .bind .commit fun _ => .pure
  | some id =>
      exact .bind .get fun _ => .bind .expect fun _ => .ite
        (.bind (.statement (.releaseLeases _ _) (by decide)) fun _ => .bind .commit fun _ => .pure)
        .pure

end Uses

end Metewand.RunStore
