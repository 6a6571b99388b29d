import Metewand.RunStore.Fresh

/-!
# Attempt operations

The transactions of `run_store/attempts.rs`: reserving a slot, advancing and
renewing an attempt, competing for the slot's success claim, and the terminal
commit shared by the owner's path and by recovery.
-/

namespace Metewand.RunStore

open Lib

/-- A failed identity computation as a store error. -/
def identityResult {α : Type} (value : Except Json.CanonicalValueViolation α) :
    Except RunStoreError α :=
  match value with
  | .ok a => .ok a
  | .error violation => .error (.identity violation)

/-- The retry indices a slot has used. -/
def retryIndices (db : Db) (slot : RecordId .resolvedAttemptSlot) : List Nat :=
  (db.attempts.filter fun a => a.slotId = slot).map AttemptRow.retryIndex

/-- One more than the largest index used, or zero. -/
def nextIndex (db : Db) (slot : RecordId .resolvedAttemptSlot) : Nat :=
  match (retryIndices db slot).max? with
  | some n => n + 1
  | none => 0

/-- The authorization covers the attempt with index `next`. -/
def authorize (authorization : RetryAuthorization) (next : Nat) : StoreTx Unit :=
  match authorization with
  | .next true => Tx.require (next ≤ maxSafeInteger)
      (invalid "retry is unauthorized, stale, or exhausted")
  | .next false => Tx.require (next = 0) .retryNotAuthorized
  | .firstAttempt => Tx.require (next = 0)
      (invalid "retry is unauthorized, stale, or exhausted")
  | .retry nextIndex maxIndex =>
      Tx.require (0 < next ∧ nextIndex = next ∧ nextIndex ≤ maxIndex ∧ maxIndex ≤ maxSafeInteger)
        (invalid "retry is unauthorized, stale, or exhausted")

/-- Reserve an already registered execution slot. -/
def reserve (hash : Hasher) (slot : RecordId .resolvedAttemptSlot)
    (authorization : RetryAuthorization) (lease : LeaseRequest) (nowNs : Nat) :
    StoreTx OwnedAttempt := do
  let now ← timestamp nowNs
  validateLease lease now
  let db ← get
  Tx.require (∃ s ∈ db.attemptSlots, s.id = slot)
    (invalid "resolved execution slot is not registered")
  Tx.require (¬satisfied db slot) .satisfiedSlot
  checkReservation slot
  let next := nextIndex db slot
  Tx.require (next ≤ i64Max) (invalid "retry index overflow")
  authorize authorization next
  let id ← Tx.check (identityResult (runAttemptId hash slot next))
  insertAttempt ⟨id, slot, next, .reserved, 0, now, now, none, none, none⟩
  insertLease id .reservation lease now
  appendTransition id none .reserved 0 now
    (.object [("slot", slot.json), ("retry_index", .nat next)])
  commit
  pure ⟨id, slot, next, 0, nowNs, lease.id, lease.ownerToken⟩

/-- Advance one execution edge; a backward clock is clamped to the last transition. -/
def advance (attempt : OwnedAttempt) (phase : AttemptPhase) (nowNs : Nat) :
    StoreTx OwnedAttempt := do
  let now ← timestamp nowNs
  let state ← fence attempt now
  let advanced ← transition attempt state phase.state now (.object []) none
  commit
  pure advanced

/-- The leases a renewal extends: the reservation, the finalization lease and the
staging leases that are still live. -/
def renewable (attempt : OwnedAttempt) (now : Nat) (l : LeaseRow) : Prop :=
  l.attemptId = attempt.id ∧ l.releasedAtNs = none ∧
    (l.purpose = .reservation ∨ l.purpose = .finalization ∨
      (l.purpose = .staging ∧ now < l.expiresAtNs))

instance (attempt : OwnedAttempt) (now : Nat) : DecidablePred (renewable attempt now) :=
  fun l => by
    unfold renewable
    infer_instance

def renewLease (attempt : OwnedAttempt) (expires now : Nat) (lease : LeaseRow) :
    StoreTx Unit := do
  Tx.require (lease.expiresAtNs ≤ expires) (invalid "lease renewal cannot shorten expiration")
  let updated ← extendLeases (fun l => l.id = lease.id ∧ l.ownerToken = attempt.ownerToken ∧
    now < l.expiresAtNs) expires
  Tx.require (updated = 1) .staleAttempt

def renew (attempt : OwnedAttempt) (expiresAtNs nowNs : Nat) : StoreTx Unit := do
  let now ← timestamp nowNs
  let expires ← timestamp expiresAtNs
  Tx.require (now < expires) (invalid "lease expiration must be in the future")
  let _ ← fence attempt now
  let updated ← timestamp attempt.updatedAtNs
  let db ← get
  Tx.each (renewLease attempt expires now)
    (db.leases.filter fun l => renewable attempt (max now updated) l)
  commit

/-- The committed claim decision. -/
structure Finalization where
  attempt : OwnedAttempt
  disposition : ClaimDisposition

/-- The event details of a claim decision. -/
def claimDetails (disposition : ClaimDisposition) : Json :=
  .object [("claim", .str (match disposition with
    | .claimed => "claimed"
    | .superseded => "superseded"))]

/-- Enter finalizing and compete for the slot's leased success claim. -/
def beginFinalization (attempt : OwnedAttempt) (lease : LeaseRequest) (nowNs : Nat) :
    StoreTx Finalization := do
  let now ← timestamp nowNs
  let updated ← timestamp attempt.updatedAtNs
  validateLease lease (max now updated)
  Tx.require (lease.ownerToken = attempt.ownerToken)
    (invalid "finalization lease must have the reservation owner")
  let state ← fence attempt (max now updated)
  let db ← get
  if (∃ c ∈ db.finalizationClaims, c.slotId = attempt.slot) ∨ satisfied db attempt.slot then do
    let advanced ← transition attempt state .finalizing (max now updated)
      (claimDetails .superseded) none
    commit
    pure ⟨advanced, .superseded⟩
  else do
    let advanced ← transition attempt state .finalizing (max now updated)
      (claimDetails .claimed) none
    insertLease attempt.id .finalization lease (max now updated)
    insertClaim ⟨attempt.slot, attempt.id, lease.id⟩
    commit
    pure ⟨advanced, .claimed⟩

/-! ## The terminal commit -/

/-- Select the trajectory of an accepted attempt whose kind selects at commit. -/
def selectTrajectory (attempt : OwnedAttempt) (outcome : TerminalOutcome) (nowNs : Nat) :
    StoreTx Unit := do
  if outcome = .accepted then do
    let db ← get
    let slot ← Tx.expect (db.attemptSlots.find? fun s => s.id = attempt.slot)
      (.sqlite .queryReturnedNoRows)
    if slot.kind.selectsAtCommit = true then do
      let now ← timestamp nowNs
      Tx.each (fun o : ObservationRow => insertSelection ⟨o.slotId, o.id, now⟩)
        (producedValid db attempt.id)
    else pure ()
  else pure ()

/-- Register the final artifact and the references of the attempt. -/
def recordArtifacts (attempt : OwnedAttempt) (artifact : ArtifactRegistration)
    (references : List (String × String)) (verified : Nat) : StoreTx Unit := do
  insertArtifact ⟨artifact.id, .attempt, artifact.relativePath, artifact.contentSha256,
    .directory, some artifact.manifestSha256, verified⟩
  insertAttemptArtifact ⟨attempt.id, "final", artifact.id⟩
  Tx.each (fun reference => insertAttemptArtifact ⟨attempt.id, reference.1, reference.2⟩)
    references

/-- The shared terminal projection and claim release. -/
def commitTerminalIn (attempt : OwnedAttempt) (outcome : TerminalOutcome)
    (artifact : ArtifactRegistration) (references : List (String × String))
    (nowNs checkedAtNs : Nat) : StoreTx TerminalAttempt := do
  selectTrajectory attempt outcome nowNs
  let now ← timestamp nowNs
  let updated ← timestamp attempt.updatedAtNs
  let checked ← timestamp checkedAtNs
  let verified ← timestamp artifact.verifiedAtNs
  Tx.require (artifact.id ≠ "" ∧ verified ≤ max checked (max now updated))
    (invalid "invalid finalized artifact metadata")
  finish attempt outcome
  let details ← Tx.check outcome.details
  recordArtifacts attempt artifact references verified
  let finished ← transition attempt .finalizing outcome.state (max now updated) details
    (some ⟨artifact.id, outcome.failureCode⟩)
  let db ← get
  let row ← Tx.expect (db.attemptTransitions.find? fun t =>
    t.attemptId = attempt.id ∧ t.revision = finished.revision) (.sqlite .queryReturnedNoRows)
  deleteClaims attempt.id
  releaseLeases (fun l => l.attemptId = attempt.id) fun _ => max checked (max now updated)
  pure ⟨attempt.id, outcome, finished.updatedAtNs, row.eventSequence⟩

def commitFinalizationIn (attempt : OwnedAttempt) (outcome : TerminalOutcome)
    (artifact : ArtifactRegistration) (references : List (String × String))
    (nowNs checkedAtNs : Nat) : StoreTx TerminalAttempt := do
  let now ← timestamp nowNs
  let updated ← timestamp attempt.updatedAtNs
  let checked ← timestamp checkedAtNs
  validateFinalization attempt outcome (max checked (max now updated))
  commitTerminalIn attempt outcome artifact references nowNs checkedAtNs

/-- Commit a previously published immutable outcome and its artifact roots. -/
def commitFinalization (attempt : OwnedAttempt) (outcome : TerminalOutcome)
    (artifact : ArtifactRegistration) (references : List (String × String)) (nowNs : Nat) :
    StoreTx TerminalAttempt := do
  let terminal ← commitFinalizationIn attempt outcome artifact references nowNs nowNs
  commit
  pure terminal

end Metewand.RunStore
