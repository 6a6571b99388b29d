import Metewand.RunStore.Schema

/-!
# Ownership, fencing and transitions

The parts of `run_store/attempts.rs` that every writer goes through: the guard an
owner holds, the fence that checks it under the write lock, and `transition`,
which appends history and moves the attempt row together.
-/

namespace Metewand.RunStore

open Lib

/-! ## Requests and guards -/

/-- An execution phase; terminal outcomes require `commitFinalization`. -/
inductive AttemptPhase where
  | materializing | starting | preparing | executing | checkpointing | validating
  | evaluating | finalizing
  deriving DecidableEq, Repr

def AttemptPhase.state : AttemptPhase → AttemptState
  | .materializing => .materializing
  | .starting => .starting
  | .preparing => .preparing
  | .executing => .executing
  | .checkpointing => .checkpointing
  | .validating => .validating
  | .evaluating => .evaluating
  | .finalizing => .finalizing

/-- Explicit authorization to allocate one attempt. -/
inductive RetryAuthorization where
  | firstAttempt
  | next (retry : Bool)
  | retry (nextIndex maxIndex : Nat)
  deriving DecidableEq, Repr

/-- A caller-generated fencing token and its wall-clock expiration. -/
structure LeaseRequest where
  id : String
  ownerToken : String
  expiresAtNs : Nat
  deriving DecidableEq

/-- A reservation guard carrying the expected revision and owner tokens. -/
structure OwnedAttempt where
  id : RecordId .attempt
  slot : RecordId .resolvedAttemptSlot
  retryIndex : Nat
  revision : Nat
  updatedAtNs : Nat
  leaseId : String
  ownerToken : String
  deriving DecidableEq

/-- The immutable outcome the publisher writes before committing completion. -/
inductive TerminalOutcome where
  | accepted
  | censored (reason : String)
  | superseded
  | failed (code : String) (details : Json)
  deriving DecidableEq

namespace TerminalOutcome

def state : TerminalOutcome → AttemptState
  | .accepted => .accepted
  | .censored _ => .censored
  | .superseded => .superseded
  | .failed _ _ => .failed

def failureCode : TerminalOutcome → Option String
  | .failed code _ => some code
  | _ => none

def details : TerminalOutcome → Except RunStoreError Json
  | .failed code details =>
      if trim code.toList = [] ∨ details.isObject = false then
        .error (invalid "failure requires a code and object diagnostic")
      else .ok (.object [("failure_code", .str code), ("diagnostic", details)])
  | .censored reason =>
      if trim reason.toList = [] then .error (invalid "censoring requires a reason")
      else .ok (.object [("reason", .str reason)])
  | _ => .ok (.object [])

end TerminalOutcome

/-- Metadata supplied by the trusted publisher for a completed directory. -/
structure ArtifactRegistration where
  id : String
  relativePath : String
  contentSha256 : Digest
  manifestSha256 : Digest
  verifiedAtNs : Nat
  deriving DecidableEq

inductive ClaimDisposition where
  | claimed
  | superseded
  deriving DecidableEq, Repr

/-- A terminal database outcome. -/
structure TerminalAttempt where
  id : RecordId .attempt
  outcome : TerminalOutcome
  finishedAtNs : Nat
  eventSequence : Nat

/-! ## Leases -/

def validateLease (lease : LeaseRequest) (now : Nat) : StoreTx Unit := do
  let expires ← timestamp lease.expiresAtNs
  Tx.require (lease.id ≠ "" ∧ lease.ownerToken ≠ "" ∧ now < expires)
    (invalid "lease requires unique tokens and a future expiration")

def insertLease (attempt : RecordId .attempt) (purpose : LeasePurpose) (lease : LeaseRequest)
    (now : Nat) : StoreTx Unit := do
  let expires ← timestamp lease.expiresAtNs
  insertLeaseRow ⟨lease.id, lease.ownerToken, attempt, purpose, none, now, expires, none⟩

/-- Some attempt of the slot is accepted. -/
def satisfied (db : Db) (slot : RecordId .resolvedAttemptSlot) : Prop :=
  ∃ a ∈ db.attempts, a.slotId = slot ∧ a.state = .accepted

instance (db : Db) (slot : RecordId .resolvedAttemptSlot) : Decidable (satisfied db slot) :=
  inferInstanceAs (Decidable (∃ a ∈ db.attempts, a.slotId = slot ∧ a.state = .accepted))

/-! ## The fence -/

/-- The reservation lease the guard names is live at `now`. -/
def ReservationLive (db : Db) (attempt : OwnedAttempt) (now : Nat) : Prop :=
  ∃ l ∈ db.leases, l.attemptId = attempt.id ∧ l.id = attempt.leaseId ∧
    l.ownerToken = attempt.ownerToken ∧ l.purpose = .reservation ∧ l.releasedAtNs = none ∧
    now < l.expiresAtNs

/-- A claim of the attempt whose lease the guard's owner does not hold at `now`. -/
def ClaimLost (db : Db) (attempt : OwnedAttempt) (now : Nat) : Prop :=
  ∃ c ∈ db.finalizationClaims, ∃ f ∈ db.leases, f.id = c.leaseId ∧ c.attemptId = attempt.id ∧
    (f.ownerToken ≠ attempt.ownerToken ∨ f.releasedAtNs ≠ none ∨ f.expiresAtNs ≤ now)

/-- The attempt row the guard was issued for, still unfinished at its revision. -/
def GuardsRow (attempt : OwnedAttempt) (a : AttemptRow) : Prop :=
  a.id = attempt.id ∧ a.slotId = attempt.slot ∧ a.retryIndex = attempt.retryIndex ∧
    a.revision = attempt.revision ∧ a.finishedAtNs = none

instance (db : Db) (attempt : OwnedAttempt) (now : Nat) :
    Decidable (ReservationLive db attempt now) := by
  unfold ReservationLive
  infer_instance

instance (db : Db) (attempt : OwnedAttempt) (now : Nat) :
    Decidable (ClaimLost db attempt now) := by
  unfold ClaimLost
  infer_instance

instance (attempt : OwnedAttempt) (a : AttemptRow) : Decidable (GuardsRow attempt a) := by
  unfold GuardsRow
  infer_instance

/-- Every writer checks fencing after taking the write lock; the attempt's state.
The clock is clamped to the guard's last transition. -/
def fence (attempt : OwnedAttempt) (now : Nat) : StoreTx AttemptState := do
  let _ ← timestamp attempt.retryIndex
  let _ ← timestamp attempt.revision
  let updated ← timestamp attempt.updatedAtNs
  let db ← get
  let row ← Tx.expect (db.attempts.find? fun a => decide (GuardsRow attempt a ∧
    ReservationLive db attempt (max now updated) ∧ ¬ClaimLost db attempt (max now updated)))
    .staleAttempt
  pure row.state

/-! ## Transitions -/

/-- What a terminal transition adds to the attempt row. -/
structure TerminalProjection where
  artifactId : String
  failureCode : Option String

def eventKind (revision : Nat) (target : AttemptState) : EventKind :=
  if revision = 0 then .attemptReserved
  else if target = .finalizing then .attemptFinalizing
  else if target.terminal then .attemptFinished
  else .attemptTransition

/-- The event payload: the details with the edge and its revision. -/
def transitionPayload (source : Option AttemptState) (target : AttemptState) (revision : Nat)
    (details : Json) : Json :=
  (((details.set "from" (.ofOption (fun s => .str s.name) source)).set "to" (.str target.name)).set
    "revision" (.nat revision))

def canonicalPayload (value : Json) : Except RunStoreError Json :=
  match value.normalize with
  | .ok payload => .ok payload
  | .error violation => .error (.canonical violation)

def appendTransition (id : RecordId .attempt) (source : Option AttemptState)
    (target : AttemptState) (revision now : Nat) (details : Json) : StoreTx Unit := do
  Tx.require (details.isObject = true) (invalid "event details must be an object")
  let payload ← Tx.check (canonicalPayload (transitionPayload source target revision details))
  let sequence ← insertEvent id now (eventKind revision target) payload
  let revision ← timestamp revision
  insertTransition ⟨id, revision, if revision = 0 then none else some (revision - 1), source,
    target, now, sequence⟩

/-- Append one edge and move the attempt row along it. -/
def transition (attempt : OwnedAttempt) (source target : AttemptState) (now : Nat)
    (details : Json) (terminal : Option TerminalProjection) : StoreTx OwnedAttempt := do
  Tx.require (attempt.revision + 1 ≤ maxSafeInteger)
    (invalid "revision exceeds canonical integer range")
  let updated ← timestamp attempt.updatedAtNs
  appendTransition attempt.id (some source) target (attempt.revision + 1) (max now updated) details
  let expected ← timestamp attempt.revision
  let changed ← updateAttempt attempt.id expected target (attempt.revision + 1) (max now updated)
    (terminal.map fun _ => max now updated) (terminal.bind TerminalProjection.failureCode)
    (terminal.map TerminalProjection.artifactId)
  Tx.require (changed = 1) .staleAttempt
  pure { attempt with revision := attempt.revision + 1, updatedAtNs := max now updated }

/-! ## Acceptance -/

/-- Kinds whose selections are made inside the terminal commit. -/
def SlotKind.selectsAtCommit : SlotKind → Bool
  | .buffered | .freshObservation | .stream => true
  | .oneShot => false

/-- The valid observations an attempt produced. -/
def producedValid (db : Db) (id : RecordId .attempt) : List ObservationRow :=
  db.observations.filter fun o => o.producingAttemptId = id ∧ o.valid = true

/-- A selection in a slot bound to the attempt slot was produced by another attempt. -/
def SelectionConflict (db : Db) (attempt : OwnedAttempt) : Prop :=
  ∃ s ∈ db.selectedObservations, ∃ o ∈ db.observations, ∃ m ∈ db.attemptObservationSlots,
    o.id = s.observationId ∧ m.observationSlotId = s.slotId ∧ m.attemptSlotId = attempt.slot ∧
    o.producingAttemptId ≠ attempt.id

instance (db : Db) (attempt : OwnedAttempt) : Decidable (SelectionConflict db attempt) := by
  unfold SelectionConflict
  infer_instance

/-- The attempt has a published, valid and complete observation in the slot. -/
def ProducedIn (db : Db) (attempt : OwnedAttempt) (slot : RecordId .resolvedObservationSlot) :
    Prop :=
  ∃ produced ∈ db.observations, ∃ published ∈ db.artifacts,
    published.id = produced.artifactId ∧ published.kind = .observation ∧
    produced.slotId = slot ∧ produced.producingAttemptId = attempt.id ∧
    produced.valid = true ∧ produced.completion ≠ .notReached

instance (db : Db) (attempt : OwnedAttempt) (slot : RecordId .resolvedObservationSlot) :
    Decidable (ProducedIn db attempt slot) := by
  unfold ProducedIn
  infer_instance

/-- The bound slots with a valid selected observation and one of this attempt's own:
the rows the source counts, one for each joined tuple. -/
def completeRows (db : Db) (attempt : OwnedAttempt) (kind : SlotKind) : List MembershipRow :=
  (db.attemptObservationSlots.filter fun m => m.attemptSlotId = attempt.slot).flatMap fun m =>
    (db.selectedObservations.filter fun s => s.slotId = m.observationSlotId).flatMap fun s =>
      (db.observations.filter fun o => o.id = s.observationId ∧ o.valid = true).flatMap fun o =>
        ((db.artifacts.filter fun a => a.id = o.artifactId ∧ a.kind = .observation).filter fun _ =>
          kind = .stream ∨ ProducedIn db attempt m.observationSlotId).map fun _ => m

def validateAcceptance (attempt : OwnedAttempt) : StoreTx Unit := do
  let db ← get
  let slot ← Tx.expect (db.attemptSlots.find? fun s => s.id = attempt.slot)
    (.sqlite .queryReturnedNoRows)
  let total := (db.attemptObservationSlots.filter fun m => m.attemptSlotId = attempt.slot).length
  if slot.role = .warmup then
    Tx.require (total = 0) (invalid "warm-up cannot select measured observations")
  else do
    Tx.require (total ≠ 0) (invalid "measurement requires observation slots")
    if slot.kind.selectsAtCommit = true then
      Tx.require ((producedValid db attempt.id).length ≠ 0 ∧ ¬SelectionConflict db attempt)
        (invalid "buffered acceptance requires this attempt's complete trajectory without selections from another retry")
    else
      Tx.require ((completeRows db attempt slot.kind).length = total)
        (invalid "required selections or this attempt's complete observations are missing")

def validateFinalization (attempt : OwnedAttempt) (outcome : TerminalOutcome) (now : Nat) :
    StoreTx Unit := do
  let state ← fence attempt now
  Tx.require (state = .finalizing) (invalid "terminal outcome requires finalizing")
  if outcome = .accepted then do
    let db ← get
    Tx.require (∃ c ∈ db.finalizationClaims, c.attemptId = attempt.id)
      (invalid "acceptance requires this attempt's claim")
    validateAcceptance attempt
  else pure ()

end Metewand.RunStore
