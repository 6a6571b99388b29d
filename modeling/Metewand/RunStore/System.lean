import Metewand.Lib.Transition
import Metewand.RunStore.Recovery

/-!
# The run store as a system

Any number of owners and recovery passes act on one database.  A `Request` is the
first transaction of a call; a call that needs more transactions is suspended in
`World.calls` and goes on with a `Reading` of what lies outside the database.
Every transaction is atomic and every step may be taken at any time, so a list of
labels is one interleaving; a call that crashes is one that is never resumed.

Clock readings, lease tokens, directory contents and stage locks are parts of the
labels and thus arbitrary.  A guard cannot be forged: a request may use only a
guard that some earlier call returned, stale ones included.
-/

namespace Metewand.RunStore

open Lib

/-- A call between two of its transactions. -/
inductive Call where
  | registerMember (run : RecordId .resolvedSpecification)
      (slot : RecordId .resolvedAttemptSlot) (point : FreshPointRegistration)
  | publishArtifact (attempt : OwnedAttempt) (kind : ArtifactKind) (stage : Stage)
  | documentOutcome (attempt : OwnedAttempt) (outcome : TerminalOutcome)
      (references : List (String × String)) (stage : Stage)
  | publishFinalization (attempt : OwnedAttempt) (outcome : TerminalOutcome)
      (references : List (String × String)) (finished : Nat) (stage : Stage) (document : Json)
  | recover (pass : Pass)

/-- The first transaction of a call. -/
inductive Request where
  | registerApplicability
      (decision : IdentifiedRecord ApplicabilityDecisionRecord .applicability)
  | registerOneShot (candidate : RecordId .logicalCandidate)
      (run : IdentifiedRecord ResolvedOneShotSpecificationRecord .resolvedSpecification)
      (slot : IdentifiedRecord ResolvedAttemptSlotRecord .resolvedAttemptSlot)
      (observation : IdentifiedRecord ResolvedObservationSlotRecord .resolvedObservationSlot)
  | registerStreaming (candidate : RecordId .logicalCandidate)
      (run : IdentifiedRecord ResolvedOneShotSpecificationRecord .resolvedSpecification)
      (slot : IdentifiedRecord ResolvedAttemptSlotRecord .resolvedAttemptSlot)
      (observations : List
        (IdentifiedRecord ResolvedObservationSlotRecord .resolvedObservationSlot))
  | registerBuffered (candidate : RecordId .logicalCandidate)
      (run : IdentifiedRecord ResolvedOneShotSpecificationRecord .resolvedSpecification)
      (slot : IdentifiedRecord ResolvedAttemptSlotRecord .resolvedAttemptSlot)
      (observations : List
        (IdentifiedRecord ResolvedObservationSlotRecord .resolvedObservationSlot))
  | registerFresh (candidate : RecordId .logicalCandidate)
      (run : IdentifiedRecord ResolvedOneShotSpecificationRecord .resolvedSpecification)
      (slot : IdentifiedRecord ResolvedAttemptSlotRecord .resolvedAttemptSlot)
      (observation : IdentifiedRecord ResolvedObservationSlotRecord .resolvedObservationSlot)
      (point : FreshPointRegistration)
  | reserve (slot : RecordId .resolvedAttemptSlot) (authorization : RetryAuthorization)
      (lease : LeaseRequest) (now : Nat)
  | advance (attempt : OwnedAttempt) (phase : AttemptPhase) (now : Nat)
  | renew (attempt : OwnedAttempt) (expires now : Nat)
  | beginFinalization (attempt : OwnedAttempt) (lease : LeaseRequest) (now : Nat)
  | registerObservation (attempt : OwnedAttempt)
      (observation : IdentifiedRecord RunObservationRecord .observation)
      (artifact : ArtifactRegistration) (select : Bool) (now : Nat)
  | commitFinalization (attempt : OwnedAttempt) (outcome : TerminalOutcome)
      (artifact : ArtifactRegistration) (references : List (String × String)) (now : Nat)
  | reserveFreshTime (attempt : OwnedAttempt) (pointLimit : Option Nat) (now : Nat)
  | recordFreshTime (attempt : OwnedAttempt) (measured now : Nat)
  | publishArtifact (attempt : OwnedAttempt) (kind : ArtifactKind) (relative : String) (now : Nat)
  | publishFinalization (attempt : OwnedAttempt) (outcome : TerminalOutcome)
      (references : List (String × String)) (relative : String) (now : Nat)
  | recover (clock : Nat) (staged : List String) (lock : String → StageLock)
      (names : List String)

/-- The guard a request is made with. -/
def Request.guard : Request → Option OwnedAttempt
  | .advance g _ _ | .renew g _ _ | .beginFinalization g _ _ | .registerObservation g _ _ _ _
  | .commitFinalization g _ _ _ _ | .reserveFreshTime g _ _ | .recordFreshTime g _ _
  | .publishArtifact g _ _ _ | .publishFinalization g _ _ _ _ => some g
  | _ => none

/-- The guard a suspended call holds. -/
def Call.guard : Call → Option OwnedAttempt
  | .registerMember _ _ _ => none
  | .publishArtifact g _ _ | .documentOutcome g _ _ _ | .publishFinalization g _ _ _ _ _ => some g
  | .recover pass =>
      match pass.phase with
      | .checking g _ _ _ _ | .publishing g _ _ => some g
      | _ => none

/-- What a transaction returns: the guards it issues and the rest of the call. -/
structure Answer where
  guards : List OwnedAttempt
  calls : List Call

/-- Nothing is issued and the call has ended. -/
def Answer.done : Answer := ⟨[], []⟩

section Transactions

variable (hash : Hasher)

def requestTransaction : Request → StoreTx Answer
  | .registerApplicability decision => do
      registerApplicability hash decision
      pure .done
  | .registerOneShot candidate run slot observation => do
      registerOneShot hash candidate run slot observation
      pure .done
  | .registerStreaming candidate run slot observations => do
      registerStreaming hash candidate run slot observations
      pure .done
  | .registerBuffered candidate run slot observations => do
      registerBuffered hash candidate run slot observations
      pure .done
  | .registerFresh candidate run slot observation point => do
      registerFresh hash candidate run slot observation
      pure ⟨[], [.registerMember run.id slot.id point]⟩
  | .reserve slot authorization lease now => do
      let attempt ← reserve hash slot authorization lease now
      pure ⟨[attempt], []⟩
  | .advance attempt phase now => do
      let attempt ← advance attempt phase now
      pure ⟨[attempt], []⟩
  | .renew attempt expires now => do
      renew attempt expires now
      pure .done
  | .beginFinalization attempt lease now => do
      let finalization ← beginFinalization attempt lease now
      pure ⟨[finalization.attempt], []⟩
  | .registerObservation attempt observation artifact select now => do
      registerObservation hash attempt observation artifact select now
      pure .done
  | .commitFinalization attempt outcome artifact references now => do
      let _ ← commitFinalization attempt outcome artifact references now
      pure .done
  | .reserveFreshTime attempt pointLimit now => do
      let _ ← reserveFreshTime attempt pointLimit now
      pure .done
  | .recordFreshTime attempt measured now => do
      recordFreshTime attempt measured now
      pure .done
  | .publishArtifact attempt kind relative now => do
      Tx.require (kind ≠ .attempt) .publication
      let stage ← stage attempt relative now
      pure ⟨[], [.publishArtifact attempt kind stage]⟩
  | .publishFinalization attempt outcome references relative now => do
      let _ ← Tx.check outcome.details
      let stage ← stage attempt relative now
      pure ⟨[], [.documentOutcome attempt outcome references stage]⟩
  | .recover clock staged lock names => do
      let pass ← beginRecovery clock staged lock names
      pure ⟨[], [.recover pass]⟩

/-- The next transaction of a suspended call. -/
def callTransaction (reading : Reading) : Call → StoreTx Answer
  | .registerMember run slot point => do
      registerMember run slot point
      pure .done
  | .publishArtifact attempt kind stage => do
      let _ ← publishArtifact attempt kind stage reading.content reading.manifest reading.clock
      pure .done
  | .documentOutcome attempt outcome references stage => do
      let finished := max reading.clock stage.acquiredAtNs
      let document ← outcomeDocument attempt outcome references finished stage
      pure ⟨[], [.publishFinalization attempt outcome references finished stage document]⟩
  | .publishFinalization attempt outcome references finished stage document => do
      let _ ← publishFinalization attempt outcome references finished stage document
        reading.content reading.manifest reading.clock
      pure .done
  | .recover pass => do
      let next ← pass.advance hash reading
      match next with
      | .inl pass => pure ⟨[], [.recover pass]⟩
      | .inr _ => pure .done

/-- Filesystem work that fails ends the call before its next transaction. -/
def resumeCall (reading : Reading) (call : Call) : StoreTx Answer :=
  match reading.failure with
  | some e => throw e
  | none => callTransaction hash reading call

end Transactions

/-! ## Worlds and steps -/

/-- The database, the guards issued so far and the suspended calls. -/
structure World where
  db : Db
  guards : List OwnedAttempt
  calls : List Call

/-- A store that has just been created in one of the supported layouts. -/
def World.Initial (w : World) : Prop :=
  ∃ layout, (layout = 1 ∨ layout = 2 ∨ layout = 3) ∧ w = ⟨Db.create layout, [], []⟩

inductive Label where
  | request (request : Request)
  | resume (index : Nat) (reading : Reading)

/-- The transaction a label runs in a world, if it runs one. -/
def World.transaction (hash : Hasher) (w : World) : Label → Option (StoreTx Answer)
  | .request request =>
      if ∀ g ∈ request.guard, g ∈ w.guards then some (requestTransaction hash request) else none
  | .resume index reading => w.calls[index]?.map (resumeCall hash reading)

/-- The calls that remain suspended while a label runs. -/
def World.suspended (w : World) : Label → List Call
  | .request _ => w.calls
  | .resume index _ => w.calls.eraseIdx index

/-- One step: a transaction that fails leaves the database and ends its call. -/
def next (hash : Hasher) (w : World) (label : Label) : World :=
  match w.transaction hash label with
  | none => w
  | some body =>
      match Tx.atomically body w.db with
      | (.ok answer, db) =>
          ⟨db, w.guards ++ answer.guards, w.suspended label ++ answer.calls⟩
      | (.error _, db) => ⟨db, w.guards, w.suspended label⟩

/-- Worlds some interleaving leads to. -/
def Reachable (hash : Hasher) (w : World) : Prop :=
  Lib.Reachable (next hash) World.Initial w

end Metewand.RunStore
