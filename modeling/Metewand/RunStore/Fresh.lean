import Mathlib.Data.List.Sort
import Metewand.RunStore.Fencing

/-!
# Fresh sequences

`run_store/fresh.rs`: executions of one sequence share a durable active-time
budget and a terminal stopping decision.  A sequence is a resolved run and a
measurement index; its members are the attempt slots registered for it.
-/

namespace Metewand.RunStore

open Lib

/-- The key of a sequence. -/
abbrev SequenceKey : Type := RecordId .resolvedSpecification × Nat

/-- Fresh tables exist from schema version 3 on. -/
def supported (db : Db) : Prop := db.userVersion = 3

instance (db : Db) : Decidable (supported db) := inferInstanceAs (Decidable (db.userVersion = 3))

def MemberRow.sequence (m : MemberRow) : SequenceKey := (m.resolvedRunId, m.measurementIndex)

def SequenceRow.key (s : SequenceRow) : SequenceKey := (s.resolvedRunId, s.measurementIndex)

/-- The sequence a slot belongs to. -/
def membership (db : Db) (slot : RecordId .resolvedAttemptSlot) : Option SequenceKey :=
  if supported db then (db.freshMembers.find? fun m => m.slotId = slot).map MemberRow.sequence
  else none

/-! ## Budget queries -/

/-- The budget rows of a sequence, each joined with its attempt and its member row. -/
def budgetJoin (db : Db) (sequence : SequenceKey) : List (BudgetRow × AttemptRow) :=
  db.freshBudget.flatMap fun b =>
    (db.attempts.filter fun a => a.id = b.attemptId).flatMap fun a =>
      (db.freshMembers.filter fun m => m.slotId = a.slotId ∧ m.sequence = sequence).map fun _ =>
        (b, a)

/-- What a budget row counts against the limit: the reservation until the attempt has
finished, then the charge, or the reservation when nothing was charged. -/
def consumption (b : BudgetRow) (a : AttemptRow) : Int :=
  if a.finishedAtNs = none then b.reservedNs else b.chargedNs.getD b.reservedNs

/-- What a budget row holds back without a measured charge. -/
def conservative (b : BudgetRow) (a : AttemptRow) : Int :=
  if a.finishedAtNs = none then b.reservedNs - b.chargedNs.getD 0
  else if b.chargedNs = none then b.reservedNs
  else 0

/-- The persisted policy of a sequence, read back. -/
def sequencePolicy (sequence : SequenceKey) (message : String) : StoreTx ProfilePolicy := do
  let db ← get
  let row ← Tx.expect (db.freshSequences.find? fun s => s.key = sequence)
    (.sqlite .queryReturnedNoRows)
  Tx.expect row.policy.reread (invalid message)

/-- The limit of a sequence and what its budget rows consume of it. -/
def allowance (sequence : SequenceKey) : StoreTx (Nat × Nat) := do
  let _ ← timestamp sequence.2
  let policy ← sequencePolicy sequence "invalid persisted profile policy"
  let limit ← Tx.expect policy.activeTimeNs.toOption
    (invalid "invalid persisted active-time bound")
  let db ← get
  let total ← Tx.check (sqlSum ((budgetJoin db sequence).map fun row => consumption row.1 row.2))
  let used ← unsigned total
  pure (limit, used)

/-- What the attempt's reservation gives back when it finishes. -/
def refund (db : Db) (id : RecordId .attempt) : Int :=
  match db.freshBudget.find? fun b => b.attemptId = id with
  | some b => b.reservedNs - b.chargedNs.getD b.reservedNs
  | none => 0

/-! ## Registration and reservation -/

/-- One point of a sequence, as the planner registers it. -/
structure FreshPointRegistration where
  measurementIndex : Nat
  control : FreshControl
  policy : ProfilePolicy

/-- The second transaction of `register_fresh`: the sequence and its member. -/
def registerMember (run : RecordId .resolvedSpecification)
    (attempt : RecordId .resolvedAttemptSlot) (point : FreshPointRegistration) :
    StoreTx Unit := do
  let policy ← Tx.check (canonicalPayload point.policy.json)
  let controlJson ← Tx.check (canonicalPayload point.control.observationControl)
  let index ← timestamp point.measurementIndex
  insertSequence ⟨run, index, point.policy⟩
  let db ← get
  let previous ← Tx.expect (db.freshSequences.find? fun s => s.key = (run, index))
    (.sqlite .queryReturnedNoRows)
  Tx.require (previous.policy.json.normalize = .ok policy)
    (invalid "conflicting fresh-sequence policy")
  let schedule ← timestamp point.control.scheduleIndex
  insertMember ⟨attempt, run, index, schedule, controlJson⟩
  let db ← get
  let member ← Tx.expect (db.freshMembers.find? fun m => m.slotId = attempt)
    (.sqlite .queryReturnedNoRows)
  Tx.require (member.resolvedRunId = run ∧ member.measurementIndex = point.measurementIndex ∧
    member.scheduleIndex = point.control.scheduleIndex ∧ member.controlJson = controlJson)
    (invalid "conflicting fresh-sequence membership")
  commit

/-- An unfinished attempt of the sequence exists. -/
def SequenceActive (db : Db) (sequence : SequenceKey) : Prop :=
  ∃ a ∈ db.attempts, ∃ m ∈ db.freshMembers, m.slotId = a.slotId ∧ m.sequence = sequence ∧
    a.finishedAtNs = none

instance (db : Db) (sequence : SequenceKey) : Decidable (SequenceActive db sequence) := by
  unfold SequenceActive
  infer_instance

def checkReservation (slot : RecordId .resolvedAttemptSlot) : StoreTx Unit := do
  let db ← get
  match membership db slot with
  | none =>
      Tx.require (¬(supported db ∧
        ∃ s ∈ db.attemptSlots, s.id = slot ∧ s.kind = .freshObservation))
        (invalid "fresh slot requires complete repetition membership before reservation")
  | some sequence => do
      Tx.require (∀ d ∈ db.freshDispositions, d.slotId ≠ slot) .satisfiedSlot
      Tx.require (¬SequenceActive db sequence) .sequenceBusy
      let (limit, used) ← allowance sequence
      Tx.require (used < limit) .satisfiedSlot

/-- Reserve active time immediately before entering the selected timing scope. -/
def reserveFreshTime (attempt : OwnedAttempt) (pointLimit : Option Nat) (now : Nat) :
    StoreTx (Option Nat) := do
  let now ← timestamp now
  let _ ← fence attempt now
  let db ← get
  match membership db attempt.slot with
  | none => pure none
  | some sequence => do
      let (limit, used) ← allowance sequence
      let remaining := limit - used
      let reserved := min remaining (pointLimit.getD remaining)
      Tx.require (reserved ≠ 0) (invalid "fresh-sequence active time is exhausted")
      let reserved ← timestamp reserved
      insertBudget ⟨attempt.id, reserved, none⟩
      commit
      pure (some reserved)

/-- Record the measured charge; the refund takes effect in the terminal transaction. -/
def recordFreshTime (attempt : OwnedAttempt) (measured now : Nat) : StoreTx Unit := do
  let now ← timestamp now
  let _ ← fence attempt now
  let measured ← timestamp measured
  chargeBudget attempt.id measured
  commit

/-! ## Stopping -/

/-- The attempt has an observation that reached its completion target. -/
def ReachedTarget (db : Db) (id : RecordId .attempt) : Prop :=
  ∃ o ∈ db.observations, o.producingAttemptId = id ∧ o.completion = .reached

instance (db : Db) (id : RecordId .attempt) : Decidable (ReachedTarget db id) := by
  unfold ReachedTarget
  infer_instance

/-- The stopping effect of an outcome, embedded in the document and committed with it. -/
def effect (attempt : OwnedAttempt) (outcome : TerminalOutcome) :
    StoreTx (Option DispositionReason) := do
  let db ← get
  match membership db attempt.slot with
  | none => pure none
  | some sequence =>
      if outcome = .accepted ∧ ReachedTarget db attempt.id then pure (some .skippedTargetReached)
      else do
        let (limit, used) ← allowance sequence
        let refund ← unsigned (refund db attempt.id)
        pure (if limit ≤ used - refund then some .activeTimeLimit else none)

/-- The members the stopping statement settles: no accepted attempt, and not the
attempt's own slot when this very commit accepts it. -/
def stoppedMembers (db : Db) (sequence : SequenceKey) (attempt : OwnedAttempt)
    (outcome : TerminalOutcome) : List MemberRow :=
  db.freshMembers.filter fun m => m.sequence = sequence ∧ ¬satisfied db m.slotId ∧
    (m.slotId ≠ attempt.slot ∨ outcome.state ≠ .accepted)

def finish (attempt : OwnedAttempt) (outcome : TerminalOutcome) : StoreTx Unit := do
  let reason ← effect attempt outcome
  match reason with
  | none => pure ()
  | some reason => do
      let db ← get
      match membership db attempt.slot with
      | none => pure ()
      | some sequence =>
          Tx.each (fun m => insertDisposition ⟨m.slotId, reason, attempt.id⟩)
            (stoppedMembers db sequence attempt outcome)

/-- The fresh part of the coordination snapshot. -/
def freshSnapshot (attempt : OwnedAttempt) (outcome : TerminalOutcome) :
    StoreTx (Option Json) := do
  let db ← get
  match membership db attempt.slot with
  | none => pure none
  | some sequence => do
      let _ ← timestamp sequence.2
      let members := (db.freshMembers.filter fun m => m.sequence = sequence).insertionSort
        fun a b => a.scheduleIndex ≤ b.scheduleIndex
      let row ← Tx.expect (db.freshSequences.find? fun s => s.key = sequence)
        (.sqlite .queryReturnedNoRows)
      let policy ← Tx.check (canonicalPayload row.policy.json)
      let budget := db.freshBudget.find? fun b => b.attemptId = attempt.id
      let disposition ← effect attempt outcome
      pure (some (.object [
        ("resolved_run_id", sequence.1.json),
        ("measurement_index", .nat sequence.2),
        ("policy", policy),
        ("members", .arr (members.map fun m => .object [
          ("slot_id", m.slotId.json),
          ("schedule_index", .nat m.scheduleIndex),
          ("control", m.controlJson)])),
        ("budget", .ofOption (fun b : BudgetRow => .object [
          ("reserved_ns", .num (.int b.reservedNs)),
          ("charged_ns", .ofOption (fun c => .num (.int c)) b.chargedNs)]) budget),
        ("disposition", .ofOption (fun reason => .str reason.name) disposition)]))

/-! ## Progress -/

/-- The attempts of a member slot. -/
def memberAttempts (db : Db) (m : MemberRow) : List AttemptRow :=
  db.attempts.filter fun a => a.slotId = m.slotId

/-- The members of a sequence. -/
def sequenceMembers (db : Db) (sequence : SequenceKey) : List MemberRow :=
  db.freshMembers.filter fun m => m.sequence = sequence

/-- The progress of one sequence, as the store's queries aggregate it. -/
def sequenceProgress (s : SequenceRow) (run : RunRow) : StoreTx FreshSequenceProgress := do
  let sequence := s.key
  let policy ← Tx.expect s.policy.reread (invalid "invalid profile policy")
  let _ ← timestamp sequence.2
  let db ← get
  let members := sequenceMembers db sequence
  let count := members.length
  -- `count(DISTINCT CASE … THEN m.slot_id END)` over the left join
  let accepted := ((members.filter fun m => ∃ a ∈ memberAttempts db m,
    a.state = .accepted).map MemberRow.slotId).dedup.length
  let attempted := ((members.filter fun m => ∃ a ∈ memberAttempts db m,
    a.finishedAtNs ≠ none).map MemberRow.slotId).dedup.length
  let active := ∃ m ∈ members, ∃ a ∈ memberAttempts db m, a.finishedAtNs = none
  let target := ∃ m ∈ members, ∃ a ∈ memberAttempts db m,
    a.state = .accepted ∧ ReachedTarget db a.id
  let (limit, used) ← allowance sequence
  let held ← Tx.check (sqlSum ((budgetJoin db sequence).map fun row => conservative row.1 row.2))
  let held ← unsigned held
  let (status, reason) : SequenceStatus × Option SequenceReason :=
    if target then (.accepted, some .targetReached)
    else if policy.metric = none ∧ accepted = count then (.accepted, some .fixedCount)
    else if active then (.incomplete, none)
    else if limit ≤ used then (.censored, some .activeTimeLimit)
    else if attempted = count then (.censored, some .scheduleExhausted)
    else (.incomplete, none)
  pure ⟨s.resolvedRunId.text, run.logicalSpecificationId.text, s.measurementIndex, count,
    accepted, used, held, status.name, reason.map SequenceReason.name⟩

/-- The progress of every sequence joined with its run. -/
def progressRows : List (SequenceRow × RunRow) → StoreTx (List FreshSequenceProgress)
  | [] => pure []
  | (s, run) :: rest => do
      let head ← sequenceProgress s run
      let tail ← progressRows rest
      pure (head :: tail)

/-- Text order of sequence keys. -/
def sequenceLe (a b : SequenceRow × RunRow) : Prop :=
  if a.1.resolvedRunId = b.1.resolvedRunId then a.1.measurementIndex ≤ b.1.measurementIndex
  else a.1.resolvedRunId.le b.1.resolvedRunId

instance : DecidableRel sequenceLe := fun a b => by
  unfold sequenceLe
  infer_instance

def progress : StoreTx (List FreshSequenceProgress) := do
  let db ← get
  if supported db then
    progressRows ((db.freshSequences.flatMap fun s =>
      (db.resolvedRuns.filter fun r => r.id = s.resolvedRunId).map fun r => (s, r)).insertionSort
        sequenceLe)
  else pure []

end Metewand.RunStore
