import Metewand.RunStore.Operations

/-!
# The terminal commit

What `commitTerminalIn` reads and leaves, whoever runs it: the owner through
`commitFinalization` or `publishFinalization`, or a recovery pass through
`importOutcome` or `failInterrupted`.
-/

namespace Metewand.RunStore

open Lib

/-! ## Reading the same rows -/

section Congruence

variable {db db' : Db} {written : List Table}

theorem membership_congr (layout : db'.userVersion = db.userVersion)
    (members : db'.freshMembers = db.freshMembers) (slot : RecordId .resolvedAttemptSlot) :
    membership db' slot = membership db slot := by
  have version : supported db' ↔ supported db := by
    unfold supported
    rw [layout]
  unfold membership
  simp only [version, members]

theorem satisfied_congr (attempts : db'.attempts = db.attempts)
    (slot : RecordId .resolvedAttemptSlot) : satisfied db' slot ↔ satisfied db slot := by
  unfold satisfied
  rw [attempts]

theorem stoppedMembers_congr (attempts : db'.attempts = db.attempts)
    (members : db'.freshMembers = db.freshMembers) (sequence : SequenceKey) (g : OwnedAttempt)
    (outcome : TerminalOutcome) :
    stoppedMembers db' sequence g outcome = stoppedMembers db sequence g outcome := by
  unfold stoppedMembers
  simp only [satisfied_congr attempts, members]

theorem budgetJoin_congr (budget : db'.freshBudget = db.freshBudget)
    (attempts : db'.attempts = db.attempts) (members : db'.freshMembers = db.freshMembers)
    (sequence : SequenceKey) : budgetJoin db' sequence = budgetJoin db sequence := by
  unfold budgetJoin
  rw [budget, attempts, members]

theorem Allowance.congr {sequence : SequenceKey} {limit used : Nat}
    (budget : db'.freshBudget = db.freshBudget) (attempts : db'.attempts = db.attempts)
    (members : db'.freshMembers = db.freshMembers)
    (sequences : db'.freshSequences = db.freshSequences)
    (allowed : Allowance db' sequence limit used) : Allowance db sequence limit used := by
  obtain ⟨policy, total⟩ := allowed
  unfold consumptions at total
  rw [budgetJoin_congr budget attempts members] at total
  rw [sequences] at policy
  exact ⟨policy, total⟩

theorem refund_congr (budget : db'.freshBudget = db.freshBudget) (id : RecordId .attempt) :
    refund db' id = refund db id := by
  unfold refund
  rw [budget]

theorem ReachedTarget.congr (observations : db'.observations = db.observations)
    {id : RecordId .attempt} : ReachedTarget db' id ↔ ReachedTarget db id := by
  unfold ReachedTarget
  rw [observations]

end Congruence

/-! ## Stopping -/

/-- Why the terminal commit of an outcome stops the sequence, or does not. -/
inductive StopCause (db : Db) (g : OwnedAttempt) (outcome : TerminalOutcome) :
    Option DispositionReason → Prop
  | outside (alone : membership db g.slot = none) : StopCause db g outcome none
  | target {sequence : SequenceKey} (member : membership db g.slot = some sequence)
      (accepted : outcome = .accepted) (reached : ReachedTarget db g.id) :
      StopCause db g outcome (some .skippedTargetReached)
  | exhausted {sequence : SequenceKey} {limit used : Nat}
      (member : membership db g.slot = some sequence)
      (short : ¬(outcome = .accepted ∧ ReachedTarget db g.id))
      (allowed : Allowance db sequence limit used) (back : 0 ≤ refund db g.id)
      (beyond : limit ≤ used - (refund db g.id).toNat) :
      StopCause db g outcome (some .activeTimeLimit)
  | continues {sequence : SequenceKey} {limit used : Nat}
      (member : membership db g.slot = some sequence)
      (short : ¬(outcome = .accepted ∧ ReachedTarget db g.id))
      (allowed : Allowance db sequence limit used) (back : 0 ≤ refund db g.id)
      (under : used - (refund db g.id).toNat < limit) : StopCause db g outcome none

theorem yields_effect {db db' : Db} {g : OwnedAttempt} {outcome : TerminalOutcome}
    {reason : Option DispositionReason} (run : Tx.Yields (effect g outcome) db reason db') :
    StopCause db g outcome reason := by
  simp only [effect, Tx.yields_get_bind] at run
  cases found : membership db g.slot with
  | none =>
      simp only [found, Tx.yields_pure] at run
      obtain ⟨rfl, -⟩ := run
      exact .outside found
  | some sequence =>
      simp only [found, Tx.yields_ite, Tx.yields_pure] at run
      rcases run with ⟨reached, rfl, -⟩ | ⟨short, run⟩
      · exact .target found reached.1 reached.2
      · obtain ⟨p, read, run⟩ := Uses.allowance.readOnly_bind run
        simp only [yields_unsigned_bind, Tx.yields_pure] at run
        obtain ⟨back, rfl, -⟩ := run
        split
        · rename_i beyond
          exact .exhausted found short (yields_allowance read) back beyond
        · rename_i under
          exact .continues found short (yields_allowance read) back (by omega)

/-- The cause depends on the sequence's rows and the attempt's observations only. -/
theorem StopCause.congr {db db' : Db} {g : OwnedAttempt} {outcome : TerminalOutcome}
    {reason : Option DispositionReason} (layout : db'.userVersion = db.userVersion)
    (members : db'.freshMembers = db.freshMembers) (budget : db'.freshBudget = db.freshBudget)
    (attempts : db'.attempts = db.attempts) (sequences : db'.freshSequences = db.freshSequences)
    (observations : db'.observations = db.observations)
    (cause : StopCause db' g outcome reason) : StopCause db g outcome reason := by
  have slots := membership_congr layout members g.slot
  have reached := @ReachedTarget.congr _ _ observations g.id
  have back := refund_congr budget g.id
  cases cause with
  | outside alone => exact .outside (slots ▸ alone)
  | target member accepted hit => exact .target (slots ▸ member) accepted (reached.mp hit)
  | exhausted member short allowed positive beyond =>
      rw [reached] at short
      rw [back] at positive beyond
      exact .exhausted (slots ▸ member) short (allowed.congr budget attempts members sequences)
        positive beyond
  | continues member short allowed positive under =>
      rw [reached] at short
      rw [back] at positive under
      exact .continues (slots ▸ member) short (allowed.congr budget attempts members sequences)
        positive under

/-- What inserting a disposition leaves: the first disposition of a slot stays. -/
def addDisposition (rows : List DispositionRow) (row : DispositionRow) : List DispositionRow :=
  if ∃ d ∈ rows, d.slotId = row.slotId then rows else rows ++ [row]

/-- The dispositions a stopping commit inserts. -/
def stopRows (db : Db) (g : OwnedAttempt) (outcome : TerminalOutcome)
    (reason : Option DispositionReason) : List DispositionRow :=
  match reason, membership db g.slot with
  | some reason, some sequence =>
      (stoppedMembers db sequence g outcome).map fun m => ⟨m.slotId, reason, g.id⟩
  | _, _ => []

theorem yields_each_insertDisposition {reason : DispositionReason} {cause : RecordId .attempt}
    {members : List MemberRow} {db db' : Db} {u : Unit}
    (run : Tx.Yields (Tx.each (fun m : MemberRow => insertDisposition ⟨m.slotId, reason, cause⟩)
      members) db u db') :
    db'.freshDispositions = (members.map fun m : MemberRow =>
      (⟨m.slotId, reason, cause⟩ : DispositionRow)).foldl addDisposition db.freshDispositions := by
  refine Tx.each_induction (motive := fun rows s s' => s'.freshDispositions =
    (rows.map fun m : MemberRow => (⟨m.slotId, reason, cause⟩ : DispositionRow)).foldl
      addDisposition s.freshDispositions) (fun _ => rfl) ?_ run
  intro m rest s mid s' head tail
  rw [tail, List.map_cons, List.foldl_cons]
  congr 1
  simp only [insertDisposition, Tx.yields_get_bind, Tx.yields_ite, Tx.yields_pure,
    yields_constraint_bind, Tx.yields_modify] at head
  unfold addDisposition
  rcases head with ⟨taken, -, rfl⟩ | ⟨free, -, -, rfl⟩
  · rw [if_pos taken]
  · rw [if_neg free]

theorem yields_finish {db db' : Db} {g : OwnedAttempt} {outcome : TerminalOutcome} {u : Unit}
    (run : Tx.Yields (finish g outcome) db u db') :
    ∃ reason, StopCause db g outcome reason ∧
      db'.freshDispositions = (stopRows db g outcome reason).foldl addDisposition
        db.freshDispositions := by
  simp only [finish] at run
  obtain ⟨reason, caused, run⟩ := Uses.effect.readOnly_bind run
  refine ⟨reason, yields_effect caused, ?_⟩
  unfold stopRows
  cases reason with
  | none =>
      simp only [Tx.yields_pure] at run
      rw [run.2]
      rfl
  | some reason =>
      simp only [Tx.yields_get_bind] at run
      cases found : membership db g.slot with
      | none =>
          simp only [found, Tx.yields_pure] at run
          rw [run.2]
          rfl
      | some sequence =>
          simp only [found] at run
          exact yields_each_insertDisposition run

/-! ## Selections -/

/-- The selections of an attempt's trajectory. -/
def trajectory (db : Db) (id : RecordId .attempt) (now : Nat) : List SelectionRow :=
  (producedValid db id).map fun o => ⟨o.slotId, o.id, now⟩

/-- The registered kind of a slot. -/
def slotKind (db : Db) (slot : RecordId .resolvedAttemptSlot) : Option SlotKind :=
  (db.attemptSlots.find? fun s => s.id = slot).map AttemptSlotRow.kind

/-- The selections a terminal commit leaves. -/
def terminalSelections (db : Db) (g : OwnedAttempt) (outcome : TerminalOutcome) (now : Nat) :
    List SelectionRow :=
  if outcome = .accepted ∧ (slotKind db g.slot).any SlotKind.selectsAtCommit = true then
    (trajectory db g.id now).foldl addSelection db.selectedObservations
  else db.selectedObservations

theorem yields_selectTrajectory {db db' : Db} {g : OwnedAttempt} {outcome : TerminalOutcome}
    {now : Nat} {u : Unit} (run : Tx.Yields (selectTrajectory g outcome now) db u db') :
    db'.selectedObservations = terminalSelections db g outcome now ∧
      (outcome = .accepted → (slotKind db g.slot).isSome = true) := by
  simp only [selectTrajectory, Tx.yields_ite, Tx.yields_get_bind, Tx.yields_expect_bind,
    Tx.yields_pure] at run
  unfold terminalSelections slotKind
  rcases run with ⟨accepted, slot, found, ⟨selects, run⟩ | ⟨keeps, -, rfl⟩⟩ | ⟨other, -, rfl⟩
  · simp only [yields_timestamp_bind] at run
    rw [found]
    simp only [accepted, Option.map_some, Option.any_some, selects, and_self, if_true,
      Option.isSome_some, implies_true, and_true]
    have loop := run.2
    refine Tx.each_induction (motive := fun (rows : List ObservationRow) s s' =>
      s'.selectedObservations =
        (rows.map fun o => (⟨o.slotId, o.id, now⟩ : SelectionRow)).foldl addSelection
          s.selectedObservations) (fun _ => rfl) ?_ loop
    intro o rest s mid s' head tail
    rw [tail, List.map_cons, List.foldl_cons, yields_insertSelection head]
  · rw [found]
    simp [keeps]
  · simp [other]

/-! ## The commit -/

/-- What a terminal commit has read and what it leaves. -/
structure Finished (db db' : Db) (g : OwnedAttempt) (outcome : TerminalOutcome)
    (finished : Nat) (a b : AttemptRow) : Prop extends Moved db db' a b where
  guard : a.id = g.id
  guardRevision : a.revision = g.revision
  source : a.state = .finalizing
  target : b.state = outcome.state
  when_ : b.updatedAtNs = max finished g.updatedAtNs
  finishedAt : b.finishedAtNs = some b.updatedAtNs
  artifact : b.finalArtifactId.isSome = true
  code : b.failureCode = outcome.failureCode
  selections : db'.selectedObservations = terminalSelections db g outcome finished
  kind : outcome = .accepted → (slotKind db g.slot).isSome = true
  dispositions : ∃ reason, StopCause db g outcome reason ∧
    db'.freshDispositions = (stopRows db g outcome reason).foldl addDisposition
      db.freshDispositions
  claims : db'.finalizationClaims = db.finalizationClaims.filter fun c => c.attemptId ≠ g.id
  leases : ∃ released, db'.leases = db.leases.map
    (LeaseRow.release (fun l => l.attemptId = g.id) fun _ => released)
  same : SameBut Uses.terminalTables db db'

theorem yields_commitTerminalIn {db db' : Db} {g : OwnedAttempt} {outcome : TerminalOutcome}
    {artifact : ArtifactRegistration} {references : List (String × String)}
    {finished checked : Nat} {terminal : TerminalAttempt} (h : Integrity db)
    (projected : Projected db)
    (run : Tx.Yields (commitTerminalIn g outcome artifact references finished checked) db terminal
      db') : ∃ a b, Finished db db' g outcome finished a b := by
  have whole := Uses.commitTerminalIn.sameBut run
  simp only [commitTerminalIn] at run
  obtain ⟨⟨⟩, chosen, selected, run⟩ := Tx.yields_bind.mp run
  simp only [yields_timestamp_bind, Tx.yields_require_bind] at run
  obtain ⟨small, fits, -, -, -, run⟩ := run
  obtain ⟨⟨⟩, stopped, stopping, run⟩ := Tx.yields_bind.mp run
  simp only [Tx.yields_check_bind] at run
  obtain ⟨details, -, run⟩ := run
  obtain ⟨⟨⟩, recorded, recording, run⟩ := Tx.yields_bind.mp run
  obtain ⟨g', moved, moving, run⟩ := Tx.yields_bind.mp run
  simp only [Tx.yields_get_bind, Tx.yields_expect_bind] at run
  obtain ⟨row, -, run⟩ := run
  obtain ⟨⟨⟩, freed, deleting, run⟩ := Tx.yields_bind.mp run
  obtain ⟨⟨⟩, last, releasing, run⟩ := Tx.yields_bind.mp run
  obtain ⟨-, rfl⟩ := Tx.yields_pure.mp run
  -- the tables each part leaves alone
  have same₁ := Uses.selectTrajectory.sameBut selected
  have same₂ := Uses.finish.sameBut stopping
  have same₃ := Uses.recordArtifacts.sameBut recording
  have before : SameBut [.selectedObservations, .freshDispositions, .artifacts,
      .attemptArtifacts] db recorded :=
    ((same₁.mono (by decide)).trans (same₂.mono (by decide))).trans (same₃.mono (by decide))
  have integrity : Integrity recorded := Uses.recordArtifacts.integrity recording
    (Uses.finish.integrity stopping (Uses.selectTrajectory.integrity selected h))
  have attempts : recorded.attempts = db.attempts := before.2 .attempts (by decide)
  have history : recorded.attemptTransitions = db.attemptTransitions :=
    before.2 .attemptTransitions (by decide)
  have claims : recorded.finalizationClaims = db.finalizationClaims :=
    before.2 .finalizationClaims (by decide)
  have leases : recorded.leases = db.leases := before.2 .leases (by decide)
  have projected' : Projected recorded := by
    unfold Projected
    rw [attempts, history]
    exact projected
  obtain ⟨a, b, edge, guard, guardRevision, source, target, time, finish, final, code, -,
    same₄⟩ :=
    yields_transition integrity projected' (max_le small fits) moving
  simp only [deleteClaims, Tx.yields_get_bind, yields_constraint_bind, Tx.yields_modify]
    at deleting
  obtain ⟨-, rfl⟩ := deleting
  have released := yields_releaseLeases releasing
  obtain ⟨selections, kind⟩ := yields_selectTrajectory selected
  obtain ⟨reason, cause, dispositions⟩ := yields_finish stopping
  have cause' : StopCause db g outcome reason := cause.congr same₁.1
    (same₁.2 .freshMembers (by decide)) (same₁.2 .freshBudget (by decide))
    (same₁.2 .attempts (by decide)) (same₁.2 .freshSequences (by decide))
    (same₁.2 .observations (by decide))
  have rows : stopRows chosen g outcome reason = stopRows db g outcome reason := by
    unfold stopRows
    simp only [membership_congr same₁.1 (same₁.2 .freshMembers (by decide)),
      stoppedMembers_congr (same₁.2 .attempts (by decide)) (same₁.2 .freshMembers (by decide))]
  refine ⟨a, b, ?_⟩
  subst released
  exact {
    member := attempts ▸ edge.member
    active := edge.active
    id := edge.id
    slotId := edge.slotId
    retryIndex := edge.retryIndex
    startedAtNs := edge.startedAtNs
    revision := edge.revision
    bound := edge.bound
    time := edge.time
    timeBound := edge.timeBound
    edge := edge.edge
    finish := edge.finish
    claim := claims ▸ edge.claim
    attempts := edge.attempts.trans (by rw [attempts])
    transitions := by
      obtain ⟨sequence, appended⟩ := edge.transitions
      exact ⟨sequence, appended.trans (by rw [history])⟩
    guard := guard
    guardRevision := guardRevision
    source := source
    target := target
    when_ := time.trans (by omega)
    finishedAt := finish
    artifact := by rw [final]; rfl
    code := code
    selections := by
      have kept : moved.selectedObservations = chosen.selectedObservations :=
        ((same₂.2 .selectedObservations (by decide)).trans
          (same₃.2 .selectedObservations (by decide))).trans
            (same₄.2 .selectedObservations (by decide))
      exact kept.trans selections
    kind := kind
    dispositions := by
      refine ⟨reason, cause', ?_⟩
      have kept : moved.freshDispositions = stopped.freshDispositions :=
        (same₃.2 .freshDispositions (by decide)).trans
          (same₄.2 .freshDispositions (by decide))
      have start : chosen.freshDispositions = db.freshDispositions :=
        same₁.2 .freshDispositions (by decide)
      rw [← rows, ← start, ← dispositions]
      exact kept
    claims := by
      have kept : moved.finalizationClaims = recorded.finalizationClaims :=
        same₄.2 .finalizationClaims (by decide)
      change moved.finalizationClaims.filter _ = _
      rw [kept, claims]
    leases := by
      have kept : moved.leases = recorded.leases := same₄.2 .leases (by decide)
      refine ⟨max checked (max finished g.updatedAtNs), ?_⟩
      change moved.leases.map _ = _
      rw [kept, leases]
    same := whole }

/-! ## The owner's commit -/

/-- The evidence an acceptance rests on. -/
structure Acceptance (db : Db) (g : OwnedAttempt) (slot : AttemptSlotRow) : Prop where
  found : db.attemptSlots.find? (fun s => s.id = g.slot) = some slot
  warmup : slot.role = .warmup →
    (db.attemptObservationSlots.filter fun m => m.attemptSlotId = g.slot).length = 0
  selects : slot.role ≠ .warmup → slot.kind.selectsAtCommit = true →
    (producedValid db g.id).length ≠ 0 ∧ ¬SelectionConflict db g
  retains : slot.role ≠ .warmup → slot.kind.selectsAtCommit = false →
    (completeRows db g slot.kind).length =
      (db.attemptObservationSlots.filter fun m => m.attemptSlotId = g.slot).length

theorem yields_validateAcceptance {db db' : Db} {g : OwnedAttempt} {u : Unit}
    (run : Tx.Yields (validateAcceptance g) db u db') : ∃ slot, Acceptance db g slot := by
  simp only [validateAcceptance, Tx.yields_get_bind, Tx.yields_expect_bind, Tx.yields_ite,
    Tx.yields_require_bind, Tx.yields_require] at run
  obtain ⟨slot, found, ⟨warm, none, -⟩ |
    ⟨measured, -, ⟨selects, evidence, -⟩ | ⟨retains, complete, -⟩⟩⟩ := run
  · exact ⟨slot, found, fun _ => none, fun cold => absurd warm cold, fun cold => absurd warm cold⟩
  · exact ⟨slot, found, fun warm => absurd warm measured, fun _ _ => evidence,
      fun _ other => absurd selects (by simp [other])⟩
  · exact ⟨slot, found, fun warm => absurd warm measured, fun _ other => absurd other retains,
      fun _ _ => complete⟩

theorem yields_validateFinalization {db db' : Db} {g : OwnedAttempt} {outcome : TerminalOutcome}
    {now : Nat} {u : Unit} (run : Tx.Yields (validateFinalization g outcome now) db u db') :
    ∃ a, Fenced db g now a ∧ a.state = .finalizing ∧
      (outcome = .accepted → ∃ slot, Acceptance db g slot) := by
  simp only [validateFinalization] at run
  obtain ⟨state, passed, run⟩ := Uses.fence.readOnly_bind run
  obtain ⟨-, a, fenced, rfl⟩ := yields_fence passed
  simp only [Tx.yields_require_bind, Tx.yields_ite, Tx.yields_get_bind] at run
  obtain ⟨finalizing, ⟨-, -, run⟩ | ⟨other, -⟩⟩ := run
  · exact ⟨a, fenced, finalizing, fun _ => yields_validateAcceptance run⟩
  · exact ⟨a, fenced, finalizing, fun accepted => absurd accepted other⟩

/-- A terminal commit made under the owner's fence. -/
structure OwnerFinished (db db' : Db) (g : OwnedAttempt) (outcome : TerminalOutcome)
    (finished checked : Nat) (a b : AttemptRow) : Prop extends
    Finished db db' g outcome finished a b where
  fenced : Fenced db g (max checked (max finished g.updatedAtNs)) a
  acceptance : outcome = .accepted → ∃ slot, Acceptance db g slot

theorem yields_commitFinalizationIn {db db' : Db} {g : OwnedAttempt} {outcome : TerminalOutcome}
    {artifact : ArtifactRegistration} {references : List (String × String)}
    {finished checked : Nat} {terminal : TerminalAttempt} (h : Integrity db)
    (projected : Projected db)
    (run : Tx.Yields (commitFinalizationIn g outcome artifact references finished checked) db
      terminal db') : ∃ a b, OwnerFinished db db' g outcome finished checked a b := by
  simp only [commitFinalizationIn, yields_timestamp_bind] at run
  obtain ⟨-, -, -, run⟩ := run
  obtain ⟨⟨⟩, valid, run⟩ := Uses.validateFinalization.readOnly_bind run
  obtain ⟨x, fenced, -, acceptance⟩ := yields_validateFinalization valid
  obtain ⟨a, b, done⟩ := yields_commitTerminalIn h projected run
  have := fenced.unique h done.member done.guard
  subst this
  exact ⟨a, b, done, fenced, acceptance⟩

theorem yields_commitFinalization {db db' : Db} {g : OwnedAttempt} {outcome : TerminalOutcome}
    {artifact : ArtifactRegistration} {references : List (String × String)} {now : Nat}
    {terminal : TerminalAttempt} (h : Integrity db) (projected : Projected db)
    (run : Tx.Yields (commitFinalization g outcome artifact references now) db terminal db') :
    (∃ a b, OwnerFinished db db' g outcome now now a b) ∧ Projected db' := by
  simp only [commitFinalization] at run
  obtain ⟨t, mid, committing, run⟩ := Tx.yields_bind.mp run
  simp only [yields_commit_bind, Tx.yields_pure] at run
  obtain ⟨committed, -, rfl⟩ := run
  exact ⟨yields_commitFinalizationIn h projected committing, committed⟩

/-- A terminal commit at the end of a publication: the rows are those of the document. -/
theorem yields_publishFinalization {db db' : Db} {g : OwnedAttempt} {outcome : TerminalOutcome}
    {references : List (String × String)} {finished : Nat} {stage : Stage} {document : Json}
    {content manifest : Digest} {clock : Nat} {terminal : TerminalAttempt} (h : Integrity db)
    (projected : Projected db)
    (run : Tx.Yields (publishFinalization g outcome references finished stage document content
      manifest clock) db terminal db') :
    (∃ a b, OwnerFinished db db' g outcome finished (max clock finished) a b) ∧
      Tx.Yields (coordinationSnapshot g outcome finished) db (document.get "coordination") db ∧
      Projected db' := by
  simp only [publishFinalization] at run
  obtain ⟨⟨⟩, -, run⟩ := Uses.checkStage.readOnly_bind run
  obtain ⟨snapshot, read, run⟩ := Uses.coordinationSnapshot.readOnly_bind run
  simp only [Tx.yields_require_bind] at run
  obtain ⟨same, run⟩ := run
  subst same
  obtain ⟨t, mid, committing, run⟩ := Tx.yields_bind.mp run
  simp only [yields_commit_bind, Tx.yields_pure] at run
  obtain ⟨committed, -, rfl⟩ := run
  exact ⟨yields_commitFinalizationIn h projected committing, read, committed⟩

/-! ## Recovery's view of an attempt -/

/-- The attempt row `a` with reservation lease `l` has lapsed at `now`. -/
structure Expired (db : Db) (now : Nat) (a : AttemptRow) (l : LeaseRow) : Prop where
  member : a ∈ db.attempts
  lease : l ∈ db.leases
  attempt : l.attemptId = a.id
  purpose : l.purpose = .reservation
  active : a.finishedAtNs = none
  lapsed : Lapsed db a l now

/-- The guard recovery makes from an attempt row and its reservation lease. -/
def recoveryGuard (a : AttemptRow) (l : LeaseRow) : OwnedAttempt :=
  ⟨a.id, a.slotId, a.retryIndex, a.revision, a.updatedAtNs, l.id, l.ownerToken⟩

theorem expiredRow_some {db : Db} {id : RecordId .attempt} {now : Nat} {a : AttemptRow}
    {l : LeaseRow} (found : expiredRow db id now = some (a, l)) :
    a.id = id ∧ Expired db now a l := by
  have inside := List.mem_of_mem_head? found
  simp only [List.mem_flatMap, List.mem_map, List.mem_filter, decide_eq_true_eq,
    Prod.mk.injEq] at inside
  obtain ⟨x, member, m, ⟨lease, same, owner, purpose, active, lapsed⟩, rfl, rfl⟩ := inside
  exact ⟨same, member, lease, owner, purpose, active, lapsed⟩

theorem expiredRow_none {db : Db} {id : RecordId .attempt} {now : Nat}
    (absent : expiredRow db id now = none) {a : AttemptRow} {l : LeaseRow} (same : a.id = id) :
    ¬Expired db now a l := by
  intro expired
  rw [expiredRow, List.head?_eq_none_iff, List.flatMap_eq_nil_iff] at absent
  have nothing := absent a expired.member
  rw [List.map_eq_nil_iff, List.filter_eq_nil_iff] at nothing
  refine nothing l expired.lease ?_
  simp only [decide_eq_true_eq]
  exact ⟨same, expired.attempt, expired.purpose, expired.active, expired.lapsed⟩

theorem yields_expiredAttempt {hash : Hasher} {db db' : Db} {id : RecordId .attempt} {now : Nat}
    {r : Option (OwnedAttempt × AttemptState)}
    (run : Tx.Yields (expiredAttempt hash id now) db r db') :
    (r = none ∧ ∀ a l, a.id = id → ¬Expired db now a l) ∨
      ∃ a l, a.id = id ∧ Expired db now a l ∧ r = some (recoveryGuard a l, a.state) := by
  simp only [expiredAttempt, Tx.yields_get_bind] at run
  cases found : expiredRow db id now with
  | none =>
      simp only [found, Tx.yields_pure] at run
      exact .inl ⟨run.1, fun a l same => expiredRow_none found same⟩
  | some row =>
      obtain ⟨a, l⟩ := row
      obtain ⟨same, expired⟩ := expiredRow_some found
      simp only [found, Tx.yields_check_bind, Tx.yields_require_bind, Tx.yields_pure] at run
      obtain ⟨expected, -, named, rfl, -⟩ := run
      refine .inr ⟨a, l, same, expired, ?_⟩
      rw [named, ← same]
      rfl

/-- The attempt is expired and is where recovery's guard has left it. -/
structure StillExpired (db : Db) (g : OwnedAttempt) (now : Nat) (a : AttemptRow)
    (l : LeaseRow) : Prop extends Expired db now a l where
  id : a.id = g.id
  revision : a.revision = g.revision
  finalizing : a.state = .finalizing
  leaseId : l.id = g.leaseId
  ownerToken : l.ownerToken = g.ownerToken

theorem yields_requireExpired {hash : Hasher} {db db' : Db} {g : OwnedAttempt} {now : Nat}
    {u : Unit} (run : Tx.Yields (requireExpired hash g now) db u db') :
    ∃ a l, StillExpired db g now a l := by
  simp only [requireExpired] at run
  obtain ⟨current, read, run⟩ := Uses.expiredAttempt.readOnly_bind run
  rcases yields_expiredAttempt read with ⟨rfl, -⟩ | ⟨a, l, same, expired, rfl⟩
  · simp at run
  · simp only [Tx.yields_require] at run
    obtain ⟨⟨revision, finalizing, lease, owner⟩, -⟩ := run
    exact ⟨a, l, expired, same, revision, finalizing, lease, owner⟩

theorem yields_takeOver {hash : Hasher} {db db' : Db} {id : RecordId .attempt} {checked : Nat}
    {r : Option OwnedAttempt} (h : Integrity db) (projected : Projected db)
    (small : checked ≤ i64Max) (run : Tx.Yields (takeOver hash id checked) db r db') :
    Projected db' ∧ ((r = none ∧ db' = db ∧ ∀ a l, a.id = id → ¬Expired db checked a l) ∨
      ∃ a l, a.id = id ∧ Expired db checked a l ∧
        ((a.state = .finalizing ∧ r = some (recoveryGuard a l) ∧ db' = db) ∨
          ∃ b, Advanced db db' a b ∧ b.state = .finalizing ∧
            r = some ((recoveryGuard a l).after b))) := by
  simp only [takeOver] at run
  obtain ⟨current, read, run⟩ := Uses.expiredAttempt.readOnly_bind run
  rcases yields_expiredAttempt read with ⟨rfl, live⟩ | ⟨a, l, same, expired, rfl⟩
  · simp only [Tx.yields_pure] at run
    obtain ⟨rfl, rfl⟩ := run
    exact ⟨projected, .inl ⟨rfl, rfl, live⟩⟩
  · simp only [Tx.yields_ite] at run
    rcases run with ⟨finalizing, run⟩ | ⟨-, run⟩
    · simp only [yields_commit_bind, Tx.yields_pure] at run
      obtain ⟨-, rfl, rfl⟩ := run
      exact ⟨projected, .inr ⟨a, l, same, expired, .inl ⟨finalizing, rfl, rfl⟩⟩⟩
    · obtain ⟨moved, mid, moving, run⟩ := Tx.yields_bind.mp run
      obtain ⟨x, b, edge, sameId, -, -, target, -, -, -, -, rfl, same'⟩ :=
        yields_transition h projected small moving
      simp only [yields_commit_bind, Tx.yields_pure] at run
      obtain ⟨committed, rfl, rfl⟩ := run
      have := h.attemptIds.eq_of_key edge.member expired.member sameId
      subst this
      exact ⟨committed, .inr ⟨x, l, same, expired, .inr ⟨b,
        ⟨edge, by rw [target]; rfl, same'⟩, target, rfl⟩⟩⟩

/-! ## Recovery's commits -/

/-- What validating an orphan at `now` has established. -/
structure Validated (db : Db) (g : OwnedAttempt) (orphan : Orphan) (now : Nat)
    (evidence : Evidence) : Prop where
  expired : ∃ a l, StillExpired db g now a l
  finish : documentFinish orphan.document = .ok evidence.finished
  after : g.updatedAtNs ≤ evidence.finished
  before : evidence.finished ≤ now
  outcome : documentOutcome orphan.document = .ok evidence.outcome
  references : documentReferences orphan.document = .ok evidence.references
  document : Tx.Yields (buildOutcomeDocument g evidence.outcome evidence.references
    evidence.finished) db orphan.document db
  claim : evidence.outcome = .accepted → AuthorizedClaim db g evidence.finished
  accepting : evidence.outcome = .accepted → Tx.Yields (validateAcceptance g) db () db

theorem Validated.acceptance {db : Db} {g : OwnedAttempt} {orphan : Orphan} {now : Nat}
    {evidence : Evidence} (valid : Validated db g orphan now evidence)
    (accepted : evidence.outcome = .accepted) : ∃ slot, Acceptance db g slot :=
  yields_validateAcceptance (valid.accepting accepted)

theorem yields_validateOrphan {hash : Hasher} {db db' : Db} {g : OwnedAttempt} {orphan : Orphan}
    {now : Nat} {evidence : Evidence}
    (run : Tx.Yields (validateOrphan hash g orphan now) db evidence db') :
    Validated db g orphan now evidence := by
  simp only [validateOrphan, yields_timestamp_bind] at run
  obtain ⟨-, run⟩ := run
  obtain ⟨⟨⟩, expired, run⟩ := Uses.requireExpired.readOnly_bind run
  simp only [Tx.yields_check_bind, Tx.yields_require_bind] at run
  obtain ⟨finished, finish, ⟨after, before⟩, outcome, outcome_, references, references_, run⟩ := run
  obtain ⟨document, built, run⟩ := Uses.buildOutcomeDocument.readOnly_bind run
  simp only [Tx.yields_require_bind] at run
  obtain ⟨same, run⟩ := run
  subst same
  have reads : Uses [] (validateClaim g outcome finished) :=
    .ite (.bind .timestamp fun _ => .bind .get fun _ => .bind .require fun _ =>
      .validateAcceptance) .pure
  obtain ⟨⟨⟩, claimed, run⟩ := reads.readOnly_bind run
  simp only [Tx.yields_get_bind, Tx.yields_check_bind, Tx.yields_pure] at run
  obtain ⟨roots, -, rfl, -⟩ := run
  simp only [validateClaim, Tx.yields_ite, yields_timestamp_bind, Tx.yields_get_bind,
    Tx.yields_require_bind, Tx.yields_pure] at claimed
  refine ⟨yields_requireExpired expired, finish, after, before, outcome_, references_, built,
    ?_, ?_⟩
  · intro accepted
    rcases claimed with ⟨-, -, claim, -⟩ | ⟨other, -⟩
    · exact claim
    · exact absurd accepted other
  · intro accepted
    rcases claimed with ⟨-, -, -, checked⟩ | ⟨other, -⟩
    · rw [Uses.validateAcceptance.readOnly checked] at checked
      exact checked
    · exact absurd accepted other

/-- The evidence is what its document says. -/
def Evidence.Parsed (orphan : Orphan) (evidence : Evidence) : Prop :=
  documentFinish orphan.document = .ok evidence.finished ∧
    documentOutcome orphan.document = .ok evidence.outcome ∧
    documentReferences orphan.document = .ok evidence.references

theorem Validated.parsed {db : Db} {g : OwnedAttempt} {orphan : Orphan} {now : Nat}
    {evidence : Evidence} (valid : Validated db g orphan now evidence) :
    evidence.Parsed orphan :=
  ⟨valid.finish, valid.outcome, valid.references⟩

/-- A terminal commit made by a recovery pass. -/
structure RecoveryFinished (db db' : Db) (g : OwnedAttempt) (outcome : TerminalOutcome)
    (finished checked : Nat) (a b : AttemptRow) : Prop extends
    Finished db db' g outcome finished a b where
  expired : ∃ l, StillExpired db g checked a l

theorem StillExpired.finished {db db' : Db} (h : Integrity db) {g : OwnedAttempt}
    {outcome : TerminalOutcome} {finished checked : Nat} {a b x : AttemptRow} {l : LeaseRow}
    (expired : StillExpired db g checked x l) (done : Finished db db' g outcome finished a b) :
    RecoveryFinished db db' g outcome finished checked a b := by
  have := h.attemptIds.eq_of_key done.member expired.member (done.guard.trans expired.id.symm)
  subst this
  exact ⟨done, l, expired⟩

theorem yields_importOutcome {hash : Hasher} {db db' : Db} {g : OwnedAttempt} {orphan : Orphan}
    {evidence : Evidence} {checked : Nat} {terminal : TerminalAttempt} (h : Integrity db)
    (projected : Projected db) (parsed : evidence.Parsed orphan)
    (run : Tx.Yields (importOutcome hash g orphan evidence checked) db terminal db') :
    (∃ a b, RecoveryFinished db db' g evidence.outcome evidence.finished checked a b) ∧
      (∃ evidence', Validated db g orphan checked evidence' ∧
        evidence'.outcome = evidence.outcome ∧ evidence'.references = evidence.references ∧
        evidence'.finished = evidence.finished) ∧ Projected db' := by
  simp only [importOutcome, yields_timestamp_bind] at run
  obtain ⟨-, run⟩ := run
  obtain ⟨⟨⟩, expired, run⟩ := Uses.requireExpired.readOnly_bind run
  obtain ⟨x, l, still⟩ := yields_requireExpired expired
  obtain ⟨evidence', validated, run⟩ := Uses.validateOrphan.readOnly_bind run
  have valid := yields_validateOrphan validated
  obtain ⟨t, mid, committing, run⟩ := Tx.yields_bind.mp run
  simp only [yields_commit_bind, Tx.yields_pure] at run
  obtain ⟨committed, -, rfl⟩ := run
  obtain ⟨a, b, done⟩ := yields_commitTerminalIn h projected committing
  refine ⟨⟨a, b, still.finished h done⟩, ⟨evidence', valid, ?_, ?_, ?_⟩, committed⟩
  · exact Except.ok.inj (valid.outcome.symm.trans parsed.2.1)
  · exact Except.ok.inj (valid.references.symm.trans parsed.2.2)
  · exact Except.ok.inj (valid.finish.symm.trans parsed.1)

theorem yields_documentInterrupted {hash : Hasher} {db db' : Db} {g : OwnedAttempt}
    {finished : Nat} {failure : Interrupted}
    (run : Tx.Yields (documentInterrupted hash g finished) db failure db') :
    failure.finished = finished ∧ Tx.Yields (buildOutcomeDocument g interruptedOutcome
      failure.references failure.finished) db failure.document db := by
  simp only [documentInterrupted, yields_timestamp_bind] at run
  obtain ⟨-, run⟩ := run
  obtain ⟨⟨⟩, -, run⟩ := Uses.requireExpired.readOnly_bind run
  simp only [Tx.yields_get_bind] at run
  obtain ⟨document, built, run⟩ := Uses.buildOutcomeDocument.readOnly_bind run
  simp only [yields_commit_bind, Tx.yields_pure] at run
  obtain ⟨-, rfl, -⟩ := run
  exact ⟨rfl, built⟩

theorem yields_failInterrupted {hash : Hasher} {db db' : Db} {g : OwnedAttempt}
    {failure : Interrupted} {content manifest : Digest} {checked : Nat}
    {terminal : TerminalAttempt} (h : Integrity db) (projected : Projected db)
    (run : Tx.Yields (failInterrupted hash g failure content manifest checked) db terminal db') :
    (∃ a b, RecoveryFinished db db' g interruptedOutcome failure.finished checked a b) ∧
      Projected db' := by
  simp only [failInterrupted, yields_timestamp_bind] at run
  obtain ⟨-, run⟩ := run
  obtain ⟨⟨⟩, expired, run⟩ := Uses.requireExpired.readOnly_bind run
  obtain ⟨x, l, still⟩ := yields_requireExpired expired
  obtain ⟨document, -, run⟩ := Uses.buildOutcomeDocument.readOnly_bind run
  simp only [Tx.yields_require_bind] at run
  obtain ⟨-, run⟩ := run
  obtain ⟨t, mid, committing, run⟩ := Tx.yields_bind.mp run
  simp only [yields_commit_bind, Tx.yields_pure] at run
  obtain ⟨committed, -, rfl⟩ := run
  obtain ⟨a, b, done⟩ := yields_commitTerminalIn h projected committing
  exact ⟨⟨a, b, still.finished h done⟩, committed⟩

end Metewand.RunStore
