import Metewand.Lib.Check
import Metewand.RunStore.Integrity

/-!
# What one operation can do

For each operation, what a successful run read and what it left.  The results are
stated for databases with `Integrity` that were committed (`Projected`), which is
every database a transaction can start from.
-/

namespace Metewand.RunStore

open Lib

/-- The deferred reference: each attempt row is the last edge of its history. -/
def Projected (db : Db) : Prop :=
  ∀ a ∈ db.attempts, ∃ t ∈ db.attemptTransitions, t.attemptId = a.id ∧
    t.revision = a.revision ∧ t.toState = a.state ∧ t.occurredAtNs = a.updatedAtNs

theorem yields_commit_bind {α : Type} {f : Unit → StoreTx α} {db db' : Db} {a : α} :
    Tx.Yields (commit >>= f) db a db' ↔ Projected db ∧ Tx.Yields (f ()) db a db' := by
  simp only [commit, bind_assoc, Tx.yields_get_bind, yields_constraint_bind]
  rfl

/-! ## The fence -/

/-- Why the guard passes the fence at `now`, for the attempt row `a`. -/
structure Fenced (db : Db) (g : OwnedAttempt) (now : Nat) (a : AttemptRow) : Prop where
  member : a ∈ db.attempts
  row : GuardsRow g a
  live : ReservationLive db g (max now g.updatedAtNs)
  claim : ¬ClaimLost db g (max now g.updatedAtNs)

/-- The guard's numbers fit the columns they are compared with. -/
def OwnedAttempt.Fits (g : OwnedAttempt) : Prop :=
  g.retryIndex ≤ i64Max ∧ g.revision ≤ i64Max ∧ g.updatedAtNs ≤ i64Max

theorem yields_fence {db db' : Db} {g : OwnedAttempt} {now : Nat} {state : AttemptState} :
    Tx.Yields (fence g now) db state db' → g.Fits ∧ ∃ a, Fenced db g now a ∧ a.state = state := by
  intro run
  simp only [fence, yields_timestamp_bind, Tx.yields_get_bind, Tx.yields_expect_bind,
    Tx.yields_pure] at run
  obtain ⟨retry, revision, updated, a, found, rfl, rfl⟩ := run
  have holds := List.find?_some found
  simp only [decide_eq_true_eq] at holds
  exact ⟨⟨retry, revision, updated⟩, a,
    ⟨List.mem_of_find?_eq_some found, holds.1, holds.2.1, holds.2.2⟩, rfl⟩

/-- A guard that fits and has its row and leases passes. -/
theorem fence_of_fenced {db : Db} {g : OwnedAttempt} {now : Nat} {a : AttemptRow}
    (fits : g.Fits) (fenced : Fenced db g now a) :
    ∃ state, Tx.Yields (fence g now) db state db := by
  have found : ∃ b, db.attempts.find? (fun a => decide (GuardsRow g a ∧
      ReservationLive db g (max now g.updatedAtNs) ∧
        ¬ClaimLost db g (max now g.updatedAtNs))) = some b := by
    rw [← Option.isSome_iff_exists, List.find?_isSome]
    exact ⟨a, fenced.member, by simp [fenced.row, fenced.live, fenced.claim]⟩
  obtain ⟨b, found⟩ := found
  refine ⟨b.state, ?_⟩
  simp only [fence, yields_timestamp_bind, Tx.yields_get_bind, Tx.yields_expect_bind,
    Tx.yields_pure]
  exact ⟨fits.1, fits.2.1, fits.2.2, b, found, rfl, trivial⟩

/-! ## Transitions -/

/-- The row of attempt `a` becomes `b`. -/
def AttemptRow.replace (a b x : AttemptRow) : AttemptRow := if x.id = a.id then b else x

/-- The attempt row `a` moves to `b` along one edge, which its history records. -/
structure Moved (db db' : Db) (a b : AttemptRow) : Prop where
  member : a ∈ db.attempts
  active : a.state.terminal = false
  id : b.id = a.id
  slotId : b.slotId = a.slotId
  retryIndex : b.retryIndex = a.retryIndex
  startedAtNs : b.startedAtNs = a.startedAtNs
  revision : b.revision = a.revision + 1
  bound : b.revision ≤ maxSafeInteger
  time : a.updatedAtNs ≤ b.updatedAtNs
  timeBound : b.updatedAtNs ≤ i64Max
  edge : allowedTransition a.state b.state = true
  finish : b.finishedAtNs.isSome = b.state.terminal
  claim : b.state = .accepted → ∃ c ∈ db.finalizationClaims, c.slotId = a.slotId ∧
    c.attemptId = a.id
  attempts : db'.attempts = db.attempts.map (AttemptRow.replace a b)
  transitions : ∃ sequence, db'.attemptTransitions = db.attemptTransitions ++
    [⟨a.id, b.revision, some a.revision, some a.state, b.state, b.updatedAtNs, sequence⟩]

theorem replace_of_update {db : Db} (h : Integrity db) {a : AttemptRow}
    (member : a ∈ db.attempts) {state : AttemptState} {revision updatedAtNs : Nat}
    {finishedAtNs : Option Nat} {failureCode finalArtifactId : Option String} :
    db.attempts.map (fun x => if x.id = a.id ∧ x.revision = a.revision then
      x.moved state revision updatedAtNs finishedAtNs failureCode finalArtifactId else x) =
    db.attempts.map (AttemptRow.replace a
      (a.moved state revision updatedAtNs finishedAtNs failureCode finalArtifactId)) := by
  refine List.map_congr_left fun x inside => ?_
  unfold AttemptRow.replace
  by_cases same : x.id = a.id
  · have := h.attemptIds.eq_of_key inside member same
    subst this
    simp
  · simp [same]

/-- What a transition has read and what it leaves. -/
theorem yields_transition {db db' : Db} {g g' : OwnedAttempt} {source target : AttemptState}
    {now : Nat} {details : Json} {terminal : Option TerminalProjection} (h : Integrity db)
    (projected : Projected db) (small : now ≤ i64Max)
    (run : Tx.Yields (transition g source target now details terminal) db g' db') :
    ∃ a b, Moved db db' a b ∧ a.id = g.id ∧ a.revision = g.revision ∧ a.state = source ∧
      b.state = target ∧ b.updatedAtNs = max now g.updatedAtNs ∧
      b.finishedAtNs = (terminal.map fun _ => b.updatedAtNs) ∧
      b.finalArtifactId = terminal.map TerminalProjection.artifactId ∧
      b.failureCode = terminal.bind TerminalProjection.failureCode ∧
      g' = { g with revision := b.revision, updatedAtNs := b.updatedAtNs } ∧
      SameBut [.events, .attemptTransitions, .attempts] db db' := by
  have same := Uses.transition.sameBut run
  simp only [transition, Tx.yields_require_bind, yields_timestamp_bind] at run
  obtain ⟨bound, fits, run⟩ := run
  obtain ⟨⟨⟩, mid, appended, run⟩ := Tx.yields_bind.mp run
  simp only [yields_timestamp_bind] at run
  obtain ⟨-, run⟩ := run
  obtain ⟨changed, last, updated, run⟩ := Tx.yields_bind.mp run
  simp only [Tx.yields_require_bind, Tx.yields_pure] at run
  obtain ⟨one, rfl, rfl⟩ := run
  -- the appended edge
  simp only [appendTransition, Tx.yields_require_bind, Tx.yields_check_bind] at appended
  obtain ⟨-, payload, -, appended⟩ := appended
  obtain ⟨sequence, logged, event, appended⟩ := Tx.yields_bind.mp appended
  simp only [insertEvent, Tx.yields_get_bind, yields_constraint_bind, Tx.yields_modify_bind,
    Tx.yields_pure] at event
  obtain ⟨-, rfl, rfl⟩ := event
  simp only [yields_timestamp_bind, insertTransition, Tx.yields_get_bind, yields_constraint_bind,
    Tx.yields_modify] at appended
  obtain ⟨-, shape, -, -, -, follows, -, rfl⟩ := appended
  -- the moved row
  simp only [updateAttempt, Tx.yields_get_bind, yields_constraint_bind, Tx.yields_modify_bind,
    Tx.yields_pure] at updated
  obtain ⟨advance, claim, columns, -, -, rfl, rfl⟩ := updated
  obtain ⟨a, only⟩ := List.length_eq_one_iff.mp one
  have chosen : a ∈ db.attempts ∧ a.id = g.id ∧ a.revision = g.revision := by
    have inside : a ∈ db.attempts.filter fun a => a.id = g.id ∧ a.revision = g.revision := by
      rw [only]
      exact List.mem_singleton_self a
    simpa using List.mem_filter.mp inside
  obtain ⟨member, sameId, sameRevision⟩ := chosen
  rw [only] at advance claim columns
  obtain ⟨active, next, time⟩ := advance a (List.mem_singleton_self a)
  simp only [List.cons_ne_nil, false_or] at columns
  -- the history ends at the row, so the edge starts from the row's state
  have from_ : a.state = source := by
    obtain ⟨s, inside, owner, at_, to_⟩ := follows g.revision (by simp) source rfl
    obtain ⟨t, last, owner', at', to', -⟩ := projected a member
    have equal : s = t := h.transitionKeys.eq_of_key inside last (by
      simp only [owner, at_, owner', at', sameId, sameRevision])
    rw [← to', ← equal, to_]
  have edge : allowedTransition source target = true := by
    rcases shape with ⟨zero, -⟩ | ⟨-, -, s, chosen, allowed⟩
    · exact absurd zero (Nat.succ_ne_zero _)
    · cases chosen
      exact allowed
  refine ⟨a, a.moved target (g.revision + 1) (max now g.updatedAtNs)
    (terminal.map fun _ => max now g.updatedAtNs) (terminal.bind TerminalProjection.failureCode)
    (terminal.map TerminalProjection.artifactId), ?_, sameId, sameRevision, from_, rfl, rfl, rfl,
    rfl, rfl, rfl, same⟩
  exact {
    member := member
    active := active
    id := rfl
    slotId := rfl
    retryIndex := rfl
    startedAtNs := rfl
    revision := by rw [sameRevision]; rfl
    bound := bound
    time := time
    timeBound := max_le small fits
    edge := by rw [from_]; exact edge
    finish := columns.1.symm
    claim := fun accepted => claim accepted a (List.mem_singleton_self a)
    attempts := by
      rw [← sameId, ← sameRevision]
      exact replace_of_update h member
    transitions := ⟨db.events.length + 1, by rw [sameId, sameRevision, from_]; rfl⟩ }

/-! ## Budgets -/

/-- What the budget rows of a sequence count against its limit. -/
def consumptions (db : Db) (sequence : SequenceKey) : List Int :=
  (budgetJoin db sequence).map fun row => consumption row.1 row.2

/-- The limit of a sequence and what is used of it. -/
structure Allowance (db : Db) (sequence : SequenceKey) (limit used : Nat) : Prop where
  policy : ∃ row, db.freshSequences.find? (fun s => s.key = sequence) = some row ∧
    row.policy.activeTimeNs = .ok limit
  total : ∃ total, sqlSum (consumptions db sequence) = .ok total ∧ 0 ≤ total ∧
    used = total.toNat

theorem reread_eq {policy read : ProfilePolicy} (h : policy.reread = some read) :
    read = policy := by
  unfold ProfilePolicy.reread at h
  split at h
  · cases h
    rfl
  · cases h

theorem yields_allowance {db db' : Db} {sequence : SequenceKey} {p : Nat × Nat}
    (run : Tx.Yields (allowance sequence) db p db') : Allowance db sequence p.1 p.2 := by
  simp only [allowance, yields_timestamp_bind] at run
  obtain ⟨-, run⟩ := run
  obtain ⟨policy, read, run⟩ := Uses.readOnly_bind Uses.sequencePolicy run
  simp only [sequencePolicy, Tx.yields_get_bind, Tx.yields_expect_bind, Tx.yields_expect] at read
  obtain ⟨row, found, read, -⟩ := read
  have same := reread_eq read
  subst same
  simp only [Tx.yields_expect_bind, Tx.yields_get_bind, Tx.yields_check_bind,
    yields_unsigned_bind, Tx.yields_pure] at run
  obtain ⟨limit, bound, total, sum, positive, rfl, rfl⟩ := run
  refine ⟨⟨row, found, ?_⟩, total, sum, positive, rfl⟩
  cases parsed : row.policy.activeTimeNs with
  | error e =>
      rw [parsed] at bound
      cases bound
  | ok n =>
      rw [parsed] at bound
      cases bound
      rfl

/-! ## Reservation -/

/-- Why a slot may be reserved, as far as its sequence is concerned. -/
def Reservable (db : Db) (slot : RecordId .resolvedAttemptSlot) : Prop :=
  match membership db slot with
  | none => ¬(supported db ∧ ∃ s ∈ db.attemptSlots, s.id = slot ∧ s.kind = .freshObservation)
  | some sequence => (∀ d ∈ db.freshDispositions, d.slotId ≠ slot) ∧
      ¬SequenceActive db sequence ∧ ∃ limit used, Allowance db sequence limit used ∧ used < limit

theorem yields_checkReservation {db db' : Db} {slot : RecordId .resolvedAttemptSlot} {u : Unit}
    (run : Tx.Yields (checkReservation slot) db u db') : Reservable db slot := by
  simp only [checkReservation, Tx.yields_get_bind] at run
  unfold Reservable
  cases found : membership db slot with
  | none =>
      simp only [found, Tx.yields_require] at run
      exact run.1
  | some sequence =>
      simp only [found, Tx.yields_require_bind] at run
      obtain ⟨unsettled, idle, run⟩ := run
      obtain ⟨p, read, run⟩ := Uses.allowance.readOnly_bind run
      exact ⟨unsettled, idle, p.1, p.2, yields_allowance read, (Tx.yields_require.mp run).1⟩

/-- What a reservation has read and what it leaves, for the guard `g` it returns. -/
structure Reserved (hash : Hasher) (db db' : Db) (g : OwnedAttempt) : Prop where
  identity : runAttemptId hash g.slot g.retryIndex = .ok g.id
  index : g.retryIndex = nextIndex db g.slot
  revision : g.revision = 0
  fits : g.Fits
  registered : ∃ s ∈ db.attemptSlots, s.id = g.slot
  unsatisfied : ¬satisfied db g.slot
  reservable : Reservable db g.slot
  new : ∀ a ∈ db.attempts, a.id ≠ g.id
  attempts : db'.attempts = db.attempts ++
    [⟨g.id, g.slot, g.retryIndex, .reserved, 0, g.updatedAtNs, g.updatedAtNs, none, none, none⟩]
  leases : ∃ expires, db'.leases = db.leases ++
    [⟨g.leaseId, g.ownerToken, g.id, .reservation, none, g.updatedAtNs, expires, none⟩]
  transitions : ∃ sequence, db'.attemptTransitions = db.attemptTransitions ++
    [⟨g.id, 0, none, none, .reserved, g.updatedAtNs, sequence⟩]
  same : SameBut [.attempts, .leases, .events, .attemptTransitions] db db'

theorem yields_reserve {hash : Hasher} {db db' : Db} {slot : RecordId .resolvedAttemptSlot}
    {authorization : RetryAuthorization} {lease : LeaseRequest} {now : Nat} {g : OwnedAttempt}
    (run : Tx.Yields (reserve hash slot authorization lease now) db g db') :
    g.slot = slot ∧ Reserved hash db db' g ∧ Projected db' := by
  have same := Uses.reserve.sameBut run
  simp only [reserve, yields_timestamp_bind] at run
  obtain ⟨fits, run⟩ := run
  obtain ⟨⟨⟩, -, run⟩ := Uses.validateLease.readOnly_bind run
  simp only [Tx.yields_get_bind, Tx.yields_require_bind] at run
  obtain ⟨registered, unsatisfied, run⟩ := run
  obtain ⟨⟨⟩, checked, run⟩ := Uses.checkReservation.readOnly_bind run
  simp only [Tx.yields_require_bind] at run
  obtain ⟨small, run⟩ := run
  obtain ⟨⟨⟩, -, run⟩ := Uses.authorize.readOnly_bind run
  simp only [Tx.yields_check_bind] at run
  obtain ⟨id, identity, run⟩ := run
  obtain ⟨⟨⟩, first, inserted, run⟩ := Tx.yields_bind.mp run
  obtain ⟨⟨⟩, second, leased, run⟩ := Tx.yields_bind.mp run
  obtain ⟨⟨⟩, third, appended, run⟩ := Tx.yields_bind.mp run
  simp only [yields_commit_bind, Tx.yields_pure] at run
  obtain ⟨projected, rfl, rfl⟩ := run
  simp only [insertAttempt, Tx.yields_get_bind, yields_constraint_bind, Tx.yields_modify]
    at inserted
  obtain ⟨-, new, -, -, -, rfl⟩ := inserted
  simp only [insertLease, yields_timestamp_bind, insertLeaseRow, Tx.yields_get_bind,
    yields_constraint_bind, Tx.yields_modify] at leased
  obtain ⟨-, -, -, -, -, -, -, -, -, rfl⟩ := leased
  simp only [appendTransition, Tx.yields_require_bind, Tx.yields_check_bind] at appended
  obtain ⟨-, payload, -, appended⟩ := appended
  obtain ⟨sequence, logged, event, appended⟩ := Tx.yields_bind.mp appended
  simp only [insertEvent, Tx.yields_get_bind, yields_constraint_bind, Tx.yields_modify_bind,
    Tx.yields_pure] at event
  obtain ⟨-, rfl, rfl⟩ := event
  simp only [yields_timestamp_bind, insertTransition, Tx.yields_get_bind, yields_constraint_bind,
    Tx.yields_modify] at appended
  obtain ⟨-, -, -, -, -, -, -, rfl⟩ := appended
  refine ⟨rfl, ?_, projected⟩
  exact {
    identity := by
      unfold identityResult at identity
      split at identity
      · rename_i value found
        cases identity
        exact found
      · cases identity
    index := rfl
    revision := rfl
    fits := ⟨small, Nat.zero_le _, fits⟩
    registered := registered
    unsatisfied := unsatisfied
    reservable := yields_checkReservation checked
    new := new
    attempts := rfl
    leases := ⟨lease.expiresAtNs, rfl⟩
    transitions := ⟨_, rfl⟩
    same := same }

/-! ## Advancing -/

/-- The guard after its attempt has moved to `b`. -/
def OwnedAttempt.after (g : OwnedAttempt) (b : AttemptRow) : OwnedAttempt :=
  { g with revision := b.revision, updatedAtNs := b.updatedAtNs }

/-- A move that leaves the attempt active and every other table alone. -/
structure Advanced (db db' : Db) (a b : AttemptRow) : Prop extends Moved db db' a b where
  active' : b.state.terminal = false
  same : SameBut [.events, .attemptTransitions, .attempts] db db'

theorem AttemptPhase.active (phase : AttemptPhase) : phase.state.terminal = false := by
  cases phase <;> rfl

theorem Fenced.unique {db : Db} (h : Integrity db) {g : OwnedAttempt} {now : Nat}
    {a b : AttemptRow} (fenced : Fenced db g now a) (member : b ∈ db.attempts)
    (same : b.id = g.id) : b = a :=
  h.attemptIds.eq_of_key member fenced.member (same.trans fenced.row.1.symm)

theorem yields_advance {db db' : Db} {g g' : OwnedAttempt} {phase : AttemptPhase} {now : Nat}
    (h : Integrity db) (projected : Projected db)
    (run : Tx.Yields (advance g phase now) db g' db') :
    ∃ a b, Fenced db g now a ∧ Advanced db db' a b ∧ g' = g.after b ∧ Projected db' := by
  simp only [advance, yields_timestamp_bind] at run
  obtain ⟨small, run⟩ := run
  obtain ⟨state, passed, run⟩ := Uses.fence.readOnly_bind run
  obtain ⟨-, a, fenced, -⟩ := yields_fence passed
  obtain ⟨moved, mid, moving, run⟩ := Tx.yields_bind.mp run
  obtain ⟨x, b, edge, sameId, -, -, target, -, -, -, -, rfl, same⟩ :=
    yields_transition h projected small moving
  simp only [yields_commit_bind, Tx.yields_pure] at run
  obtain ⟨committed, rfl, rfl⟩ := run
  have := fenced.unique h edge.member sameId
  subst this
  exact ⟨x, b, fenced, ⟨edge, by rw [target]; exact phase.active, same⟩, rfl, committed⟩

/-! ## Claims -/

/-- A move to finalizing that wins the slot's claim. -/
structure Claimed (db db' : Db) (a b : AttemptRow) : Prop extends Moved db db' a b where
  finalizing : b.state = .finalizing
  open_ : ∀ c ∈ db.finalizationClaims, c.slotId ≠ a.slotId
  unsatisfied : ¬satisfied db a.slotId
  /-- The new lease has the owner of the attempt's live reservation. -/
  leases : ∃ lease r, r ∈ db.leases ∧ r.attemptId = a.id ∧ r.purpose = .reservation ∧
    r.releasedAtNs = none ∧ lease.ownerToken = r.ownerToken ∧ lease.attemptId = a.id ∧
    lease.purpose = .finalization ∧ lease.releasedAtNs = none ∧
    db'.leases = db.leases ++ [lease] ∧
    db'.finalizationClaims = db.finalizationClaims ++ [⟨a.slotId, a.id, lease.id⟩]
  /-- The new lease dates from the move. -/
  dated : ∀ l ∈ db'.leases, l ∈ db.leases ∨ l.acquiredAtNs = b.updatedAtNs
  same : SameBut [.events, .attemptTransitions, .attempts, .leases, .finalizationClaims] db db'

theorem yields_beginFinalization {db db' : Db} {g : OwnedAttempt} {lease : LeaseRequest}
    {now : Nat} {f : Finalization} (h : Integrity db) (projected : Projected db)
    (run : Tx.Yields (beginFinalization g lease now) db f db') :
    ∃ a b, Fenced db g now a ∧ f.attempt = g.after b ∧ Projected db' ∧
      ((f.disposition = .superseded ∧ Advanced db db' a b) ∨
        (f.disposition = .claimed ∧ Claimed db db' a b)) := by
  have whole := Uses.beginFinalization.sameBut run
  simp only [beginFinalization, yields_timestamp_bind] at run
  obtain ⟨small, fits, run⟩ := run
  obtain ⟨⟨⟩, -, run⟩ := Uses.validateLease.readOnly_bind run
  simp only [Tx.yields_require_bind] at run
  obtain ⟨owner, run⟩ := run
  obtain ⟨state, passed, run⟩ := Uses.fence.readOnly_bind run
  obtain ⟨-, a, fenced, -⟩ := yields_fence passed
  have clamp : max (max now g.updatedAtNs) g.updatedAtNs = max now g.updatedAtNs := by omega
  have fenced' : Fenced db g now a := by
    refine ⟨fenced.member, fenced.row, ?_, ?_⟩
    · exact clamp ▸ fenced.live
    · exact clamp ▸ fenced.claim
  have bound : max now g.updatedAtNs ≤ i64Max := max_le small fits
  simp only [Tx.yields_get_bind, Tx.yields_ite] at run
  rcases run with ⟨lost, run⟩ | ⟨won, run⟩
  · obtain ⟨moved, mid, moving, run⟩ := Tx.yields_bind.mp run
    obtain ⟨x, b, edge, sameId, -, -, target, -, -, -, -, rfl, same⟩ :=
      yields_transition h projected bound moving
    simp only [yields_commit_bind, Tx.yields_pure] at run
    obtain ⟨committed, rfl, rfl⟩ := run
    have := fenced.unique h edge.member sameId
    subst this
    exact ⟨x, b, fenced', rfl, committed, .inl ⟨rfl, edge, by rw [target]; rfl, same⟩⟩
  · obtain ⟨moved, mid, moving, run⟩ := Tx.yields_bind.mp run
    obtain ⟨x, b, edge, sameId, -, -, target, time, -, -, -, rfl, same⟩ :=
      yields_transition h projected bound moving
    obtain ⟨⟨⟩, second, leased, run⟩ := Tx.yields_bind.mp run
    obtain ⟨⟨⟩, third, claimed, run⟩ := Tx.yields_bind.mp run
    simp only [yields_commit_bind, Tx.yields_pure] at run
    obtain ⟨committed, rfl, rfl⟩ := run
    simp only [insertLease, yields_timestamp_bind, insertLeaseRow, Tx.yields_get_bind,
      yields_constraint_bind, Tx.yields_modify] at leased
    obtain ⟨-, -, -, -, -, -, -, -, -, rfl⟩ := leased
    simp only [insertClaim, Tx.yields_get_bind, yields_constraint_bind, Tx.yields_modify]
      at claimed
    obtain ⟨-, -, -, -, rfl⟩ := claimed
    have := fenced.unique h edge.member sameId
    subst this
    have slot : x.slotId = g.slot := fenced.row.2.1
    obtain ⟨r, inside, attempt, -, token, purpose, held, -⟩ := fenced.live
    refine ⟨x, b, fenced', rfl, committed, .inr ⟨rfl, ?_⟩⟩
    have leasesSame : mid.leases = db.leases := same.2 .leases (by decide)
    have claimsSame : mid.finalizationClaims = db.finalizationClaims :=
      same.2 .finalizationClaims (by decide)
    exact {
      toMoved := { edge with
        attempts := edge.attempts
        transitions := edge.transitions }
      finalizing := target
      open_ := fun c member same => won (.inl ⟨c, member, same.trans slot⟩)
      unsatisfied := fun sat => won (.inr (slot ▸ sat))
      leases := by
        refine ⟨⟨lease.id, lease.ownerToken, g.id, .finalization, none, max now g.updatedAtNs,
          lease.expiresAtNs, none⟩, r, inside, attempt.trans sameId.symm, purpose, held, ?_,
          sameId.symm, rfl, rfl, ?_, ?_⟩
        · exact owner.trans token.symm
        · change mid.leases ++ _ = _
          rw [leasesSame]
        · change mid.finalizationClaims ++ _ = _
          rw [claimsSame, slot, sameId]
      dated := by
        intro l member
        rcases List.mem_append.mp member with old | new
        · exact .inl (leasesSame ▸ old)
        · rw [List.mem_singleton.mp new, time, clamp]
          exact .inr rfl
      same := whole }

/-! ## Leases -/

/-- A lease that may be extended; only a stage's lease may be released. -/
structure LeaseRow.Kept (l m : LeaseRow) : Prop extends LeaseRow.Later l m where
  held : l.purpose ≠ .staging → m.releasedAtNs = l.releasedAtNs

theorem LeaseRow.Kept.rfl (l : LeaseRow) : l.Kept l := ⟨.rfl l, fun _ => Eq.refl _⟩

theorem LeaseRow.Kept.trans {l m n : LeaseRow} (first : l.Kept m) (second : m.Kept n) :
    l.Kept n := by
  refine ⟨first.toLater.trans second.toLater, fun other => ?_⟩
  rw [second.held (by rw [first.purpose]; exact other), first.held other]

/-- Leases are extended, staged or released; nothing else but artifacts changes. -/
structure Leased (db db' : Db) : Prop where
  leases : ∃ kept new, db'.leases = kept ++ new ∧ List.Forall₂ LeaseRow.Kept db.leases kept ∧
    ∀ l ∈ new, l.purpose = .staging
  same : SameBut [.leases, .artifacts, .leasedArtifacts] db db'

theorem forall₂_kept_map {rows : List LeaseRow} {f : LeaseRow → LeaseRow}
    (kept : ∀ l ∈ rows, l.Kept (f l)) : List.Forall₂ LeaseRow.Kept rows (rows.map f) := by
  rw [List.forall₂_map_right_iff]
  exact List.forall₂_same.mpr kept

theorem LeaseRow.extend_kept {p : LeaseRow → Prop} [DecidablePred p] {expires : Nat}
    {l : LeaseRow} (later : p l → l.releasedAtNs = none → l.expiresAtNs ≤ expires) :
    l.Kept (LeaseRow.extend p expires l) := by
  refine ⟨LeaseRow.extend_later later, fun _ => ?_⟩
  unfold LeaseRow.extend
  split <;> rfl

theorem LeaseRow.release_kept {p : LeaseRow → Prop} [DecidablePred p] {released : LeaseRow → Nat}
    {l : LeaseRow} (staging : p l → l.purpose = .staging) :
    l.Kept (LeaseRow.release p released l) := by
  refine ⟨LeaseRow.release_later p released l, fun other => ?_⟩
  unfold LeaseRow.release
  split
  · rename_i chosen
    exact absurd (staging chosen.1) other
  · rfl

theorem yields_extendLeases {p : LeaseRow → Prop} [DecidablePred p] {expires changed : Nat}
    {db db' : Db} (run : Tx.Yields (extendLeases p expires) db changed db') :
    (∀ l ∈ db.leases, p l → l.releasedAtNs = none → l.expiresAtNs ≤ expires) ∧
      db' = { db with leases := db.leases.map (LeaseRow.extend p expires) } := by
  simp only [extendLeases, Tx.yields_get_bind, yields_constraint_bind, Tx.yields_modify_bind,
    Tx.yields_pure, List.mem_filter, decide_eq_true_eq] at run
  obtain ⟨later, -, -, rfl⟩ := run
  exact ⟨fun l member chosen held => later l ⟨member, chosen, held⟩, rfl⟩

theorem yields_releaseLeases {p : LeaseRow → Prop} [DecidablePred p] {released : LeaseRow → Nat}
    {db db' : Db} {u : Unit} (run : Tx.Yields (releaseLeases p released) db u db') :
    db' = { db with leases := db.leases.map (LeaseRow.release p released) } := by
  simp only [releaseLeases, Tx.yields_get_bind, yields_constraint_bind, Tx.yields_modify] at run
  exact run.2

theorem yields_renew {db db' : Db} {g : OwnedAttempt} {expires now : Nat} {u : Unit}
    (run : Tx.Yields (renew g expires now) db u db') :
    (∃ a, Fenced db g now a) ∧ Leased db db' ∧ Projected db' := by
  have same := Uses.renew.sameBut run
  simp only [renew, yields_timestamp_bind, Tx.yields_require_bind] at run
  obtain ⟨-, -, -, run⟩ := run
  obtain ⟨state, passed, run⟩ := Uses.fence.readOnly_bind run
  obtain ⟨-, a, fenced, -⟩ := yields_fence passed
  simp only [yields_timestamp_bind, Tx.yields_get_bind] at run
  obtain ⟨-, run⟩ := run
  obtain ⟨⟨⟩, mid, extended, run⟩ := Tx.yields_bind.mp run
  obtain ⟨projected, rfl⟩ := yields_commit.mp run
  have kept : List.Forall₂ LeaseRow.Kept db.leases db'.leases := by
    refine Tx.each_induction (motive := fun _ s s' => List.Forall₂ LeaseRow.Kept s.leases s'.leases)
      (fun s => List.forall₂_same.mpr fun l _ => .rfl l) ?_ extended
    intro lease rest s t s' head tail
    refine Extends.forall₂_compose @LeaseRow.Kept.trans ?_ tail
    simp only [renewLease, Tx.yields_require_bind] at head
    obtain ⟨count, last, extension, count_⟩ := Tx.yields_bind.mp head.2
    obtain ⟨later, rfl⟩ := yields_extendLeases extension
    obtain ⟨-, rfl⟩ := Tx.yields_require.mp count_
    exact forall₂_kept_map fun l member => LeaseRow.extend_kept (later l member)
  exact ⟨⟨a, fenced⟩, ⟨⟨db'.leases, [], (List.append_nil _).symm, kept,
    fun _ member => absurd member List.not_mem_nil⟩, same.mono (by decide)⟩, projected⟩

/-- The lease id names a stage. -/
def StagingLease (db : Db) (id : String) : Prop :=
  ∃ l ∈ db.leases, l.id = id ∧ l.purpose = .staging

theorem StagingLease.purpose {db : Db} (h : Integrity db) {id : String}
    (staging : StagingLease db id) : ∀ l ∈ db.leases, l.id = id → l.purpose = .staging := by
  intro l member same
  obtain ⟨s, inside, named, purpose⟩ := staging
  rw [h.leaseIds.eq_of_key member inside (same.trans named.symm)]
  exact purpose

/-- Releasing a stage's lease is a lease change. -/
theorem Leased.of_release {db db' mid : Db} (h : Integrity db) {id : String}
    {released : LeaseRow → Nat} (staging : StagingLease db id)
    (before : mid.leases = db.leases)
    (after : db'.leases = mid.leases.map (LeaseRow.release (fun l => l.id = id) released))
    (same : SameBut [.leases, .artifacts, .leasedArtifacts] db db') : Leased db db' := by
  refine ⟨⟨db'.leases, [], (List.append_nil _).symm, ?_, fun _ member => nomatch member⟩, same⟩
  rw [after, before]
  exact forall₂_kept_map fun l member => LeaseRow.release_kept (staging.purpose h l member)

/-- Each reservation row a stage is leased from gives one staging lease. -/
theorem yields_stageLeases {relative : String} {acquired : Nat} {rows : List LeaseRow}
    {db db' : Db} {u : Unit} (run : Tx.Yields (Tx.each (fun l : LeaseRow =>
      insertLeaseRow ⟨"staging:" ++ relative, l.ownerToken, l.attemptId, .staging, some relative,
        acquired, l.expiresAtNs, none⟩) rows) db u db') :
    ∃ new, db'.leases = db.leases ++ new ∧ new.length = rows.length ∧
      ∀ l ∈ new, l.id = "staging:" ++ relative ∧ l.purpose = .staging ∧
        l.acquiredAtNs = acquired := by
  refine Tx.each_induction (motive := fun rows s s' => ∃ new, s'.leases = s.leases ++ new ∧
    new.length = rows.length ∧ ∀ l ∈ new, l.id = "staging:" ++ relative ∧ l.purpose = .staging ∧
      l.acquiredAtNs = acquired) (fun s => ⟨[], by simp⟩) ?_ run
  rintro source rest s t s' head ⟨new, appended, count, named⟩
  simp only [insertLeaseRow, Tx.yields_get_bind, yields_constraint_bind, Tx.yields_modify]
    at head
  obtain ⟨-, -, -, -, -, -, -, -, rfl⟩ := head
  refine ⟨_ :: new, by rw [appended, List.append_assoc]; rfl, by simp [count], ?_⟩
  intro l member
  rcases List.mem_cons.mp member with rfl | later
  · exact ⟨rfl, rfl, rfl⟩
  · exact named l later

/-- The stage's lease row says when the stage was acquired. -/
def StageDated (db : Db) (stage : Stage) : Prop :=
  ∃ l ∈ db.leases, l.id = stage.leaseId ∧ l.purpose = .staging ∧
    l.acquiredAtNs = stage.acquiredAtNs

theorem yields_stage {db db' : Db} {g : OwnedAttempt} {relative : String} {now : Nat}
    {taken : Stage} (run : Tx.Yields (stage g relative now) db taken db') :
    (∃ a, Fenced db g now a) ∧ Leased db db' ∧ Projected db' ∧ StageDated db' taken := by
  have same := Uses.stage.sameBut run
  simp only [stage, yields_timestamp_bind] at run
  obtain ⟨-, -, run⟩ := run
  obtain ⟨state, passed, run⟩ := Uses.fence.readOnly_bind run
  obtain ⟨-, a, fenced, -⟩ := yields_fence passed
  have clamp : max (max now g.updatedAtNs) g.updatedAtNs = max now g.updatedAtNs := by omega
  have live := fenced.live
  rw [clamp] at live
  simp only [Tx.yields_get_bind] at run
  obtain ⟨⟨⟩, mid, staged, run⟩ := Tx.yields_bind.mp run
  simp only [yields_commit_bind, Tx.yields_pure] at run
  obtain ⟨projected, rfl, rfl⟩ := run
  obtain ⟨new, appended, count, named⟩ := yields_stageLeases staged
  refine ⟨⟨a, ⟨fenced.member, fenced.row, live, ?_⟩⟩, ⟨⟨db.leases, new, appended,
    List.forall₂_same.mpr fun l _ => .rfl l, fun l member => (named l member).2.1⟩,
    same.mono (by decide)⟩, projected, ?_⟩
  · have unlost := fenced.claim
    rwa [clamp] at unlost
  · -- the fence found the reservation lease, so at least one stage row was inserted
    obtain ⟨r, inside, -, sameId, -⟩ := fenced.live
    have some_ : r ∈ db.leases.filter fun l => l.id = g.leaseId :=
      List.mem_filter.mpr ⟨inside, by simp [sameId]⟩
    have positive : 0 < new.length := by
      rw [count]
      exact List.length_pos_of_mem some_
    obtain ⟨l, member⟩ := List.exists_mem_of_length_pos positive
    exact ⟨l, by rw [appended]; exact List.mem_append_right _ member, named l member⟩

theorem yields_checkStage {db db' : Db} {g : OwnedAttempt} {stage : Stage} {now : Nat} {u : Unit}
    (run : Tx.Yields (checkStage g stage now) db u db') :
    (∃ a, Fenced db g now a) ∧ StageLive db g stage now := by
  simp only [checkStage, yields_timestamp_bind] at run
  obtain ⟨-, run⟩ := run
  obtain ⟨state, passed, run⟩ := Uses.fence.readOnly_bind run
  obtain ⟨-, a, fenced, -⟩ := yields_fence passed
  simp only [Tx.yields_get_bind, Tx.yields_require] at run
  exact ⟨⟨a, fenced⟩, run.1⟩

theorem yields_publishArtifact {db db' : Db} {g : OwnedAttempt} {kind : ArtifactKind}
    {stage : Stage} {content manifest : Digest} {clock : Nat} {artifact : ArtifactRegistration}
    (h : Integrity db)
    (run : Tx.Yields (publishArtifact g kind stage content manifest clock) db artifact db') :
    (∃ a, Fenced db g (max clock stage.acquiredAtNs) a) ∧ Leased db db' ∧ Projected db' := by
  have same := Uses.publishArtifact.sameBut run
  simp only [publishArtifact] at run
  obtain ⟨⟨⟩, checked, run⟩ := Uses.checkStage.readOnly_bind run
  obtain ⟨fenced, l, inside, named, -, -, purpose, -⟩ := yields_checkStage checked
  obtain ⟨⟨⟩, first, registered, run⟩ := Tx.yields_bind.mp run
  obtain ⟨⟨⟩, second, leased, run⟩ := Tx.yields_bind.mp run
  obtain ⟨⟨⟩, third, released, run⟩ := Tx.yields_bind.mp run
  simp only [yields_commit_bind, Tx.yields_pure] at run
  obtain ⟨projected, rfl, rfl⟩ := run
  simp only [releaseStage, yields_timestamp_bind] at released
  have after := yields_releaseLeases released.2
  have linked : Table.Same first second .leases :=
    (Uses.statement (.insertLeasedArtifact _) (List.mem_singleton_self _)).sameBut leased |>.2
      .leases (by decide)
  have before : second.leases = db.leases :=
    ((Uses.registerArtifact.sameBut registered).2 .leases (by decide)).trans linked
  refine ⟨fenced, ?_, projected⟩
  exact Leased.of_release h ⟨l, inside, named, purpose⟩ before (by rw [after])
    (same.mono (by decide))

theorem yields_settleStage {db db' : Db} {stage : RecoveredStage} {checked : Nat} {done : Bool}
    (h : Integrity db) (projected : Projected db)
    (staging : ∀ id ∈ stage.leaseId, StagingLease db id)
    (run : Tx.Yields (settleStage stage checked) db done db') :
    Leased db db' ∧ Projected db' := by
  have same := Uses.settleStage.sameBut run
  have idle : Leased db db :=
    ⟨⟨db.leases, [], (List.append_nil _).symm, List.forall₂_same.mpr fun l _ => .rfl l,
      fun _ member => nomatch member⟩, rfl, fun t _ => .rfl t⟩
  simp only [settleStage, yields_timestamp_bind] at run
  obtain ⟨-, run⟩ := run
  cases named : stage.leaseId with
  | none =>
      simp only [named, yields_commit_bind, Tx.yields_pure] at run
      obtain ⟨-, -, rfl⟩ := run
      exact ⟨idle, projected⟩
  | some id =>
      simp only [named, Tx.yields_get_bind, Tx.yields_expect_bind, Tx.yields_ite,
        Tx.yields_pure] at run
      obtain ⟨lease, -, ⟨-, run⟩ | ⟨-, -, rfl⟩⟩ := run
      · obtain ⟨⟨⟩, mid, released, run⟩ := Tx.yields_bind.mp run
        simp only [yields_commit_bind, Tx.yields_pure] at run
        obtain ⟨committed, -, rfl⟩ := run
        have after := yields_releaseLeases released
        exact ⟨Leased.of_release h (staging id named) rfl (by rw [after])
          (same.mono (by decide)), committed⟩
      · exact ⟨idle, projected⟩

/-! ## Observations -/

/-- What inserting a selection leaves: the first selection of a slot stays. -/
def addSelection (rows : List SelectionRow) (row : SelectionRow) : List SelectionRow :=
  if ∃ s ∈ rows, s.slotId = row.slotId then rows else rows ++ [row]

theorem yields_insertSelection {db db' : Db} {row : SelectionRow} {u : Unit}
    (run : Tx.Yields (insertSelection row) db u db') :
    db'.selectedObservations = addSelection db.selectedObservations row := by
  simp only [insertSelection, Tx.yields_get_bind, Tx.yields_ite, Tx.yields_pure,
    yields_constraint_bind, Tx.yields_modify] at run
  unfold addSelection
  rcases run with ⟨taken, -, rfl⟩ | ⟨free, -, -, rfl⟩
  · rw [if_pos taken]
  · rw [if_neg free]

/-- An active attempt registers observation `o`; with `select` it also selects it. -/
structure Observed (db db' : Db) (a : AttemptRow) (o : ObservationRow) (select : Bool)
    (now : Nat) : Prop where
  member : a ∈ db.attempts
  active : a.finishedAtNs = none
  producer : o.producingAttemptId = a.id
  attemptSlot : o.attemptSlotId = a.slotId
  valid : o.valid = true
  new : ∀ x ∈ db.observations, x.id ≠ o.id
  observations : db'.observations = db.observations ++ [o]
  selections : db'.selectedObservations =
    if select = true then addSelection db.selectedObservations ⟨o.slotId, o.id, now⟩
    else db.selectedObservations
  claim : select = true → ∃ c ∈ db.finalizationClaims, c.slotId = a.slotId ∧ c.attemptId = a.id
  same : SameBut [.observations, .selectedObservations, .events] db db'

theorem identityResult_ok {α : Type} {x : Except Json.CanonicalValueViolation α} {a : α}
    (h : identityResult x = .ok a) : x = .ok a := by
  cases x with
  | error e => cases h
  | ok b => exact congrArg Except.ok (Except.ok.inj h)

theorem yields_matchesIdentity {hash : Hasher} {db db' : Db} {T : Type} {kind : IdentityKind} [IdentityRecord T kind]
    {identified : IdentifiedRecord T kind} {found : Bool}
    (run : Tx.Yields (matchesIdentity hash identified) db found db') (same : found = true) :
    recordId hash identified.record = .ok identified.id := by
  simp only [matchesIdentity, Tx.yields_check_bind, Tx.yields_pure] at run
  obtain ⟨id, computed, rfl, -⟩ := run
  exact of_decide_eq_true same ▸ identityResult_ok computed

/-- The row a store keeps of an observation. -/
structure ObservationRow.Records (hash : Hasher)
    (observation : IdentifiedRecord RunObservationRecord .observation) (o : ObservationRow) : Prop where
  identity : recordId hash observation.record = .ok observation.id
  id : o.id = observation.id
  slotId : o.slotId = observation.record.slot
  producer : o.producingAttemptId = observation.record.producingAttempt
  valid : o.valid = true
  completion : o.completion = observation.record.completion
  document : observationDocument hash observation.record = .ok o.recordJson

theorem yields_registerObservation {hash : Hasher} {db db' : Db} {g : OwnedAttempt}
    {observation : IdentifiedRecord RunObservationRecord .observation}
    {artifact : ArtifactRegistration} {select : Bool} {now : Nat} {u : Unit}
    (run : Tx.Yields (registerObservation hash g observation artifact select now) db u db') :
    ∃ a o, Fenced db g now a ∧ o.Records hash observation ∧ Observed db db' a o select now ∧
      Projected db' := by
  have whole := Uses.registerObservation.sameBut run
  simp only [registerObservation] at run
  obtain ⟨matching, matched, run⟩ := Uses.matchesIdentity.readOnly_bind run
  have identity := yields_matchesIdentity matched
  simp only [Tx.yields_require_bind, Tx.yields_expect_bind, yields_timestamp_bind] at run
  obtain ⟨same, owner, document, rendered, -, run⟩ := run
  obtain ⟨state, passed, run⟩ := Uses.fence.readOnly_bind run
  obtain ⟨-, a, fenced, -⟩ := yields_fence passed
  obtain ⟨⟨⟩, first, inserted, run⟩ := Tx.yields_bind.mp run
  obtain ⟨⟨⟩, second, selected, run⟩ := Tx.yields_bind.mp run
  obtain ⟨⟨⟩, third, noted, run⟩ := Tx.yields_bind.mp run
  obtain ⟨projected, rfl⟩ := yields_commit.mp run
  have notedSame := Uses.recordProfile.sameBut noted
  have selectedSame := Uses.selectObservation.sameBut selected
  simp only [insertObservation, Tx.yields_get_bind, yields_constraint_bind, Tx.yields_modify]
    at inserted
  obtain ⟨new, -, -, -, -, rfl⟩ := inserted
  refine ⟨a, ⟨observation.id, observation.record.slot, g.id, g.slot, true,
    observation.record.completion, artifact.id, document⟩, fenced,
    ⟨identity same, rfl, rfl, owner.symm, rfl, rfl, Check.toOption_eq_some.mp rendered⟩, ?_, projected⟩
  have observations : db'.observations = second.observations :=
    notedSame.2 .observations (by decide)
  have observations' : second.observations = db.observations ++ _ :=
    selectedSame.2 .observations (by decide)
  have selections : db'.selectedObservations = second.selectedObservations :=
    notedSame.2 .selectedObservations (by decide)
  have read : second.selectedObservations = (if select = true then
      addSelection db.selectedObservations ⟨observation.record.slot, observation.id, now⟩
      else db.selectedObservations) ∧
      (select = true → ∃ c ∈ db.finalizationClaims, c.slotId = g.slot ∧ c.attemptId = g.id) := by
    simp only [selectObservation, Tx.yields_ite, Tx.yields_get_bind, Tx.yields_require_bind,
      Tx.yields_pure] at selected
    rcases selected with ⟨chosen, held, ran⟩ | ⟨skipped, -, rfl⟩
    · have added := yields_insertSelection ran
      rw [if_pos chosen]
      refine ⟨added, fun _ => ?_⟩
      obtain ⟨c, found, holder⟩ := Option.map_eq_some_iff.mp held
      exact ⟨c, List.mem_of_find?_eq_some found, by simpa using List.find?_some found, holder⟩
    · rw [if_neg skipped]
      exact ⟨rfl, fun chosen => absurd chosen skipped⟩
  exact {
    member := fenced.member
    active := fenced.row.2.2.2.2
    producer := fenced.row.1.symm
    attemptSlot := fenced.row.2.1.symm
    valid := rfl
    new := new
    observations := observations.trans observations'
    selections := selections.trans read.1
    claim := by
      rw [fenced.row.1, fenced.row.2.1]
      exact read.2
    same := whole }

/-! ## Active time -/

/-- An active attempt of a sequence reserves part of the remaining time. -/
structure Budgeted (db db' : Db) (a : AttemptRow) (sequence : SequenceKey)
    (limit used reserved : Nat) : Prop where
  member : a ∈ db.attempts
  active : a.finishedAtNs = none
  membership : membership db a.slotId = some sequence
  allowance : Allowance db sequence limit used
  positive : 0 < reserved
  within : reserved ≤ limit - used
  new : ∀ b ∈ db.freshBudget, b.attemptId ≠ a.id
  budget : db'.freshBudget = db.freshBudget ++ [⟨a.id, reserved, none⟩]
  same : SameBut [.freshBudget] db db'

theorem yields_reserveFreshTime {db db' : Db} {g : OwnedAttempt} {pointLimit : Option Nat}
    {now : Nat} {r : Option Nat} (projected : Projected db)
    (run : Tx.Yields (reserveFreshTime g pointLimit now) db r db') :
    ∃ a, Fenced db g now a ∧ Projected db' ∧
      (db' = db ∨ ∃ sequence limit used reserved, r = some reserved ∧
        Budgeted db db' a sequence limit used reserved) := by
  have whole := Uses.reserveFreshTime.sameBut run
  simp only [reserveFreshTime, yields_timestamp_bind] at run
  obtain ⟨-, run⟩ := run
  obtain ⟨state, passed, run⟩ := Uses.fence.readOnly_bind run
  obtain ⟨-, a, fenced, -⟩ := yields_fence passed
  refine ⟨a, fenced, ?_⟩
  simp only [Tx.yields_get_bind] at run
  cases found : membership db g.slot with
  | none =>
      simp only [found, Tx.yields_pure] at run
      obtain ⟨-, rfl⟩ := run
      exact ⟨projected, .inl rfl⟩
  | some sequence =>
      simp only [found] at run
      obtain ⟨p, read, run⟩ := Uses.allowance.readOnly_bind run
      simp only [Tx.yields_require_bind, yields_timestamp_bind] at run
      obtain ⟨positive, -, run⟩ := run
      obtain ⟨⟨⟩, mid, inserted, run⟩ := Tx.yields_bind.mp run
      simp only [yields_commit_bind, Tx.yields_pure] at run
      obtain ⟨committed, rfl, rfl⟩ := run
      simp only [insertBudget, Tx.yields_get_bind, yields_constraint_bind, Tx.yields_modify]
        at inserted
      obtain ⟨new, -, -, -, rfl⟩ := inserted
      refine ⟨committed, .inr ⟨sequence, p.1, p.2, _, rfl, ?_⟩⟩
      exact {
        member := fenced.member
        active := fenced.row.2.2.2.2
        membership := by rw [fenced.row.2.1]; exact found
        allowance := yields_allowance read
        positive := Nat.pos_of_ne_zero positive
        within := min_le_left _ _
        new := by rw [fenced.row.1]; exact new
        budget := by rw [fenced.row.1]
        same := whole }

/-- An active attempt records what it measured. -/
structure Charged (db db' : Db) (a : AttemptRow) (measured : Nat) : Prop where
  member : a ∈ db.attempts
  active : a.finishedAtNs = none
  once : ∀ b ∈ db.freshBudget, b.attemptId = a.id → b.chargedNs = none
  budget : db'.freshBudget = db.freshBudget.map (BudgetRow.charge a.id measured)
  same : SameBut [.freshBudget] db db'

theorem yields_recordFreshTime {db db' : Db} {g : OwnedAttempt} {measured now : Nat} {u : Unit}
    (run : Tx.Yields (recordFreshTime g measured now) db u db') :
    ∃ a, Fenced db g now a ∧ Charged db db' a measured ∧ Projected db' := by
  have whole := Uses.recordFreshTime.sameBut run
  simp only [recordFreshTime, yields_timestamp_bind] at run
  obtain ⟨-, run⟩ := run
  obtain ⟨state, passed, run⟩ := Uses.fence.readOnly_bind run
  obtain ⟨-, a, fenced, -⟩ := yields_fence passed
  simp only [yields_timestamp_bind] at run
  obtain ⟨-, run⟩ := run
  obtain ⟨⟨⟩, mid, charged, run⟩ := Tx.yields_bind.mp run
  obtain ⟨projected, rfl⟩ := yields_commit.mp run
  simp only [chargeBudget, Tx.yields_get_bind, yields_constraint_bind, Tx.yields_modify]
    at charged
  obtain ⟨once, -, rfl⟩ := charged
  refine ⟨a, fenced, ⟨fenced.member, fenced.row.2.2.2.2, ?_, ?_, whole⟩, projected⟩
  · rw [fenced.row.1]
    exact once
  · rw [fenced.row.1]
    rfl

end Metewand.RunStore
