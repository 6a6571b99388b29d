import Metewand.RunStore.Sequences

/-!
# Stopping a fresh sequence

A sequence is stopped once one of its attempts was accepted with a reached target,
or once a terminal commit left its consumption at the limit.  The commit that stops
it settles every member that is not accepted, so no member can be reserved again
and nothing of the sequence changes any more.
-/

namespace Metewand.RunStore

open Lib

/-! ## Inserting dispositions -/

theorem mem_addDisposition {rows : List DispositionRow} {row d : DispositionRow}
    (member : d ∈ addDisposition rows row) : d ∈ rows ∨ d = row := by
  unfold addDisposition at member
  split at member
  · exact .inl member
  · rcases List.mem_append.mp member with old | new
    · exact .inl old
    · exact .inr (List.mem_singleton.mp new)

theorem mem_foldl_addDisposition {new rows : List DispositionRow} {d : DispositionRow}
    (member : d ∈ new.foldl addDisposition rows) : d ∈ rows ∨ d ∈ new := by
  induction new generalizing rows with
  | nil => exact .inl member
  | cons row rest ih =>
      rcases ih member with old | later
      · rcases mem_addDisposition old with before | rfl
        · exact .inl before
        · exact .inr List.mem_cons_self
      · exact .inr (List.mem_cons_of_mem _ later)

theorem foldl_addDisposition_subset {new rows : List DispositionRow} {d : DispositionRow}
    (member : d ∈ rows) : d ∈ new.foldl addDisposition rows := by
  induction new generalizing rows with
  | nil => exact member
  | cons row rest ih =>
      refine ih ?_
      unfold addDisposition
      split
      · exact member
      · exact List.mem_append_left _ member

/-- Every slot of an inserted row has a disposition afterwards. -/
theorem foldl_addDisposition_covers {new rows : List DispositionRow} {row : DispositionRow}
    (member : row ∈ new) : ∃ d ∈ new.foldl addDisposition rows, d.slotId = row.slotId := by
  induction new generalizing rows with
  | nil => exact absurd member List.not_mem_nil
  | cons head rest ih =>
      rcases List.mem_cons.mp member with rfl | later
      · have covered : ∃ d ∈ addDisposition rows row, d.slotId = row.slotId := by
          unfold addDisposition
          split
          · rename_i taken
            exact taken
          · exact ⟨row, List.mem_append_right _ (List.mem_singleton_self _), rfl⟩
        obtain ⟨d, inside, slot⟩ := covered
        refine ⟨d, ?_, slot⟩
        rw [List.foldl_cons]
        exact foldl_addDisposition_subset inside
      · exact ih later

section Settled

variable {db db' : Db} {g : OwnedAttempt} {outcome : TerminalOutcome} {finished : Nat}
  {a b : AttemptRow}

theorem mem_stopRows {reason : Option DispositionReason} {d : DispositionRow}
    (member : d ∈ stopRows db g outcome reason) : ∃ r q, reason = some r ∧
      membership db g.slot = some q ∧ ∃ m ∈ stoppedMembers db q g outcome,
        d = ⟨m.slotId, r, g.id⟩ := by
  unfold stopRows at member
  split at member
  · rename_i r q found
    obtain ⟨m, stopped, rfl⟩ := List.mem_map.mp member
    exact ⟨r, q, rfl, found, m, stopped, rfl⟩
  · exact absurd member List.not_mem_nil

/-- A disposition after a terminal commit is an old one or settles a member of the
attempt's sequence. -/
theorem Settled.disposition_cases (row : Settled db db' g outcome finished a b)
    {d : DispositionRow} (member : d ∈ db'.freshDispositions) :
    d ∈ db.freshDispositions ∨ ∃ reason q, StopCause db g outcome (some reason) ∧
      membership db g.slot = some q ∧
      ∃ m ∈ stoppedMembers db q g outcome, d = ⟨m.slotId, reason, g.id⟩ := by
  obtain ⟨reason, cause, rows⟩ := row.dispositions
  rw [rows] at member
  rcases mem_foldl_addDisposition member with old | new
  · exact .inl old
  · obtain ⟨r, q, rfl, found, stopped⟩ := mem_stopRows new
    exact .inr ⟨r, q, cause, found, stopped⟩

theorem mem_stoppedMembers {q : SequenceKey} {m : MemberRow} :
    m ∈ stoppedMembers db q g outcome ↔ m ∈ db.freshMembers ∧ m.sequence = q ∧
      ¬satisfied db m.slotId ∧ (m.slotId ≠ g.slot ∨ outcome.state ≠ .accepted) := by
  unfold stoppedMembers
  rw [List.mem_filter]
  simp only [decide_eq_true_eq]

/-- An accepted slot after a terminal commit was accepted before or is the attempt's. -/
theorem Settled.satisfied_cases (row : Settled db db' g outcome finished a b)
    {slot : RecordId .resolvedAttemptSlot} (after : satisfied db' slot) :
    satisfied db slot ∨ (slot = g.slot ∧ outcome.state = .accepted) := by
  obtain ⟨x, member, at_, accepted⟩ := after
  rcases row.toMoved.mem_cases member with rfl | ⟨inside, -⟩
  · right
    rw [← at_, row.slotId, row.guardSlot, ← row.target]
    exact ⟨rfl, accepted⟩
  · exact .inl ⟨x, inside, at_, accepted⟩

end Settled

/-! ## Settled slots have no unfinished attempt -/

/-- A slot with a disposition is never accepted and has no unfinished attempt; an
accepted member has none either. -/
structure Disposed (db : Db) : Prop where
  closed : ∀ d ∈ db.freshDispositions, ¬satisfied db d.slotId ∧
    ∀ a ∈ db.attempts, a.slotId = d.slotId → a.finishedAtNs ≠ none
  pending : ∀ q, ∀ a ∈ db.attempts, a.finishedAtNs = none → InSequence db a.slotId q →
    ¬satisfied db a.slotId

theorem Disposed.create (layout : Nat) : Disposed (Db.create layout) where
  closed := fun _ member => nomatch member
  pending := fun _ _ member => nomatch member

section DisposedStep

variable {hash : Hasher} {db db' : Db}

theorem satisfied_of_reserved {g : OwnedAttempt} (row : Reserved hash db db' g)
    {slot : RecordId .resolvedAttemptSlot} (after : satisfied db' slot) : satisfied db slot := by
  obtain ⟨x, member, at_, accepted⟩ := after
  rcases row.mem_cases member with known | rfl
  · exact ⟨x, known, at_, accepted⟩
  · cases accepted

/-- A slot with a disposition cannot be reserved. -/
theorem Reserved.not_disposed {g : OwnedAttempt} (h : Integrity db) (sequenced : Sequenced db)
    (row : Reserved hash db db' g) : ∀ d ∈ db.freshDispositions, d.slotId ≠ g.slot := by
  intro d disposed same
  obtain ⟨m, member, at_⟩ := h.dispositionSlot d disposed
  have found := membership_of_inSequence h (sequenced.kinds m member).1
    ⟨m, member, at_.trans same, rfl⟩
  have reservable := row.reservable
  unfold Reservable at reservable
  rw [found] at reservable
  exact reservable.1 d disposed same

theorem Settled.closed {g : OwnedAttempt} {outcome : TerminalOutcome} {finished : Nat}
    {a b : AttemptRow} (h : Integrity db) (sequenced : Sequenced db) (old : Disposed db)
    (row : Settled db db' g outcome finished a b) :
    ∀ d ∈ db'.freshDispositions, ¬satisfied db' d.slotId ∧
      ∀ x ∈ db'.attempts, x.slotId = d.slotId → x.finishedAtNs ≠ none := by
  have start := row.toMoved.unfinished h
  have ended : b.finishedAtNs ≠ none := by
    rw [row.finishedAt]
    exact Option.some_ne_none _
  intro d member
  rcases row.disposition_cases member with before | ⟨reason, q, -, found, m, stopped, rfl⟩
  · obtain ⟨open_, done⟩ := old.closed d before
    have elsewhere : d.slotId ≠ a.slotId := fun same => done a row.member same.symm start
    constructor
    · intro after
      rcases row.satisfied_cases after with earlier | ⟨here, -⟩
      · exact open_ earlier
      · exact elsewhere (here.trans row.guardSlot.symm)
    · intro x inside at_
      rcases row.toMoved.mem_cases inside with rfl | ⟨known, -⟩
      · exact ended
      · exact done x known at_
  · obtain ⟨enrolled, key, unsatisfied, other⟩ := mem_stoppedMembers.mp stopped
    constructor
    · intro after
      rcases row.satisfied_cases after with earlier | ⟨here, accepted⟩
      · exact unsatisfied earlier
      · exact other.elim (fun elsewhere => elsewhere here) fun failed => failed accepted
    · intro x inside at_
      rcases row.toMoved.mem_cases inside with rfl | ⟨known, different⟩
      · exact ended
      · -- an unfinished attempt of a member would be the finishing one
        intro unfinished
        have home := (inSequence_of_membership found).2
        rw [← row.guardSlot] at home
        have same := sequenced.active q x known a row.member ⟨m, enrolled, at_.symm, key⟩ home
          unfinished start
        exact different (congrArg AttemptRow.id same)

theorem Change.closed {actor : Actor} (h : Integrity db) (sequenced : Sequenced db)
    (old : Disposed db) (change : Change hash db actor db') :
    ∀ d ∈ db'.freshDispositions, ¬satisfied db' d.slotId ∧
      ∀ x ∈ db'.attempts, x.slotId = d.slotId → x.finishedAtNs ≠ none := by
  rcases change.dispositions with same | ⟨g, outcome, finished, a, b, row⟩
  · rw [same]
    intro d member
    obtain ⟨open_, done⟩ := old.closed d member
    rcases change.attempts with ⟨attempts, -⟩ | ⟨g, row⟩ | ⟨a, b, moved⟩
    · unfold satisfied
      rw [attempts]
      exact ⟨open_, done⟩
    · refine ⟨fun after => open_ (satisfied_of_reserved row after), fun x inside at_ => ?_⟩
      rcases row.mem_cases inside with known | rfl
      · exact done x known at_
      · exact absurd at_.symm (row.not_disposed h sequenced d member)
    · have elsewhere : a.slotId ≠ d.slotId :=
        fun here => done a moved.member here (moved.unfinished h)
      refine ⟨fun after => open_ (moved.satisfied_of_other after fun _ => ?_),
        fun x inside at_ => ?_⟩
      · rw [moved.slotId]
        exact elsewhere
      · rcases moved.mem_cases inside with rfl | ⟨known, -⟩
        · exact absurd (moved.slotId.symm.trans at_) elsewhere
        · exact done x known at_
  · exact row.closed h sequenced old

theorem Change.pending {actor : Actor} (h : Integrity db) (sequenced : Sequenced db)
    (old : Disposed db) (change : Change hash db actor db') :
    ∀ q, ∀ a ∈ db'.attempts, a.finishedAtNs = none → InSequence db' a.slotId q →
      ¬satisfied db' a.slotId := by
  intro q x member unfinished inside
  rcases change.fresh with ⟨attempts, members, -⟩ | ⟨slot, row⟩ | ⟨g, row⟩ |
    ⟨a, b, moved, members, -⟩ | ⟨a, q', limit, used, reserved, row⟩ | ⟨a, measured, row⟩
  · rw [inSequence_congr members] at inside
    rw [attempts] at member
    rw [satisfied_congr attempts]
    exact old.pending q x member unfinished inside
  · have attempts : db'.attempts = db.attempts := row.same.2 .attempts (by decide)
    rw [attempts] at member
    rw [row.inSequence sequenced member] at inside
    rw [satisfied_congr attempts]
    exact old.pending q x member unfinished inside
  · have members : db'.freshMembers = db.freshMembers := row.same.2 .freshMembers (by decide)
    rw [inSequence_congr members] at inside
    intro after
    have before := satisfied_of_reserved row after
    rcases row.mem_cases member with known | rfl
    · exact old.pending q x known unfinished inside before
    · exact row.unsatisfied before
  · rw [inSequence_congr members] at inside
    have start := moved.unfinished h
    have home : ∀ {y : AttemptRow}, y ∈ db.attempts → y.finishedAtNs = none →
        y.slotId = x.slotId → y.id = a.id ∨ b.slotId ≠ x.slotId := by
      intro y known open_ same
      by_cases here : b.slotId = x.slotId
      · left
        have equal := sequenced.active q y known a moved.member (same ▸ inside)
          (by rw [← moved.slotId, here]; exact inside) open_ start
        rw [equal]
      · exact .inr here
    rcases moved.mem_cases member with rfl | ⟨known, other⟩
    · rw [moved.slotId] at inside ⊢
      refine fun after => old.pending q a moved.member start inside
        (moved.satisfied_of_other after fun accepted => ?_)
      have finish := moved.finish
      rw [unfinished, accepted] at finish
      cases finish
    · refine fun after => old.pending q x known unfinished inside
        (moved.satisfied_of_other after fun _ => ?_)
      exact (home known unfinished rfl).resolve_left other
  · have members : db'.freshMembers = db.freshMembers := row.same.2 .freshMembers (by decide)
    have attempts : db'.attempts = db.attempts := row.same.2 .attempts (by decide)
    rw [inSequence_congr members] at inside
    rw [attempts] at member
    rw [satisfied_congr attempts]
    exact old.pending q x member unfinished inside
  · have members : db'.freshMembers = db.freshMembers := row.same.2 .freshMembers (by decide)
    have attempts : db'.attempts = db.attempts := row.same.2 .attempts (by decide)
    rw [inSequence_congr members] at inside
    rw [attempts] at member
    rw [satisfied_congr attempts]
    exact old.pending q x member unfinished inside

end DisposedStep

theorem Reachable.disposed {hash : Hasher} {w : World} (reach : Reachable hash w) :
    Disposed w.db := by
  refine reach.always .create fun w label before old => ?_
  have change := (before.sound.stepped label).change
  exact ⟨change.closed before.sound.db.toIntegrity before.sequenced old,
    change.pending before.sound.db.toIntegrity before.sequenced old⟩

/-! ## Stopped sequences -/

/-- The limit of a sequence. -/
def Limited (db : Db) (q : SequenceKey) (limit : Nat) : Prop :=
  ∃ s ∈ db.freshSequences, s.key = q ∧ s.policy.activeTimeNs = .ok limit

/-- An accepted attempt of the sequence reached its target. -/
def ReachedIn (db : Db) (q : SequenceKey) : Prop :=
  ∃ a ∈ db.attempts, InSequence db a.slotId q ∧ a.state = .accepted ∧ ReachedTarget db a.id

/-- Every attempt of the sequence has finished, and together they used up the limit. -/
def Exhausted (db : Db) (q : SequenceKey) : Prop :=
  ¬SequenceActive db q ∧ ∃ limit, Limited db q limit ∧ (limit : Int) ≤ spent db q

def Stopped (db : Db) (q : SequenceKey) : Prop := ReachedIn db q ∨ Exhausted db q

section Queries

variable {db : Db} {q : SequenceKey}

theorem sequenceActive_iff : SequenceActive db q ↔
    ∃ a ∈ db.attempts, InSequence db a.slotId q ∧ a.finishedAtNs = none := by
  constructor
  · rintro ⟨a, member, m, enrolled, at_, key, unfinished⟩
    exact ⟨a, member, ⟨m, enrolled, at_, key⟩, unfinished⟩
  · rintro ⟨a, member, ⟨m, enrolled, at_, key⟩, unfinished⟩
    exact ⟨a, member, m, enrolled, at_, key, unfinished⟩

theorem Limited.unique (h : Integrity db) {limit limit' : Nat} (left : Limited db q limit)
    (right : Limited db q limit') : limit = limit' := by
  obtain ⟨s, member, key, policy⟩ := left
  obtain ⟨t, member', key', policy'⟩ := right
  rw [h.sequenceKeys.eq_of_key member member' (key.trans key'.symm), policy'] at policy
  cases policy
  rfl

theorem Allowance.limited {limit used : Nat} (allowed : Allowance db q limit used) :
    Limited db q limit := by
  obtain ⟨s, found, policy⟩ := allowed.policy
  exact ⟨s, List.mem_of_find?_eq_some found, by simpa using List.find?_some found, policy⟩

theorem Allowance.used_eq {limit used : Nat} (allowed : Allowance db q limit used) :
    (used : Int) = spent db q := by
  obtain ⟨total, sum, low, rfl⟩ := allowed.total
  rw [Int.toNat_of_nonneg low]
  exact sqlSum_eq sum

theorem Limited.positive {limit : Nat} (limited : Limited db q limit) : 0 < limit := by
  obtain ⟨s, -, -, policy⟩ := limited
  exact (ProfilePolicy.activeTimeNs_bounds policy).1

/-- A sequence that has spent something has an attempt. -/
theorem attempt_of_spent (used : 0 < spent db q) :
    ∃ a ∈ db.attempts, InSequence db a.slotId q := by
  by_contra none
  have empty : spent db q = 0 := by
    unfold spent
    rw [consumptions_eq_nil fun _ _ a member _ inside => none ⟨a, member, inside⟩]
    rfl
  omega

theorem Exhausted.attempt (exhausted : Exhausted db q) :
    ∃ a ∈ db.attempts, InSequence db a.slotId q := by
  obtain ⟨-, limit, limited, beyond⟩ := exhausted
  have positive := limited.positive
  exact attempt_of_spent (by omega)

theorem Stopped.attempt (stopped : Stopped db q) :
    ∃ a ∈ db.attempts, InSequence db a.slotId q := by
  rcases stopped with ⟨a, member, inside, -⟩ | exhausted
  · exact ⟨a, member, inside⟩
  · exact exhausted.attempt

end Queries

/-! ## What a step leaves of a sequence -/

section SequenceStep

variable {hash : Hasher} {db db' : Db} {q : SequenceKey}

theorem InSequence.grown (grown : Grown db db') {slot : RecordId .resolvedAttemptSlot}
    (inside : InSequence db slot q) : InSequence db' slot q := by
  obtain ⟨m, member, facts⟩ := inside
  exact ⟨m, mem_of_extends_eq grown.members member, facts⟩

/-- No step moves an attempt into or out of a sequence. -/
theorem Change.inSequence {actor : Actor} (sequenced : Sequenced db)
    (change : Change hash db actor db') {a : AttemptRow} (member : a ∈ db.attempts) :
    InSequence db' a.slotId q ↔ InSequence db a.slotId q := by
  rcases change.fresh with ⟨-, members, -⟩ | ⟨slot, row⟩ | ⟨g, row⟩ |
    ⟨x, y, -, members, -⟩ | ⟨x, q', limit, used, reserved, row⟩ | ⟨x, measured, row⟩
  · exact inSequence_congr members _ _
  · exact row.inSequence sequenced member q
  · exact inSequence_congr (row.same.2 .freshMembers (by decide)) _ _
  · exact inSequence_congr members _ _
  · exact inSequence_congr (row.same.2 .freshMembers (by decide)) _ _
  · exact inSequence_congr (row.same.2 .freshMembers (by decide)) _ _

/-- A slot with a disposition stays in its sequence. -/
theorem inSequence_of_disposed (h : Integrity db) (h' : Integrity db')
    (grown : Grown db db') {d : DispositionRow} (member : d ∈ db.freshDispositions)
    (inside : InSequence db' d.slotId q) : InSequence db d.slotId q := by
  obtain ⟨m, enrolled, at_⟩ := h.dispositionSlot d member
  have before : InSequence db d.slotId m.sequence := ⟨m, enrolled, at_, rfl⟩
  rw [inside.unique h' (before.grown grown)]
  exact before

theorem ReachedTarget.grown (grown : Grown db db') {id : RecordId .attempt}
    (reached : ReachedTarget db id) : ReachedTarget db' id := by
  obtain ⟨o, member, facts⟩ := reached
  exact ⟨o, mem_of_extends_eq grown.observations member, facts⟩

/-- A finished attempt gets no new observation. -/
theorem Change.reached_iff {actor : Actor} (h : Integrity db) (grown : Grown db db')
    (change : Change hash db actor db') {a : AttemptRow} (member : a ∈ db.attempts)
    (finished : a.finishedAtNs ≠ none) : ReachedTarget db' a.id ↔ ReachedTarget db a.id := by
  refine ⟨fun after => ?_, fun before => before.grown grown⟩
  rcases change.evidence with ⟨same, -⟩ | ⟨x, o, select, now, -, row⟩ |
    ⟨g, outcome, time, x, y, -, row⟩
  · exact (ReachedTarget.congr same).mp after
  · obtain ⟨p, inside, producer, completion⟩ := after
    rw [row.observations] at inside
    rcases List.mem_append.mp inside with before | added
    · exact ⟨p, before, producer, completion⟩
    · rw [List.mem_singleton.mp added, row.producer] at producer
      rw [h.attemptIds.eq_of_key member row.member producer.symm] at finished
      exact absurd row.active finished
  · exact (ReachedTarget.congr (row.same.2 .observations (by decide))).mp after

/-- A finished row is a terminal one. -/
theorem terminal_of_finished (h : Integrity db) {a : AttemptRow} (member : a ∈ db.attempts)
    (finished : a.finishedAtNs ≠ none) : a.state.terminal = true := by
  rw [← h.attemptFinish a member]
  exact Option.isSome_iff_ne_none.mpr finished

theorem finished_of_accepted (h : Integrity db) {a : AttemptRow} (member : a ∈ db.attempts)
    (accepted : a.state = .accepted) : a.finishedAtNs ≠ none := by
  have finish := h.attemptFinish a member
  rw [accepted] at finish
  exact Option.isSome_iff_ne_none.mp finish

/-- The step is a terminal commit of an attempt of the sequence. -/
def SettledIn (db db' : Db) (q : SequenceKey) : Prop :=
  ∃ g outcome finished a b, Settled db db' g outcome finished a b ∧ InSequence db a.slotId q

/-- A move that ends an attempt is a terminal commit. -/
theorem Change.moves {actor : Actor} (change : Change hash db actor db') :
    (db'.attempts = db.attempts) ∨ (∃ g, Reserved hash db db' g) ∨
      (∃ a b, Moved db db' a b ∧ b.finishedAtNs = none ∧ db'.freshMembers = db.freshMembers ∧
        db'.freshBudget = db.freshBudget) ∨
      ∃ g outcome finished a b, Settled db db' g outcome finished a b := by
  have open_ : ∀ {b : AttemptRow}, b.finishedAtNs.isSome = b.state.terminal →
      b.state.terminal = false → b.finishedAtNs = none := by
    intro b finish active
    rw [active] at finish
    exact Option.isNone_iff_eq_none.mp (Option.isSome_eq_false_iff.mp finish)
  cases change with
  | advanced row =>
      exact .inr (.inr (.inl ⟨_, _, row.toMoved, open_ row.finish row.active',
        row.same.2 .freshMembers (by decide), row.same.2 .freshBudget (by decide)⟩))
  | claimed row =>
      have active : AttemptState.terminal .finalizing = false := rfl
      exact .inr (.inr (.inl ⟨_, _, row.toMoved, open_ row.finish (by rw [row.finalizing]; exact active),
        row.same.2 .freshMembers (by decide), row.same.2 .freshBudget (by decide)⟩))
  | finished row => exact .inr (.inr (.inr ⟨_, _, _, _, _, row⟩))
  | reserved row => exact .inr (.inl ⟨_, row⟩)
  | idle => exact .inl rfl
  | registered same => exact .inl (same.2 .attempts (by decide))
  | enrolled row => exact .inl (row.same.2 .attempts (by decide))
  | imported same => exact .inl (same.2 .attempts (by decide))
  | leased _ _ rows => exact .inl (rows.same.2 .attempts (by decide))
  | observed row => exact .inl (row.same.2 .attempts (by decide))
  | budgeted row => exact .inl (row.same.2 .attempts (by decide))
  | charged row => exact .inl (row.same.2 .attempts (by decide))

/-- An active sequence stays active until one of its attempts is settled. -/
theorem Change.sequenceActive {actor : Actor} (h : Integrity db) (grown : Grown db db')
    (change : Change hash db actor db') (other : ¬SettledIn db db' q)
    (active : SequenceActive db q) : SequenceActive db' q := by
  obtain ⟨x, member, inside, unfinished⟩ := sequenceActive_iff.mp active
  have later := inside.grown grown
  refine sequenceActive_iff.mpr ?_
  rcases change.moves with same | ⟨g, row⟩ | ⟨a, b, moved, open_, -⟩ |
    ⟨g, outcome, finished, a, b, row⟩
  · exact ⟨x, same ▸ member, later, unfinished⟩
  · refine ⟨x, ?_, later, unfinished⟩
    rw [row.attempts]
    exact List.mem_append_left _ member
  · by_cases mine : x.id = a.id
    · obtain rfl := h.attemptIds.eq_of_key member moved.member mine
      exact ⟨b, moved.member', moved.slotId ▸ later, open_⟩
    · exact ⟨x, moved.mem_other member mine, later, unfinished⟩
  · by_cases mine : x.id = a.id
    · obtain rfl := h.attemptIds.eq_of_key member row.member mine
      exact absurd ⟨g, outcome, finished, x, b, row, inside⟩ other
    · exact ⟨x, row.toMoved.mem_other member mine, later, unfinished⟩

/-- While no attempt of the sequence is unfinished, nothing is spent. -/
theorem Change.spent_of_inactive {actor : Actor} (h : Integrity db) (h' : Integrity db')
    (sequenced : Sequenced db) (change : Change hash db actor db')
    (inactive : ¬SequenceActive db q) : spent db' q = spent db q := by
  have outside : ∀ {a : AttemptRow}, a ∈ db.attempts → a.finishedAtNs = none →
      ¬InSequence db a.slotId q := fun member unfinished inside =>
    inactive (sequenceActive_iff.mpr ⟨_, member, inside, unfinished⟩)
  rcases change.fresh with ⟨attempts, members, budget⟩ | ⟨slot, row⟩ | ⟨g, row⟩ |
    ⟨a, b, moved, members, budget⟩ | ⟨a, q', limit, used, reserved, row⟩ | ⟨a, measured, row⟩
  · exact spent_congr budget attempts members q
  · exact row.spent h h' sequenced
  · exact row.spent h h'
  · rw [moved.spent h h' budget members,
      if_neg (outside moved.member (moved.unfinished h)), Int.sub_zero]
  · rw [row.spent h h', if_neg (outside row.member row.active), Int.add_zero]
  · exact row.spent h h'

/-- The limit of a sequence that has an attempt was there before. -/
theorem Limited.before (h : Integrity db) (h' : Integrity db') (grown : Grown db db')
    {slot : RecordId .resolvedAttemptSlot} (inside : InSequence db slot q) {limit : Nat}
    (after : Limited db' q limit) : Limited db q limit := by
  obtain ⟨m, enrolled, -, rfl⟩ := inside
  obtain ⟨s, member, key⟩ := h.memberSequence m enrolled
  obtain ⟨t, later, key', policy⟩ := after
  have same := h'.sequenceKeys.eq_of_key (mem_of_extends_eq grown.sequences member) later
    (key.trans key'.symm)
  exact ⟨s, member, key, same ▸ policy⟩

/-- An accepted attempt that reached its target was so before, unless the step settles it. -/
theorem Change.reachedIn {actor : Actor} (h : Integrity db) (sequenced : Sequenced db)
    (grown : Grown db db') (change : Change hash db actor db') (other : ¬SettledIn db db' q)
    (after : ReachedIn db' q) : ReachedIn db q := by
  obtain ⟨x, member, inside, accepted, reached⟩ := after
  have known : x ∈ db.attempts := by
    rcases change.moves with same | ⟨g, row⟩ | ⟨a, b, moved, open_, -⟩ |
      ⟨g, outcome, finished, a, b, row⟩
    · exact same ▸ member
    · rcases row.mem_cases member with known | rfl
      · exact known
      · cases accepted
    · rcases moved.mem_cases member with rfl | ⟨known, -⟩
      · have finish := moved.finish
        rw [open_, accepted] at finish
        cases finish
      · exact known
    · rcases row.toMoved.mem_cases member with rfl | ⟨known, -⟩
      · refine absurd ⟨g, outcome, finished, a, x, row, ?_⟩ other
        rw [row.slotId] at inside
        exact (change.inSequence sequenced row.member).mp inside
      · exact known
  have finished := finished_of_accepted h known accepted
  exact ⟨x, known, (change.inSequence sequenced known).mp inside, accepted,
    (change.reached_iff h grown known finished).mp reached⟩

/-- Only a terminal commit of one of its attempts stops a sequence. -/
theorem Change.stopped_before {actor : Actor} (h : Integrity db) (h' : Integrity db')
    (sequenced : Sequenced db) (grown : Grown db db') (change : Change hash db actor db')
    (other : ¬SettledIn db db' q) (after : Stopped db' q) : Stopped db q := by
  rcases after with reached | exhausted
  · exact .inl (change.reachedIn h sequenced grown other reached)
  · have inactive : ¬SequenceActive db q := fun active =>
      exhausted.1 (change.sequenceActive h grown other active)
    obtain ⟨-, limit, limited, beyond⟩ := exhausted
    rw [change.spent_of_inactive h h' sequenced inactive] at beyond
    have positive := limited.positive
    have used := @attempt_of_spent db q (by omega)
    obtain ⟨a, -, home⟩ := used
    exact .inr ⟨inactive, limit, limited.before h h' grown home, beyond⟩

theorem ReachedIn.grown (grown : Grown db db') (reached : ReachedIn db q) : ReachedIn db' q := by
  obtain ⟨a, member, inside, accepted, target⟩ := reached
  exact ⟨a, grown.terminal_mem member (by rw [accepted]; rfl), inside.grown grown, accepted,
    target.grown grown⟩

theorem Limited.grown (grown : Grown db db') {limit : Nat} (limited : Limited db q limit) :
    Limited db' q limit := by
  obtain ⟨s, member, facts⟩ := limited
  exact ⟨s, mem_of_extends_eq grown.sequences member, facts⟩

theorem satisfied.grown (grown : Grown db db') {slot : RecordId .resolvedAttemptSlot}
    (accepted : satisfied db slot) : satisfied db' slot := by
  obtain ⟨a, member, at_, state⟩ := accepted
  exact ⟨a, grown.terminal_mem member (by rw [state]; rfl), at_, state⟩

end SequenceStep

/-! ## The commit that stops a sequence -/

section Stop

variable {db db' : Db} {g : OwnedAttempt} {outcome : TerminalOutcome} {finished : Nat}
  {a b : AttemptRow} {q : SequenceKey}

theorem Settled.ended (row : Settled db db' g outcome finished a b) : b.finishedAtNs ≠ none := by
  rw [row.finishedAt]
  exact Option.some_ne_none _

theorem Settled.members (row : Settled db db' g outcome finished a b) :
    db'.freshMembers = db.freshMembers := row.same.2 .freshMembers (by decide)

/-- When an attempt finishes, a budget row saves what the attempt gives back. -/
theorem saving_eq_refund (unfinished : a.finishedAtNs = none) (ended : b.finishedAtNs ≠ none) :
    saving db.freshBudget a b = refund db a.id := by
  unfold saving refund
  cases db.freshBudget.find? fun x => x.attemptId = a.id with
  | none => rfl
  | some x => simp [consumption, unfinished, ended]

/-- What a terminal commit leaves as the consumption of the sequence. -/
theorem Settled.spent (h : Integrity db) (h' : Integrity db')
    (row : Settled db db' g outcome finished a b) (inside : InSequence db a.slotId q) :
    spent db' q = spent db q - refund db g.id := by
  rw [row.toMoved.spent h h' (row.same.2 .freshBudget (by decide)) row.members, if_pos inside,
    saving_eq_refund (row.toMoved.unfinished h) row.ended, row.guard]

/-- After a terminal commit no attempt of its sequence is unfinished. -/
theorem Settled.inactive (h : Integrity db) (sequenced : Sequenced db)
    (row : Settled db db' g outcome finished a b) (inside : InSequence db a.slotId q) :
    ¬SequenceActive db' q := by
  rw [sequenceActive_iff]
  rintro ⟨x, member, home, unfinished⟩
  rw [inSequence_congr row.members] at home
  rcases row.toMoved.mem_cases member with rfl | ⟨known, other⟩
  · exact row.ended unfinished
  · have same := sequenced.active q x known a row.member home inside unfinished
      (row.toMoved.unfinished h)
    exact other (congrArg AttemptRow.id same)

theorem Settled.membership (h : Integrity db) (sequenced : Sequenced db)
    (row : Settled db db' g outcome finished a b) (inside : InSequence db a.slotId q) :
    membership db g.slot = some q := by
  obtain ⟨m, enrolled, -⟩ := id inside
  rw [← row.guardSlot]
  exact membership_of_inSequence h (sequenced.kinds m enrolled).1 inside

/-- The rest of the limit after the commit, as the commit computes it. -/
theorem Settled.left (h : Integrity db) (h' : Integrity db')
    (row : Settled db db' g outcome finished a b) (inside : InSequence db a.slotId q)
    {limit used : Nat} (allowed : Allowance db q limit used) :
    ((used - (refund db g.id).toNat : Nat) : Int) = RunStore.spent db' q := by
  have bounds := refund_bounds h row.member (row.toMoved.unfinished h) inside
  rw [row.guard, ← allowed.used_eq] at bounds
  rw [row.spent h h' inside, ← allowed.used_eq]
  omega

/-- What the causes of a stop are. -/
def StoppedBy (db : Db) (q : SequenceKey) (a : AttemptRow) : DispositionReason → Prop
  | .skippedTargetReached => a.state = .accepted ∧ ReachedTarget db a.id
  | .activeTimeLimit => ¬(a.state = .accepted ∧ ReachedTarget db a.id) ∧ Exhausted db q

theorem TerminalOutcome.eq_accepted_of_state {outcome : TerminalOutcome}
    (state : outcome.state = .accepted) : outcome = .accepted := by
  cases outcome <;> first | rfl | cases state

theorem StoppedBy.stopped {x : AttemptRow} {reason : DispositionReason}
    (cause : StoppedBy db q x reason) (member : x ∈ db.attempts)
    (inside : InSequence db x.slotId q) : Stopped db q := by
  cases reason with
  | skippedTargetReached => exact .inl ⟨x, member, inside, cause.1, cause.2⟩
  | activeTimeLimit => exact .inr cause.2

/-- The attempt's new row is what stops the sequence. -/
theorem Settled.stoppedBy (h : Integrity db) (h' : Integrity db') (sequenced : Sequenced db)
    (row : Settled db db' g outcome finished a b) (inside : InSequence db a.slotId q)
    {reason : DispositionReason} (cause : StopCause db g outcome (some reason)) :
    StoppedBy db' q b reason := by
  have found := row.membership h sequenced inside
  have reached := @ReachedTarget.congr db db' (row.same.2 .observations (by decide)) b.id
  have same : b.id = g.id := row.id.trans row.guard
  cases cause with
  | target member accepted hit =>
      refine ⟨?_, ?_⟩
      · rw [row.target, accepted]
        rfl
      · rw [reached, same]
        exact hit
  | @exhausted sequence limit used member short allowed back beyond =>
      obtain rfl := Option.some.inj (found.symm.trans member)
      refine ⟨fun hit => short ⟨?_, ?_⟩, row.inactive h sequenced inside, limit, ?_, ?_⟩
      · exact TerminalOutcome.eq_accepted_of_state (row.target.symm.trans hit.1)
      · rw [← same, ← reached]
        exact hit.2
      · obtain ⟨s, listed, facts⟩ := allowed.limited
        rw [← show db'.freshSequences = db.freshSequences from
          row.same.2 .freshSequences (by decide)] at listed
        exact ⟨s, listed, facts⟩
      · rw [← row.left h h' inside allowed]
        exact Int.ofNat_le.mpr beyond

/-- A terminal commit with no cause leaves the sequence as open as it was. -/
theorem Settled.not_stopped (h : Integrity db) (h' : Integrity db') (sequenced : Sequenced db)
    (row : Settled db db' g outcome finished a b) (inside : InSequence db a.slotId q)
    (cause : StopCause db g outcome none) (before : ¬Stopped db q) : ¬Stopped db' q := by
  have found := row.membership h sequenced inside
  have sequences : db'.freshSequences = db.freshSequences :=
    row.same.2 .freshSequences (by decide)
  have reached : ∀ id, ReachedTarget db' id ↔ ReachedTarget db id :=
    fun id => ReachedTarget.congr (row.same.2 .observations (by decide))
  cases cause with
  | outside alone =>
      rw [found] at alone
      cases alone
  | @continues sequence limit used member short allowed back under =>
      obtain rfl := Option.some.inj (found.symm.trans member)
      rintro (⟨x, listed, home, accepted, hit⟩ | ⟨-, limit', ⟨s, there, facts⟩, beyond⟩)
      · rw [inSequence_congr row.members] at home
        rw [reached] at hit
        rcases row.toMoved.mem_cases listed with rfl | ⟨known, -⟩
        · refine short ⟨TerminalOutcome.eq_accepted_of_state (row.target.symm.trans accepted), ?_⟩
          rw [← row.guard, ← row.id]
          exact hit
        · exact before (.inl ⟨x, known, home, accepted, hit⟩)
      · rw [sequences] at there
        rw [allowed.limited.unique h ⟨s, there, facts⟩, ← Int.ofNat_lt,
          row.left h h' inside allowed] at under
        exact absurd beyond (Int.not_le.mpr under)

/-- A commit that stops the sequence settles every member that is not accepted. -/
theorem Settled.complete (h : Integrity db) (sequenced : Sequenced db) (grown : Grown db db')
    (row : Settled db db' g outcome finished a b) (inside : InSequence db a.slotId q)
    {reason : DispositionReason} (rows : db'.freshDispositions =
      (stopRows db g outcome (some reason)).foldl addDisposition db.freshDispositions)
    {slot : RecordId .resolvedAttemptSlot} (home : InSequence db' slot q) :
    satisfied db' slot ∨ ∃ d ∈ db'.freshDispositions, d.slotId = slot := by
  have found := row.membership h sequenced inside
  rw [inSequence_congr row.members] at home
  obtain ⟨m, enrolled, rfl, key⟩ := home
  by_cases before : satisfied db m.slotId
  · exact .inl (before.grown grown)
  · by_cases own : m.slotId = g.slot ∧ outcome.state = .accepted
    · refine .inl ⟨b, row.toMoved.member', ?_, row.target.trans own.2⟩
      rw [row.slotId, row.guardSlot, own.1]
    · right
      have stopped : m ∈ stoppedMembers db q g outcome :=
        mem_stoppedMembers.mpr ⟨enrolled, key, before, not_and_or.mp own⟩
      rw [rows]
      refine @foldl_addDisposition_covers _ _ ⟨m.slotId, reason, g.id⟩ ?_
      simp only [stopRows, found]
      exact List.mem_map.mpr ⟨m, stopped, rfl⟩

end Stop

/-! ## The invariant of one sequence -/

/-- What every run that enrols the members first keeps of the sequence `q`. -/
structure Halting (db : Db) (q : SequenceKey) : Prop where
  complete : Stopped db q → ∀ slot, InSequence db slot q →
    satisfied db slot ∨ ∃ d ∈ db.freshDispositions, d.slotId = slot
  caused : ∀ d ∈ db.freshDispositions, InSequence db d.slotId q →
    ∃ a ∈ db.attempts, a.id = d.causingAttemptId ∧ InSequence db a.slotId q ∧
      a.finishedAtNs ≠ none ∧ StoppedBy db q a d.reason
  uniform : ∀ d ∈ db.freshDispositions, ∀ e ∈ db.freshDispositions, InSequence db d.slotId q →
    InSequence db e.slotId q → d.reason = e.reason ∧ d.causingAttemptId = e.causingAttemptId

section HaltingStep

variable {hash : Hasher} {db db' : Db} {q : SequenceKey}

theorem Halting.stopped_of_disposed (halting : Halting db q) {d : DispositionRow}
    (member : d ∈ db.freshDispositions) (inside : InSequence db d.slotId q) : Stopped db q := by
  obtain ⟨a, known, -, home, -, cause⟩ := halting.caused d member inside
  exact cause.stopped known home

/-- A stopped sequence has no unfinished attempt. -/
theorem Halting.finished (halting : Halting db q) (disposed : Disposed db)
    (stopped : Stopped db q) {a : AttemptRow} (member : a ∈ db.attempts)
    (inside : InSequence db a.slotId q) : a.finishedAtNs ≠ none := by
  intro unfinished
  rcases halting.complete stopped a.slotId inside with accepted | ⟨d, settled, at_⟩
  · exact disposed.pending q a member unfinished inside accepted
  · exact (disposed.closed d settled).2 a member at_.symm unfinished

/-- No member of a stopped sequence can be reserved. -/
theorem Halting.not_reserved (h : Integrity db) (sequenced : Sequenced db)
    (halting : Halting db q) (stopped : Stopped db q) {g : OwnedAttempt}
    (row : Reserved hash db db' g) : ¬InSequence db g.slot q := by
  intro inside
  rcases halting.complete stopped g.slot inside with accepted | ⟨d, settled, at_⟩
  · exact row.unsatisfied accepted
  · exact row.not_disposed h sequenced d settled at_

theorem Halting.not_settled (h : Integrity db) (disposed : Disposed db) (halting : Halting db q)
    (stopped : Stopped db q) : ¬SettledIn db db' q := by
  rintro ⟨g, outcome, finished, a, b, row, inside⟩
  exact halting.finished disposed stopped row.member inside (row.toMoved.unfinished h)

theorem Halting.inactive (disposed : Disposed db) (halting : Halting db q)
    (stopped : Stopped db q) : ¬SequenceActive db q := by
  rw [sequenceActive_iff]
  rintro ⟨a, member, inside, unfinished⟩
  exact halting.finished disposed stopped member inside unfinished

/-- Exhaustion lasts: nothing of a stopped sequence moves. -/
theorem Halting.exhausted {actor : Actor} (h : Integrity db) (h' : Integrity db')
    (sequenced : Sequenced db) (halting : Halting db q) (grown : Grown db db')
    (change : Change hash db actor db') (exhausted : Exhausted db q) : Exhausted db' q := by
  obtain ⟨inactive, limit, limited, beyond⟩ := id exhausted
  refine ⟨?_, limit, limited.grown grown, ?_⟩
  · rw [sequenceActive_iff] at inactive ⊢
    rintro ⟨x, member, inside, unfinished⟩
    refine inactive ?_
    rcases change.attempts with ⟨same, -⟩ | ⟨g, row⟩ | ⟨a, b, moved⟩
    · rw [same] at member
      exact ⟨x, member, (change.inSequence sequenced member).mp inside, unfinished⟩
    · rcases row.mem_cases member with known | rfl
      · exact ⟨x, known, (change.inSequence sequenced known).mp inside, unfinished⟩
      · rw [inSequence_congr (row.same.2 .freshMembers (by decide))] at inside
        exact absurd inside (halting.not_reserved h sequenced (.inr exhausted) row)
    · rcases moved.mem_cases member with rfl | ⟨known, -⟩
      · rw [moved.slotId] at inside
        exact ⟨a, moved.member, (change.inSequence sequenced moved.member).mp inside,
          moved.unfinished h⟩
      · exact ⟨x, known, (change.inSequence sequenced known).mp inside, unfinished⟩
  · rw [change.spent_of_inactive h h' sequenced inactive]
    exact beyond

theorem Halting.stays {actor : Actor} (h : Integrity db) (h' : Integrity db')
    (sequenced : Sequenced db) (halting : Halting db q) (grown : Grown db db')
    (change : Change hash db actor db') (stopped : Stopped db q) : Stopped db' q := by
  rcases stopped with reached | exhausted
  · exact .inl (reached.grown grown)
  · exact .inr (halting.exhausted h h' sequenced grown change exhausted)

/-- What stopped the sequence still did after a later step. -/
theorem StoppedBy.later {actor : Actor} (h : Integrity db) (h' : Integrity db')
    (sequenced : Sequenced db) (halting : Halting db q) (grown : Grown db db')
    (change : Change hash db actor db') {a : AttemptRow} (member : a ∈ db.attempts)
    (finished : a.finishedAtNs ≠ none) {reason : DispositionReason}
    (cause : StoppedBy db q a reason) : StoppedBy db' q a reason := by
  have reached := change.reached_iff h grown member finished
  cases reason with
  | skippedTargetReached => exact ⟨cause.1, reached.mpr cause.2⟩
  | activeTimeLimit =>
      refine ⟨?_, halting.exhausted h h' sequenced grown change cause.2⟩
      rw [reached]
      exact cause.1

/-- A step that settles no attempt of the sequence adds no disposition to it. -/
theorem Change.disposition_before {actor : Actor} (h : Integrity db) (h' : Integrity db')
    (grown : Grown db db') (change : Change hash db actor db')
    (other : ¬SettledIn db db' q) {d : DispositionRow} (member : d ∈ db'.freshDispositions)
    (inside : InSequence db' d.slotId q) : d ∈ db.freshDispositions ∧ InSequence db d.slotId q := by
  have known : d ∈ db.freshDispositions := by
    rcases change.dispositions with same | ⟨g, outcome, finished, a, b, row⟩
    · exact same ▸ member
    · rcases row.disposition_cases member with before | ⟨reason, q', -, found, m, stopped, rfl⟩
      · exact before
      · obtain ⟨enrolled, key, -⟩ := mem_stoppedMembers.mp stopped
        rw [inSequence_congr row.members] at inside
        obtain rfl := inside.unique h ⟨m, enrolled, rfl, key⟩
        refine absurd ⟨g, outcome, finished, a, b, row, ?_⟩ other
        rw [row.guardSlot]
        exact (inSequence_of_membership found).2
  exact ⟨known, inSequence_of_disposed h h' grown known inside⟩

/-- A step of a stopped sequence. -/
theorem Halting.step_stopped {actor : Actor} (h : Integrity db) (h' : Integrity db')
    (sequenced : Sequenced db) (disposed : Disposed db) (halting : Halting db q)
    (grown : Grown db db') (change : Change hash db actor db')
    (same : sequenceMembers db' q = sequenceMembers db q) (stopped : Stopped db q) :
    Halting db' q := by
  have before := fun {d : DispositionRow} => @Change.disposition_before hash db db' q actor h h'
    grown change (halting.not_settled h disposed stopped) d
  have members : ∀ slot, InSequence db' slot q → InSequence db slot q := by
    rintro slot ⟨m, member, at_, key⟩
    have listed : m ∈ sequenceMembers db' q := List.mem_filter.mpr ⟨member, by simpa using key⟩
    rw [same] at listed
    exact ⟨m, List.mem_of_mem_filter listed, at_, key⟩
  refine ⟨fun _ slot inside => ?_, fun d member inside => ?_,
    fun d left e right insideD insideE => ?_⟩
  · rcases halting.complete stopped slot (members slot inside) with accepted | ⟨d, settled, at_⟩
    · exact .inl (accepted.grown grown)
    · exact .inr ⟨d, mem_of_extends_eq grown.dispositions settled, at_⟩
  · obtain ⟨known, home⟩ := before member inside
    obtain ⟨a, listed, causing, insideA, finished, cause⟩ := halting.caused d known home
    exact ⟨a, grown.terminal_mem listed (terminal_of_finished h listed finished), causing,
      insideA.grown grown, finished,
      cause.later h h' sequenced halting grown change listed finished⟩
  · obtain ⟨knownD, homeD⟩ := before left insideD
    obtain ⟨knownE, homeE⟩ := before right insideE
    exact halting.uniform d knownD e knownE homeD homeE

/-- Every disposition of a sequence that was open comes from the commit. -/
theorem Halting.disposition_new {g : OwnedAttempt} {outcome : TerminalOutcome}
    {reason : Option DispositionReason} (h : Integrity db) (h' : Integrity db')
    (halting : Halting db q) (grown : Grown db db') (open_ : ¬Stopped db q)
    (rows : db'.freshDispositions =
      (stopRows db g outcome reason).foldl addDisposition db.freshDispositions)
    {d : DispositionRow} (member : d ∈ db'.freshDispositions)
    (home : InSequence db' d.slotId q) : reason = some d.reason ∧ d.causingAttemptId = g.id := by
  rw [rows] at member
  rcases mem_foldl_addDisposition member with old | new
  · exact absurd (halting.stopped_of_disposed old (inSequence_of_disposed h h' grown old home))
      open_
  · obtain ⟨r, q', rfl, -, m, -, rfl⟩ := mem_stopRows new
    exact ⟨rfl, rfl⟩

/-- The terminal commit of an attempt of an open sequence. -/
theorem Halting.step_settled {g : OwnedAttempt} {outcome : TerminalOutcome} {finished : Nat}
    {a b : AttemptRow} (h : Integrity db) (h' : Integrity db') (sequenced : Sequenced db)
    (halting : Halting db q) (grown : Grown db db')
    (row : Settled db db' g outcome finished a b) (inside : InSequence db a.slotId q)
    (open_ : ¬Stopped db q) : Halting db' q := by
  obtain ⟨reason, cause, rows⟩ := row.dispositions
  have fresh := fun {d : DispositionRow} => @Halting.disposition_new db db' q g outcome reason h h'
    halting grown open_ rows d
  refine ⟨fun stopped slot home => ?_, fun d member home => ?_,
    fun d left e right homeD homeE => ?_⟩
  · cases reason with
    | none => exact absurd stopped (row.not_stopped h h' sequenced inside cause open_)
    | some reason => exact row.complete h sequenced grown inside rows home
  · obtain ⟨rfl, causing⟩ := fresh member home
    refine ⟨b, row.toMoved.member', ?_, ?_, row.ended,
      row.stoppedBy h h' sequenced inside cause⟩
    · rw [row.id, row.guard, causing]
    · rw [row.slotId]
      exact inside.grown grown
  · obtain ⟨reasonD, causingD⟩ := fresh left homeD
    obtain ⟨reasonE, causingE⟩ := fresh right homeE
    rw [reasonD] at reasonE
    exact ⟨Option.some.inj reasonE, causingD.trans causingE.symm⟩

/-- A step of an open sequence that settles none of its attempts. -/
theorem Halting.step_open {actor : Actor} (h : Integrity db) (h' : Integrity db')
    (sequenced : Sequenced db) (halting : Halting db q) (grown : Grown db db')
    (change : Change hash db actor db') (other : ¬SettledIn db db' q) (open_ : ¬Stopped db q) :
    Halting db' q := by
  have none : ∀ {d : DispositionRow}, d ∈ db'.freshDispositions → ¬InSequence db' d.slotId q := by
    intro d member inside
    obtain ⟨known, home⟩ := change.disposition_before h h' grown other member inside
    exact open_ (halting.stopped_of_disposed known home)
  exact ⟨fun stopped => absurd (change.stopped_before h h' sequenced grown other stopped) open_,
    fun d member inside => absurd inside (none member),
    fun d left _ _ inside => absurd inside (none left)⟩

end HaltingStep

/-! ## Runs -/

/-- The members of the sequence are all enrolled before its first attempt. -/
def EnrolledFirst (hash : Hasher) (q : SequenceKey) (w : World) (label : Label) : Prop :=
  (∃ a ∈ w.db.attempts, InSequence w.db a.slotId q) →
    sequenceMembers (next hash w label).db q = sequenceMembers w.db q

instance (hash : Hasher) (q : SequenceKey) (w : World) (label : Label) :
    Decidable (EnrolledFirst hash q w label) := by
  unfold EnrolledFirst
  infer_instance

section Runs

variable {hash : Hasher} {w : World} {label : Label} {q : SequenceKey}

theorem Halting.step (reach : Reachable hash w) (halting : Halting w.db q)
    (first : EnrolledFirst hash q w label) : Halting (next hash w label).db q := by
  have stepped := reach.sound.stepped label
  have h := reach.sound.db.toIntegrity
  have h' := stepped.sound.db.toIntegrity
  by_cases stopped : Stopped w.db q
  · exact halting.step_stopped h h' reach.sequenced reach.disposed stepped.grown stepped.change
      (first stopped.attempt) stopped
  · by_cases other : SettledIn w.db (next hash w label).db q
    · obtain ⟨g, outcome, finished, a, b, row, inside⟩ := other
      exact halting.step_settled h h' reach.sequenced stepped.grown row inside stopped
    · exact halting.step_open h h' reach.sequenced stepped.grown stepped.change other stopped

theorem World.Initial.halting {labels : List Label} (start : w.Initial)
    (first : Meets (next hash) (EnrolledFirst hash q) w labels) :
    Halting (run (next hash) w labels).db q := by
  refine @World.Initial.keeps hash (fun db => Halting db q) (EnrolledFirst hash q) w labels start ?_
    (fun w label reach halting cond => halting.step reach cond) first
  obtain ⟨layout, -, rfl⟩ := start
  refine ⟨fun stopped => ?_, fun _ member => absurd member List.not_mem_nil,
    fun _ member => absurd member List.not_mem_nil⟩
  obtain ⟨a, member, -⟩ := stopped.attempt
  exact absurd member List.not_mem_nil

/-- A stopped sequence stays stopped along every run that enrols no member. -/
theorem Halting.stopped_run {labels : List Label} (reach : Reachable hash w)
    (halting : Halting w.db q) (stopped : Stopped w.db q)
    (first : Meets (next hash) (EnrolledFirst hash q) w labels) :
    Stopped (run (next hash) w labels).db q := by
  have both : Halting (run (next hash) w labels).db q ∧ Stopped (run (next hash) w labels).db q := by
    refine @Lib.run_invariant_of _ _ (next hash) (EnrolledFirst hash q) w labels (Reachable hash)
      (fun w => Halting w.db q ∧ Stopped w.db q) (fun _ label reach => reach.after label)
      (fun w label reach hold cond => ⟨hold.1.step reach cond, ?_⟩) reach ⟨halting, stopped⟩ first
    have stepped := reach.sound.stepped label
    exact hold.1.stays reach.sound.db.toIntegrity stepped.sound.db.toIntegrity reach.sequenced
      stepped.grown stepped.change hold.2
  exact both.2

/-- A terminal commit in the sequence, seen from the attempt rows. -/
theorem Reachable.settledIn (reach : Reachable hash w) {a b : AttemptRow}
    (member : a ∈ w.db.attempts) (member' : b ∈ (next hash w label).db.attempts)
    (inside : InSequence w.db a.slotId q) (unfinished : a.finishedAtNs = none) (id : b.id = a.id)
    (ended : b.finishedAtNs ≠ none) : SettledIn w.db (next hash w label).db q := by
  have stepped := reach.sound.stepped label
  have h := reach.sound.db.toIntegrity
  have kept : b ∉ w.db.attempts := fun known => by
    rw [h.attemptIds.eq_of_key known member id] at ended
    exact ended unfinished
  rcases stepped.change.moves with same | ⟨g, row⟩ | ⟨x, y, moved, open_, -⟩ |
    ⟨g, outcome, finished, x, y, row⟩
  · exact absurd (same ▸ member') kept
  · rcases row.mem_cases member' with known | rfl
    · exact absurd known kept
    · exact absurd rfl ended
  · rcases moved.mem_cases member' with rfl | ⟨known, -⟩
    · exact absurd open_ ended
    · exact absurd known kept
  · rcases row.toMoved.mem_cases member' with rfl | ⟨known, -⟩
    · rw [← h.attemptIds.eq_of_key row.member member (row.id.symm.trans id)] at inside
      exact ⟨g, outcome, finished, x, b, row, inside⟩
    · exact absurd known kept

end Runs

/-- The stopping of one sequence at a world of a run that enrolled its members first. -/
structure StoppingFinal (hash : Hasher) (q : SequenceKey) (w : World) : Prop where
  /-- A terminal commit with a reached target, or one that leaves the limit consumed,
  stops the sequence. -/
  stops : ∀ label, ∀ a ∈ w.db.attempts, ∀ b ∈ (next hash w label).db.attempts,
    InSequence w.db a.slotId q → a.finishedAtNs = none → b.id = a.id → b.finishedAtNs ≠ none →
    (b.state = .accepted ∧ ReachedTarget (next hash w label).db b.id) ∨
      (∃ limit, Limited (next hash w label).db q limit ∧
        (limit : Int) ≤ spent (next hash w label).db q) →
    Stopped (next hash w label).db q
  stays : Stopped w.db q → ∀ labels, Meets (next hash) (EnrolledFirst hash q) w labels →
    Stopped (run (next hash) w labels).db q
  complete : Stopped w.db q → ∀ slot, InSequence w.db slot q →
    satisfied w.db slot ∨ ∃ d ∈ w.db.freshDispositions, d.slotId = slot
  exclusive : ∀ d ∈ w.db.freshDispositions, ¬satisfied w.db d.slotId
  /-- The causing attempt is of the sequence, has finished, and did what the reason says. -/
  caused : ∀ d ∈ w.db.freshDispositions, InSequence w.db d.slotId q →
    ∃ a ∈ w.db.attempts, a.id = d.causingAttemptId ∧ InSequence w.db a.slotId q ∧
      a.finishedAtNs ≠ none ∧ StoppedBy w.db q a d.reason
  /-- Dispositions are written by the commit that stops the open sequence. -/
  first : ∀ label, ∀ d ∈ (next hash w label).db.freshDispositions, d ∉ w.db.freshDispositions →
    InSequence (next hash w label).db d.slotId q →
    ¬Stopped w.db q ∧ (∃ a ∈ w.db.attempts, a.id = d.causingAttemptId ∧ a.finishedAtNs = none) ∧
      ∃ b ∈ (next hash w label).db.attempts, b.id = d.causingAttemptId ∧
        StoppedBy (next hash w label).db q b d.reason
  uniform : ∀ d ∈ w.db.freshDispositions, ∀ e ∈ w.db.freshDispositions,
    InSequence w.db d.slotId q → InSequence w.db e.slotId q →
    d.reason = e.reason ∧ d.causingAttemptId = e.causingAttemptId
  closed : Stopped w.db q → ∀ slot, InSequence w.db slot q → ∀ authorization lease now,
    ∃ e, Tx.atomically (reserve hash slot authorization lease now) w.db = (.error e, w.db)

theorem stopping_final_of_enrolled_first {hash : Hasher} {q : SequenceKey} {w : World}
    {labels : List Label} (start : w.Initial)
    (first : Meets (next hash) (EnrolledFirst hash q) w labels) :
    StoppingFinal hash q (run (next hash) w labels) := by
  have halting := start.halting first
  have reach : Reachable hash (run (next hash) w labels) := ⟨w, labels, start, rfl⟩
  generalize run (next hash) w labels = v at halting reach
  have h := reach.sound.db.toIntegrity
  refine ⟨?_, ?_, halting.complete, fun d member => (reach.disposed.closed d member).1,
    halting.caused, ?_, halting.uniform, ?_⟩
  · intro label a member b member' inside unfinished id ended cause
    have stepped := reach.sound.stepped label
    rcases cause with ⟨accepted, target⟩ | spending
    · left
      refine ⟨b, member', ?_, accepted, target⟩
      obtain ⟨x, there, later⟩ := stepped.grown.attempts.mem member
      rw [stepped.sound.db.attemptIds.eq_of_key member' there (id.trans later.id.symm),
        later.slotId]
      exact inside.grown stepped.grown
    · obtain ⟨g, outcome, finished, x, y, row, home⟩ :=
        reach.settledIn member member' inside unfinished id ended
      exact .inr ⟨row.inactive h reach.sequenced home, spending⟩
  · exact fun stopped later meets => halting.stopped_run reach stopped meets
  · intro label d member new home
    have stepped := reach.sound.stepped label
    have h' := stepped.sound.db.toIntegrity
    have settled : SettledIn v.db (next hash v label).db q := by
      by_contra other
      exact new (stepped.change.disposition_before h h' stepped.grown other member home).1
    have open_ : ¬Stopped v.db q := fun stopped =>
      halting.not_settled h reach.disposed stopped settled
    obtain ⟨g, outcome, finished, a, b, row, inside⟩ := settled
    obtain ⟨reason, cause, rows⟩ := row.dispositions
    obtain ⟨rfl, causing⟩ := halting.disposition_new h h' stepped.grown open_ rows member home
    refine ⟨open_, ⟨a, row.member, row.guard.trans causing.symm, row.toMoved.unfinished h⟩,
      b, row.toMoved.member', (row.id.trans row.guard).trans causing.symm, ?_⟩
    exact row.stoppedBy h h' reach.sequenced inside cause
  · intro stopped slot inside authorization lease now
    rcases Tx.atomically_cases (reserve hash slot authorization lease now) v.db with
      ⟨g, db', ran, -⟩ | ⟨e, -, outcome⟩
    · obtain ⟨rfl, row, -⟩ := yields_reserve ran
      exact absurd inside (halting.not_reserved h reach.sequenced stopped row)
    · exact ⟨e, outcome⟩

/-- The only attempt takes the whole millisecond and fails without a charge. -/
def stoppedRun : List Label := [
  .request (.registerFresh default sampleSpecification sampleSlot sampleObservationSlot
    samplePoint),
  .resume 0 (sampleReading 5 0),
  .request (.reserve sampleSlot.id .firstAttempt ⟨"lease-0", "owner", 60⟩ 10),
  .request (.reserveFreshTime (sampleGuard 0 0 10) none 11),
  .request (.beginFinalization (sampleGuard 0 0 10) ⟨"claim-0", "owner", 60⟩ 12),
  .request (.commitFinalization (sampleGuard 0 1 12) (.failed "worker_failed" (.object []))
    (sampleArtifact .attempt 2 13) [] 14)]

theorem stopping_final_of_stoppedRun :
    ((run (next sampleHash) (sampleWorld 3) stoppedRun).db.freshDispositions.map fun d =>
        (d.reason, d.causingAttemptId)) = [(.activeTimeLimit, sampleAttempt 0)] ∧
      StoppingFinal sampleHash (sampleSpecification.id, 0)
        (run (next sampleHash) (sampleWorld 3) stoppedRun) :=
  ⟨by decide +kernel, stopping_final_of_enrolled_first sampleWorld_initial (by decide +kernel)⟩

end Metewand.RunStore
