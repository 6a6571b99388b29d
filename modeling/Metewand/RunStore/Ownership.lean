import Metewand.RunStore.Lifecycle

/-!
# Owners and recovery

Each attempt has one reservation lease for its whole life, and the lease of a
claim has the owner of the claimant's reservation (`Tenure`).  So the fence and
`expiredAttempt`, which are written independently, are complementary on every
guard of the current revision; a guard of an older revision writes nothing, and a
finished attempt is not written again.
-/

namespace Metewand.RunStore

open Lib

/-! ## Reservation leases -/

/-- The reservation leases: attempt, lease and owner, in reservation order. -/
def reservations (db : Db) : List (RecordId .attempt × String × String) :=
  (db.leases.filter fun l => l.purpose = .reservation).map fun l =>
    (l.attemptId, l.id, l.ownerToken)

theorem mem_reservations {db : Db} {l : LeaseRow} (member : l ∈ db.leases)
    (purpose : l.purpose = .reservation) :
    (l.attemptId, l.id, l.ownerToken) ∈ reservations db :=
  List.mem_map.mpr ⟨l, List.mem_filter.mpr ⟨member, by simp [purpose]⟩, rfl⟩

/-- Rows that keep their owner, purpose and attempt hold the same reservations. -/
theorem reservations_of_later {old new : List LeaseRow}
    (moved : List.Forall₂ LeaseRow.Later old new) :
    ((new.filter fun l => l.purpose = .reservation).map fun l =>
        (l.attemptId, l.id, l.ownerToken)) =
      (old.filter fun l => l.purpose = .reservation).map fun l =>
        (l.attemptId, l.id, l.ownerToken) := by
  induction moved with
  | nil => rfl
  | @cons l m _ _ head _ ih =>
      by_cases purpose : l.purpose = .reservation
      · simp [head.purpose, purpose, head.attemptId, head.id, head.ownerToken, ih]
      · simp [head.purpose, purpose, ih]

theorem reservations_append {db db' : Db} {kept new : List LeaseRow}
    (rows : db'.leases = kept ++ new) (moved : List.Forall₂ LeaseRow.Later db.leases kept)
    (others : ∀ l ∈ new, l.purpose ≠ .reservation) : reservations db' = reservations db := by
  have none : (new.filter fun l => l.purpose = .reservation) = [] :=
    List.filter_eq_nil_iff.mpr fun l member => by simpa using others l member
  unfold reservations
  rw [rows, List.filter_append, none, List.append_nil, reservations_of_later moved]

/-- Only reserving an attempt adds a reservation lease, and none is ever removed. -/
theorem Change.reservations {hash : Hasher} {db db' : Db} {actor : Actor}
    (change : Change hash db actor db') : reservations db' = reservations db ∨
      ∃ g, Reserved hash db db' g ∧
        reservations db' = reservations db ++ [(g.id, g.leaseId, g.ownerToken)] := by
  have untouched : ∀ {written : List Table}, SameBut written db db' → .leases ∉ written →
      RunStore.reservations db' = RunStore.reservations db := by
    intro written same leases
    unfold RunStore.reservations
    rw [show db'.leases = db.leases from same.2 .leases leases]
  have refl : List.Forall₂ LeaseRow.Later db.leases db.leases :=
    List.forall₂_same.mpr fun l _ => .rfl l
  cases change with
  | idle => exact .inl rfl
  | registered same => exact .inl (untouched same (by decide))
  | enrolled row => exact .inl (untouched row.same (by decide))
  | imported same => exact .inl (untouched same (by decide))
  | reserved row =>
      refine .inr ⟨_, row, ?_⟩
      obtain ⟨expires, rows⟩ := row.leases
      unfold RunStore.reservations
      rw [rows, List.filter_append, List.map_append]
      rfl
  | advanced row => exact .inl (untouched row.same (by decide))
  | claimed row =>
      obtain ⟨lease, r, -, -, -, -, -, -, purpose, -, rows, -⟩ := row.leases
      refine .inl (reservations_append rows refl fun l member => ?_)
      rw [List.mem_singleton.mp member, purpose]
      decide
  | leased _ _ rows =>
      obtain ⟨kept, new, leases, moved, staging⟩ := rows.leases
      refine .inl (reservations_append leases (moved.imp fun _ _ kept => kept.toLater) ?_)
      intro l member
      rw [staging l member]
      decide
  | observed row => exact .inl (untouched row.same (by decide))
  | budgeted row => exact .inl (untouched row.same (by decide))
  | charged row => exact .inl (untouched row.same (by decide))
  | finished row =>
      obtain ⟨released, rows⟩ := row.leases
      refine .inl (reservations_append (rows.trans (List.append_nil _).symm) ?_ ?_)
      · rw [List.forall₂_map_right_iff]
        exact List.forall₂_same.mpr fun l _ => LeaseRow.release_later _ _ l
      · exact fun _ member => absurd member List.not_mem_nil

/-- Who holds which lease. -/
structure Tenure (db : Db) : Prop where
  single : Keyed Prod.fst (reservations db)
  claimOwner : ∀ c ∈ db.finalizationClaims, ∃ f ∈ db.leases, f.id = c.leaseId ∧
    ∃ id, (c.attemptId, id, f.ownerToken) ∈ reservations db

theorem Tenure.create (layout : Nat) : Tenure (Db.create layout) where
  single := .nil
  claimOwner := fun _ member => nomatch member

theorem reservation_attempt {db : Db} (h : Integrity db)
    {entry : RecordId .attempt × String × String} (member : entry ∈ reservations db) :
    ∃ a ∈ db.attempts, a.id = entry.1 := by
  obtain ⟨l, inside, rfl⟩ := List.mem_map.mp member
  exact h.leaseAttempt l (List.mem_of_mem_filter inside)

theorem Tenure.step {hash : Hasher} {db db' : Db} {actor : Actor}
    (h : Integrity db) (grown : Grown db db') (old : Tenure db)
    (change : Change hash db actor db') : Tenure db' := by
  have keeps : ∀ entry ∈ reservations db, entry ∈ reservations db' := by
    intro entry member
    rcases change.reservations with same | ⟨g, -, appended⟩
    · rw [same]
      exact member
    · rw [appended]
      exact List.mem_append_left _ member
  have carry : ∀ c ∈ db.finalizationClaims, ∃ f ∈ db'.leases, f.id = c.leaseId ∧
      ∃ id, (c.attemptId, id, f.ownerToken) ∈ reservations db' := by
    intro c member
    obtain ⟨f, inside, id, lease, entry⟩ := old.claimOwner c member
    obtain ⟨f', inside', later⟩ := grown.leases.mem inside
    refine ⟨f', inside', later.id.trans id, lease, ?_⟩
    rw [later.ownerToken]
    exact keeps _ entry
  refine ⟨?_, ?_⟩
  · rcases change.reservations with same | ⟨g, row, appended⟩
    · rw [same]
      exact old.single
    · rw [appended]
      refine old.single.append_one fun entry member same => ?_
      obtain ⟨a, inside, id⟩ := reservation_attempt h member
      exact row.new a inside (id.trans same)
  · rcases change.claims with same | ⟨a, b, row⟩ | ⟨g, outcome, finished, a, b, row⟩
    · rw [same]
      exact carry
    · obtain ⟨lease, r, live, attempt, reservation, -, owner, -, -, -, rows, claims⟩ := row.leases
      rw [claims]
      refine forall_append_one carry ⟨lease, ?_, rfl, r.id, ?_⟩
      · rw [rows]
        exact List.mem_append_right _ (List.mem_singleton_self _)
      · have entry := keeps _ (mem_reservations live reservation)
        rw [attempt, ← owner] at entry
        exact entry
    · rw [row.claims]
      exact fun c member => carry c (List.mem_of_mem_filter member)

theorem Reachable.tenure {hash : Hasher} {w : World} (reach : Reachable hash w) : Tenure w.db :=
  reach.keeps .create fun sound grown old change => old.step sound.toIntegrity grown change

/-! ## The fence and expiration -/

section Complement

variable {hash : Hasher} {db : Db} {g : OwnedAttempt} {a : AttemptRow}

/-- The one reservation lease of an attempt is the one its guards name. -/
theorem Tenure.lease_eq (h : Integrity db) (tenure : Tenure db) {l m : LeaseRow}
    (left : l ∈ db.leases) (right : m ∈ db.leases) (purpose : l.purpose = .reservation)
    (purpose' : m.purpose = .reservation) (same : l.attemptId = m.attemptId) : l = m := by
  have entry := tenure.single.eq_of_key (mem_reservations left purpose)
    (mem_reservations right purpose') same
  exact h.leaseIds.eq_of_key left right (congrArg (fun e => e.2.1) entry)

theorem Fenced.not_expired (h : Integrity db) (tenure : Tenure db) {t : Nat} {l : LeaseRow}
    (updated : a.updatedAtNs = g.updatedAtNs) (fenced : Fenced db g t a) :
    ¬Expired db t a l := by
  intro expired
  obtain ⟨m, live, attempt, -, -, purpose, unreleased, later⟩ := fenced.live
  obtain rfl := tenure.lease_eq h expired.lease live expired.purpose purpose
    (expired.attempt.trans (fenced.row.1.trans attempt.symm))
  rw [← updated] at later
  rcases expired.lapsed with released | past | ⟨c, claim, f, lease, named, owner, lost⟩
  · exact released unreleased
  · omega
  · refine fenced.claim ⟨c, claim, f, lease, named, owner.trans fenced.row.1, ?_⟩
    rw [← updated]
    exact .inr lost

theorem Fenced.of_not_expired (h : Integrity db) (tenure : Tenure db) (issued : Issued db g)
    {t : Nat} (member : a ∈ db.attempts) (id : a.id = g.id) (revision : a.revision = g.revision)
    (active : a.finishedAtNs = none) (updated : a.updatedAtNs = g.updatedAtNs)
    (live : ∀ l, ¬Expired db t a l) : Fenced db g t a := by
  obtain ⟨l, lease, named, owner, attempt, purpose⟩ := issued.lease
  have current : ¬Lapsed db a l t := fun lapsed =>
    live l ⟨member, lease, attempt.trans id.symm, purpose, active, lapsed⟩
  have entry := mem_reservations lease purpose
  unfold Lapsed at current
  push Not at current
  obtain ⟨unreleased, later, claims⟩ := current
  obtain ⟨slot, retry, -⟩ := issued.slot_of_id h member id
  rw [updated] at later claims
  refine ⟨member, ⟨id, slot, retry, revision, active⟩,
    ⟨l, lease, attempt, named, owner, purpose, unreleased, later⟩, ?_⟩
  rintro ⟨c, claim, f, held, f_id, claimant, lost⟩
  obtain ⟨kept, kept'⟩ := claims c claim f held f_id (claimant.trans id.symm)
  obtain ⟨f', held', f_id', lid, entry'⟩ := tenure.claimOwner c claim
  obtain rfl := h.leaseIds.eq_of_key held held' (f_id.trans f_id'.symm)
  have same := tenure.single.eq_of_key entry entry' (attempt.trans claimant.symm)
  have owners : l.ownerToken = f.ownerToken := congrArg (fun e => e.2.2) same
  rcases lost with other | released | past
  · exact other (owners.symm.trans owner)
  · exact released kept
  · omega

/-- A guard of the current revision passes the fence exactly while the attempt is not
expired. -/
theorem fence_iff_not_expired (h : Sound hash db) (tenure : Tenure db) (issued : Issued db g)
    (member : a ∈ db.attempts) (id : a.id = g.id) (revision : a.revision = g.revision)
    (active : a.finishedAtNs = none) (t : Nat) :
    (∃ state, Tx.Yields (fence g t) db state db) ↔
      Tx.Yields (expiredAttempt hash a.id t) db none db := by
  have updated := issued.current h.toIntegrity h.projected member id revision
  constructor
  · rintro ⟨state, run⟩
    obtain ⟨-, x, fenced, -⟩ := yields_fence run
    obtain rfl := fenced.unique h.toIntegrity member id
    have none : expiredRow db a.id t = none := by
      cases found : expiredRow db a.id t with
      | none => rfl
      | some row =>
          obtain ⟨same, expired⟩ := expiredRow_some found
          obtain rfl := h.attemptIds.eq_of_key expired.member member same
          exact absurd expired (fenced.not_expired h.toIntegrity tenure updated)
    simp [expiredAttempt, none]
  · intro run
    rcases yields_expiredAttempt run with ⟨-, live⟩ | ⟨x, l, -, -, found⟩
    · exact fence_of_fenced issued.fits (.of_not_expired h.toIntegrity tenure issued member id
        revision active updated fun l => live a l rfl)
    · cases found

end Complement

/-! ## Stale guards -/

section Stale

variable {hash : Hasher} {db db' : Db} {g : OwnedAttempt}

/-- A request that succeeds has passed the fence with its guard. -/
theorem request_fenced (h : Sound hash db) {request : Request} {answer : Answer}
    (guard : request.guard = some g)
    (run : Tx.Yields (requestTransaction hash request) db answer db') :
    ∃ now a, Fenced db g now a := by
  cases request with
  | registerApplicability | registerOneShot | registerStreaming | registerBuffered
  | registerFresh | reserve | recover => cases guard
  | advance g' phase now =>
      cases guard
      obtain ⟨_, mid, ran, -⟩ := Tx.yields_bind.mp run
      obtain ⟨a, b, fenced, -⟩ := yields_advance h.toIntegrity h.projected ran
      exact ⟨_, a, fenced⟩
  | renew g' expires now =>
      cases guard
      obtain ⟨_, mid, ran, -⟩ := Tx.yields_bind.mp run
      exact ⟨_, (yields_renew ran).1⟩
  | beginFinalization g' lease now =>
      cases guard
      obtain ⟨_, mid, ran, -⟩ := Tx.yields_bind.mp run
      obtain ⟨a, b, fenced, -⟩ := yields_beginFinalization h.toIntegrity h.projected ran
      exact ⟨_, a, fenced⟩
  | registerObservation g' observation artifact select now =>
      cases guard
      obtain ⟨_, mid, ran, -⟩ := Tx.yields_bind.mp run
      obtain ⟨a, o, fenced, -⟩ := yields_registerObservation ran
      exact ⟨_, a, fenced⟩
  | commitFinalization g' outcome artifact references now =>
      cases guard
      obtain ⟨_, mid, ran, -⟩ := Tx.yields_bind.mp run
      obtain ⟨⟨a, b, done⟩, -⟩ := yields_commitFinalization h.toIntegrity h.projected ran
      exact ⟨_, a, done.fenced⟩
  | reserveFreshTime g' pointLimit now =>
      cases guard
      obtain ⟨_, mid, ran, -⟩ := Tx.yields_bind.mp run
      obtain ⟨a, fenced, -⟩ := yields_reserveFreshTime h.projected ran
      exact ⟨_, a, fenced⟩
  | recordFreshTime g' measured now =>
      cases guard
      obtain ⟨_, mid, ran, -⟩ := Tx.yields_bind.mp run
      obtain ⟨a, fenced, -⟩ := yields_recordFreshTime ran
      exact ⟨_, a, fenced⟩
  | publishArtifact g' kind relative now =>
      cases guard
      simp only [requestTransaction, Tx.yields_require_bind] at run
      obtain ⟨_, mid, ran, -⟩ := Tx.yields_bind.mp run.2
      exact ⟨_, (yields_stage ran).1⟩
  | publishFinalization g' outcome references relative now =>
      cases guard
      simp only [requestTransaction, Tx.yields_check_bind] at run
      obtain ⟨details, -, run⟩ := run
      obtain ⟨_, mid, ran, -⟩ := Tx.yields_bind.mp run
      exact ⟨_, (yields_stage ran).1⟩

/-- Every row of the guard's attempt is at a later revision. -/
def Stale (db : Db) (g : OwnedAttempt) : Prop :=
  ∀ a ∈ db.attempts, a.id = g.id → g.revision < a.revision

theorem Stale.not_fenced (stale : Stale db g) {now : Nat} {a : AttemptRow} :
    ¬Fenced db g now a := by
  intro fenced
  have later := stale a fenced.member fenced.row.1
  have revision := fenced.row.2.2.2.1
  omega

theorem Stale.request_fails (h : Sound hash db) (stale : Stale db g) {request : Request}
    (guard : request.guard = some g) : ∃ e, requestTransaction hash request db = .error e := by
  cases run : requestTransaction hash request db with
  | error e => exact ⟨e, rfl⟩
  | ok p =>
      obtain ⟨now, a, fenced⟩ := request_fenced h guard (show Tx.Yields _ db p.1 p.2 from run)
      exact absurd fenced stale.not_fenced

/-- A pass with a stale guard may still note a rejection, but it writes nothing. -/
theorem Stale.pass_idle (h : Sound hash db) (stale : Stale db g) {pass : Pass}
    {reading : Reading} {next : Pass ⊕ RecoveryReport} (sound : CallSound db (.recover pass))
    (guard : Call.guard (.recover pass) = some g)
    (run : Tx.Yields (pass.advance hash reading) db next db') : db' = db := by
  obtain ⟨-, local_⟩ := sound
  simp only [Call.guard] at guard
  revert local_
  unfold Pass.advance at run
  split at run <;> rename_i phase <;> rw [phase] at guard ⊢
  case h_5 orphan orphans valid attempts =>
      intro _
      obtain ⟨_, mid, checked, run⟩ := Tx.yields_bind.mp run
      obtain ⟨-, rfl⟩ := Tx.yields_pure.mp run
      simp only [Pass.checkNext, Tx.yields_get_bind] at checked
      split at checked
      · exact (Tx.yields_pure.mp checked).2
      · simp at checked
      · simp at checked
      · exact (Tx.yields_pure.mp checked).2
  case h_6 g' checked valid attempts =>
      intro facts
      cases guard
      obtain ⟨_, mid, concluded, run⟩ := Tx.yields_bind.mp run
      obtain ⟨-, rfl⟩ := Tx.yields_pure.mp run
      unfold Pass.conclude at concluded
      split at concluded
      · rename_i orphan evidence
        obtain ⟨_, first, intact, concluded⟩ := Tx.yields_bind.mp concluded
        obtain rfl : db = first := by
          have reads : Uses [] (Tx.each (fun root => Tx.check (reading.intact root))
            evidence.roots) := .each fun _ => .check
          exact (reads.readOnly intact).symm
        obtain ⟨_, last, importing, -⟩ := Tx.yields_bind.mp concluded
        obtain ⟨⟨a, b, done⟩, -⟩ := yields_importOutcome h.toIntegrity h.projected
          (facts.2 (orphan, evidence) (List.mem_singleton_self _)) importing
        have later := stale a done.member done.guard
        have revision := done.guardRevision
        omega
      · obtain ⟨failure, -, concluded⟩ := Uses.documentInterrupted.readOnly_bind concluded
        exact (Tx.yields_pure.mp concluded).2
  case h_7 g' failure attempts =>
      intro _
      cases guard
      obtain ⟨_, mid, failed, -⟩ := Tx.yields_bind.mp run
      obtain ⟨⟨a, b, done⟩, -⟩ := yields_failInterrupted h.toIntegrity h.projected failed
      have later := stale a done.member done.guard
      have revision := done.guardRevision
      omega
  all_goals cases guard

theorem Stale.call_idle (h : Sound hash db) (stale : Stale db g) {call : Call}
    {reading : Reading} {answer : Answer} (sound : CallSound db call)
    (guard : call.guard = some g)
    (run : Tx.Yields (resumeCall hash reading call) db answer db') : db' = db := by
  unfold resumeCall at run
  split at run
  · simp at run
  cases call with
  | registerMember => cases guard
  | publishArtifact g' kind stage =>
      cases guard
      obtain ⟨_, mid, ran, -⟩ := Tx.yields_bind.mp run
      obtain ⟨⟨a, fenced⟩, -⟩ := yields_publishArtifact h.toIntegrity ran
      exact absurd fenced stale.not_fenced
  | documentOutcome g' outcome references stage =>
      obtain ⟨_, -, run⟩ := Uses.outcomeDocument.readOnly_bind run
      exact (Tx.yields_pure.mp run).2
  | publishFinalization g' outcome references finished stage document =>
      cases guard
      obtain ⟨_, mid, ran, -⟩ := Tx.yields_bind.mp run
      obtain ⟨⟨a, b, done⟩, -⟩ := yields_publishFinalization h.toIntegrity h.projected ran
      exact absurd done.fenced stale.not_fenced
  | recover pass =>
      obtain ⟨next', mid, ran, run⟩ := Tx.yields_bind.mp run
      have same := stale.pass_idle h sound guard ran
      cases next' with
      | inl pass' => exact (Tx.yields_pure.mp run).2.trans same
      | inr report => exact (Tx.yields_pure.mp run).2.trans same

end Stale

/-! ## Finished attempts -/

/-- Nothing is done on behalf of a finished attempt. -/
theorem Change.of_finished {hash : Hasher} {db db' : Db} {actor : Actor} (h : Integrity db)
    {a : AttemptRow} (member : a ∈ db.attempts) (finished : a.finishedAtNs ≠ none)
    (named : actor.id = some a.id) (change : Change hash db actor db') : db' = db := by
  have terminal : a.state.terminal = true := by
    rw [← h.attemptFinish a member]
    exact Option.isSome_iff_ne_none.mpr finished
  have other : ∀ {x : AttemptRow}, x ∈ db.attempts → x.state.terminal = false → x.id ≠ a.id := by
    intro x inside active same
    rw [h.attemptIds.eq_of_key inside member same, terminal] at active
    cases active
  have other' : ∀ {x : AttemptRow}, x ∈ db.attempts → x.finishedAtNs = none → x.id ≠ a.id := by
    intro x inside active same
    rw [h.attemptIds.eq_of_key inside member same] at active
    exact finished active
  cases change with
  | idle => rfl
  | registered | enrolled | imported => cases named
  | reserved row => exact absurd (Option.some.inj named).symm (row.new a member)
  | advanced row => exact absurd (Option.some.inj named) (other row.member row.active)
  | claimed row => exact absurd (Option.some.inj named) (other row.member row.active)
  | leased _ active rows =>
      obtain ⟨x, inside, same, unfinished⟩ := active a.id named
      exact absurd same (other' inside unfinished)
  | observed row => exact absurd (Option.some.inj named) (other' row.member row.active)
  | budgeted row => exact absurd (Option.some.inj named) (other' row.member row.active)
  | charged row => exact absurd (Option.some.inj named) (other' row.member row.active)
  | finished row =>
      exact absurd (row.guard.trans (Option.some.inj named)) (other row.member row.active)

/-- In a chain whose links start outside `p`, only the last element can be in `p`. -/
theorem filter_of_isChain {α : Type} {r : α → α → Prop} {p : α → Bool}
    (links : ∀ {x y}, r x y → p x = false) {rows : List α} (chain : rows.IsChain r) :
    rows.filter p = rows.getLast?.toList.filter p := by
  induction rows with
  | nil => rfl
  | cons x rest ih =>
      cases rest with
      | nil => rfl
      | cons y tail =>
          obtain ⟨link, chain⟩ := List.isChain_cons_cons.mp chain
          rw [List.filter_cons, links link, if_neg Bool.false_ne_true, ih chain]
          rfl

/-- The terminal edges of a history: one when the attempt is finished, none before. -/
theorem History.terminals {rows : List TransitionRow} {a : AttemptRow} (past : History rows a) :
    (rows.filter fun t => t.toState.terminal).length = if a.state.terminal = true then 1 else 0 := by
  have links : ∀ {t u : TransitionRow}, t.Precedes u → t.toState.terminal = false := by
    intro t u link
    have edge := link.2.1
    cases state : t.toState <;> simp_all [allowedTransition, AttemptState.terminal]
  obtain ⟨t, last, state, -⟩ := past.last
  have only := filter_of_isChain (p := fun t : TransitionRow => t.toState.terminal) links past.path
  rw [only, last, ← state]
  by_cases terminal : t.toState.terminal = true
  · simp [terminal]
  · simp [terminal]

/-- The attempt a label's guard is for. -/
def Label.guard (w : World) : Label → Option OwnedAttempt
  | .request call => call.guard
  | .resume index _ => w.calls[index]?.bind Call.guard

/-- Owners and recovery never both settle an attempt, and one of them always may. -/
structure Complementary (hash : Hasher) (w : World) : Prop where
  exclusive : ∀ a ∈ w.db.attempts, a.finishedAtNs = none → ∀ g ∈ w.guards, g.id = a.id →
    g.revision = a.revision → ∀ t, (∃ state, Tx.Yields (fence g t) w.db state w.db) ↔
      Tx.Yields (expiredAttempt hash a.id t) w.db none w.db
  staleRequest : ∀ a ∈ w.db.attempts, ∀ g, g.id = a.id → g.revision < a.revision →
    ∀ request : Request, request.guard = some g →
      ∃ e, requestTransaction hash request w.db = .error e
  stale : ∀ a ∈ w.db.attempts, ∀ g, g.id = a.id → g.revision < a.revision →
    ∀ label : Label, label.guard w = some g → (next hash w label).db = w.db
  once : ∀ a ∈ w.db.attempts,
    ((history w.db a.id).filter fun t => t.toState.terminal).length =
      if a.finishedAtNs = none then 0 else 1
  losing : ∀ a ∈ w.db.attempts, a.finishedAtNs ≠ none → ∀ label : Label,
    (label.actor hash w).id = some a.id → (next hash w label).db = w.db

theorem Stale.of_lt {db : Db} (h : Integrity db) {g : OwnedAttempt} {a : AttemptRow}
    (member : a ∈ db.attempts) (id : g.id = a.id) (older : g.revision < a.revision) :
    Stale db g := by
  intro x inside same
  rw [h.attemptIds.eq_of_key inside member (same.trans id)]
  exact older

theorem complementary_of_reachable {hash : Hasher} {w : World} (reach : Reachable hash w) :
    Complementary hash w := by
  have sound := reach.sound
  refine ⟨?_, ?_, ?_, ?_, ?_⟩
  · intro a member active g held id revision t
    exact fence_iff_not_expired sound.db reach.tenure (sound.guards g held) member id.symm
      revision.symm active t
  · intro a member g id older request guard
    exact (Stale.of_lt sound.db.toIntegrity member id older).request_fails sound.db guard
  · intro a member g id older label guard
    have stale := Stale.of_lt sound.db.toIntegrity member id older
    refine next_idle fun transaction run => ?_
    cases label with
    | request request =>
        simp only [World.transaction] at transaction
        split at transaction
        · cases transaction
          obtain ⟨now, x, fenced⟩ := request_fenced sound.db guard run
          exact absurd fenced stale.not_fenced
        · cases transaction
    | resume index reading =>
        obtain ⟨call, at_, rfl⟩ := Option.map_eq_some_iff.mp transaction
        simp only [Label.guard, at_, Option.bind_some] at guard
        exact stale.call_idle sound.db (sound.calls call (List.mem_of_getElem? at_)) guard run
  · intro a member
    rw [(reach.chronicle.histories a member).terminals, ← sound.db.attemptFinish a member]
    cases a.finishedAtNs with
    | none => rfl
    | some time => rfl
  · intro a member finished label actor
    exact (sound.stepped label).change.of_finished sound.db.toIntegrity member finished actor

/-- An owner reserves the slot and goes silent; a pass takes the attempt over. -/
def takenOverRun : List Label := [
  .request (.registerOneShot default sampleSpecification sampleSlot sampleObservationSlot),
  .request (.reserve sampleSlot.id .firstAttempt ⟨"lease-0", "owner", 60⟩ 10),
  .request (.recover 100 [] (fun _ => .free) []),
  .resume 0 (sampleReading 100 0),
  .resume 0 (sampleReading 100 0)]

theorem complementary_of_takenOverRun :
    ((run (next sampleHash) (sampleWorld 3) takenOverRun).db.attempts.map fun a =>
        (a.state, a.revision)) = [(.finalizing, 1)] ∧
      (run (next sampleHash) (sampleWorld 3) takenOverRun).guards = [sampleGuard 0 0 10] ∧
      Complementary sampleHash (run (next sampleHash) (sampleWorld 3) takenOverRun) :=
  ⟨by decide +kernel, by decide +kernel,
    complementary_of_reachable ⟨_, takenOverRun, sampleWorld_initial, rfl⟩⟩

end Metewand.RunStore
