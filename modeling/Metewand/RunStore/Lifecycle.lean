import Mathlib.Data.List.Chain
import Metewand.RunStore.Steps

/-!
# The attempt state machine over whole runs

An attempt's history is the list of its transition rows.  `Chronicle db` says
that every history is a path of the allowed graph that ends in the attempt row,
that the retry indices of a slot count its attempts, and that a claim is held by
a finalizing attempt.  `Chronicle.step` keeps it along every `Change`.
-/

namespace Metewand.RunStore

open Lib

/-! ## Rows after a move -/

/-- A row of the new table is the moved row or an old row of another attempt. -/
theorem Moved.mem_cases {db db' : Db} {a b x : AttemptRow} (moved : Moved db db' a b)
    (member : x ∈ db'.attempts) : x = b ∨ (x ∈ db.attempts ∧ x.id ≠ a.id) := by
  rw [moved.attempts] at member
  obtain ⟨y, inside, rfl⟩ := List.mem_map.mp member
  unfold AttemptRow.replace
  split
  · exact .inl rfl
  · rename_i other
    exact .inr ⟨inside, other⟩

/-- Another attempt's row stays. -/
theorem Moved.mem_other {db db' : Db} {a b x : AttemptRow} (moved : Moved db db' a b)
    (member : x ∈ db.attempts) (other : x.id ≠ a.id) : x ∈ db'.attempts := by
  rw [moved.attempts]
  exact List.mem_map.mpr ⟨x, member, if_neg other⟩

/-- A move keeps what never changes in an attempt row. -/
theorem Moved.replace_fixed {db db' : Db} (h : Integrity db) {a b x : AttemptRow}
    (moved : Moved db db' a b) (member : x ∈ db.attempts) :
    (AttemptRow.replace a b x).id = x.id ∧ (AttemptRow.replace a b x).slotId = x.slotId ∧
      (AttemptRow.replace a b x).retryIndex = x.retryIndex := by
  unfold AttemptRow.replace
  split
  · rename_i same
    rw [h.attemptIds.eq_of_key member moved.member same]
    exact ⟨moved.id, moved.slotId, moved.retryIndex⟩
  · exact ⟨rfl, rfl, rfl⟩

/-- A row of the new table after a reservation. -/
theorem Reserved.mem_cases {hash : Hasher} {db db' : Db} {g : OwnedAttempt} {x : AttemptRow}
    (row : Reserved hash db db' g) (member : x ∈ db'.attempts) :
    x ∈ db.attempts ∨ x = ⟨g.id, g.slot, g.retryIndex, .reserved, 0, g.updatedAtNs,
      g.updatedAtNs, none, none, none⟩ := by
  rw [row.attempts] at member
  rcases List.mem_append.mp member with old | new
  · exact .inl old
  · exact .inr (List.mem_singleton.mp new)

/-! ## Retry indices -/

theorem max?_range_succ (n : Nat) : (List.range (n + 1)).max? = some n := by
  refine List.max?_eq_some_iff.mpr ⟨List.mem_range.mpr (Nat.lt_succ_self n), fun m member => ?_⟩
  exact Nat.lt_succ_iff.mp (List.mem_range.mp member)

/-- With consecutive indices, the next index is the number of attempts. -/
theorem nextIndex_of_range {db : Db} {slot : RecordId .resolvedAttemptSlot}
    (indices : retryIndices db slot = List.range (retryIndices db slot).length) :
    nextIndex db slot = (retryIndices db slot).length := by
  unfold nextIndex
  cases size : (retryIndices db slot).length with
  | zero =>
      rw [List.length_eq_zero_iff.mp size]
      rfl
  | succ n =>
      rw [indices, size, max?_range_succ]

theorem retryIndices_of_moved {db db' : Db} (h : Integrity db) {a b : AttemptRow}
    (moved : Moved db db' a b) (slot : RecordId .resolvedAttemptSlot) :
    retryIndices db' slot = retryIndices db slot := by
  have keeps := fun x (member : x ∈ db.attempts) => moved.replace_fixed h member
  unfold retryIndices
  rw [moved.attempts, List.filter_map, List.map_map]
  have same : db.attempts.filter
      ((fun x : AttemptRow => decide (x.slotId = slot)) ∘ AttemptRow.replace a b) =
      db.attempts.filter fun x => x.slotId = slot := by
    refine List.filter_congr fun x member => ?_
    simp only [Function.comp, (keeps x member).2.1]
  rw [same]
  refine List.map_congr_left fun x member => ?_
  exact (keeps x (List.mem_of_mem_filter member)).2.2

theorem retryIndices_of_reserved {hash : Hasher} {db db' : Db} {g : OwnedAttempt}
    (row : Reserved hash db db' g) (slot : RecordId .resolvedAttemptSlot) :
    retryIndices db' slot =
      retryIndices db slot ++ if g.slot = slot then [g.retryIndex] else [] := by
  unfold retryIndices
  rw [row.attempts, List.filter_append, List.map_append]
  congr 1
  by_cases same : g.slot = slot
  · simp [same]
  · simp [same]

/-! ## Histories -/

/-- The transition rows of an attempt, in the order they were written. -/
def history (db : Db) (id : RecordId .attempt) : List TransitionRow :=
  db.attemptTransitions.filter fun t => t.attemptId = id

/-- `u` continues `t` along an allowed edge, no earlier. -/
def TransitionRow.Precedes (t u : TransitionRow) : Prop :=
  u.fromState = some t.toState ∧ allowedTransition t.toState u.toState = true ∧
    t.occurredAtNs ≤ u.occurredAtNs

/-- The rows are a path from `reserved` to the attempt row. -/
structure History (rows : List TransitionRow) (a : AttemptRow) : Prop where
  revisions : rows.map TransitionRow.revision = List.range (a.revision + 1)
  start : ∀ t ∈ rows.head?, t.fromState = none ∧ t.toState = .reserved
  path : rows.IsChain TransitionRow.Precedes
  last : ∃ t, rows.getLast? = some t ∧ t.toState = a.state ∧ t.revision = a.revision ∧
    t.occurredAtNs = a.updatedAtNs

theorem History.reserved {g : OwnedAttempt} {sequence : Nat} :
    History [⟨g.id, 0, none, none, .reserved, g.updatedAtNs, sequence⟩]
      ⟨g.id, g.slot, g.retryIndex, .reserved, 0, g.updatedAtNs, g.updatedAtNs, none, none,
        none⟩ where
  revisions := rfl
  start := by
    intro t head
    obtain rfl := Option.some.inj head
    exact ⟨rfl, rfl⟩
  path := List.isChain_singleton _
  last := ⟨_, rfl, rfl, rfl, rfl⟩

/-- One more edge. -/
theorem History.moved {rows : List TransitionRow} {a b : AttemptRow} {sequence : Nat}
    (old : History rows a) (revision : b.revision = a.revision + 1)
    (edge : allowedTransition a.state b.state = true) (time : a.updatedAtNs ≤ b.updatedAtNs) :
    History (rows ++ [⟨a.id, b.revision, some a.revision, some a.state, b.state, b.updatedAtNs,
      sequence⟩]) b where
  revisions := by
    rw [List.map_append, old.revisions, revision]
    exact List.range_succ.symm
  start := by
    obtain ⟨t, last, -⟩ := old.last
    cases rows with
    | nil => cases last
    | cons head rest => exact old.start
  path := by
    obtain ⟨t, last, state, -, at_⟩ := old.last
    refine List.isChain_append.mpr ⟨old.path, List.isChain_singleton _, ?_⟩
    intro x isLast y isHead
    rw [last] at isLast
    obtain rfl := Option.some.inj isLast
    obtain rfl := Option.some.inj isHead
    exact ⟨by rw [state], by rw [state]; exact edge, by rw [at_]; exact time⟩
  last := ⟨_, List.getLast?_concat, rfl, rfl, rfl⟩

theorem history_append {db db' : Db} {row : TransitionRow}
    (appended : db'.attemptTransitions = db.attemptTransitions ++ [row])
    (id : RecordId .attempt) :
    history db' id = history db id ++ if row.attemptId = id then [row] else [] := by
  unfold history
  rw [appended, List.filter_append]
  congr 1
  by_cases same : row.attemptId = id
  · simp [same]
  · simp [same]

/-- Without an attempt there is no history. -/
theorem history_eq_nil {db : Db} (h : Integrity db) {id : RecordId .attempt}
    (new : ∀ a ∈ db.attempts, a.id ≠ id) : history db id = [] := by
  refine List.filter_eq_nil_iff.mpr fun t member => ?_
  obtain ⟨a, inside, same⟩ := h.transitionAttempt t member
  simp only [decide_eq_true_eq]
  exact fun owner => new a inside (same.trans owner)

/-! ## The invariant -/

/-- What a run keeps of the attempts, their histories and the claims. -/
structure Chronicle (db : Db) : Prop where
  indices : ∀ slot, retryIndices db slot = List.range (retryIndices db slot).length
  histories : ∀ a ∈ db.attempts, History (history db a.id) a
  claimants : ∀ c ∈ db.finalizationClaims, ∃ a ∈ db.attempts, a.id = c.attemptId ∧
    a.slotId = c.slotId ∧ a.state = .finalizing

theorem Chronicle.create (layout : Nat) : Chronicle (Db.create layout) where
  indices := fun _ => rfl
  histories := fun _ member => nomatch member
  claimants := fun _ member => nomatch member

/-- A claim is held by an attempt that is not the moving one. -/
theorem Chronicle.claimants_of_moved {db db' : Db} (old : Chronicle db)
    {a b : AttemptRow} (moved : Moved db db' a b) {c : ClaimRow}
    (member : c ∈ db.finalizationClaims) (other : c.attemptId ≠ a.id) :
    ∃ x ∈ db'.attempts, x.id = c.attemptId ∧ x.slotId = c.slotId ∧ x.state = .finalizing := by
  obtain ⟨x, inside, id, facts⟩ := old.claimants c member
  exact ⟨x, moved.mem_other inside (by rw [id]; exact other), id, facts⟩

/-- No edge but a terminal one leaves `finalizing`. -/
theorem terminal_of_finalizing {state : AttemptState}
    (edge : allowedTransition .finalizing state = true) : state.terminal = true := by
  cases state <;> simp_all [allowedTransition, AttemptState.terminal]

theorem Chronicle.not_claimant {db db' : Db} (h : Integrity db) (old : Chronicle db)
    {a b : AttemptRow} (moved : Moved db db' a b) (active : b.state.terminal = false)
    {c : ClaimRow} (member : c ∈ db.finalizationClaims) : c.attemptId ≠ a.id := by
  intro same
  obtain ⟨x, inside, id, -, finalizing⟩ := old.claimants c member
  obtain rfl := h.attemptIds.eq_of_key inside moved.member (id.trans same)
  have edge := moved.edge
  rw [finalizing] at edge
  rw [terminal_of_finalizing edge] at active
  cases active

theorem Change.claimants {hash : Hasher} {db db' : Db} {actor : Actor}
    (h : Integrity db) (old : Chronicle db) (change : Change hash db actor db') :
    ∀ c ∈ db'.finalizationClaims, ∃ a ∈ db'.attempts, a.id = c.attemptId ∧
      a.slotId = c.slotId ∧ a.state = .finalizing := by
  have untouched : ∀ {written : List Table}, SameBut written db db' → .attempts ∉ written →
      .finalizationClaims ∉ written → ∀ c ∈ db'.finalizationClaims, ∃ a ∈ db'.attempts,
        a.id = c.attemptId ∧ a.slotId = c.slotId ∧ a.state = .finalizing := by
    intro written same attempts claims
    rw [show db'.attempts = db.attempts from same.2 .attempts attempts,
      show db'.finalizationClaims = db.finalizationClaims from same.2 .finalizationClaims claims]
    exact old.claimants
  cases change with
  | idle => exact old.claimants
  | registered same => exact untouched same (by decide) (by decide)
  | enrolled row => exact untouched row.same (by decide) (by decide)
  | imported same => exact untouched same (by decide) (by decide)
  | reserved row =>
      rw [show db'.finalizationClaims = db.finalizationClaims from
        row.same.2 .finalizationClaims (by decide), row.attempts]
      exact fun c member => exists_append_one (old.claimants c member)
  | advanced row =>
      rw [show db'.finalizationClaims = db.finalizationClaims from
        row.same.2 .finalizationClaims (by decide)]
      exact fun c member => old.claimants_of_moved row.toMoved member
        (old.not_claimant h row.toMoved row.active' member)
  | @claimed _ a b row =>
      obtain ⟨lease, r, -, -, -, -, -, -, -, -, -, claims⟩ := row.leases
      rw [claims]
      have active : b.state.terminal = false := by
        rw [row.finalizing]
        rfl
      refine forall_append_one (fun c member => old.claimants_of_moved row.toMoved member
        (old.not_claimant h row.toMoved active member)) ?_
      exact ⟨b, row.toMoved.member', row.id, row.slotId, row.finalizing⟩
  | leased _ _ rows => exact untouched rows.same (by decide) (by decide)
  | observed row => exact untouched row.same (by decide) (by decide)
  | budgeted row => exact untouched row.same (by decide) (by decide)
  | charged row => exact untouched row.same (by decide) (by decide)
  | finished row =>
      rw [row.claims]
      intro c member
      obtain ⟨inside, other⟩ := List.mem_filter.mp member
      refine old.claimants_of_moved row.toMoved inside ?_
      rw [row.guard]
      simpa using other

/-- The step lemma: every change keeps the chronicle. -/
theorem Chronicle.step {hash : Hasher} {db db' : Db} {actor : Actor}
    (h : Integrity db) (old : Chronicle db) (change : Change hash db actor db') :
    Chronicle db' := by
  refine ⟨?_, ?_, change.claimants h old⟩
  · intro slot
    rcases change.attempts with ⟨same, -⟩ | ⟨g, row⟩ | ⟨a, b, moved⟩
    · unfold retryIndices
      rw [same]
      exact old.indices slot
    · rw [retryIndices_of_reserved row]
      split
      · rename_i here
        rw [row.index, here, nextIndex_of_range (old.indices slot), List.length_append,
          List.length_singleton, List.range_succ, ← old.indices slot]
      · rw [List.append_nil]
        exact old.indices slot
    · rw [retryIndices_of_moved h moved]
      exact old.indices slot
  · intro x member
    rcases change.attempts with ⟨same, rows⟩ | ⟨g, row⟩ | ⟨a, b, moved⟩
    · unfold history
      rw [rows]
      exact old.histories x (same ▸ member)
    · obtain ⟨sequence, appended⟩ := row.transitions
      rw [history_append appended]
      rcases row.mem_cases member with inside | rfl
      · rw [if_neg (Ne.symm (row.new x inside)), List.append_nil]
        exact old.histories x inside
      · rw [if_pos rfl, history_eq_nil h row.new]
        exact .reserved
    · obtain ⟨sequence, appended⟩ := moved.transitions
      rw [history_append appended]
      rcases moved.mem_cases member with rfl | ⟨inside, other⟩
      · rw [moved.id, if_pos rfl]
        exact (old.histories a moved.member).moved moved.revision moved.edge moved.time
      · rw [if_neg (Ne.symm other), List.append_nil]
        exact old.histories x inside

/-- The run lemma. -/
theorem Reachable.chronicle {hash : Hasher} {w : World} (reach : Reachable hash w) :
    Chronicle w.db :=
  reach.keeps .create fun sound _ old change => old.step sound.toIntegrity change

/-! ## The state machine -/

/-- A finished attempt is not the one a move starts from, so its row stays. -/
theorem Grown.terminal_mem {db db' : Db} (grown : Grown db db') {a : AttemptRow}
    (member : a ∈ db.attempts) (terminal : a.state.terminal = true) : a ∈ db'.attempts := by
  obtain ⟨b, inside, later⟩ := grown.attempts.mem member
  rw [later.fixed terminal] at inside
  exact inside

/-- A history that has not got longer is the same history. -/
theorem Grown.history_eq {db db' : Db} (grown : Grown db db') {a : AttemptRow}
    (old : History (history db a.id) a) (new : History (history db' a.id) a) :
    history db' a.id = history db a.id := by
  obtain ⟨kept, added, rows, same⟩ := grown.transitions
  obtain rfl : kept = db.attemptTransitions := (List.forall₂_eq_eq_eq ▸ same).symm
  have split : history db' a.id = history db a.id ++ added.filter fun t => t.attemptId = a.id := by
    unfold history
    rw [rows, List.filter_append]
  have sizes := congrArg List.length (old.revisions.trans new.revisions.symm)
  rw [List.length_map, List.length_map, split, List.length_append] at sizes
  have empty : (added.filter fun t => t.attemptId = a.id) = [] :=
    List.length_eq_zero_iff.mp (by omega)
  rw [split, empty, List.append_nil]

/-- An attempt row of the next database is an old one, a new reservation or a move. -/
theorem Change.accepted {hash : Hasher} {db db' : Db} {actor : Actor}
    (change : Change hash db actor db') {b : AttemptRow} (member : b ∈ db'.attempts)
    (accepted : b.state = .accepted) : b ∈ db.attempts ∨
      ∃ a ∈ db.attempts, a.id = b.id ∧ a.state = .finalizing ∧
        ∃ c ∈ db.finalizationClaims, c.slotId = a.slotId ∧ c.attemptId = a.id := by
  rcases change.attempts with ⟨same, -⟩ | ⟨g, row⟩ | ⟨a, b', moved⟩
  · exact .inl (same ▸ member)
  · rcases row.mem_cases member with old | rfl
    · exact .inl old
    · cases accepted
  · rcases moved.mem_cases member with rfl | ⟨old, -⟩
    · refine .inr ⟨a, moved.member, moved.id.symm, ?_, moved.claim accepted⟩
      have edge := moved.edge
      rw [accepted] at edge
      cases state : a.state <;> simp_all [allowedTransition]
    · exact .inl old

/-- The attempt state machine at one reachable world and along every run from it. -/
structure AttemptMachine (hash : Hasher) (w : World) : Prop where
  oneAccepted : ∀ a ∈ w.db.attempts, ∀ b ∈ w.db.attempts, a.slotId = b.slotId →
    a.state = .accepted → b.state = .accepted → a = b
  oneClaim : (w.db.finalizationClaims.map ClaimRow.slotId).Nodup
  indices : ∀ slot, retryIndices w.db slot = List.range (retryIndices w.db slot).length
  ids : (w.db.attempts.map AttemptRow.id).Nodup
  histories : ∀ a ∈ w.db.attempts, History (history w.db a.id) a
  final : ∀ a ∈ w.db.attempts, a.state.terminal = true →
    (∀ c ∈ w.db.finalizationClaims, c.attemptId ≠ a.id) ∧
      ∀ labels, a ∈ (run (next hash) w labels).db.attempts ∧
        history (run (next hash) w labels).db a.id = history w.db a.id
  accepting : ∀ label, ∀ b ∈ (next hash w label).db.attempts, b.state = .accepted →
    b ∈ w.db.attempts ∨ ∃ a ∈ w.db.attempts, a.id = b.id ∧ a.state = .finalizing ∧
      ∃ c ∈ w.db.finalizationClaims, c.slotId = a.slotId ∧ c.attemptId = a.id

theorem attempt_machine_of_reachable {hash : Hasher} {w : World} (reach : Reachable hash w) :
    AttemptMachine hash w := by
  have sound := reach.sound.db
  have chronicle := reach.chronicle
  refine ⟨?_, sound.claimSlots, chronicle.indices, sound.attemptIds, chronicle.histories, ?_, ?_⟩
  · intro a left b right slot accepted accepted'
    exact sound.attemptIds.eq_of_key left right
      (sound.acceptedOnce a left b right slot accepted accepted')
  · intro a member terminal
    refine ⟨fun c claim same => ?_, fun labels => ?_⟩
    · obtain ⟨x, inside, id, -, finalizing⟩ := chronicle.claimants c claim
      rw [← sound.attemptIds.eq_of_key inside member (id.trans same), finalizing] at terminal
      cases terminal
    · have grown := reach.grown labels
      have stays := grown.terminal_mem member terminal
      have later : Reachable hash (run (next hash) w labels) := Lib.Reachable.run reach labels
      exact ⟨stays, grown.history_eq (chronicle.histories a member)
        (later.chronicle.histories a stays)⟩
  · intro label b member accepted
    exact (reach.sound.stepped label).change.accepted member accepted

/-! ## A sample study

One specification with a few slots, under a hash that only looks at numbers. -/

/-- The number a document member adds to the sample hash. -/
def sampleWeight : Json → Nat
  | .num (.int value) => value.toNat
  | .obj (_ :: _ :: _ :: ("peak_rss_bytes", .num (.int value)) :: _) => value.toNat
  | _ => 0

def sampleDigest : Nat → Digest
  | 0 => .fill 0
  | 1 => .fill 1
  | 2 => .fill 2
  | 3 => .fill 3
  | _ => .fill 4

/-- A hash that tells the records of the sample runs apart. -/
def sampleHash : Hasher := fun _ value =>
  match value with
  | .obj members => sampleDigest (members.foldl (fun n member => n + sampleWeight member.2) 0)
  | _ => default

/-- A record under the identity it hashes to. -/
def identify {T : Type} {kind : IdentityKind} [IdentityRecord T kind] (hash : Hasher)
    (record : T) : IdentifiedRecord T kind :=
  ⟨(recordId hash record).toOption.getD default, record⟩

def sampleWorker : ResolvedWorkerRecord := ⟨none, default, default⟩

def sampleSpecification :
    IdentifiedRecord ResolvedOneShotSpecificationRecord .resolvedSpecification :=
  identify sampleHash ⟨none, default, default, sampleWorker, sampleWorker, default, 1, 1⟩

def sampleSlot : IdentifiedRecord ResolvedAttemptSlotRecord .resolvedAttemptSlot :=
  identify sampleHash ⟨default, sampleSpecification.id⟩

def sampleObservationSlot :
    IdentifiedRecord ResolvedObservationSlotRecord .resolvedObservationSlot :=
  identify sampleHash ⟨default, sampleSpecification.id⟩

/-- The attempt with the given retry index in the sample slot. -/
def sampleAttempt (retry : Nat) : RecordId .attempt :=
  (runAttemptId sampleHash sampleSlot.id retry).toOption.getD default

/-- A guard of the sample attempt; each attempt has its own reservation lease. -/
def sampleGuard (retry revision updated : Nat) : OwnedAttempt :=
  ⟨sampleAttempt retry, sampleSlot.id, retry, revision, updated, "lease-" ++ toString retry,
    "owner"⟩

def sampleReference : ArtifactReference := ⟨default, "result", default⟩

/-- An observation of an attempt; `rss` tells observations apart. -/
def sampleObservation (retry rss : Nat) (completion : CompletionStatus) :
    IdentifiedRecord RunObservationRecord .observation :=
  identify sampleHash ⟨none, sampleObservationSlot.id, sampleAttempt retry, sampleReference,
    sampleReference, ⟨.timedWallTime, ⟨0, 1, by decide⟩, none, ⟨0, 1, by decide⟩, none, some rss⟩,
    completion, ⟨"1", 1, 1, .null⟩⟩

/-- What a call finds outside the database: a published directory with this content. -/
def sampleReading (clock : Nat) (content : UInt8) : Reading :=
  ⟨clock, none, .fill content, default, ⟨.error .io, .error .io⟩, fun _ => .ok (), false⟩

def sampleArtifact (kind : ArtifactKind) (content : UInt8) (verified : Nat) :
    ArtifactRegistration :=
  publishStage kind (.fill content) default verified

def sampleWorld (layout : Nat) : World := ⟨Db.create layout, [], []⟩

theorem sampleWorld_initial : (sampleWorld 3).Initial := ⟨3, .inr (.inr rfl), rfl⟩

/-- Reserve the slot, win its claim and publish one observation artifact. -/
def sampleStart (retry now : Nat) (content : UInt8) : List Label := [
  .request (.reserve sampleSlot.id (.next true) ⟨"lease-" ++ toString retry, "owner", now + 50⟩ now),
  .request (.beginFinalization (sampleGuard retry 0 now)
    ⟨"claim-" ++ toString retry, "owner", now + 50⟩ (now + 1)),
  .request (.publishArtifact (sampleGuard retry 1 (now + 1)) .observation
    ("artifacts/.staging-" ++ toString retry) (now + 2)),
  .resume 0 (sampleReading (now + 3) content)]

/-- A one-shot study whose only attempt is accepted. -/
def acceptedRun : List Label :=
  .request (.registerOneShot default sampleSpecification sampleSlot sampleObservationSlot) ::
    sampleStart 0 10 1 ++ [
    .request (.registerObservation (sampleGuard 0 1 11) (sampleObservation 0 0 .notRequired)
      (sampleArtifact .observation 1 13) true 14),
    .request (.commitFinalization (sampleGuard 0 1 11) .accepted (sampleArtifact .attempt 2 15) []
      16)]

theorem attempt_machine_of_acceptedRun :
    (run (next sampleHash) (sampleWorld 3) acceptedRun).db.attempts.map AttemptRow.state =
        [.accepted] ∧
      AttemptMachine sampleHash (run (next sampleHash) (sampleWorld 3) acceptedRun) :=
  ⟨by decide +kernel, attempt_machine_of_reachable ⟨_, acceptedRun, sampleWorld_initial, rfl⟩⟩

end Metewand.RunStore
