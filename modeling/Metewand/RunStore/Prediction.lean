import Metewand.RunStore.Documents

/-!
# The outcome document and the commit

The document of an accepted attempt is built before the commit that selects its
observations, and a buffered or fresh attempt's own observations are given the finish
time there.  `Foretold` says what the document then has in common with the committed
database: every row but the selection times, the selection times exactly when `Foreseen`
holds, and the reason for which a fresh sequence is stopped.

The commit also selects a stream's observations, which the document shows unselected, so
`Foreseen` fails for a stream that has an unselected observation of its own.
-/

namespace Metewand.RunStore

open Lib

/-! ## Entries by observation -/

/-- When an observation was selected, if it was. -/
def selectedAt (db : Db) (o : ObservationRow) : Option Nat :=
  (db.selectedObservations.find? fun s => s.observationId = o.id).map SelectionRow.selectedAtNs

/-- The observations a document with selections shows, in its order. -/
def shownRows (db : Db) (id : RecordId .attempt) : List ObservationRow :=
  (db.observations.filter fun o => o.producingAttemptId = id ∨
    ((selectedAt db o).isSome = true ∧ (boundSlots db id).contains o.slotId)).insertionSort
      fun a b => a.id.le b.id

/-- An observation has one entry. -/
theorem entriesOf_eq {db : Db} (h : Integrity db) (o : ObservationRow) :
    entriesOf db o = [⟨o, selectedAt db o⟩] := by
  have single := h.selectionObservations.filter_length_le_one o.id
  unfold entriesOf selectedAt
  rw [← List.head?_filter]
  cases rows : db.selectedObservations.filter fun s => s.observationId = o.id with
  | nil => rfl
  | cons s rest =>
      rw [rows, List.length_cons] at single
      have none_ : rest = [] := List.length_eq_zero_iff.mp (by omega)
      rw [none_]
      rfl

theorem observationJoin_eq {db : Db} (h : Integrity db) (id : RecordId .attempt) :
    observationJoin db id true = (shownRows db id).map fun o => ⟨o, selectedAt db o⟩ := by
  have entries : observationEntries db =
      db.observations.map fun o => (⟨o, selectedAt db o⟩ : ObservationEntry) := by
    rw [observationEntries_eq, ← List.flatMap_singleton' (db.observations.map _), List.flatMap_map]
    apply List.flatMap_congr
    intro o _
    exact entriesOf_eq h o
  unfold observationJoin shownRows
  rw [entries, List.filter_map, List.map_insertionSort (fun a b : ObservationRow => a.id.le b.id)
    (fun a b : ObservationEntry => a.row.id.le b.row.id)]
  · simp [Function.comp_def]
  · intro a _ b _
    exact Iff.rfl

/-! ## The commit -/

section Commit

variable {db db' : Db} {g : OwnedAttempt} {finished : Nat} {a b : AttemptRow}

theorem Finished.observations (done : Finished db db' g .accepted finished a b) :
    db'.observations = db.observations := done.same.2 .observations (by decide)

/-- The attempts keep their identities and slots. -/
theorem Moved.places (h : Integrity db) (moved : Moved db db' a b) :
    db'.attempts.map (fun x => (x.id, x.slotId)) = db.attempts.map fun x => (x.id, x.slotId) := by
  rw [moved.attempts, List.map_map]
  apply List.map_congr_left
  intro x member
  rcases moved.replace_fixed h member with ⟨id, slot, -⟩
  exact Prod.ext id slot

theorem boundSlots_places (d : Db) (id : RecordId .attempt) :
    boundSlots d id = (d.attempts.map fun x => (x.id, x.slotId)).flatMap fun place =>
      (d.attemptObservationSlots.filter fun m => place.1 = id ∧ m.attemptSlotId = place.2).map
        MembershipRow.observationSlotId := by
  rw [List.flatMap_map]
  rfl

theorem slotJoin_places (d : Db) (id : RecordId .attempt) :
    slotJoin d id = d.attemptSlots.flatMap fun s =>
      ((d.attempts.map fun x => (x.id, x.slotId)).filter fun place =>
        place.1 = id ∧ place.2 = s.id).map fun _ => s := by
  apply List.flatMap_congr
  intro s _
  rw [List.filter_map, List.map_map]
  rfl

/-- The commit leaves every other row of the snapshot as it was. -/
theorem Finished.joins (h : Integrity db) (done : Finished db db' g .accepted finished a b) :
    slotJoin db' g.id = slotJoin db g.id ∧ runJoin db' g.id = runJoin db g.id ∧
      decisionJoin db' g.id = decisionJoin db g.id ∧
      observationSlotJoin db' g.id = observationSlotJoin db g.id ∧
      boundSlots db' g.id = boundSlots db g.id := by
  have places := done.toMoved.places h
  have attemptSlots : db'.attemptSlots = db.attemptSlots := done.same.2 .attemptSlots (by decide)
  have runs : db'.resolvedRuns = db.resolvedRuns := done.same.2 .resolvedRuns (by decide)
  have decisions : db'.applicabilityDecisions = db.applicabilityDecisions :=
    done.same.2 .applicabilityDecisions (by decide)
  have observationSlots : db'.observationSlots = db.observationSlots :=
    done.same.2 .observationSlots (by decide)
  have memberships : db'.attemptObservationSlots = db.attemptObservationSlots :=
    done.same.2 .attemptObservationSlots (by decide)
  have slots : slotJoin db' g.id = slotJoin db g.id := by
    rw [slotJoin_places, slotJoin_places, places, attemptSlots]
  have runs' : runJoin db' g.id = runJoin db g.id := by
    unfold runJoin
    rw [slots, runs]
  have bound : boundSlots db' g.id = boundSlots db g.id := by
    rw [boundSlots_places, boundSlots_places, places, memberships]
  refine ⟨slots, runs', ?_, ?_, bound⟩
  · unfold decisionJoin
    rw [runs', decisions]
  · unfold observationSlotJoin
    rw [bound, observationSlots]

/-- What the commit selects is the attempt's own. -/
theorem Finished.selectedAt_other (h : Integrity db) (done : Finished db db' g .accepted finished a b)
    {o : ObservationRow} (member : o ∈ db.observations) (other : o.producingAttemptId ≠ g.id) :
    selectedAt db' o = selectedAt db o := by
  unfold selectedAt
  rw [← List.head?_filter, ← List.head?_filter, done.selections]
  unfold terminalSelections
  split
  · rw [filter_foldl_addSelection]
    intro s listed same
    rcases List.mem_map.mp listed with ⟨p, produced, rfl⟩
    rcases List.mem_filter.mp produced with ⟨inside, facts⟩
    have equal := h.observationIds.eq_of_key inside member same
    rw [equal] at facts
    exact other (of_decide_eq_true facts).1
  · rfl

theorem Finished.shownRows (h : Integrity db) (done : Finished db db' g .accepted finished a b) :
    shownRows db' g.id = RunStore.shownRows db g.id := by
  unfold RunStore.shownRows
  rw [done.observations, (done.joins h).2.2.2.2]
  congr 1
  apply List.filter_congr
  intro o member
  by_cases mine : o.producingAttemptId = g.id
  · simp [mine]
  · rw [done.selectedAt_other h member mine]

/-! ## What the commit selects -/

theorem selectedAt_of_mem {db : Db} (h : Integrity db) {s : SelectionRow}
    (member : s ∈ db.selectedObservations) {o : ObservationRow} (same : s.observationId = o.id) :
    selectedAt db o = some s.selectedAtNs := by
  unfold selectedAt
  rw [← same, h.selectionObservations.find_of_mem member]
  rfl

theorem mem_of_selectedAt {db : Db} {o : ObservationRow} {time : Nat}
    (selected : selectedAt db o = some time) :
    ∃ s ∈ db.selectedObservations, s.observationId = o.id ∧ s.selectedAtNs = time := by
  rcases Option.map_eq_some_iff.mp selected with ⟨s, found, is⟩
  exact ⟨s, List.mem_of_find?_eq_some found, by simpa using List.find?_some found, is⟩

/-- Selections of taken slots add nothing. -/
theorem foldl_addSelection_taken {new rows : List SelectionRow}
    (taken : ∀ n ∈ new, ∃ s ∈ rows, s.slotId = n.slotId) : new.foldl addSelection rows = rows := by
  induction new with
  | nil => rfl
  | cons n rest ih =>
      rcases List.forall_mem_cons.mp taken with ⟨here, later⟩
      rw [List.foldl_cons, addSelection, if_pos here]
      exact ih later

/-- What an accepting commit of a kind that selects rests on. -/
structure Selecting (db db' : Db) (g : OwnedAttempt) (finished : Nat) : Prop where
  before : Integrity db
  after : Integrity db'
  observations : db'.observations = db.observations
  selections : db'.selectedObservations =
    (trajectory db g.id finished).foldl addSelection db.selectedObservations
  /-- An attempt's observations are valid and in the slots bound to its own. -/
  produced : ∀ o ∈ db.observations, o.producingAttemptId = g.id → o ∈ producedValid db g.id ∧
    ∃ m ∈ db.attemptObservationSlots, m.attemptSlotId = g.slot ∧ m.observationSlotId = o.slotId
  free : ¬SelectionConflict db g

namespace Selecting

variable (commit : Selecting db db' g finished)

include commit

/-- The row of an own observation. -/
theorem row {o : ObservationRow} (member : o ∈ db.observations) (own : o.producingAttemptId = g.id) :
    (⟨o.slotId, o.id, finished⟩ : SelectionRow) ∈ trajectory db g.id finished :=
  List.mem_map.mpr ⟨o, (commit.produced o member own).1, rfl⟩

/-- A selection that is not new is of an own observation, if its slot is one of the attempt's. -/
theorem taken_own {s : SelectionRow} (member : s ∈ db.selectedObservations) {o : ObservationRow}
    (inside : o ∈ db.observations) (own : o.producingAttemptId = g.id) (slot : s.slotId = o.slotId) :
    ∃ p ∈ db.observations, p.producingAttemptId = g.id ∧ p.slotId = o.slotId ∧ s.observationId = p.id := by
  rcases commit.before.selectionTarget s member with ⟨p, inside', id, place, -⟩
  rcases (commit.produced o inside own).2 with ⟨m, bound, here, at_⟩
  refine ⟨p, inside', ?_, place.trans slot, id.symm⟩
  by_contra other
  exact commit.free ⟨s, member, p, inside', m, bound, id, at_.trans slot.symm, here, other⟩

/-- An earlier selection keeps its time. -/
theorem kept {o : ObservationRow} {time : Nat} (selected : selectedAt db o = some time) :
    selectedAt db' o = some time := by
  rcases mem_of_selectedAt selected with ⟨s, member, same, rfl⟩
  have still : s ∈ db'.selectedObservations := by
    rw [commit.selections]
    exact foldl_addSelection_subset member
  exact selectedAt_of_mem commit.after still same

/-- Two selected observations of one slot are one. -/
theorem single {o p : ObservationRow} (inside : o ∈ db.observations) (inside' : p ∈ db.observations)
    (slot : p.slotId = o.slotId) {time time' : Nat} (selected : selectedAt db' o = some time)
    (selected' : selectedAt db' p = some time') : p.id = o.id := by
  rcases mem_of_selectedAt selected with ⟨s, member, same, -⟩
  rcases mem_of_selectedAt selected' with ⟨t, member', same', -⟩
  rw [← commit.observations] at inside inside'
  have here := selection_slot commit.after member inside same.symm
  have there := selection_slot commit.after member' inside' same'.symm
  have equal := commit.after.selectionSlots.eq_of_key member member'
    (here.symm.trans (slot.symm.trans there))
  rw [← same, ← same', equal]

/-- After the commit every own observation is selected at its finish time exactly when
none was selected at another and no slot has two. -/
theorem all_selected_iff :
    (∀ o ∈ db.observations, o.producingAttemptId = g.id → selectedAt db' o = some finished) ↔
      ∀ o ∈ db.observations, o.producingAttemptId = g.id →
        (∀ time, selectedAt db o = some time → time = finished) ∧
        ∀ p ∈ db.observations, p.producingAttemptId = g.id → p.slotId = o.slotId → p.id = o.id := by
  constructor
  · intro all o member own
    refine ⟨fun time selected => ?_, fun p inside mine slot => ?_⟩
    · have now := all o member own
      rw [commit.kept selected] at now
      exact Option.some.inj now
    · exact commit.single member inside slot (all o member own) (all p inside mine)
  · intro alone o member own
    rcases alone o member own with ⟨time, only⟩
    cases selected : selectedAt db o with
    | some t =>
        rw [commit.kept selected, time t selected]
    | none =>
        -- Its slot gets a selection, and only its own can be the one.
        rcases @foldl_addSelection_covers _ db.selectedObservations _ (commit.row member own) with
          ⟨s, inside, slot⟩
        have still : s ∈ db'.selectedObservations := by
          rw [commit.selections]
          exact inside
        rcases mem_foldl_addSelection inside with old | new
        · rcases commit.taken_own old member own slot with ⟨p, inside', mine, place, same⟩
          have equal := only p inside' mine place
          have selected' := selectedAt_of_mem commit.before old (same.trans equal)
          rw [selected] at selected'
          cases selected'
        · rcases List.mem_map.mp new with ⟨p, produced, rfl⟩
          rcases List.mem_filter.mp produced with ⟨inside', facts⟩
          have equal := only p inside' (of_decide_eq_true facts).1 slot
          exact selectedAt_of_mem commit.after still equal

/-- The commit leaves the times of the own observations as they were exactly when their
slots were all taken. -/
theorem none_selected_iff :
    (∀ o ∈ db.observations, o.producingAttemptId = g.id → selectedAt db o = selectedAt db' o) ↔
      ∀ o ∈ db.observations, o.producingAttemptId = g.id →
        ∃ s ∈ db.selectedObservations, s.slotId = o.slotId := by
  constructor
  · intro same o member own
    rcases @foldl_addSelection_covers _ db.selectedObservations _ (commit.row member own) with
      ⟨s, inside, slot⟩
    have still : s ∈ db'.selectedObservations := by
      rw [commit.selections]
      exact inside
    rcases mem_foldl_addSelection inside with old | new
    · exact ⟨s, old, slot⟩
    · rcases List.mem_map.mp new with ⟨p, produced, rfl⟩
      rcases List.mem_filter.mp produced with ⟨inside', facts⟩
      have selected := selectedAt_of_mem commit.after still (Eq.refl p.id)
      rw [← same p inside' (of_decide_eq_true facts).1] at selected
      rcases mem_of_selectedAt selected with ⟨t, member', here, -⟩
      refine ⟨t, member', ?_⟩
      rw [← selection_slot commit.before member' inside' here.symm]
      exact slot
  · intro taken o member own
    have unchanged : db'.selectedObservations = db.selectedObservations := by
      rw [commit.selections]
      apply foldl_addSelection_taken
      intro n listed
      rcases List.mem_map.mp listed with ⟨p, produced, rfl⟩
      rcases List.mem_filter.mp produced with ⟨inside', facts⟩
      exact taken p inside' (of_decide_eq_true facts).1
    unfold selectedAt
    rw [unchanged]

end Selecting

end Commit

/-! ## The document -/

/-- When the document of an accepted attempt shows the selections the commit leaves. -/
def Foreseen (db : Db) (g : OwnedAttempt) (kind : SlotKind) (finished : Nat) : Prop :=
  match kind with
  | .oneShot => True
  | .buffered | .freshObservation =>
      ∀ o ∈ db.observations, o.producingAttemptId = g.id →
        (∀ time, selectedAt db o = some time → time = finished) ∧
        ∀ p ∈ db.observations, p.producingAttemptId = g.id → p.slotId = o.slotId → p.id = o.id
  | .stream =>
      ∀ o ∈ db.observations, o.producingAttemptId = g.id →
        ∃ s ∈ db.selectedObservations, s.slotId = o.slotId

/-- What an outcome document says of the commit that follows it. -/
structure Foretold (db db' : Db) (g : OwnedAttempt) (finished : Nat) (coordination : Json) :
    Prop where
  /-- Every row list but the observations is the committed one. -/
  document : ∃ members fresh reason,
    canonicalMembers (snapshotRows db' g.id (documentEntries db g .accepted finished)) = .ok members ∧
    coordination = (match fresh with
      | some fresh => (Json.object members).set "fresh" fresh
      | none => .object members) ∧
    (fresh = none ↔ membership db g.slot = none) ∧
    (∀ value, fresh = some value →
      value.get "disposition" = .ofOption (fun reason : DispositionReason => .str reason.name) reason) ∧
    db'.freshDispositions =
      (stopRows db g .accepted reason).foldl addDisposition db.freshDispositions
  selections : ∃ slot, db.attemptSlots.find? (fun s => s.id = g.slot) = some slot ∧
    (documentEntries db g .accepted finished = observationJoin db' g.id true ↔
      Foreseen db g slot.kind finished)

section Document

variable {db db' : Db} {g : OwnedAttempt} {finished : Nat} {a b : AttemptRow}

/-- The attempt's slot row is the one the snapshot reads. -/
theorem slotJoin_head (h : Integrity db) {slot : AttemptSlotRow} (member : a ∈ db.attempts)
    (id : a.id = g.id) (place : a.slotId = g.slot)
    (found : db.attemptSlots.find? (fun s => s.id = g.slot) = some slot) :
    (slotJoin db g.id).head? = some slot := by
  have only : ∀ s ∈ slotJoin db g.id, s = slot := by
    intro s inside
    rcases List.mem_flatMap.mp inside with ⟨t, listed, rows⟩
    rcases List.mem_map.mp rows with ⟨x, owner, rfl⟩
    rcases List.mem_filter.mp owner with ⟨attempt, facts⟩
    have facts := of_decide_eq_true facts
    have equal := h.attemptIds.eq_of_key attempt member (facts.1.trans id.symm)
    apply h.attemptSlotIds.eq_of_key listed (List.mem_of_find?_eq_some found)
    have named : slot.id = g.slot := by simpa using List.find?_some found
    rw [named, ← place, ← equal]
    exact facts.2.symm
  have some_ : slot ∈ slotJoin db g.id := by
    apply List.mem_flatMap.mpr
    refine ⟨slot, List.mem_of_find?_eq_some found, List.mem_map.mpr ⟨a, ?_, rfl⟩⟩
    apply List.mem_filter.mpr
    have named : slot.id = g.slot := by simpa using List.find?_some found
    exact ⟨member, by simp [id, place, named]⟩
  cases rows : slotJoin db g.id with
  | nil =>
      rw [rows] at some_
      cases some_
  | cons s rest =>
      rw [rows] at only
      exact congrArg some (only s List.mem_cons_self)

/-- The selection time a document shows. -/
def shownAt (db : Db) (g : OwnedAttempt) (kind : SlotKind) (finished : Nat) (o : ObservationRow) :
    Option Nat :=
  if kind.predictsSelection = true ∧ o.producingAttemptId = g.id then some finished else selectedAt db o

theorem documentEntries_eq (h : Integrity db) {slot : AttemptSlotRow} (member : a ∈ db.attempts)
    (id : a.id = g.id) (place : a.slotId = g.slot)
    (found : db.attemptSlots.find? (fun s => s.id = g.slot) = some slot) :
    documentEntries db g .accepted finished =
      (shownRows db g.id).map fun o => ⟨o, shownAt db g slot.kind finished o⟩ := by
  unfold documentEntries
  rw [slotJoin_head h member id place found]
  simp only [TerminalOutcome.includesSelected, true_and, Option.any_some]
  rw [observationJoin_eq h]
  by_cases predicts : slot.kind.predictsSelection = true
  · rw [if_pos predicts, List.map_map]
    apply List.map_congr_left
    intro o _
    unfold shownAt
    by_cases own : o.producingAttemptId = g.id <;> simp [predictSelection, own, predicts]
  · rw [if_neg predicts]
    apply List.map_congr_left
    intro o _
    unfold shownAt
    rw [if_neg fun both => predicts both.1]

/-- A stopping reason is decided by the rows. -/
theorem StopCause.unique (h : Integrity db) {outcome : TerminalOutcome}
    {reason reason' : Option DispositionReason} (cause : StopCause db g outcome reason)
    (cause' : StopCause db g outcome reason') : reason = reason' := by
  have same : ∀ {sequence sequence' : SequenceKey} {limit limit' used used' : Nat},
      membership db g.slot = some sequence → membership db g.slot = some sequence' →
      Allowance db sequence limit used → Allowance db sequence' limit' used' →
        limit = limit' ∧ used = used' := by
    intro sequence sequence' limit limit' used used' member member' allowed allowed'
    rw [member] at member'
    cases member'
    refine ⟨allowed.limited.unique h allowed'.limited, ?_⟩
    have total := allowed.used_eq.trans allowed'.used_eq.symm
    omega
  cases cause with
  | outside alone =>
      cases cause' with
      | outside | continues => rfl
      | target member | exhausted member =>
          rw [alone] at member
          cases member
  | target member accepted reached =>
      cases cause' with
      | outside alone =>
          rw [alone] at member
          cases member
      | target => rfl
      | exhausted _ short | continues _ short => exact absurd ⟨accepted, reached⟩ short
  | exhausted member short allowed back beyond =>
      cases cause' with
      | outside alone =>
          rw [alone] at member
          cases member
      | target _ accepted reached => exact absurd ⟨accepted, reached⟩ short
      | exhausted => rfl
      | continues member' _ allowed' _ under =>
          rcases same member member' allowed allowed' with ⟨rfl, rfl⟩
          omega
  | continues member short allowed back under =>
      cases cause' with
      | outside alone => rfl
      | target _ accepted reached => exact absurd ⟨accepted, reached⟩ short
      | exhausted member' _ allowed' _ beyond =>
          rcases same member member' allowed allowed' with ⟨rfl, rfl⟩
          omega
      | continues => rfl

/-- The fresh part of a snapshot names the reason of the commit. -/
theorem freshSnapshot_disposition {fresh : Option Json} {outcome : TerminalOutcome}
    (run : Tx.Yields (freshSnapshot g outcome) db fresh db) :
    (fresh = none ↔ membership db g.slot = none) ∧
      ∃ reason, StopCause db g outcome reason ∧ ∀ value, fresh = some value →
        value.get "disposition" = .ofOption (fun reason : DispositionReason => .str reason.name) reason := by
  simp only [freshSnapshot, Tx.yields_get_bind] at run
  cases found : membership db g.slot with
  | none =>
      simp only [found, Tx.yields_pure] at run
      rcases run with ⟨rfl, -⟩
      exact ⟨by simp, none, .outside found, fun _ no => by cases no⟩
  | some sequence =>
      simp only [found, yields_timestamp_bind, Tx.yields_expect_bind, Tx.yields_check_bind] at run
      rcases run with ⟨-, row, -, policy, -, run⟩
      rcases Uses.effect.readOnly_bind run with ⟨reason, caused, run⟩
      rcases Tx.yields_pure.mp run with ⟨rfl, -⟩
      refine ⟨by simp, reason, yields_effect caused, fun value is => ?_⟩
      cases is
      simp

theorem Settled.selecting (h : Integrity db) (h' : Integrity db') (grounded : Grounded db)
    (done : Settled db db' g .accepted finished a b) {slot : AttemptSlotRow}
    (acceptance : Acceptance db g slot) (selects : slot.kind.selectsAtCommit = true) :
    Selecting db db' g finished where
  before := h
  after := h'
  observations := done.toFinished.observations
  selections := by
    have kind : slotKind db g.slot = some slot.kind := by
      unfold slotKind
      rw [acceptance.found]
      rfl
    rw [done.selections, terminalSelections, kind, if_pos ⟨rfl, selects⟩]
  produced := by
    intro o member own
    rcases h.observationProducer o member with ⟨x, inside, id, place⟩
    rcases h.observationBound o member with ⟨m, bound, here, at_⟩
    have equal := h.attemptIds.eq_of_key inside done.member (id.trans (own.trans done.guard.symm))
    refine ⟨?_, m, bound, ?_, at_⟩
    · exact List.mem_filter.mpr ⟨member, by simp [own, grounded.valid o member]⟩
    · rw [here, ← place, equal, done.guardSlot]
  free := by
    by_cases warmup : slot.role = .warmup
    · have none_ := List.length_eq_zero_iff.mp (acceptance.warmup warmup)
      intro ⟨_, _, _, _, m, bound, _, _, here, _⟩
      have listed : m ∈ db.attemptObservationSlots.filter fun m => m.attemptSlotId = g.slot :=
        List.mem_filter.mpr ⟨bound, by simpa using here⟩
      rw [none_] at listed
      cases listed
    · exact (acceptance.selects warmup selects).2

/-- The times shown are the committed ones exactly when the attempt's own are. -/
theorem Settled.shown_iff (h : Integrity db) (done : Settled db db' g .accepted finished a b)
    (kind : SlotKind) :
    ((shownRows db g.id).map (fun o => (⟨o, shownAt db g kind finished o⟩ : ObservationEntry)) =
      (shownRows db g.id).map fun o => ⟨o, selectedAt db' o⟩) ↔
    ∀ o ∈ db.observations, o.producingAttemptId = g.id →
      shownAt db g kind finished o = selectedAt db' o := by
  have shown : ∀ o, o ∈ shownRows db g.id ↔ o ∈ db.observations ∧ (o.producingAttemptId = g.id ∨
      ((selectedAt db o).isSome = true ∧ o.slotId ∈ boundSlots db g.id)) := by
    intro o
    unfold shownRows
    rw [List.mem_insertionSort, List.mem_filter, decide_eq_true_eq, List.contains_iff_mem]
  rw [List.map_inj_left]
  constructor
  · intro same o member own
    exact congrArg ObservationEntry.selectedAtNs (same o ((shown o).mpr ⟨member, .inl own⟩))
  · intro same o listed
    rcases (shown o).mp listed with ⟨member, -⟩
    by_cases own : o.producingAttemptId = g.id
    · rw [same o member own]
    · unfold shownAt
      rw [if_neg fun both => own both.2, done.toFinished.selectedAt_other h member own]

/-- What the document shows of the selections is what the commit leaves, kind by kind. -/
theorem Settled.foreseen (h : Integrity db) (h' : Integrity db') (grounded : Grounded db)
    (done : Settled db db' g .accepted finished a b) {slot : AttemptSlotRow}
    (acceptance : Acceptance db g slot) :
    (∀ o ∈ db.observations, o.producingAttemptId = g.id →
      shownAt db g slot.kind finished o = selectedAt db' o) ↔ Foreseen db g slot.kind finished := by
  have predicted : slot.kind.selectsAtCommit = true → slot.kind.predictsSelection = true →
      ((∀ o ∈ db.observations, o.producingAttemptId = g.id →
        shownAt db g slot.kind finished o = selectedAt db' o) ↔
      ∀ o ∈ db.observations, o.producingAttemptId = g.id →
        (∀ time, selectedAt db o = some time → time = finished) ∧
        ∀ p ∈ db.observations, p.producingAttemptId = g.id → p.slotId = o.slotId → p.id = o.id) := by
    intro selects predicts
    rw [← (done.selecting h h' grounded acceptance selects).all_selected_iff]
    apply forall_congr'
    intro o
    apply forall₂_congr
    intro _ own
    unfold shownAt
    rw [if_pos ⟨predicts, own⟩]
    exact eq_comm
  cases kind : slot.kind with
  | oneShot =>
      rw [Foreseen, iff_true]
      intro o _ _
      have none_ : db'.selectedObservations = db.selectedObservations := by
        have named : slotKind db g.slot = some slot.kind := by
          unfold slotKind
          rw [acceptance.found]
          rfl
        rw [done.selections, terminalSelections, named, kind]
        rfl
      unfold shownAt selectedAt
      rw [none_]
      rfl
  | buffered =>
      rw [kind] at predicted
      exact predicted rfl rfl
  | freshObservation =>
      rw [kind] at predicted
      exact predicted rfl rfl
  | stream =>
      rw [Foreseen, ← (done.selecting h h' grounded acceptance (by rw [kind]; rfl)).none_selected_iff]
      rfl

/-- The commit after a snapshot that was read under it. -/
theorem foretold_of_settled (h : Integrity db) (h' : Integrity db') (grounded : Grounded db)
    (done : Settled db db' g .accepted finished a b) {coordination : Json}
    (read : Tx.Yields (coordinationSnapshot g .accepted finished) db coordination db) :
    Foretold db db' g finished coordination := by
  rcases done.acceptance rfl with ⟨slot, acceptance⟩
  have entries := @documentEntries_eq _ _ finished _ h _ done.member done.guard done.guardSlot
    acceptance.found
  have committed := observationJoin_eq h' g.id
  rw [done.toFinished.shownRows h] at committed
  constructor
  · simp only [coordinationSnapshot, Tx.yields_get_bind, Tx.yields_check_bind] at read
    rcases read with ⟨members, rows, run⟩
    rcases Uses.freshSnapshot.readOnly_bind run with ⟨fresh, snapshot, run⟩
    rcases freshSnapshot_disposition snapshot with ⟨member, reason, cause, shown⟩
    rcases done.dispositions with ⟨reason', cause', dispositions⟩
    rw [← cause.unique h cause'] at dispositions
    refine ⟨members, fresh, reason, ?_, ?_, member, shown, dispositions⟩
    · rcases done.toFinished.joins h with ⟨slots, runs, decisions, observed, -⟩
      unfold snapshotRows at rows ⊢
      rw [slots, runs, decisions, observed]
      exact rows
    · cases fresh with
      | none =>
          rcases Tx.yields_pure.mp run with ⟨is, -⟩
          rw [is]
      | some value =>
          rcases Tx.yields_pure.mp run with ⟨is, -⟩
          rw [is]
  · refine ⟨slot, acceptance.found, ?_⟩
    rw [entries, committed, done.shown_iff h, done.foreseen h h' grounded acceptance]

end Document

/-- Whether its owner or a recovery pass commits it, the document of an accepted attempt
foretells the commit. -/
theorem accepted_document_foretells {hash : Hasher} {w : World} (reach : Reachable hash w)
    {g : OwnedAttempt} (issued : Issued w.db g) :
    (∀ {references : List (String × String)} {finished : Nat} {stage : Stage} {document : Json}
      {content manifest : Digest} {clock : Nat} {terminal : TerminalAttempt} {db' : Db},
      Tx.Yields (publishFinalization g .accepted references finished stage document content manifest
        clock) w.db terminal db' →
      Foretold w.db db' g finished (document.get "coordination")) ∧
    ∀ {orphan : Orphan} {evidence : Evidence} {checked : Nat} {terminal : TerminalAttempt} {db' : Db},
      evidence.Parsed orphan → evidence.outcome = .accepted →
      Tx.Yields (importOutcome hash g orphan evidence checked) w.db terminal db' →
        Foretold w.db db' g evidence.finished (orphan.document.get "coordination") := by
  have h := reach.sound.db
  constructor
  · intro references finished stage document content manifest clock terminal db' run
    rcases yields_publishFinalization h.toIntegrity h.projected run with ⟨⟨a, b, done⟩, read, -⟩
    have after := Uses.publishFinalization.integrity run h.toIntegrity
    have settled : Settled w.db db' g .accepted finished a b := { done.toFinished with
      authority := .inl ⟨_, done.fenced⟩
      guardSlot := done.fenced.row.2.1
      guardTime := issued.current h.toIntegrity h.projected done.member done.guard
        done.guardRevision
      acceptance := done.acceptance }
    exact foretold_of_settled h.toIntegrity after reach.grounded settled read
  · intro orphan evidence checked terminal db' parsed accepted run
    have after := Uses.importOutcome.integrity run h.toIntegrity
    rcases yields_importOutcome h.toIntegrity h.projected parsed run with
      ⟨⟨a, b, done⟩, ⟨evidence', valid, outcome, -, finish⟩, -⟩
    rcases done.expired with ⟨l, expired⟩
    rw [accepted] at done outcome
    have settled : Settled w.db db' g .accepted evidence.finished a b := { done.toFinished with
      authority := .inr ⟨_, l, expired⟩
      guardSlot := (issued.slot_of_id h.toIntegrity done.member done.guard).1
      guardTime := issued.current h.toIntegrity h.projected done.member done.guard
        done.guardRevision
      acceptance := fun _ => valid.acceptance outcome }
    rcases yields_buildOutcomeDocument.mp valid.document with ⟨snapshot, built⟩
    have read := built.read
    rw [← built.coordination reach.controlled, outcome, finish] at read
    exact foretold_of_settled h.toIntegrity after reach.grounded settled read

theorem exists_yields_of_success {α : Type} {x : StoreTx α} {db : Db}
    (success : (x db).toBool = true) : ∃ a db', Tx.Yields x db a db' := by
  cases result : x db with
  | error e =>
      rw [result] at success
      cases success
  | ok p => exact ⟨p.1, p.2, result⟩

/-- A one-shot attempt has registered its observation and holds the stage of its outcome. -/
def endingRun : List Label :=
  .request (.registerOneShot default sampleSpecification sampleSlot sampleObservationSlot) ::
    sampleStart 0 10 1 ++ [
    .request (.registerObservation (sampleGuard 0 1 11) (sampleObservation 0 0 .notRequired)
      (sampleArtifact .observation 1 13) true 14),
    .request (.publishFinalization (sampleGuard 0 1 11) .accepted [] "artifacts/.staging-final" 15)]

def endingStage : Stage := ⟨"staging:artifacts/.staging-final", 15⟩

/-- The last two transactions of the publication that holds the stage. -/
def endingTx : StoreTx TerminalAttempt := do
  let document ← outcomeDocument (sampleGuard 0 1 11) .accepted [] 16 endingStage
  publishFinalization (sampleGuard 0 1 11) .accepted [] 16 endingStage document (.fill 2) default 16

theorem accepted_document_foretells_sample :
    ∃ document terminal db',
      Tx.Yields (publishFinalization (sampleGuard 0 1 11) .accepted [] 16 endingStage document
        (.fill 2) default 16) (run (next sampleHash) (sampleWorld 3) endingRun).db terminal db' ∧
      Foretold (run (next sampleHash) (sampleWorld 3) endingRun).db db' (sampleGuard 0 1 11) 16
        (document.get "coordination") := by
  have reach : Reachable sampleHash (run (next sampleHash) (sampleWorld 3) endingRun) :=
    ⟨_, endingRun, sampleWorld_initial, rfl⟩
  have issued : Issued (run (next sampleHash) (sampleWorld 3) endingRun).db
      (sampleGuard 0 1 11) :=
    reach.sound.guards _ (by decide +kernel)
  have success : (endingTx (run (next sampleHash) (sampleWorld 3) endingRun).db).toBool = true := by
    decide +kernel
  rcases exists_yields_of_success success with ⟨terminal, db', ran⟩
  rcases Uses.outcomeDocument.readOnly_bind ran with ⟨document, -, published⟩
  exact ⟨document, terminal, db', published,
    (accepted_document_foretells reach issued).1 published⟩

end Metewand.RunStore
