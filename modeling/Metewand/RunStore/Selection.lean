import Metewand.RunStore.Ownership

/-!
# Selections and their producers

A one-shot observation is selected while its attempt is still active; the other
kinds are selected by the terminal commit.  `Unspliced` is what the archive
demands of the result.  The store keeps it along the runs in which every terminal
commit `CommitsOwnResult`: an accepted attempt has at most one observation in a
slot, and an attempt that ends otherwise leaves no selection behind.
-/

namespace Metewand.RunStore

open Lib

/-! ## What every run keeps -/

/-- Observations are valid, and a claimed slot has no accepted attempt. -/
structure Grounded (db : Db) : Prop where
  valid : ∀ o ∈ db.observations, o.valid = true
  openClaims : ∀ c ∈ db.finalizationClaims, ¬satisfied db c.slotId

theorem Grounded.create (layout : Nat) : Grounded (Db.create layout) where
  valid := fun _ member => nomatch member
  openClaims := fun _ member => nomatch member

theorem Change.valid {hash : Hasher} {db db' : Db} {actor : Actor}
    (old : ∀ o ∈ db.observations, o.valid = true) (change : Change hash db actor db') :
    ∀ o ∈ db'.observations, o.valid = true := by
  rcases change.evidence with ⟨same, -⟩ | ⟨a, o, select, now, -, row⟩ |
    ⟨g, outcome, finished, a, b, -, row⟩
  · rw [same]
    exact old
  · rw [row.observations]
    exact forall_append_one old row.valid
  · rw [show db'.observations = db.observations from row.same.2 .observations (by decide)]
    exact old

/-- An accepted row after a move that is not the moved one was accepted before. -/
theorem Moved.satisfied_of_other {db db' : Db} {a b : AttemptRow} (moved : Moved db db' a b)
    {slot : RecordId .resolvedAttemptSlot} (after : satisfied db' slot)
    (other : b.state = .accepted → b.slotId ≠ slot) : satisfied db slot := by
  obtain ⟨x, member, at_, accepted⟩ := after
  rcases moved.mem_cases member with rfl | ⟨inside, -⟩
  · exact absurd at_ (other accepted)
  · exact ⟨x, inside, at_, accepted⟩

theorem Change.openClaims {hash : Hasher} {db db' : Db} {actor : Actor} (h : Integrity db)
    (h' : Integrity db') (chronicle' : Chronicle db')
    (old : ∀ c ∈ db.finalizationClaims, ¬satisfied db c.slotId)
    (change : Change hash db actor db') :
    ∀ c ∈ db'.finalizationClaims, ¬satisfied db' c.slotId := by
  rcases change.claims with same | ⟨a, b, row⟩ | ⟨g, outcome, finished, a, b, row⟩
  · intro c member after
    obtain ⟨x, inside, at_, accepted⟩ := after
    rcases change.accepted inside accepted with before | ⟨a, -, id, -, c', claim, slot, attempt⟩
    · exact old c (same ▸ member) ⟨x, before, at_, accepted⟩
    · -- the claim would still be held by an attempt that has just been accepted
      obtain ⟨y, holder, id', -, finalizing⟩ := chronicle'.claimants c' (same ▸ claim)
      have equal := h'.attemptIds.eq_of_key holder inside ((id'.trans attempt).trans id)
      rw [equal, accepted] at finalizing
      cases finalizing
  · obtain ⟨lease, r, -, -, -, -, -, -, -, -, -, claims⟩ := row.leases
    have back : ∀ {slot : RecordId .resolvedAttemptSlot}, satisfied db' slot → satisfied db slot :=
      fun after => row.toMoved.satisfied_of_other after fun accepted => by
        rw [row.finalizing] at accepted
        cases accepted
    rw [claims]
    exact forall_append_one (fun c member after => old c member (back after))
      fun after => row.unsatisfied (back after)
  · rw [row.claims]
    intro c member after
    obtain ⟨inside, other⟩ := List.mem_filter.mp member
    refine old c inside (row.toMoved.satisfied_of_other after fun accepted slot => ?_)
    obtain ⟨c', claim, slot', attempt⟩ := row.claim accepted
    have equal := h.claimSlots.eq_of_key claim inside
      (slot'.trans (row.slotId.symm.trans slot))
    rw [← equal, attempt, row.guard] at other
    simp at other

theorem Reachable.grounded {hash : Hasher} {w : World} (reach : Reachable hash w) :
    Grounded w.db := by
  refine reach.always .create fun w label before old => ?_
  have after := before.after label
  have change := (before.sound.stepped label).change
  exact ⟨change.valid old.valid, change.openClaims before.sound.db.toIntegrity
    after.sound.db.toIntegrity after.chronicle old.openClaims⟩

/-! ## Inserting selections -/

theorem mem_addSelection {rows : List SelectionRow} {row s : SelectionRow}
    (member : s ∈ addSelection rows row) : s ∈ rows ∨ s = row := by
  unfold addSelection at member
  split at member
  · exact .inl member
  · rcases List.mem_append.mp member with old | new
    · exact .inl old
    · exact .inr (List.mem_singleton.mp new)

theorem addSelection_subset {rows : List SelectionRow} {row s : SelectionRow}
    (member : s ∈ rows) : s ∈ addSelection rows row := by
  unfold addSelection
  split
  · exact member
  · exact List.mem_append_left _ member

/-- After the insertion the row's slot has a selection. -/
theorem addSelection_covers (rows : List SelectionRow) (row : SelectionRow) :
    ∃ s ∈ addSelection rows row, s.slotId = row.slotId := by
  unfold addSelection
  split
  · rename_i taken
    exact taken
  · exact ⟨row, List.mem_append_right _ (List.mem_singleton_self _), rfl⟩

theorem mem_foldl_addSelection {new rows : List SelectionRow} {s : SelectionRow}
    (member : s ∈ new.foldl addSelection rows) : s ∈ rows ∨ s ∈ new := by
  induction new generalizing rows with
  | nil => exact .inl member
  | cons row rest ih =>
      rcases ih member with old | later
      · rcases mem_addSelection old with before | rfl
        · exact .inl before
        · exact .inr List.mem_cons_self
      · exact .inr (List.mem_cons_of_mem _ later)

theorem foldl_addSelection_subset {new rows : List SelectionRow} {s : SelectionRow}
    (member : s ∈ rows) : s ∈ new.foldl addSelection rows := by
  induction new generalizing rows with
  | nil => exact member
  | cons row rest ih => exact ih (addSelection_subset member)

theorem foldl_addSelection_covers {new rows : List SelectionRow} {row : SelectionRow}
    (member : row ∈ new) : ∃ s ∈ new.foldl addSelection rows, s.slotId = row.slotId := by
  induction new generalizing rows with
  | nil => exact absurd member List.not_mem_nil
  | cons head rest ih =>
      rcases List.mem_cons.mp member with rfl | later
      · obtain ⟨s, inside, slot⟩ := addSelection_covers rows row
        refine ⟨s, ?_, slot⟩
        rw [List.foldl_cons]
        exact foldl_addSelection_subset inside
      · exact ih later

/-! ## Producers of selections -/

/-- Accepted attempts have selected what they produced, and the producer of a
selection is accepted or still holds the claim it was selected under. -/
structure Attributed (db : Db) : Prop where
  complete : ∀ a ∈ db.attempts, a.state = .accepted → ∀ o ∈ db.observations,
    o.producingAttemptId = a.id → ∃ s ∈ db.selectedObservations, s.observationId = o.id
  producer : ∀ s ∈ db.selectedObservations, ∀ o ∈ db.observations, o.id = s.observationId →
    ∃ a ∈ db.attempts, a.id = o.producingAttemptId ∧
      (a.state = .accepted ∨ ∃ c ∈ db.finalizationClaims, c.attemptId = a.id)

theorem Attributed.create (layout : Nat) : Attributed (Db.create layout) where
  complete := fun _ member => nomatch member
  producer := fun _ member => nomatch member

section Producers

variable {db db' : Db}

/-- An observation in a slot bound to an attempt slot was made in that attempt slot. -/
theorem attemptSlot_of_bound (h : Integrity db) {o : ObservationRow} (member : o ∈ db.observations)
    {m : MembershipRow} (bound : m ∈ db.attemptObservationSlots)
    (slot : m.observationSlotId = o.slotId) : o.attemptSlotId = m.attemptSlotId := by
  obtain ⟨m', inside, attempt, slot'⟩ := h.observationBound o member
  rw [← attempt, h.membershipIds.eq_of_key inside bound (slot'.trans slot.symm)]

/-- The selected observation of a selection. -/
theorem selection_slot (h : Integrity db) {s : SelectionRow} (member : s ∈ db.selectedObservations)
    {o : ObservationRow} (inside : o ∈ db.observations) (same : o.id = s.observationId) :
    o.slotId = s.slotId := by
  obtain ⟨o', inside', id, slot, -⟩ := h.selectionTarget s member
  rw [h.observationIds.eq_of_key inside inside' (same.trans id.symm)]
  exact slot

/-- In a slot with an accepted attempt, a selection can only be that attempt's. -/
theorem own_of_producer (h : Integrity db) (grounded : Grounded db)
    (producer : ∀ s ∈ db.selectedObservations, ∀ o ∈ db.observations, o.id = s.observationId →
      ∃ a ∈ db.attempts, a.id = o.producingAttemptId ∧
        (a.state = .accepted ∨ ∃ c ∈ db.finalizationClaims, c.attemptId = a.id))
    {a : AttemptRow} (member : a ∈ db.attempts) (accepted : a.state = .accepted)
    {m : MembershipRow} (bound : m ∈ db.attemptObservationSlots)
    (here : m.attemptSlotId = a.slotId) {s : SelectionRow} (selected : s ∈ db.selectedObservations)
    (slot : s.slotId = m.observationSlotId) {o : ObservationRow} (inside : o ∈ db.observations)
    (same : o.id = s.observationId) : o.producingAttemptId = a.id := by
  have made : o.attemptSlotId = a.slotId := by
    rw [← here]
    exact attemptSlot_of_bound h inside bound
      (slot.symm.trans (selection_slot h selected inside same).symm)
  obtain ⟨p, maker, id, finished⟩ := producer s selected o inside same
  obtain ⟨p', maker', id', slot'⟩ := h.observationProducer o inside
  have home : p.slotId = a.slotId := by
    rw [h.attemptIds.eq_of_key maker maker' (id.trans id'.symm), slot', made]
  rcases finished with accepted' | ⟨c, claim, held⟩
  · rw [← id]
    exact h.acceptedOnce p maker a member home accepted' accepted
  · obtain ⟨q, holder, id'', slot''⟩ := h.claimAttempt c claim
    have equal := h.attemptIds.eq_of_key holder maker (id''.trans held)
    refine absurd ⟨a, member, ?_, accepted⟩ (grounded.openClaims c claim)
    rw [← slot'', equal, home]

end Producers

/-! ## The condition -/

/-- The commit of an outcome leaves only the attempt's own, complete result. -/
def OwnResult (db : Db) (g : OwnedAttempt) (outcome : TerminalOutcome) : Prop :=
  if outcome = .accepted then
    ∀ o ∈ db.observations, ∀ p ∈ db.observations, o.producingAttemptId = g.id →
      p.producingAttemptId = g.id → o.slotId = p.slotId → o.id = p.id
  else
    ∀ s ∈ db.selectedObservations, ∀ o ∈ db.observations, o.id = s.observationId →
      o.producingAttemptId ≠ g.id

instance (db : Db) (g : OwnedAttempt) (outcome : TerminalOutcome) :
    Decidable (OwnResult db g outcome) := by
  unfold OwnResult
  infer_instance

/-- A step that commits an outcome commits the attempt's own result. -/
def CommitsOwnResult (hash : Hasher) (w : World) (label : Label) : Prop :=
  match label.actor hash w with
  | .finishing g outcome => OwnResult w.db g outcome
  | _ => True

instance (hash : Hasher) (w : World) (label : Label) :
    Decidable (CommitsOwnResult hash w label) := by
  unfold CommitsOwnResult
  split <;> infer_instance

theorem CommitsOwnResult.result {hash : Hasher} {w : World} {label : Label}
    (clean : CommitsOwnResult hash w label) {g : OwnedAttempt} {outcome : TerminalOutcome}
    (actor : label.actor hash w = .finishing g outcome) : OwnResult w.db g outcome := by
  unfold CommitsOwnResult at clean
  rw [actor] at clean
  exact clean

/-! ## The step -/

theorem Settled.accepted_iff {db db' : Db} {g : OwnedAttempt} {outcome : TerminalOutcome}
    {finished : Nat} {a b : AttemptRow} (row : Settled db db' g outcome finished a b) :
    b.state = .accepted ↔ outcome = .accepted := by
  rw [row.target]
  cases outcome <;> simp [TerminalOutcome.state]

theorem terminalSelections_of_not {db : Db} {g : OwnedAttempt} {outcome : TerminalOutcome}
    {finished : Nat} (other : outcome ≠ .accepted) :
    terminalSelections db g outcome finished = db.selectedObservations :=
  if_neg fun both => other both.1

section Step

variable {hash : Hasher} {db db' : Db} {actor : Actor}

/-- An old selection's producer after a terminal commit of another attempt. -/
theorem Settled.producer_other {g : OwnedAttempt} {outcome : TerminalOutcome} {finished : Nat}
    {a b p : AttemptRow} (row : Settled db db' g outcome finished a b) (member : p ∈ db.attempts)
    (other : p.id ≠ a.id)
    (kept : p.state = .accepted ∨ ∃ c ∈ db.finalizationClaims, c.attemptId = p.id) :
    p ∈ db'.attempts ∧
      (p.state = .accepted ∨ ∃ c ∈ db'.finalizationClaims, c.attemptId = p.id) := by
  refine ⟨row.toMoved.mem_other member other, ?_⟩
  rcases kept with accepted | ⟨c, claim, held⟩
  · exact .inl accepted
  · refine .inr ⟨c, ?_, held⟩
    rw [row.claims]
    refine List.mem_filter.mpr ⟨claim, ?_⟩
    rw [held, ← row.guard]
    simpa using other

theorem Change.producer (h : Integrity db) (h' : Integrity db') (grown : Grown db db')
    (old : Attributed db)
    (clean : ∀ g outcome, actor = .finishing g outcome → OwnResult db g outcome)
    (change : Change hash db actor db') :
    ∀ s ∈ db'.selectedObservations, ∀ o ∈ db'.observations, o.id = s.observationId →
      ∃ a ∈ db'.attempts, a.id = o.producingAttemptId ∧
        (a.state = .accepted ∨ ∃ c ∈ db'.finalizationClaims, c.attemptId = a.id) := by
  rcases change.evidence with ⟨observations, selections, claims⟩ | ⟨a, o, select, now, -, row⟩ |
    ⟨g, outcome, finished, a, b, rfl, row⟩
  · rw [observations, selections]
    intro s selected o inside same
    obtain ⟨p, maker, id, accepted | ⟨c, claim, held⟩⟩ := old.producer s selected o inside same
    · exact ⟨p, grown.terminal_mem maker (by rw [accepted]; rfl), id, .inl accepted⟩
    · obtain ⟨q, holder, id', -⟩ := h'.claimAttempt c (claims c claim)
      exact ⟨q, holder, id'.trans (held.trans id), .inr ⟨c, claims c claim, id'.symm⟩⟩
  · rw [show db'.attempts = db.attempts from row.same.2 .attempts (by decide),
      show db'.finalizationClaims = db.finalizationClaims from
        row.same.2 .finalizationClaims (by decide), row.observations, row.selections]
    have kept : ∀ s ∈ db.selectedObservations, ∀ x ∈ db.observations ++ [o],
        x.id = s.observationId → ∃ p ∈ db.attempts, p.id = x.producingAttemptId ∧
          (p.state = .accepted ∨ ∃ c ∈ db.finalizationClaims, c.attemptId = p.id) := by
      intro s selected x inside same
      rcases List.mem_append.mp inside with before | added
      · exact old.producer s selected x before same
      · obtain ⟨o', inside', id, -⟩ := h.selectionTarget s selected
        rw [List.mem_singleton.mp added] at same
        exact absurd (id.trans same.symm) (row.new o' inside')
    intro s selected x inside same
    split at selected
    · rename_i chosen
      rcases mem_addSelection selected with before | rfl
      · exact kept s before x inside same
      · rcases List.mem_append.mp inside with before | added
        · exact absurd same (row.new x before)
        · obtain ⟨c, claim, -, held⟩ := row.claim chosen
          rw [List.mem_singleton.mp added]
          exact ⟨a, row.member, row.producer.symm, .inr ⟨c, claim, held⟩⟩
    · exact kept s selected x inside same
  · have result := clean g outcome rfl
    unfold OwnResult at result
    rw [show db'.observations = db.observations from row.same.2 .observations (by decide),
      row.selections]
    intro s selected o inside same
    by_cases accepted : outcome = .accepted
    · have finished' : b.state = .accepted := row.accepted_iff.mpr accepted
      have before : s ∈ db.selectedObservations ∨ s ∈ trajectory db g.id finished := by
        unfold terminalSelections at selected
        split at selected
        · exact mem_foldl_addSelection selected
        · exact .inl selected
      rcases before with older | added
      · obtain ⟨p, maker, id, kept⟩ := old.producer s older o inside same
        by_cases self : p.id = a.id
        · exact ⟨b, row.toMoved.member', row.id.trans (self.symm.trans id), .inl finished'⟩
        · obtain ⟨maker', kept'⟩ := row.producer_other maker self kept
          exact ⟨p, maker', id, kept'⟩
      · obtain ⟨o', produced, rfl⟩ := List.mem_map.mp added
        obtain ⟨inside', mine⟩ := List.mem_filter.mp produced
        simp only [decide_eq_true_eq] at mine
        rw [h.observationIds.eq_of_key inside inside' same, mine.1, ← row.guard]
        exact ⟨b, row.toMoved.member', row.id, .inl finished'⟩
    · rw [if_neg accepted] at result
      rw [terminalSelections_of_not accepted] at selected
      obtain ⟨p, maker, id, kept⟩ := old.producer s selected o inside same
      have other : p.id ≠ a.id := by
        rw [id, row.guard]
        exact result s selected o inside same
      obtain ⟨maker', kept'⟩ := row.producer_other maker other kept
      exact ⟨p, maker', id, kept'⟩

/-- A join of a bound slot with its selection yields at most one row. -/
theorem completeRows_le_one (h : Integrity db) {g : OwnedAttempt} {kind : SlotKind}
    (m : MembershipRow) :
    ((db.selectedObservations.filter fun s => s.slotId = m.observationSlotId).flatMap fun s =>
      (db.observations.filter fun o => o.id = s.observationId ∧ o.valid = true).flatMap fun o =>
        ((db.artifacts.filter fun a => a.id = o.artifactId ∧ a.kind = .observation).filter fun _ =>
          kind = .stream ∨ ProducedIn db g m.observationSlotId).map fun _ => m).length ≤ 1 := by
  refine length_flatMap_le_one (h.selectionSlots.filter_length_le_one _) fun s _ => ?_
  refine length_flatMap_le_one ?_ fun o _ => ?_
  · refine le_trans (List.Sublist.length_le ?_)
      (h.observationIds.filter_length_le_one s.observationId)
    exact List.monotone_filter_right _ (by simp +contextual)
  · rw [List.length_map]
    refine le_trans (List.length_filter_le _ _) ?_
    refine le_trans (List.Sublist.length_le ?_) (h.artifactIds.filter_length_le_one o.artifactId)
    exact List.monotone_filter_right _ (by simp +contextual)

/-- An acceptance that rests on earlier selections has one in every bound slot. -/
theorem selected_of_completeRows (h : Integrity db) {g : OwnedAttempt} {kind : SlotKind}
    (full : (completeRows db g kind).length =
      (db.attemptObservationSlots.filter fun m => m.attemptSlotId = g.slot).length)
    {m : MembershipRow} (bound : m ∈ db.attemptObservationSlots)
    (slot : m.attemptSlotId = g.slot) :
    ∃ s ∈ db.selectedObservations, s.slotId = m.observationSlotId := by
  have found := flatMap_ne_nil_of_length (fun m _ => completeRows_le_one h m) full m
    (List.mem_filter.mpr ⟨bound, by simpa using slot⟩)
  obtain ⟨row, inside⟩ := List.exists_mem_of_ne_nil _ found
  obtain ⟨s, selected, -⟩ := List.mem_flatMap.mp inside
  obtain ⟨member, at_⟩ := List.mem_filter.mp selected
  exact ⟨s, member, by simpa using at_⟩

/-- After an accepted commit every slot the attempt observed has a selection. -/
theorem Settled.covers (h : Integrity db) (grounded : Grounded db) {g : OwnedAttempt}
    {finished : Nat} {a b : AttemptRow} (row : Settled db db' g .accepted finished a b)
    {o : ObservationRow} (inside : o ∈ db.observations) (mine : o.producingAttemptId = a.id) :
    ∃ m ∈ db.attemptObservationSlots, m.attemptSlotId = a.slotId ∧
      m.observationSlotId = o.slotId ∧ ∃ s ∈ db'.selectedObservations, s.slotId = o.slotId := by
  obtain ⟨p, maker, id, home⟩ := h.observationProducer o inside
  obtain ⟨m, bound, attempt, at_⟩ := h.observationBound o inside
  have here : m.attemptSlotId = a.slotId := by
    rw [attempt, ← home, h.attemptIds.eq_of_key maker row.member (id.trans mine)]
  refine ⟨m, bound, here, at_, ?_⟩
  obtain ⟨slot, acceptance⟩ := row.acceptance rfl
  have kind : slotKind db g.slot = some slot.kind := by
    unfold slotKind
    rw [acceptance.found]
    rfl
  have guarded : m.attemptSlotId = g.slot := here.trans row.guardSlot
  rw [row.selections]
  unfold terminalSelections
  rw [kind]
  by_cases warmup : slot.role = .warmup
  · have none := List.length_eq_zero_iff.mp (acceptance.warmup warmup)
    have listed : m ∈ db.attemptObservationSlots.filter fun m => m.attemptSlotId = g.slot :=
      List.mem_filter.mpr ⟨bound, by simpa using guarded⟩
    rw [none] at listed
    exact absurd listed List.not_mem_nil
  · by_cases selects : slot.kind.selectsAtCommit = true
    · rw [if_pos ⟨rfl, by simpa using selects⟩]
      refine @foldl_addSelection_covers _ _ ⟨o.slotId, o.id, finished⟩ ?_
      refine List.mem_map.mpr ⟨o, List.mem_filter.mpr ⟨inside, ?_⟩, rfl⟩
      simp [mine, row.guard, grounded.valid o inside]
    · rw [if_neg fun both => selects (by simpa using both.2), ← at_]
      exact selected_of_completeRows h
        (acceptance.retains warmup (Bool.eq_false_iff.mpr selects)) bound guarded

theorem Change.complete (h : Integrity db) (h' : Integrity db') (grown : Grown db db')
    (chronicle' : Chronicle db') (grounded : Grounded db) (grounded' : Grounded db')
    (old : Attributed db)
    (clean : ∀ g outcome, actor = .finishing g outcome → OwnResult db g outcome)
    (change : Change hash db actor db') :
    ∀ a ∈ db'.attempts, a.state = .accepted → ∀ o ∈ db'.observations,
      o.producingAttemptId = a.id → ∃ s ∈ db'.selectedObservations, s.observationId = o.id := by
  have producer := change.producer h h' grown old clean
  have kept : ∀ {x : AttemptRow} {o : ObservationRow}, x ∈ db.attempts → x.state = .accepted →
      o ∈ db.observations → o.producingAttemptId = x.id →
        ∃ s ∈ db'.selectedObservations, s.observationId = o.id := by
    intro x o member accepted inside mine
    obtain ⟨s, selected, same⟩ := old.complete x member accepted o inside mine
    exact ⟨s, mem_of_extends_eq grown.selections selected, same⟩
  intro x member accepted o inside mine
  rcases change.evidence with ⟨observations, selections, claims⟩ | ⟨a, new, select, now, -, row⟩ |
    ⟨g, outcome, finished, a, b, rfl, row⟩
  · rw [observations] at inside
    rcases change.accepted member accepted with before | ⟨a, -, id, -, c, claim, -, attempt⟩
    · exact kept before accepted inside mine
    · obtain ⟨y, holder, id', -, finalizing⟩ := chronicle'.claimants c (claims c claim)
      rw [h'.attemptIds.eq_of_key holder member ((id'.trans attempt).trans id), accepted]
        at finalizing
      cases finalizing
  · rw [show db'.attempts = db.attempts from row.same.2 .attempts (by decide)] at member
    rw [row.observations] at inside
    rcases List.mem_append.mp inside with before | added
    · exact kept member accepted before mine
    · rw [List.mem_singleton.mp added, row.producer] at mine
      have finish := h.attemptFinish x member
      rw [← h.attemptIds.eq_of_key row.member member mine, row.active] at finish
      rw [← h.attemptIds.eq_of_key row.member member mine] at accepted
      rw [accepted] at finish
      cases finish
  · rw [show db'.observations = db.observations from row.same.2 .observations (by decide)]
      at inside
    rcases row.toMoved.mem_cases member with rfl | ⟨before, -⟩
    · obtain rfl := row.accepted_iff.mp accepted
      rw [row.id] at mine
      obtain ⟨m, bound, here, at_, s, selected, slot⟩ := row.covers h grounded inside mine
      obtain ⟨o', inside', id, slot', -⟩ := h'.selectionTarget s selected
      -- the selection of the slot is the attempt's own, and it has only one there
      have own := own_of_producer h' grounded' producer member accepted
        (mem_of_extends_eq grown.memberships bound) (here.trans row.slotId.symm) selected
        (slot.trans at_.symm) inside' id
      rw [show db'.observations = db.observations from row.same.2 .observations (by decide)]
        at inside'
      have result := clean g .accepted rfl
      rw [OwnResult, if_pos rfl] at result
      refine ⟨s, selected, ?_⟩
      rw [← id]
      exact result o' inside' o inside (by rw [own, row.id, row.guard])
        (by rw [mine, row.guard]) (slot'.trans slot)
    · exact kept before accepted inside mine

end Step

/-! ## No splicing -/

/-- What the archive demands of the selections of a store. -/
structure Unspliced (db : Db) : Prop where
  /-- In a slot with an accepted attempt, only its observations are selected. -/
  own : ∀ a ∈ db.attempts, a.state = .accepted → ∀ m ∈ db.attemptObservationSlots,
    m.attemptSlotId = a.slotId → ∀ s ∈ db.selectedObservations, s.slotId = m.observationSlotId →
      ∀ o ∈ db.observations, o.id = s.observationId → o.producingAttemptId = a.id
  /-- Every observation an accepted attempt produced is selected. -/
  complete : ∀ a ∈ db.attempts, a.state = .accepted → ∀ o ∈ db.observations,
    o.producingAttemptId = a.id → ∃ s ∈ db.selectedObservations, s.observationId = o.id
  /-- Once every attempt has finished, selected observations have accepted producers. -/
  settled : (∀ a ∈ db.attempts, a.state.terminal = true) → ∀ s ∈ db.selectedObservations,
    ∀ o ∈ db.observations, o.id = s.observationId →
      ∃ a ∈ db.attempts, a.id = o.producingAttemptId ∧ a.state = .accepted

theorem unspliced_of_own_results {hash : Hasher} {w : World} {labels : List Label}
    (start : w.Initial) (clean : Meets (next hash) (CommitsOwnResult hash) w labels) :
    Unspliced (run (next hash) w labels).db := by
  have reach : Reachable hash (run (next hash) w labels) := ⟨w, labels, start, rfl⟩
  have attributed : Attributed (run (next hash) w labels).db := by
    refine start.keeps ?_ (fun w label before old met => ?_) clean
    · obtain ⟨layout, -, rfl⟩ := start
      exact .create layout
    · have after := before.after label
      have stepped := before.sound.stepped label
      exact ⟨stepped.change.complete before.sound.db.toIntegrity after.sound.db.toIntegrity
          stepped.grown after.chronicle before.grounded after.grounded old
          fun _ _ actor => met.result actor,
        stepped.change.producer before.sound.db.toIntegrity after.sound.db.toIntegrity
          stepped.grown old fun _ _ actor => met.result actor⟩
  refine ⟨?_, attributed.complete, ?_⟩
  · intro a member accepted m bound here s selected slot o inside same
    exact own_of_producer reach.sound.db.toIntegrity reach.grounded attributed.producer member
      accepted bound here selected slot inside same
  · intro terminal s selected o inside same
    obtain ⟨a, member, id, accepted | ⟨c, claim, held⟩⟩ :=
      attributed.producer s selected o inside same
    · exact ⟨a, member, id, accepted⟩
    · obtain ⟨p, holder, id', -, finalizing⟩ := reach.chronicle.claimants c claim
      have ended := terminal p holder
      rw [finalizing] at ended
      cases ended

theorem unspliced_of_acceptedRun :
    (sampleWorld 3).Initial ∧
      Meets (next sampleHash) (CommitsOwnResult sampleHash) (sampleWorld 3) acceptedRun ∧
      (run (next sampleHash) (sampleWorld 3) acceptedRun).db.selectedObservations.length = 1 ∧
      Unspliced (run (next sampleHash) (sampleWorld 3) acceptedRun).db :=
  ⟨sampleWorld_initial, by decide +kernel, by decide +kernel,
    unspliced_of_own_results sampleWorld_initial (by decide +kernel)⟩

/-- The first attempt selects its observation and goes silent; recovery fails it, and
the retry is accepted while the failed attempt's selection stays. -/
def splicedRun : List Label :=
  .request (.registerOneShot default sampleSpecification sampleSlot sampleObservationSlot) ::
    sampleStart 0 10 1 ++ [
    .request (.registerObservation (sampleGuard 0 1 11) (sampleObservation 0 0 .notRequired)
      (sampleArtifact .observation 1 13) true 14),
    .request (.recover 100 [] (fun _ => .free) [])] ++
    List.replicate 7 (.resume 0 (sampleReading 100 3)) ++ sampleStart 1 200 4 ++ [
    .request (.registerObservation (sampleGuard 1 1 201) (sampleObservation 1 1 .notRequired)
      (sampleArtifact .observation 4 203) true 204),
    .request (.commitFinalization (sampleGuard 1 1 201) .accepted (sampleArtifact .attempt 2 205)
      [] 206)]

theorem splicedRun_spliced :
    Reachable sampleHash (run (next sampleHash) (sampleWorld 3) splicedRun) ∧
      ¬Unspliced (run (next sampleHash) (sampleWorld 3) splicedRun).db := by
  refine ⟨⟨_, splicedRun, sampleWorld_initial, rfl⟩, fun unspliced => ?_⟩
  have own := unspliced.own
  revert own
  decide +kernel

end Metewand.RunStore
