import Metewand.RunStore.Passes

/-!
# What an outcome document reads

`Undisturbed id db db'` says that the rows the document of a non-accepted outcome
of the attempt is built from are the same in both databases.  Every step that is
not made for the attempt and registers nothing leaves them undisturbed, so a
document that was built stays what it is (`document_kept`) until the attempt's own
last transaction.
-/

namespace Metewand.RunStore

open Lib

/-! ## Values that normalization can only refuse -/

/-- Normalization either fails or returns the value itself. -/
def Stable (v : Json) : Prop := ∀ w, v.normalize = .ok w → w = v

theorem Stable.of_normalized {v w : Json} (normal : v.normalize = .ok w) : Stable w := by
  intro u again
  rw [Json.normalize_idempotent normal] at again
  exact (Except.ok.inj again).symm

theorem Stable.str (text : String) : Stable (.str text) := by
  intro w normal
  cases normal
  rfl

theorem Stable.null : Stable .null := by
  intro w normal
  cases normal
  rfl

theorem Stable.int (value : Int) : Stable (.num (.int value)) := by
  intro w normal
  simp only [Json.normalize, Json.normalizeNumber] at normal
  split at normal
  · cases normal
  · cases normal
    rfl

theorem Stable.arr {items : List Json} (each : ∀ item ∈ items, Stable item) :
    Stable (.arr items) := by
  have all : ∀ {kept}, Json.normalizeItems items = .ok kept → kept = items := by
    induction items with
    | nil =>
        intro kept normal
        cases normal
        rfl
    | cons item rest ih =>
        intro kept normal
        simp only [Json.normalizeItems] at normal
        split at normal
        · cases normal
        · rename_i item' head
          cases tail : Json.normalizeItems rest with
          | error e =>
              rw [tail] at normal
              cases normal
          | ok rest' =>
              rw [tail] at normal
              cases normal
              rw [each item List.mem_cons_self item' head,
                ih (fun x member => each x (List.mem_cons_of_mem _ member)) tail]
  intro w normal
  simp only [Json.normalize] at normal
  cases kept : Json.normalizeItems items with
  | error e =>
      rw [kept] at normal
      cases normal
  | ok items' =>
      rw [kept] at normal
      cases normal
      rw [all kept]

theorem Stable.obj {members : List (String × Json)} (each : ∀ m ∈ members, Stable m.2) :
    Stable (.obj members) := by
  have all : ∀ {kept}, Json.normalizeMembers members = .ok kept → kept = members := by
    induction members with
    | nil =>
        intro kept normal
        cases normal
        rfl
    | cons member rest ih =>
        obtain ⟨key, value⟩ := member
        intro kept normal
        simp only [Json.normalizeMembers] at normal
        split at normal
        · cases normal
        · rename_i value' head
          cases tail : Json.normalizeMembers rest with
          | error e =>
              rw [tail] at normal
              cases normal
          | ok rest' =>
              rw [tail] at normal
              cases normal
              have first : value' = value := each (key, value) List.mem_cons_self value' head
              rw [first, ih (fun x member => each x (List.mem_cons_of_mem _ member)) tail]
  intro w normal
  simp only [Json.normalize] at normal
  cases kept : Json.normalizeMembers members with
  | error e =>
      rw [kept] at normal
      cases normal
  | ok members' =>
      rw [kept] at normal
      cases normal
      rw [all kept]

theorem mem_insertMember {key : String} {value : Json} {members : List (String × Json)}
    {m : String × Json} (member : m ∈ Json.insertMember key value members) :
    m.2 = value ∨ m ∈ members := by
  induction members with
  | nil =>
      rw [List.mem_singleton.mp member]
      exact .inl rfl
  | cons head rest ih =>
      obtain ⟨k, v⟩ := head
      simp only [Json.insertMember] at member
      split at member
      · rcases List.mem_cons.mp member with rfl | older
        · exact .inl rfl
        · exact .inr (List.mem_cons_of_mem _ older)
      · split at member
        · rcases List.mem_cons.mp member with rfl | older
          · exact .inl rfl
          · exact .inr older
        · rcases List.mem_cons.mp member with rfl | later
          · exact .inr List.mem_cons_self
          · exact (ih later).imp_right (List.mem_cons_of_mem _)

/-- The members of an object literal are its fields. -/
theorem mem_fields {fields : List (String × Json)} {m : String × Json}
    (member : m ∈ fields.foldr (fun field members => Json.insertMember field.1 field.2 members) []) :
    ∃ f ∈ fields, m.2 = f.2 := by
  induction fields with
  | nil => exact absurd member List.not_mem_nil
  | cons field rest ih =>
      rw [List.foldr_cons] at member
      rcases mem_insertMember member with here | later
      · exact ⟨field, List.mem_cons_self, here⟩
      · obtain ⟨f, inside, same⟩ := ih later
        exact ⟨f, List.mem_cons_of_mem _ inside, same⟩

theorem Stable.object {fields : List (String × Json)} (each : ∀ f ∈ fields, Stable f.2) :
    Stable (Json.object fields) := by
  refine .obj fun m member => ?_
  obtain ⟨f, inside, same⟩ := mem_fields member
  rw [same]
  exact each f inside

theorem Stable.object_set {fields : List (String × Json)} {key : String} {value : Json}
    (each : ∀ f ∈ fields, Stable f.2) (new : Stable value) :
    Stable ((Json.object fields).set key value) := by
  refine .obj fun m member => ?_
  rcases mem_insertMember member with here | older
  · rw [here]
    exact new
  · obtain ⟨f, inside, same⟩ := mem_fields older
    rw [same]
    exact each f inside

/-! ## Snapshots are stable -/

/-- Every member's control document is in the canonical domain. -/
def Controlled (db : Db) : Prop :=
  ∀ m ∈ db.freshMembers, m.controlJson.normalize = .ok m.controlJson

theorem canonicalRows_stable {rows kept : List Json} (h : canonicalRows rows = .ok kept) :
    ∀ row ∈ kept, Stable row := by
  induction rows generalizing kept with
  | nil =>
      cases h
      exact fun _ member => absurd member List.not_mem_nil
  | cons row rest ih =>
      simp only [canonicalRows] at h
      split at h
      · rename_i row' rest' head tail
        cases h
        intro x member
        rcases List.mem_cons.mp member with rfl | later
        · exact .of_normalized (canonicalPayload_ok head)
        · exact ih tail x later
      · cases h
      · cases h

theorem canonicalMembers_stable {rows : List (String × List Json)}
    {members : List (String × Json)} (h : canonicalMembers rows = .ok members) :
    ∀ m ∈ members, Stable m.2 := by
  induction rows generalizing members with
  | nil =>
      cases h
      exact fun _ member => absurd member List.not_mem_nil
  | cons head rest ih =>
      obtain ⟨key, list⟩ := head
      simp only [canonicalMembers] at h
      split at h
      · rename_i list' rest' first tail
        cases h
        intro x member
        rcases List.mem_cons.mp member with rfl | later
        · exact .arr (canonicalRows_stable first)
        · exact ih tail x later
      · cases h
      · cases h

theorem freshSnapshot_stable {db db' : Db} {g : OwnedAttempt} {outcome : TerminalOutcome}
    {fresh : Json} (controlled : Controlled db)
    (run : Tx.Yields (freshSnapshot g outcome) db (some fresh) db') : Stable fresh := by
  simp only [freshSnapshot, Tx.yields_get_bind] at run
  cases found : membership db g.slot with
  | none =>
      simp only [found, Tx.yields_pure] at run
      exact absurd run.1 (by simp)
  | some sequence =>
      simp only [found, yields_timestamp_bind, Tx.yields_expect_bind, Tx.yields_check_bind] at run
      obtain ⟨-, row, -, policy, canonical, run⟩ := run
      obtain ⟨disposition, -, run⟩ := Uses.effect.readOnly_bind run
      simp only [Tx.yields_pure, Option.some.injEq] at run
      obtain ⟨rfl, -⟩ := run
      refine .object fun f member => ?_
      simp only [List.mem_cons, List.not_mem_nil, or_false] at member
      rcases member with rfl | rfl | rfl | rfl | rfl | rfl
      · exact .str _
      · exact .int _
      · exact .of_normalized (canonicalPayload_ok canonical)
      · refine .arr fun item listed => ?_
        obtain ⟨m, inside, rfl⟩ := List.mem_map.mp listed
        rw [List.mem_insertionSort] at inside
        refine .object fun f member => ?_
        simp only [List.mem_cons, List.not_mem_nil, or_false] at member
        rcases member with rfl | rfl | rfl
        · exact .str _
        · exact .int _
        · exact .of_normalized (controlled m (List.mem_of_mem_filter inside))
      · cases db.freshBudget.find? fun b => decide (b.attemptId = g.id) with
        | none => exact .null
        | some b =>
            refine .object fun f member => ?_
            simp only [List.mem_cons, List.not_mem_nil, or_false] at member
            rcases member with rfl | rfl
            · exact .int _
            · cases b.chargedNs with
              | none => exact .null
              | some c => exact .int _
      · cases disposition with
        | none => exact .null
        | some reason => exact .str _

theorem coordinationSnapshot_stable {db db' : Db} {g : OwnedAttempt} {outcome : TerminalOutcome}
    {finished : Nat} {snapshot : Json} (controlled : Controlled db)
    (run : Tx.Yields (coordinationSnapshot g outcome finished) db snapshot db') :
    Stable snapshot := by
  simp only [coordinationSnapshot, Tx.yields_get_bind, Tx.yields_check_bind] at run
  obtain ⟨members, rows, run⟩ := run
  obtain ⟨fresh, read, run⟩ := Uses.freshSnapshot.readOnly_bind run
  cases fresh with
  | none =>
      obtain ⟨rfl, -⟩ := Tx.yields_pure.mp run
      exact .object (canonicalMembers_stable rows)
  | some fresh =>
      obtain ⟨rfl, -⟩ := Tx.yields_pure.mp run
      exact .object_set (canonicalMembers_stable rows) (freshSnapshot_stable controlled read)

/-- What building a document has read. -/
structure Built (db : Db) (g : OwnedAttempt) (outcome : TerminalOutcome)
    (references : List (String × String)) (finished : Nat) (document snapshot : Json) : Prop where
  read : Tx.Yields (coordinationSnapshot g outcome finished) db snapshot db
  fields : ∃ sorted listed row details, sortReferences references = .ok sorted ∧
    dependencies db sorted = .ok listed ∧
    db.attempts.find? (fun a => a.id = g.id) = some row ∧ outcome.details = .ok details ∧
    canonicalPayload (outcomeFields db g outcome details listed row.startedAtNs finished
      snapshot) = .ok document

section Building

variable {db : Db} {g : OwnedAttempt} {outcome : TerminalOutcome}
  {references : List (String × String)} {finished : Nat} {document : Json}

theorem yields_buildOutcomeDocument :
    Tx.Yields (buildOutcomeDocument g outcome references finished) db document db ↔
      ∃ snapshot, Built db g outcome references finished document snapshot := by
  constructor
  · intro run
    simp only [buildOutcomeDocument, Tx.yields_check_bind, Tx.yields_get_bind,
      Tx.yields_expect_bind] at run
    obtain ⟨sorted, sorting, listed, resolved, row, found, run⟩ := run
    obtain ⟨snapshot, read, run⟩ := Uses.coordinationSnapshot.readOnly_bind run
    simp only [Tx.yields_check_bind, Tx.yields_check] at run
    obtain ⟨details, detailed, canonical, -⟩ := run
    exact ⟨snapshot, read, sorted, listed, row, details, sorting, resolved, found, detailed,
      canonical⟩
  · rintro ⟨snapshot, read, sorted, listed, row, details, sorting, resolved, found, detailed,
      canonical⟩
    simp only [buildOutcomeDocument, Tx.yields_check_bind, Tx.yields_get_bind,
      Tx.yields_expect_bind]
    refine ⟨sorted, sorting, listed, resolved, row, found,
      Tx.yields_bind.mpr ⟨snapshot, db, read, ?_⟩⟩
    simp only [Tx.yields_check_bind, Tx.yields_check]
    exact ⟨details, detailed, canonical, trivial⟩

/-- A document holds the snapshot it was built from. -/
theorem Built.coordination {snapshot : Json} (controlled : Controlled db)
    (built : Built db g outcome references finished document snapshot) :
    document.get "coordination" = snapshot := by
  obtain ⟨sorted, listed, row, details, -, -, -, -, canonical⟩ := built.fields
  have normal := Json.normalize_get "coordination" (canonicalPayload_ok canonical)
  have field : (outcomeFields db g outcome details listed row.startedAtNs finished snapshot).get
      "coordination" = snapshot := by
    simp [outcomeFields]
  rw [field] at normal
  exact coordinationSnapshot_stable controlled built.read _ normal

end Building

/-! ## Undisturbed attempts -/

/-- The rows a document of a non-accepted outcome of the attempt reads are the same. -/
structure Undisturbed (g : OwnedAttempt) (db db' : Db) : Prop where
  layout : db'.userVersion = db.userVersion
  decisions : db'.applicabilityDecisions = db.applicabilityDecisions
  runs : db'.resolvedRuns = db.resolvedRuns
  observationSlots : db'.observationSlots = db.observationSlots
  attemptSlots : db'.attemptSlots = db.attemptSlots
  memberships : db'.attemptObservationSlots = db.attemptObservationSlots
  sequences : db'.freshSequences = db.freshSequences
  members : db'.freshMembers = db.freshMembers
  row : db'.attempts.filter (fun a => a.id = g.id) = db.attempts.filter fun a => a.id = g.id
  observed : db'.observations.filter (fun o => o.producingAttemptId = g.id) =
    db.observations.filter fun o => o.producingAttemptId = g.id
  selected : ∀ o ∈ db.observations, o.producingAttemptId = g.id →
    db'.selectedObservations.filter (fun s => s.observationId = o.id) =
      db.selectedObservations.filter fun s => s.observationId = o.id
  artifacts : Extends Eq db.artifacts db'.artifacts
  budget : db'.freshBudget.find? (fun b => b.attemptId = g.id) =
    db.freshBudget.find? fun b => b.attemptId = g.id
  spent : ∀ q, InSequence db g.slot q → spent db' q = spent db q

namespace Undisturbed

variable {g : OwnedAttempt} {a b c db db' : Db}

theorem rfl (g : OwnedAttempt) (db : Db) : Undisturbed g db db where
  layout := Eq.refl _
  decisions := Eq.refl _
  runs := Eq.refl _
  observationSlots := Eq.refl _
  attemptSlots := Eq.refl _
  memberships := Eq.refl _
  sequences := Eq.refl _
  members := Eq.refl _
  row := Eq.refl _
  observed := Eq.refl _
  selected := fun _ _ _ => Eq.refl _
  artifacts := .rfl Eq.refl
  budget := Eq.refl _
  spent := fun _ _ => Eq.refl _

theorem trans (first : Undisturbed g a b) (second : Undisturbed g b c) : Undisturbed g a c where
  layout := second.layout.trans first.layout
  decisions := second.decisions.trans first.decisions
  runs := second.runs.trans first.runs
  observationSlots := second.observationSlots.trans first.observationSlots
  attemptSlots := second.attemptSlots.trans first.attemptSlots
  memberships := second.memberships.trans first.memberships
  sequences := second.sequences.trans first.sequences
  members := second.members.trans first.members
  row := second.row.trans first.row
  observed := second.observed.trans first.observed
  selected := by
    intro o member producer
    have later : o ∈ b.observations := by
      have listed : o ∈ a.observations.filter fun o => o.producingAttemptId = g.id :=
        List.mem_filter.mpr ⟨member, by simpa using producer⟩
      rw [← first.observed] at listed
      exact List.mem_of_mem_filter listed
    exact (second.selected o later producer).trans (first.selected o member producer)
  artifacts := first.artifacts.trans Eq.trans second.artifacts
  budget := second.budget.trans first.budget
  spent := by
    intro q inside
    have later : InSequence b g.slot q := (inSequence_congr first.members _ _).mpr inside
    exact (second.spent q later).trans (first.spent q inside)

/-! ## The joins of a document -/

variable (same : Undisturbed g db db')

include same

theorem slotJoin : slotJoin db' g.id = slotJoin db g.id := by
  have split : ∀ (rows : List AttemptRow) (s : AttemptSlotRow),
      rows.filter (fun a => decide (a.id = g.id ∧ a.slotId = s.id)) =
        (rows.filter fun a => a.id = g.id).filter fun a => a.slotId = s.id := by
    intro rows s
    rw [List.filter_filter]
    exact List.filter_congr fun a _ => by simp [Bool.and_comm]
  unfold RunStore.slotJoin
  simp only [split, same.row, same.attemptSlots]

theorem runJoin : runJoin db' g.id = runJoin db g.id := by
  unfold RunStore.runJoin
  rw [same.slotJoin, same.runs]

theorem decisionJoin : decisionJoin db' g.id = decisionJoin db g.id := by
  unfold RunStore.decisionJoin
  rw [same.runJoin, same.decisions]

theorem boundSlots : boundSlots db' g.id = boundSlots db g.id := by
  have only : ∀ d : Db, RunStore.boundSlots d g.id =
      (d.attempts.filter fun a => a.id = g.id).flatMap fun a =>
        (d.attemptObservationSlots.filter fun m => m.attemptSlotId = a.slotId).map
          MembershipRow.observationSlotId := by
    intro d
    unfold RunStore.boundSlots
    induction d.attempts with
    | nil => exact Eq.refl _
    | cons a rest ih =>
        rw [List.flatMap_cons, ih, List.filter_cons]
        by_cases mine : a.id = g.id
        · simp [mine]
        · simp [mine]
  rw [only, only, same.row, same.memberships]

theorem observationSlotJoin : observationSlotJoin db' g.id = observationSlotJoin db g.id := by
  unfold RunStore.observationSlotJoin
  rw [same.boundSlots, same.observationSlots]

end Undisturbed

/-- The entries of one observation. -/
def entriesOf (db : Db) (o : ObservationRow) : List ObservationEntry :=
  match db.selectedObservations.filter fun s => s.observationId = o.id with
  | [] => [⟨o, none⟩]
  | selections => selections.map fun s => ⟨o, some s.selectedAtNs⟩

theorem observationEntries_eq (db : Db) :
    observationEntries db = db.observations.flatMap (entriesOf db) := rfl

theorem row_of_entriesOf {db : Db} {o : ObservationRow} {e : ObservationEntry}
    (member : e ∈ entriesOf db o) : e.row = o := by
  unfold entriesOf at member
  split at member
  · rw [List.mem_singleton.mp member]
  · obtain ⟨s, -, rfl⟩ := List.mem_map.mp member
    rfl

/-- The entries of the observations an attempt produced. -/
theorem entries_of_producer (db : Db) (id : RecordId .attempt) :
    (observationEntries db).filter (fun e => e.row.producingAttemptId = id) =
      (db.observations.filter fun o => o.producingAttemptId = id).flatMap (entriesOf db) := by
  rw [observationEntries_eq]
  induction db.observations with
  | nil => rfl
  | cons o rest ih =>
      rw [List.flatMap_cons, List.filter_append, ih, List.filter_cons]
      by_cases mine : o.producingAttemptId = id
      · rw [List.filter_eq_self.mpr fun e member => by simp [row_of_entriesOf member, mine],
          if_pos (by simpa using mine), List.flatMap_cons]
      · rw [List.filter_eq_nil_iff.mpr fun e member => by simp [row_of_entriesOf member, mine],
          if_neg (by simpa using mine), List.nil_append]

section Transfer

variable {g : OwnedAttempt} {outcome : TerminalOutcome} {finished : Nat} {db db' : Db}

/-- An outcome that neither is accepted nor names the selections of others. -/
def TerminalOutcome.Losing (outcome : TerminalOutcome) : Prop :=
  outcome = .superseded ∨ ∃ code details, outcome = .failed code details

theorem TerminalOutcome.Losing.includesSelected (losing : outcome.Losing) :
    outcome.includesSelected = false := by
  rcases losing with rfl | ⟨code, details, rfl⟩ <;> rfl

theorem TerminalOutcome.Losing.not_accepted (losing : outcome.Losing) : outcome ≠ .accepted := by
  rcases losing with rfl | ⟨code, details, rfl⟩ <;> exact TerminalOutcome.noConfusion

theorem documentEntries_of_losing (losing : outcome.Losing) :
    documentEntries db g outcome finished =
      ((observationEntries db).filter fun e => e.row.producingAttemptId = g.id).insertionSort
        fun a b => a.row.id.le b.row.id := by
  unfold documentEntries observationJoin
  simp only [losing.includesSelected, losing.not_accepted, false_and, if_false, Bool.false_eq_true,
    or_false]

theorem Undisturbed.documentEntries (same : Undisturbed g db db') (losing : outcome.Losing) :
    documentEntries db' g outcome finished = documentEntries db g outcome finished := by
  rw [documentEntries_of_losing losing, documentEntries_of_losing losing, entries_of_producer,
    entries_of_producer, same.observed]
  congr 1
  refine List.flatMap_congr fun o member => ?_
  obtain ⟨inside, producer⟩ := List.mem_filter.mp member
  unfold entriesOf
  rw [same.selected o inside (of_decide_eq_true producer)]

theorem Undisturbed.snapshotRows (same : Undisturbed g db db') (losing : outcome.Losing) :
    snapshotRows db' g.id (RunStore.documentEntries db' g outcome finished) =
      snapshotRows db g.id (RunStore.documentEntries db g outcome finished) := by
  unfold RunStore.snapshotRows
  rw [same.slotJoin, same.runJoin, same.decisionJoin, same.observationSlotJoin,
    same.documentEntries losing]

theorem allowance_transfer {q : SequenceKey} {p : Nat × Nat}
    (sequences : db'.freshSequences = db.freshSequences)
    (sum : sqlSum (consumptions db' q) = sqlSum (consumptions db q))
    (run : Tx.Yields (allowance q) db p db) : Tx.Yields (allowance q) db' p db' := by
  simp only [allowance, yields_timestamp_bind] at run ⊢
  obtain ⟨small, run⟩ := run
  refine ⟨small, ?_⟩
  obtain ⟨policy, read, run⟩ := Uses.sequencePolicy.readOnly_bind run
  refine Tx.yields_bind.mpr ⟨policy, db', ?_, ?_⟩
  · simp only [sequencePolicy, Tx.yields_get_bind, Tx.yields_expect_bind, Tx.yields_expect]
      at read ⊢
    rw [sequences]
    obtain ⟨row, found, reread, -⟩ := read
    exact ⟨row, found, reread, trivial⟩
  · simp only [Tx.yields_expect_bind, Tx.yields_get_bind, Tx.yields_check_bind,
      yields_unsigned_bind, Tx.yields_pure] at run ⊢
    obtain ⟨limit, bound, total, summed, low, rfl, -⟩ := run
    exact ⟨limit, bound, total, sum.trans summed, low, rfl, trivial⟩

theorem membership_undisturbed (same : Undisturbed g db db') :
    membership db' g.slot = membership db g.slot :=
  membership_congr same.layout same.members g.slot

theorem refund_undisturbed (same : Undisturbed g db db') : refund db' g.id = refund db g.id := by
  unfold refund
  rw [same.budget]

/-- The sums over the sequence of the attempt agree. -/
def SumsAgree (g : OwnedAttempt) (db db' : Db) : Prop :=
  ∀ q, membership db g.slot = some q →
    sqlSum (consumptions db' q) = sqlSum (consumptions db q)

theorem effect_transfer {reason : Option DispositionReason} (same : Undisturbed g db db')
    (sums : SumsAgree g db db') (losing : outcome.Losing)
    (run : Tx.Yields (effect g outcome) db reason db) :
    Tx.Yields (effect g outcome) db' reason db' := by
  simp only [effect, Tx.yields_get_bind] at run ⊢
  rw [membership_undisturbed same]
  cases found : membership db g.slot with
  | none =>
      simp only [found, Tx.yields_pure] at run ⊢
      exact ⟨run.1, trivial⟩
  | some q =>
      simp only [found, losing.not_accepted, false_and, if_false] at run ⊢
      obtain ⟨p, read, run⟩ := Uses.allowance.readOnly_bind run
      refine Tx.yields_bind.mpr ⟨p, db', allowance_transfer same.sequences (sums q found) read, ?_⟩
      rw [refund_undisturbed same]
      simp only [yields_unsigned_bind, Tx.yields_pure] at run ⊢
      obtain ⟨low, rfl, -⟩ := run
      exact ⟨low, rfl, trivial⟩

theorem freshSnapshot_transfer {fresh : Option Json} (same : Undisturbed g db db')
    (sums : SumsAgree g db db') (losing : outcome.Losing)
    (run : Tx.Yields (freshSnapshot g outcome) db fresh db) :
    Tx.Yields (freshSnapshot g outcome) db' fresh db' := by
  simp only [freshSnapshot, Tx.yields_get_bind] at run ⊢
  rw [membership_undisturbed same]
  cases found : membership db g.slot with
  | none =>
      simp only [found, Tx.yields_pure] at run ⊢
      exact ⟨run.1, trivial⟩
  | some q =>
      simp only [found, yields_timestamp_bind, Tx.yields_expect_bind, Tx.yields_check_bind]
        at run ⊢
      obtain ⟨small, row, listed, policy, canonical, run⟩ := run
      rw [same.sequences, same.members, same.budget]
      refine ⟨small, row, listed, policy, canonical, ?_⟩
      obtain ⟨reason, read, run⟩ := Uses.effect.readOnly_bind run
      refine Tx.yields_bind.mpr ⟨reason, db', effect_transfer same sums losing read, ?_⟩
      obtain ⟨rfl, -⟩ := Tx.yields_pure.mp run
      exact Tx.yields_pure.mpr ⟨rfl, rfl⟩

theorem coordinationSnapshot_transfer {snapshot : Json} (same : Undisturbed g db db')
    (sums : SumsAgree g db db') (losing : outcome.Losing)
    (run : Tx.Yields (coordinationSnapshot g outcome finished) db snapshot db) :
    Tx.Yields (coordinationSnapshot g outcome finished) db' snapshot db' := by
  simp only [coordinationSnapshot, Tx.yields_get_bind, Tx.yields_check_bind] at run ⊢
  obtain ⟨members, rows, run⟩ := run
  refine ⟨members, (congrArg canonicalMembers (same.snapshotRows losing)).trans rows, ?_⟩
  obtain ⟨fresh, read, run⟩ := Uses.freshSnapshot.readOnly_bind run
  refine Tx.yields_bind.mpr ⟨fresh, db', freshSnapshot_transfer same sums losing read, ?_⟩
  cases fresh with
  | none =>
      obtain ⟨rfl, -⟩ := Tx.yields_pure.mp run
      exact Tx.yields_pure.mpr ⟨rfl, rfl⟩
  | some fresh =>
      obtain ⟨rfl, -⟩ := Tx.yields_pure.mp run
      exact Tx.yields_pure.mpr ⟨rfl, rfl⟩

theorem dependencies_extends {artifacts : Extends Eq db.artifacts db'.artifacts}
    {references : List (String × String)} {listed : List Json}
    (resolved : dependencies db references = .ok listed) :
    dependencies db' references = .ok listed := by
  obtain ⟨kept, new, rows, same⟩ := artifacts
  obtain rfl : kept = db.artifacts := (List.forall₂_eq_eq_eq ▸ same).symm
  induction references generalizing listed with
  | nil => exact resolved
  | cons head rest ih =>
      obtain ⟨role, id⟩ := head
      simp only [dependencies] at resolved ⊢
      split at resolved
      · rename_i artifact rest' found tail
        rw [rows, List.find?_append, found, ih tail]
        exact resolved
      · cases resolved
      · cases resolved

theorem Built.transfer {references : List (String × String)} {document snapshot : Json}
    (same : Undisturbed g db db') (sums : SumsAgree g db db') (losing : outcome.Losing)
    (built : Built db g outcome references finished document snapshot) :
    Built db' g outcome references finished document snapshot := by
  obtain ⟨sorted, listed, row, details, sorting, resolved, found, detailed, canonical⟩ :=
    built.fields
  refine ⟨coordinationSnapshot_transfer same sums losing built.read, sorted, listed, row, details,
    sorting, @dependencies_extends db db' same.artifacts _ _ resolved, ?_, detailed, ?_⟩
  · rw [← List.head?_filter, same.row, List.head?_filter]
    exact found
  · unfold outcomeFields at canonical ⊢
    rw [same.layout]
    exact canonical

end Transfer

/-! ## Steps that are not the attempt's own -/

/-- The tables that only registrations write are the same. -/
structure Unregistered (db db' : Db) : Prop where
  layout : db'.userVersion = db.userVersion
  decisions : db'.applicabilityDecisions = db.applicabilityDecisions
  runs : db'.resolvedRuns = db.resolvedRuns
  observationSlots : db'.observationSlots = db.observationSlots
  attemptSlots : db'.attemptSlots = db.attemptSlots
  memberships : db'.attemptObservationSlots = db.attemptObservationSlots
  sequences : db'.freshSequences = db.freshSequences
  members : db'.freshMembers = db.freshMembers

theorem Unregistered.of_same {written : List Table} {db db' : Db} (same : SameBut written db db')
    (kept : .applicabilityDecisions ∉ written ∧ .resolvedRuns ∉ written ∧
      .observationSlots ∉ written ∧ .attemptSlots ∉ written ∧
      .attemptObservationSlots ∉ written ∧ .freshSequences ∉ written ∧
      .freshMembers ∉ written) : Unregistered db db' where
  layout := same.1
  decisions := same.2 .applicabilityDecisions kept.1
  runs := same.2 .resolvedRuns kept.2.1
  observationSlots := same.2 .observationSlots kept.2.2.1
  attemptSlots := same.2 .attemptSlots kept.2.2.2.1
  memberships := same.2 .attemptObservationSlots kept.2.2.2.2.1
  sequences := same.2 .freshSequences kept.2.2.2.2.2.1
  members := same.2 .freshMembers kept.2.2.2.2.2.2

section OtherSteps

variable {hash : Hasher} {db db' : Db} {g : OwnedAttempt}

/-- Another attempt's move keeps the row. -/
theorem Moved.filter_other {a b : AttemptRow} (moved : Moved db db' a b) {id : RecordId .attempt}
    (other : a.id ≠ id) : db'.attempts.filter (fun x => x.id = id) =
      db.attempts.filter fun x => x.id = id := by
  rw [moved.attempts]
  induction db.attempts with
  | nil => rfl
  | cons x rest ih =>
      rw [List.map_cons, List.filter_cons, List.filter_cons, ih]
      unfold AttemptRow.replace
      by_cases mine : x.id = a.id
      · rw [if_pos mine, if_neg (by simpa [moved.id] using other),
          if_neg (by simpa [mine] using other)]
      · rw [if_neg mine]

theorem Reserved.filter_other {r : OwnedAttempt} (row : Reserved hash db db' r)
    {id : RecordId .attempt} (other : r.id ≠ id) : db'.attempts.filter (fun x => x.id = id) =
      db.attempts.filter fun x => x.id = id := by
  rw [row.attempts, List.filter_append]
  simp [other]

/-- How a step that is not the attempt's own treats the attempts. -/
theorem Change.row_other {actor : Actor} (change : Change hash db actor db')
    {id : RecordId .attempt} (other : actor.id ≠ some id) :
    db'.attempts.filter (fun x => x.id = id) = db.attempts.filter fun x => x.id = id := by
  have kept : ∀ {written : List Table}, SameBut written db db' → .attempts ∉ written →
      db'.attempts.filter (fun x => x.id = id) = db.attempts.filter fun x => x.id = id := by
    intro written same outside
    rw [show db'.attempts = db.attempts from same.2 .attempts outside]
  have different : ∀ {x : RecordId .attempt}, some x ≠ some id → x ≠ id :=
    fun distinct same => distinct (congrArg some same)
  cases change with
  | idle => rfl
  | registered same => exact kept same (by decide)
  | enrolled row => exact kept row.same (by decide)
  | imported same => exact kept same (by decide)
  | reserved row => exact row.filter_other (different other)
  | advanced row => exact row.toMoved.filter_other (different other)
  | claimed row => exact row.toMoved.filter_other (different other)
  | leased _ _ rows => exact kept rows.same (by decide)
  | observed row => exact kept row.same (by decide)
  | budgeted row => exact kept row.same (by decide)
  | charged row => exact kept row.same (by decide)
  | finished row =>
      refine row.toMoved.filter_other ?_
      rw [row.guard]
      exact different other

/-- A new selection is of an observation of the attempt that made it. -/
theorem filter_foldl_addSelection {new rows : List SelectionRow}
    {id : RecordId .observation} (other : ∀ s ∈ new, s.observationId ≠ id) :
    (new.foldl addSelection rows).filter (fun s => s.observationId = id) =
      rows.filter fun s => s.observationId = id := by
  induction new generalizing rows with
  | nil => rfl
  | cons s rest ih =>
      rw [List.foldl_cons, ih fun x member => other x (List.mem_cons_of_mem _ member)]
      unfold addSelection
      split
      · rfl
      · rw [List.filter_append]
        simp [other s List.mem_cons_self]

/-- How a step that is not the attempt's own treats its observations. -/
theorem Change.observed_other {actor : Actor} (h : Integrity db)
    (change : Change hash db actor db') {id : RecordId .attempt} (other : actor.id ≠ some id) :
    db'.observations.filter (fun o => o.producingAttemptId = id) =
        db.observations.filter (fun o => o.producingAttemptId = id) ∧
      ∀ o ∈ db.observations, o.producingAttemptId = id →
        db'.selectedObservations.filter (fun s => s.observationId = o.id) =
          db.selectedObservations.filter fun s => s.observationId = o.id := by
  rcases change.evidence with ⟨observations, selections, -⟩ | ⟨a, p, select, now, rfl, row⟩ |
    ⟨r, outcome, finished, a, b, rfl, row⟩
  · rw [observations, selections]
    exact ⟨rfl, fun _ _ _ => rfl⟩
  · have foreign : p.producingAttemptId ≠ id := by
      rw [row.producer]
      exact fun same => other (congrArg some same)
    refine ⟨?_, fun o member _ => ?_⟩
    · rw [row.observations, List.filter_append]
      simp [foreign]
    · have new : p.id ≠ o.id := fun same => row.new o member same.symm
      rw [row.selections]
      split
      · exact @filter_foldl_addSelection [⟨p.slotId, p.id, now⟩] _ o.id fun s listed => by
          rw [List.mem_singleton.mp listed]
          exact new
      · rfl
  · have observations : db'.observations = db.observations :=
      row.same.2 .observations (by decide)
    rw [observations]
    refine ⟨rfl, fun o member producer => ?_⟩
    rw [row.selections]
    unfold terminalSelections
    split
    · refine filter_foldl_addSelection fun s listed => ?_
      obtain ⟨p, produced, rfl⟩ := List.mem_map.mp listed
      obtain ⟨inside, facts⟩ := List.mem_filter.mp produced
      intro same
      have equal := h.observationIds.eq_of_key inside member same
      rw [equal, producer] at facts
      exact other (congrArg some (of_decide_eq_true facts).1.symm)
    · rfl

/-- How a step that is not the attempt's own treats its budget row. -/
theorem Change.budget_other {actor : Actor} (change : Change hash db actor db')
    {id : RecordId .attempt} (other : actor.id ≠ some id) :
    db'.freshBudget.find? (fun b => b.attemptId = id) =
      db.freshBudget.find? fun b => b.attemptId = id := by
  have kept : ∀ {written : List Table}, SameBut written db db' → .freshBudget ∉ written →
      db'.freshBudget.find? (fun b => b.attemptId = id) =
        db.freshBudget.find? fun b => b.attemptId = id := by
    intro written same outside
    rw [show db'.freshBudget = db.freshBudget from same.2 .freshBudget outside]
  cases change with
  | idle => rfl
  | registered same => exact kept same (by decide)
  | enrolled row => exact kept row.same (by decide)
  | imported same => exact kept same (by decide)
  | reserved row => exact kept row.same (by decide)
  | advanced row => exact kept row.same (by decide)
  | claimed row => exact kept row.same (by decide)
  | leased _ _ rows => exact kept rows.same (by decide)
  | observed row => exact kept row.same (by decide)
  | @budgeted _ a _ _ _ _ row =>
      have foreign : a.id ≠ id := fun same => other (congrArg some same)
      rw [row.budget, List.find?_append]
      simp [foreign]
  | @charged _ a measured row =>
      have foreign : a.id ≠ id := fun same => other (congrArg some same)
      rw [row.budget]
      induction db.freshBudget with
      | nil => rfl
      | cons x rest ih =>
          rw [List.map_cons, List.find?_cons, List.find?_cons]
          by_cases mine : x.attemptId = id
          · have untouched : BudgetRow.charge a.id measured x = x := by
              unfold BudgetRow.charge
              rw [if_neg]
              rw [mine]
              exact Ne.symm foreign
            rw [untouched]
            simp [mine]
          · have owner : (BudgetRow.charge a.id measured x).attemptId = x.attemptId := by
              unfold BudgetRow.charge
              split <;> rfl
            rw [owner, decide_eq_false mine]
            exact ih
  | finished row => exact kept row.same (by decide)

/-- While the attempt is unfinished, the steps of others spend nothing in its sequence. -/
theorem Change.spent_other {actor : Actor} (h : Integrity db) (h' : Integrity db')
    (sequenced : Sequenced db) (change : Change hash db actor db') {a : AttemptRow}
    (member : a ∈ db.attempts) (unfinished : a.finishedAtNs = none)
    (other : actor.id ≠ some a.id) {q : SequenceKey} (inside : InSequence db a.slotId q) :
    spent db' q = spent db q := by
  have alone : ∀ {x : AttemptRow}, x ∈ db.attempts → x.finishedAtNs = none → x.id ≠ a.id →
      ¬InSequence db x.slotId q := by
    intro x known open_ different home
    exact different (congrArg AttemptRow.id
      (sequenced.active q x known a member home inside open_ unfinished))
  have moved_ : ∀ {x y : AttemptRow}, Moved db db' x y → x.id ≠ a.id →
      db'.freshMembers = db.freshMembers → db'.freshBudget = db.freshBudget →
      spent db' q = spent db q := by
    intro x y moved different members budget
    rw [moved.spent h h' budget members,
      if_neg (alone moved.member (moved.unfinished h) different), Int.sub_zero]
  have kept : ∀ {written : List Table}, SameBut written db db' → .freshBudget ∉ written →
      .attempts ∉ written → .freshMembers ∉ written → spent db' q = spent db q :=
    fun same budget attempts members => spent_congr (same.2 .freshBudget budget)
      (same.2 .attempts attempts) (same.2 .freshMembers members) q
  have different : ∀ {x : RecordId .attempt}, some x ≠ some a.id → x ≠ a.id :=
    fun distinct same => distinct (congrArg some same)
  cases change with
  | idle => rfl
  | registered same => exact kept same (by decide) (by decide) (by decide)
  | enrolled row => exact row.spent h h' sequenced
  | imported same => exact kept same (by decide) (by decide) (by decide)
  | reserved row => exact row.spent h h'
  | advanced row =>
      exact moved_ row.toMoved (different other) (row.same.2 .freshMembers (by decide))
        (row.same.2 .freshBudget (by decide))
  | claimed row =>
      exact moved_ row.toMoved (different other) (row.same.2 .freshMembers (by decide))
        (row.same.2 .freshBudget (by decide))
  | leased _ _ rows => exact kept rows.same (by decide) (by decide) (by decide)
  | observed row => exact kept row.same (by decide) (by decide) (by decide)
  | budgeted row =>
      rw [row.spent h h', if_neg (alone row.member row.active (different other)), Int.add_zero]
  | charged row => exact row.spent h h'
  | finished row =>
      refine moved_ row.toMoved ?_ row.members (row.same.2 .freshBudget (by decide))
      rw [row.guard]
      exact different other

theorem Change.undisturbed {actor : Actor} (h : Integrity db) (h' : Integrity db')
    (sequenced : Sequenced db) (grown : Grown db db') (kept : Unregistered db db')
    (change : Change hash db actor db') {a : AttemptRow} (member : a ∈ db.attempts)
    (unfinished : a.finishedAtNs = none) (id : a.id = g.id) (slot : a.slotId = g.slot)
    (other : actor.id ≠ some g.id) : Undisturbed g db db' where
  layout := kept.layout
  decisions := kept.decisions
  runs := kept.runs
  observationSlots := kept.observationSlots
  attemptSlots := kept.attemptSlots
  memberships := kept.memberships
  sequences := kept.sequences
  members := kept.members
  row := change.row_other other
  observed := (change.observed_other h other).1
  selected := (change.observed_other h other).2
  artifacts := grown.artifacts
  budget := change.budget_other other
  spent := by
    intro q inside
    rw [← slot] at inside
    rw [← id] at other
    exact change.spent_other h h' sequenced member unfinished other inside

end OtherSteps

/-! ## Runs of other attempts -/

section OtherRuns

variable {hash : Hasher} {w : World} {g : OwnedAttempt}

theorem Reachable.controlled (reach : Reachable hash w) : Controlled w.db := by
  refine reach.keeps (fun _ _ member => nomatch member) fun {db db' actor} _ _ old change => ?_
  have kept : ∀ {written : List Table}, SameBut written db db' → .freshMembers ∉ written →
      Controlled db' := by
    intro written same outside
    unfold Controlled
    rw [show db'.freshMembers = db.freshMembers from same.2 .freshMembers outside]
    exact old
  cases change with
  | idle => exact old
  | registered same => exact kept same (by decide)
  | enrolled row =>
      intro m member
      rcases row.controls m member with older | normal
      · exact old m older
      · exact normal
  | imported same => exact kept same (by decide)
  | reserved row => exact kept row.same (by decide)
  | advanced row => exact kept row.same (by decide)
  | claimed row => exact kept row.same (by decide)
  | leased _ _ rows => exact kept rows.same (by decide)
  | observed row => exact kept row.same (by decide)
  | budgeted row => exact kept row.same (by decide)
  | charged row => exact kept row.same (by decide)
  | finished row => exact kept row.same (by decide)

theorem next_unregistered {label : Label} (works : label.registers w = false) :
    Unregistered w.db (next hash w label).db := by
  have idle : Unregistered w.db w.db := ⟨rfl, rfl, rfl, rfl, rfl, rfl, rfl, rfl⟩
  unfold next
  cases transaction : w.transaction hash label with
  | none => exact idle
  | some body =>
      rcases Tx.atomically_cases body w.db with ⟨answer, db', run, outcome⟩ | ⟨e, outcome⟩
      · simp only [outcome]
        exact .of_same (((label_uses transaction).2 works).sameBut run) (by decide)
      · simp only [outcome]
        exact idle

/-- A step that neither acts for the attempt nor registers anything. -/
def ByOthers (hash : Hasher) (id : RecordId .attempt) (w : World) (label : Label) : Prop :=
  (label.actor hash w).id ≠ some id ∧ label.registers w = false

theorem undisturbed_of_others {labels : List Label} (reach : Reachable hash w) {a : AttemptRow}
    (member : a ∈ w.db.attempts) (unfinished : a.finishedAtNs = none) (id : a.id = g.id)
    (slot : a.slotId = g.slot) (others : Meets (next hash) (ByOthers hash g.id) w labels) :
    Undisturbed g w.db (run (next hash) w labels).db := by
  -- the row of the attempt is among those that stay, so each step finds it unfinished again
  induction labels generalizing w with
  | nil => exact .rfl g w.db
  | cons label rest ih =>
      obtain ⟨⟨foreign, works⟩, later⟩ := others
      have stepped := reach.sound.stepped label
      have first : Undisturbed g w.db (next hash w label).db :=
        stepped.change.undisturbed reach.sound.db.toIntegrity
          (reach.after label).sound.db.toIntegrity reach.sequenced stepped.grown
          (next_unregistered works) member unfinished id slot foreign
      have stays : a ∈ (next hash w label).db.attempts := by
        have listed : a ∈ w.db.attempts.filter fun x => x.id = g.id :=
          List.mem_filter.mpr ⟨member, by simpa using id⟩
        rw [← first.row] at listed
        exact List.mem_of_mem_filter listed
      exact first.trans (ih (reach.after label) stays later)

theorem Undisturbed.sums {v : World} (reach : Reachable hash w) (later : Reachable hash v)
    (same : Undisturbed g w.db v.db) : SumsAgree g w.db v.db := by
  intro q found
  have equal : (consumptions v.db q).sum = (consumptions w.db q).sum :=
    same.spent q (inSequence_of_membership found).2
  rw [((budget_kept_of_reachable later).arithmetic q).1,
    ((budget_kept_of_reachable reach).arithmetic q).1, equal]

end OtherRuns

/-! ## Losing finalizers -/

/-- The last transaction of `publish_finalization` when the coordination records are
not compared with the document again. -/
def publishUncompared (attempt : OwnedAttempt) (outcome : TerminalOutcome)
    (references : List (String × String)) (finished : Nat) (stage : Stage)
    (content manifest : Digest) (clock : Nat) : StoreTx TerminalAttempt := do
  let now := max clock finished
  let artifact := publishStage .attempt content manifest now
  checkStage attempt stage now
  let terminal ← commitFinalizationIn attempt outcome artifact references finished now
  commit
  pure terminal

/-- The comparison passes when the snapshot is what the document holds. -/
theorem publishFinalization_of_snapshot {db : Db} {g : OwnedAttempt} {outcome : TerminalOutcome}
    {references : List (String × String)} {finished : Nat} {stage : Stage} {document : Json}
    {content manifest : Digest} {clock : Nat}
    (read : Tx.Yields (coordinationSnapshot g outcome finished) db (document.get "coordination")
      db) :
    publishFinalization g outcome references finished stage document content manifest clock db =
      publishUncompared g outcome references finished stage content manifest clock db := by
  unfold publishFinalization publishUncompared
  simp only [bind, StateT.bind]
  cases staged : checkStage g stage (max clock finished) db with
  | error e => rfl
  | ok p =>
      obtain ⟨⟨⟩, db'⟩ := p
      obtain rfl : db' = db := Uses.checkStage.readOnly staged
      simp only [Except.bind]
      rw [show coordinationSnapshot g outcome finished db' =
        .ok (document.get "coordination", db') from read]
      simp only [Tx.require, if_true]
      rfl

/-- What other attempts leave of a losing finalizer's document. -/
structure LosingKept (g : OwnedAttempt) (outcome : TerminalOutcome)
    (references : List (String × String)) (finished : Nat) (document : Json) (db : Db) :
    Prop where
  built : Tx.Yields (buildOutcomeDocument g outcome references finished) db document db
  coordination :
    Tx.Yields (coordinationSnapshot g outcome finished) db (document.get "coordination") db
  /-- The comparison is passed: what can still fail is what fails without it. -/
  publication : ∀ stage content manifest clock,
    publishFinalization g outcome references finished stage document content manifest clock db =
      publishUncompared g outcome references finished stage content manifest clock db

/-- A second attempt begins finalization behind the first one's claim. -/
def contestedRun : List Label :=
  .request (.registerOneShot default sampleSpecification sampleSlot sampleObservationSlot) ::
    sampleStart 0 10 1 ++ [
    .request (.reserve sampleSlot.id (.next true) ⟨"lease-1", "owner", 70⟩ 20),
    .request (.beginFinalization (sampleGuard 1 0 20) ⟨"claim-1", "owner", 70⟩ 21)]

/-- The first attempt selects its observation and is accepted. -/
def winningRun : List Label := [
  .request (.registerObservation (sampleGuard 0 1 11) (sampleObservation 0 0 .notRequired)
    (sampleArtifact .observation 1 13) true 22),
  .request (.commitFinalization (sampleGuard 0 1 11) .accepted (sampleArtifact .attempt 2 23) [] 24)]

instance (hash : Hasher) (id : RecordId .attempt) (w : World) (label : Label) :
    Decidable (ByOthers hash id w label) := by
  unfold ByOthers
  infer_instance

end Metewand.RunStore
