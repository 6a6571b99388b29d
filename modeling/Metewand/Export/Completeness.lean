import Metewand.Export.Analysis
import Metewand.Lib.Tally

/-!
# Complete snapshots

What a snapshot that is reported complete says about the evidence it comes from.  `Settled` holds of every
measurement slot in scope; the repetitions of a candidate are only counted, so they cover the declared
ones exactly under the condition of `Regular`.
-/

namespace Metewand.Export

open Lib Lib.Check
open AnalysisSnapshot (isSelected isProfile expectedRepetitions slotIssue observationIssue profileIssue candidateIssue)

/-! ## The evidence -/

/-- A measurement slot of the evidence, with its candidate. -/
def Registered (tables : AnalysisTables) (id candidate : String) : Prop :=
  ∃ slot ∈ tables.resolvedAttemptSlot, slot.get "role" = .str "measurement" ∧ text slot "id" = some id ∧
    ∃ runId run, text slot "resolved_run_id" = some runId ∧ tables.graph runId = some run ∧
      text run "candidate_id" = some candidate

/-- An attempt of a slot was accepted. -/
def Accepted (records : List ExportRecord) (id : String) : Prop :=
  ∃ record ∈ records, record.recordType = .attempt ∧ record.resolvedSlotId = some id ∧
    record.attemptState = some "accepted"

/-- An observation is selected for a slot. -/
def Selects (tables : AnalysisTables) (id observation : String) : Prop :=
  ∃ row ∈ tables.observation, row.get "attempt_slot_id" = .str id ∧ row.get "selected" = .bool true ∧
    text row "id" = some observation

/-- An observation is present, valid and produced by an accepted attempt. -/
def Sound (records : List ExportRecord) (comparisons : List ComparisonRow) (observation : String) : Prop :=
  ∃ record ∈ records, record.recordType = .observation ∧ record.id = observation ∧
    ∃ row, comparisonOf comparisons observation = some row ∧ row.selected = some true ∧ row.valid = some true ∧
      row.status = "accepted"

/-- A slot was skipped because the target was reached, or was accepted and has its observations. -/
def Settled (records : List ExportRecord) (comparisons : List ComparisonRow) (tables : AnalysisTables) (id : String) :
    Prop :=
  (disposition tables id = some "skipped_target_reached" ∨
    Accepted records id ∧ ∃ observation, Selects tables id observation) ∧
  ∀ observation, Selects tables id observation → Sound records comparisons observation

/-! ## Repetitions -/

namespace AnalysisSnapshot

variable (s : AnalysisSnapshot)

/-- An observation is selected for a slot. -/
def selects (slot : AnalysisSlot) (o : AnalysisObservation) : Bool :=
  slot.selectedObservationIds.any fun id => isSelected id o

/-- The repetitions of an implementation and of its measurement. -/
def repetition (implementation measurement : Option Nat) : Option (Nat × Nat) :=
  implementation.bind fun i => measurement.map fun m => (i, m)

def slotRepetition (slot : AnalysisSlot) : Option (Nat × Nat) :=
  (s.observations.find? (selects slot)).bind fun o =>
    repetition o.comparison.implementationRepetition o.comparison.measurementIndex

def profileRepetition (profile : AnalysisProfile) : Option (Nat × Nat) :=
  let implementation := (s.observations.find? fun o => s.slots.any fun slot =>
    slot.resolvedSpecificationId = profile.resolvedSpecificationId && selects slot o).bind fun o =>
      o.comparison.implementationRepetition
  repetition implementation profile.measurementIndex

/-- The repetitions of a candidate's measured slots, or of its profiles. -/
def repetitions (candidate : AnalysisCandidate) : List (Option (Nat × Nat)) :=
  if isProfile candidate then (s.profiles.filter (·.candidateId = candidate.id)).map s.profileRepetition
  else (s.slots.filter (·.candidateId = candidate.id)).map s.slotRepetition

/-- Declared repetitions of a candidate that is applicable or has a measured slot. -/
def Declares (candidate : AnalysisCandidate) (implementations measurements : Nat) : Prop :=
  candidate.implementationRepetitions = some implementations ∧
    candidate.measurementRepetitions = some measurements ∧
      ((∃ a ∈ s.applicability, a.candidateId = candidate.id ∧ a.applicable = true) ∨
        ∃ slot ∈ s.slots, slot.candidateId = candidate.id)

/-- The cells that the repetitions have to cover. -/
def cells (implementations measurements : Nat) : List (Option (Nat × Nat)) :=
  (grid implementations measurements).map some

/-- The repetitions of a candidate are not counted: it is not applicable somewhere, or they are too many. -/
def Uncounted (candidate : AnalysisCandidate) (implementations measurements : Nat) : Prop :=
  (∃ a ∈ s.applicability, a.candidateId = candidate.id ∧ a.applicable = false) ∨
    2 ^ 64 ≤ measurements * implementations

/-- No repetition is recorded twice or beyond the declared ones; uncounted ones are as many as declared. -/
def Regular (candidate : AnalysisCandidate) (implementations measurements : Nat) : Prop :=
  (¬s.Uncounted candidate implementations measurements →
    (s.repetitions candidate).Nodup ∧ ∀ r ∈ s.repetitions candidate, r ∈ cells implementations measurements) ∧
  (s.Uncounted candidate implementations measurements →
    (within (cells implementations measurements) (s.repetitions candidate)).Nodup ∧
      (within (cells implementations measurements) (s.repetitions candidate)).length = implementations * measurements)

/-! ## Snapshots without issues -/

theorem issues_eq_nil : s.issues = [] ↔ s.scopeIssues = [] ∧ (∀ slot ∈ s.slots, s.slotIssue slot = none) ∧
    (∀ o ∈ s.observations, observationIssue o = none) ∧ (∀ profile ∈ s.profiles, profileIssue profile = none) ∧
      ∀ candidate ∈ s.candidates, s.candidateIssue candidate = none := by
  simp only [issues, List.append_eq_nil_iff, List.filterMap_eq_nil_iff]
  constructor
  · rintro ⟨⟨⟨⟨scope, slots⟩, observations⟩, profiles⟩, candidates⟩
    exact ⟨scope, slots, observations, profiles, candidates⟩
  · rintro ⟨scope, slots, observations, profiles, candidates⟩
    exact ⟨⟨⟨⟨scope, slots⟩, observations⟩, profiles⟩, candidates⟩

theorem slotIssue_eq_none {slot : AnalysisSlot} : s.slotIssue slot = none ↔
    (slot.state = "satisfied" ∨ slot.state = "skipped_target_reached") ∧
      (slot.state = "satisfied" → slot.selectedObservationIds ≠ []) ∧
        ∀ id ∈ slot.selectedObservationIds, ∃ o ∈ s.observations, isSelected id o = true := by
  unfold slotIssue
  split
  · rename_i unsettled
    simp [unsettled]
  · rename_i settled
    have settled := not_not.mp settled
    split
    · rename_i unselected
      have empty := List.isEmpty_iff.mp unselected.2
      simp [unselected.1, empty]
    · rename_i selected
      have filled : slot.state = "satisfied" → slot.selectedObservationIds ≠ [] :=
        fun state empty => selected ⟨state, List.isEmpty_iff.mpr empty⟩
      split
      · rename_i missing
        obtain ⟨id, member, absent⟩ := List.any_eq_true.mp missing
        refine ⟨fun impossible => (by cases impossible), fun held => ?_⟩
        obtain ⟨o, inside, is⟩ := held.2.2 id member
        have found : s.observations.any (isSelected id) = true := List.any_eq_true.mpr ⟨o, inside, is⟩
        rw [found] at absent
        cases absent
      · rename_i present
        refine ⟨fun _ => ⟨settled, filled, fun id member => ?_⟩, fun _ => rfl⟩
        cases found : s.observations.any (isSelected id) with
        | true => exact List.any_eq_true.mp found
        | false => exact absurd (List.any_eq_true.mpr ⟨id, member, by rw [found]; rfl⟩) present

theorem observationIssue_eq_none {o : AnalysisObservation} (silent : observationIssue o = none)
    (selected : o.comparison.selected = some true) :
    o.comparison.valid = some true ∧ o.comparison.status = "accepted" := by
  unfold observationIssue at silent
  dsimp only at silent
  split at silent
  · cases silent
  · rename_i not
    by_cases valid : o.comparison.valid = some true
    · by_cases status : o.comparison.status = "accepted"
      · exact ⟨valid, status⟩
      · exact absurd ⟨selected, .inr status⟩ not
    · exact absurd ⟨selected, .inl valid⟩ not

theorem profileIssue_eq_none {profile : AnalysisProfile} : profileIssue profile = none ↔ profile.status = "accepted" := by
  unfold profileIssue
  split
  · rename_i other
    simp [other]
  · rename_i accepted
    simpa using accepted

/-! ## A part of a snapshot -/

/-- The part of a snapshot that concerns some candidates. -/
def part (among : String → Bool) : AnalysisSnapshot :=
  { s with
    candidates := s.candidates.filter fun c => among c.id
    slots := s.slots.filter fun slot => among slot.candidateId
    profiles := s.profiles.filter fun p => among p.candidateId
    applicability := s.applicability.filter fun a => among a.candidateId
    observations := s.observations.filter fun o => among o.comparison.candidateId }

theorem filter_among {β : Type} {among : String → Bool} {id : String} (inside : among id = true) (key : β → String)
    (entries : List β) : (entries.filter fun e => among (key e)).filter (key · = id) = entries.filter (key · = id) := by
  rw [List.filter_filter]
  refine List.filter_congr fun e _ => ?_
  by_cases same : key e = id
  · simp [same, inside]
  · simp [same]

theorem observed_part {among : String → Bool} {candidate : AnalysisCandidate} (inside : among candidate.id = true) :
    (s.part among).observed candidate = s.observed candidate := by
  unfold observed part
  dsimp only
  rw [filter_among inside, filter_among inside]

theorem observed_eq (candidate : AnalysisCandidate) : s.observed candidate = (s.repetitions candidate).length := by
  unfold observed repetitions
  split
  · rw [List.length_map]
  · rw [List.length_map]

theorem candidateIssue_part {among : String → Bool} {candidate : AnalysisCandidate} (inside : among candidate.id = true) :
    (s.part among).candidateIssue candidate = s.candidateIssue candidate := by
  have refused : ((s.part among).applicability.any fun a => a.candidateId = candidate.id && !a.applicable) =
      s.applicability.any fun a => a.candidateId = candidate.id && !a.applicable := by
    change (s.applicability.filter fun a => among a.candidateId).any _ = _
    rw [List.any_filter]
    refine congrArg s.applicability.any (funext fun a => ?_)
    by_cases same : a.candidateId = candidate.id
    · simp [same, inside]
    · simp [same]
  unfold candidateIssue
  rw [refused, observed_part s inside]

/-- The issues of a candidate stay in every part that has the candidate. -/
theorem part_issues {among : String → Bool} {issue : AnalysisIssue} (member : issue ∈ s.issues) {candidate : String}
    (concerns : issue.candidateId = some candidate) (inside : among candidate = true) : (s.part among).issues ≠ [] := by
  intro clean
  obtain ⟨-, slots, observations, profiles, candidates⟩ := (issues_eq_nil _).mp clean
  simp only [issues, List.mem_append, List.mem_filterMap] at member
  rcases member with (((scope | ⟨slot, here, raised⟩) | ⟨o, here, raised⟩) | ⟨profile, here, raised⟩) | ⟨c, here, raised⟩
  · unfold scopeIssues at scope
    split at scope
    · cases List.mem_singleton.mp scope
      cases concerns
    · cases scope
  · have own : slot.candidateId = candidate := by
      unfold slotIssue at raised
      split at raised
      · cases raised
        exact Option.some.inj concerns
      split at raised
      · cases raised
        exact Option.some.inj concerns
      split at raised
      · cases raised
        exact Option.some.inj concerns
      · cases raised
    have kept : slot ∈ (s.part among).slots := List.mem_filter.mpr ⟨here, own ▸ inside⟩
    obtain ⟨settled, filled, present⟩ := (slotIssue_eq_none _).mp (slots slot kept)
    have silent : s.slotIssue slot = none := (slotIssue_eq_none s).mpr ⟨settled, filled, fun id member => by
      obtain ⟨o, inner, is⟩ := present id member
      exact ⟨o, (List.mem_filter.mp inner).1, is⟩⟩
    rw [silent] at raised
    cases raised
  · have own : o.comparison.candidateId = candidate := by
      unfold observationIssue at raised
      dsimp only at raised
      split at raised
      · cases raised
        exact Option.some.inj concerns
      · cases raised
    have silent := observations o (List.mem_filter.mpr ⟨here, own ▸ inside⟩)
    rw [silent] at raised
    cases raised
  · have own : profile.candidateId = candidate := by
      unfold profileIssue at raised
      split at raised
      · cases raised
        exact Option.some.inj concerns
      · cases raised
    have silent := profiles profile (List.mem_filter.mpr ⟨here, own ▸ inside⟩)
    rw [silent] at raised
    cases raised
  · have own : c.id = candidate := by
      unfold candidateIssue at raised
      split at raised
      · cases raised
      split at raised
      · cases raised
      split at raised
      · cases raised
        exact Option.some.inj concerns
      · cases raised
    have silent := candidates c (List.mem_filter.mpr ⟨here, own ▸ inside⟩)
    rw [candidateIssue_part s (own ▸ inside), raised] at silent
    cases silent

/-- Counting covers the repetitions of a candidate where they are regular. -/
theorem marked_once_iff_regular {among : String → Bool} {candidate : AnalysisCandidate} (inside : among candidate.id = true)
    {implementations measurements : Nat} (declared : s.Declares candidate implementations measurements)
    (silent : (s.part among).candidateIssue candidate = none) :
    MarkedOnce (cells implementations measurements) (s.repetitions candidate) ↔
      s.Regular candidate implementations measurements := by
  have distinct : (cells implementations measurements).Nodup :=
    (grid_nodup _ _).map (Option.some_injective _)
  have size : (cells implementations measurements).length = implementations * measurements := by
    rw [cells, List.length_map, length_grid]
  by_cases uncounted : s.Uncounted candidate implementations measurements
  · rw [marked_once_iff distinct, size]
    exact ⟨fun full => ⟨fun counted => absurd uncounted counted, fun _ => full⟩, fun regular => regular.2 uncounted⟩
  · obtain ⟨applicable, few⟩ := not_or.mp uncounted
    have expected : expectedRepetitions candidate = some (measurements * implementations) := by
      rw [expectedRepetitions, declared.2.1, declared.1, Option.bind_some, Option.bind_some, if_pos (by omega)]
    have refused : (s.applicability.any fun a => a.candidateId = candidate.id && !a.applicable) = false := by
      rw [List.any_eq_false]
      intro a member refused
      rw [Bool.and_eq_true, decide_eq_true_eq, Bool.not_eq_true'] at refused
      exact applicable ⟨a, member, refused⟩
    rw [candidateIssue_part s inside] at silent
    unfold candidateIssue at silent
    rw [expected, refused] at silent
    dsimp only at silent
    rw [if_neg Bool.false_ne_true] at silent
    have counted : s.observed candidate = measurements * implementations := by
      by_contra other
      rw [if_pos other] at silent
      cases silent
    rw [observed_eq] at counted
    rw [marked_once_iff_nodup distinct (by rw [size, counted, Nat.mul_comm])]
    exact ⟨fun both => ⟨fun _ => both, fun is => absurd is uncounted⟩, fun regular => regular.1 uncounted⟩

end AnalysisSnapshot

/-! ## Projected snapshots -/

section

variable {lib : JsonLibrary} {sha256 : List UInt8 → Digest} {records : List ExportRecord}
  {comparisons : List ComparisonRow} {tables : AnalysisTables}

theorem slotState_satisfied {attempts : List AnalysisAttempt} {id : String}
    (state : slotState attempts tables id = "satisfied") :
    ∃ a ∈ attempts, a.slotId = some id ∧ a.state = some "accepted" := by
  unfold slotState at state
  dsimp only at state
  split at state
  · rename_i accepted
    obtain ⟨a, member, is⟩ := List.any_eq_true.mp accepted
    obtain ⟨inside, own⟩ := List.mem_filter.mp member
    exact ⟨a, inside, of_decide_eq_true own, of_decide_eq_true is⟩
  · exfalso
    revert state
    split
    · decide
    split
    · decide
    split
    · decide
    split
    · decide
    · decide

theorem slotState_skipped {attempts : List AnalysisAttempt} {id : String}
    (state : slotState attempts tables id = "skipped_target_reached") :
    disposition tables id = some "skipped_target_reached" := by
  unfold slotState at state
  dsimp only at state
  split at state
  · exact absurd state (by decide)
  split at state
  · exact absurd state (by decide)
  split at state
  · assumption
  split at state
  · exact absurd state (by decide)
  split at state
  · exact absurd state (by decide)
  · exact absurd state (by decide)

theorem mem_selectedObservationIds {id observation : String} :
    observation ∈ selectedObservationIds tables id ↔ Selects tables id observation := by
  simp only [selectedObservationIds, List.mem_filterMap, List.mem_filter, Bool.and_eq_true, decide_eq_true_eq]
  constructor
  · rintro ⟨row, ⟨member, own, selected⟩, named⟩
    exact ⟨row, member, own, selected, named⟩
  · rintro ⟨row, member, own, selected, named⟩
    exact ⟨row, ⟨member, own, selected⟩, named⟩

theorem comparisonOf_id {id : String} {row : ComparisonRow} (found : comparisonOf comparisons id = some row) :
    row.observationId = some id := by
  simpa using List.find?_some found

/-- The comparison of a projected observation, up to its index. -/
theorem comparisonIndex_keeps (candidates : List AnalysisCandidate) (candidateId : String) (row : ComparisonRow) :
    (comparisonIndex candidates candidateId row).observationId = row.observationId ∧
      (comparisonIndex candidates candidateId row).selected = row.selected ∧
      (comparisonIndex candidates candidateId row).valid = row.valid ∧
      (comparisonIndex candidates candidateId row).status = row.status := by
  unfold comparisonIndex
  split
  · split
    · exact ⟨rfl, rfl, rfl, rfl⟩
    · exact ⟨rfl, rfl, rfl, rfl⟩
  · exact ⟨rfl, rfl, rfl, rfl⟩

/-- A selected observation of the snapshot that raises no issue is sound in the evidence. -/
theorem sound_of_observation {candidates : List AnalysisCandidate} {record : ExportRecord} (member : record ∈ records)
    (kind : record.recordType = .observation) {o : AnalysisObservation}
    (ran : analysisObservation lib sha256 comparisons candidates record = .ok o) {observation : String}
    (is : AnalysisSnapshot.isSelected observation o = true) (silent : AnalysisSnapshot.observationIssue o = none) :
    Sound records comparisons observation := by
  simp only [analysisObservation, ok_bind, ok_expect, ok_pure] at ran
  obtain ⟨row, found, id, -, rfl⟩ := ran
  rw [AnalysisSnapshot.isSelected, Bool.and_eq_true, decide_eq_true_eq, decide_eq_true_eq] at is
  obtain ⟨named, selected⟩ := is
  obtain ⟨valid, status⟩ := AnalysisSnapshot.observationIssue_eq_none silent selected
  obtain ⟨sameId, sameSelected, sameValid, sameStatus⟩ := comparisonIndex_keeps candidates record.candidateId row
  dsimp only at named selected valid status
  rw [sameId, comparisonOf_id found] at named
  obtain rfl := Option.some.inj named
  exact ⟨record, member, kind, rfl, row, found, sameSelected ▸ selected, sameValid ▸ valid, sameStatus ▸ status⟩

/-- What completeness says of the candidates in a scope. -/
structure CompleteIn (records : List ExportRecord) (comparisons : List ComparisonRow) (tables : AnalysisTables)
    (s : AnalysisSnapshot) (scope : String → Prop) : Prop where
  settled : ∀ id candidate, Registered tables id candidate → scope candidate → Settled records comparisons tables id
  profiles : ∀ profile ∈ s.profiles, scope profile.candidateId → profile.status = "accepted"
  covered : (∀ candidate ∈ s.candidates, scope candidate.id → ∀ implementations measurements,
      s.Declares candidate implementations measurements →
        MarkedOnce (AnalysisSnapshot.cells implementations measurements) (s.repetitions candidate)) ↔
    ∀ candidate ∈ s.candidates, scope candidate.id → ∀ implementations measurements,
      s.Declares candidate implementations measurements → s.Regular candidate implementations measurements

/-- The lists of a projected snapshot come from the evidence. -/
structure Projected (lib : JsonLibrary) (sha256 : List UInt8 → Digest) (records : List ExportRecord)
    (comparisons : List ComparisonRow) (tables : AnalysisTables) (s : AnalysisSnapshot) : Prop where
  observations : ∀ o ∈ s.observations, ∃ record ∈ records, record.recordType = .observation ∧
    analysisObservation lib sha256 comparisons s.candidates record = .ok o
  attempts : ∀ a ∈ s.attempts, ∃ record ∈ records, record.recordType = .attempt ∧ analysisAttempt record = a
  slots : ∀ slot ∈ tables.resolvedAttemptSlot, slot.get "role" = .str "measurement" →
    ∃ own ∈ s.slots, analysisSlot s.attempts tables slot = .ok own
  checked : s.completeness = { complete := s.issues.isEmpty, issues := s.issues }

theorem projected_of_project {s : AnalysisSnapshot} (ran : project lib sha256 records comparisons tables = .ok s) :
    Projected lib sha256 records comparisons tables s := by
  simp only [project, projected, ok_bind, ok_pure] at ran
  obtain ⟨_, ⟨observations, observed, slots, slotted, fresh, -, rfl⟩, rfl⟩ := ran
  refine ⟨fun o member => ?_, fun a member => ?_, fun slot member role => ?_, rfl⟩
  · have inside : o ∈ observations := (List.perm_insertionSort _ _).mem_iff.mp member
    obtain ⟨record, here, ran⟩ := exists_of_traverseAll observed inside
    obtain ⟨among, kind⟩ := List.mem_filter.mp here
    exact ⟨record, among, of_decide_eq_true kind, ran⟩
  · obtain ⟨record, here, rfl⟩ := List.mem_map.mp member
    obtain ⟨among, kind⟩ := List.mem_filter.mp here
    exact ⟨record, among, of_decide_eq_true kind, rfl⟩
  · have among : slot ∈ tables.resolvedAttemptSlot.filter fun slot => slot.get "role" = .str "measurement" :=
      List.mem_filter.mpr ⟨member, decide_eq_true role⟩
    obtain ⟨i, at_⟩ := List.getElem?_of_mem among
    obtain ⟨own, there, ran⟩ := getElem?_of_traverseAll slotted at_
    exact ⟨own, (List.perm_insertionSort _ _).mem_iff.mpr (List.mem_of_getElem? there), ran⟩

/-- A part without issues is complete in its scope. -/
theorem complete_of_part {s : AnalysisSnapshot} (projected : Projected lib sha256 records comparisons tables s)
    {among : String → Bool} (clean : (s.part among).issues = []) :
    CompleteIn records comparisons tables s fun id => among id = true := by
  obtain ⟨-, slots, observations, profiles, candidates⟩ := (AnalysisSnapshot.issues_eq_nil _).mp clean
  refine ⟨?_, fun profile member inside => ?_, ?_⟩
  · rintro id candidate ⟨slot, member, role, named, runId, run, hasRun, found, owner⟩ inside
    obtain ⟨own, here, ran⟩ := projected.slots slot member role
    simp only [analysisSlot, requiredText, ok_bind, ok_expect, ok_pure] at ran
    obtain ⟨id', named', runId', hasRun', run', found', candidate', owner', rfl⟩ := ran
    cases named.symm.trans named'
    cases hasRun.symm.trans hasRun'
    cases found.symm.trans found'
    cases owner.symm.trans owner'
    have kept := slots _ (List.mem_filter.mpr ⟨here, inside⟩)
    obtain ⟨settled, filled, present⟩ := (AnalysisSnapshot.slotIssue_eq_none _).mp kept
    dsimp only at settled filled present
    refine ⟨?_, fun observation selected => ?_⟩
    · rcases settled with satisfied | skipped
      · right
        obtain ⟨a, attempt, own, accepted⟩ := slotState_satisfied satisfied
        obtain ⟨record, among, kind, rfl⟩ := projected.attempts a attempt
        obtain ⟨observation, rest, shape⟩ := List.exists_cons_of_ne_nil (filled satisfied)
        refine ⟨⟨record, among, kind, own, accepted⟩, observation, mem_selectedObservationIds.mp ?_⟩
        rw [shape]
        exact List.mem_cons_self
      · exact .inl (slotState_skipped skipped)
    · obtain ⟨o, within, is⟩ := present observation (mem_selectedObservationIds.mpr selected)
      obtain ⟨record, among, kind, ran⟩ := projected.observations o (List.mem_filter.mp within).1
      exact sound_of_observation among kind ran is (observations o within)
  · exact AnalysisSnapshot.profileIssue_eq_none.mp (profiles profile (List.mem_filter.mpr ⟨member, inside⟩))
  · have each : ∀ candidate ∈ s.candidates, among candidate.id = true → ∀ implementations measurements,
        s.Declares candidate implementations measurements →
          (MarkedOnce (AnalysisSnapshot.cells implementations measurements) (s.repetitions candidate) ↔
            s.Regular candidate implementations measurements) :=
      fun candidate member inside implementations measurements declared =>
        s.marked_once_iff_regular inside declared (candidates candidate (List.mem_filter.mpr ⟨member, inside⟩))
    constructor
    · intro covered candidate member inside implementations measurements declared
      exact (each candidate member inside _ _ declared).mp (covered candidate member inside _ _ declared)
    · intro regular candidate member inside implementations measurements declared
      exact (each candidate member inside _ _ declared).mpr (regular candidate member inside _ _ declared)

theorem part_all (s : AnalysisSnapshot) : (s.part fun _ => true) = s := by
  unfold AnalysisSnapshot.part
  simp only [List.filter_true]

/-- A complete snapshot, or a complete selection from it, settles the slots and profiles in its scope, and covers
the declared repetitions just when they are regular; a candidate with an issue makes no complete selection. -/
theorem complete_iff_regular {s : AnalysisSnapshot} (ran : project lib sha256 records comparisons tables = .ok s) :
    (s.completeness.complete = true → CompleteIn records comparisons tables s fun _ => True) ∧
      ∀ chosen : List ExportRecord,
        ((select s chosen).completeness.complete = true →
          CompleteIn records comparisons tables s fun id => ∃ record ∈ chosen, record.candidateId = id) ∧
        ∀ issue ∈ s.completeness.issues, ∀ candidate, issue.candidateId = some candidate →
          (∃ record ∈ chosen, record.candidateId = candidate) → (select s chosen).completeness.complete = false := by
  have projected := projected_of_project ran
  refine ⟨fun complete => ?_, fun chosen => ⟨fun complete => ?_, fun issue member candidate concerns inside => ?_⟩⟩
  · rw [projected.checked] at complete
    have whole := @complete_of_part _ _ _ _ _ _ projected (fun _ => true) (by
      rw [part_all]
      exact List.isEmpty_iff.mp complete)
    simpa using whole
  · have part := @complete_of_part _ _ _ _ _ _ projected (fun id => chosen.any fun r => r.candidateId = id)
      (List.isEmpty_iff.mp complete)
    simpa using part
  · rw [projected.checked] at member
    have some : (chosen.any fun r => r.candidateId = candidate) = true := by
      obtain ⟨record, here, own⟩ := inside
      exact List.any_eq_true.mpr ⟨record, here, decide_eq_true own⟩
    have raised := @AnalysisSnapshot.part_issues s (fun id => chosen.any fun r => r.candidateId = id) issue member
      candidate concerns some
    exact Bool.eq_false_iff.mpr fun empty => raised (List.isEmpty_iff.mp empty)

end

/-! ## A repetition measured twice -/

/-- One implementation repetition with two measurement repetitions is declared. -/
def twiceContext : Json :=
  .object [("analysis", .object [("implementation_repetitions", .nat 1), ("measurement_repetitions", .nat 2)])]

def twiceClass : CompatibilityClass where
  profile := none
  executionSemanticsVersion := none
  timingScope := none
  primaryTime := none
  environmentClass := none
  controlClass := "unknown"
  controlEvidence := "unavailable"
  controls := .null
  executionPolicy := .null
  measurementsVersion := none
  accounting := .null
  unclassifiedRecord := none

def twiceRecord (recordType : ExportRecordType) (id run slot attempt : String) : ExportRecord where
  profile := none
  schemaVersion := 1
  recordType := recordType
  id := id
  candidateId := "candidate"
  logicalRunId := some "logical-run"
  resolvedRunId := some run
  logicalSlotId := some "logical-slot"
  resolvedSlotId := some slot
  logicalObservationSlotId := none
  resolvedObservationSlotId := none
  attemptId := some attempt
  retryIndex := some 0
  attemptState := some "accepted"
  outcome := some "accepted"
  valid := if recordType = .observation then some true else none
  selected := if recordType = .observation then some true else none
  completion := if recordType = .observation then some "finished" else none
  failureCode := none
  warmup := some false
  compatibilityId := "export-v1:class"
  compatibility := twiceClass
  timing := .null
  metrics := .null
  metricSchema := none
  resultSchema := none
  provenance := .object [("data", .object [("context", twiceContext)])]
  evidence := .object [("source", .object [("started_at_ns", .str "1"), ("finished_at_ns", .str "2")])]

def twiceRow (observation attempt : String) : ComparisonRow where
  profile := none
  candidateId := "candidate"
  attemptId := attempt
  observationId := some observation
  experiment := none
  case := none
  dataset := none
  problem := none
  implementation := none
  parameters := .null
  implementationRepetition := some 0
  measurementIndex := some 0
  retryIndex := 0
  status := "accepted"
  valid := some true
  completion := some "finished"
  selected := some true
  metrics := .null
  timedWallTimeNs := none
  timedWallTimeStatus := "unavailable"
  timingScope := none
  instrumentedTimeNs := none
  instrumentedScope := none
  diagnostic := none

/-- The first measurement was resolved a second time, after the implementation had changed. -/
def twiceRecords : List ExportRecord :=
  [twiceRecord .attempt "attempt-1" "run-1" "slot-1" "attempt-1",
    twiceRecord .observation "observation-1" "run-1" "slot-1" "attempt-1",
    twiceRecord .attempt "attempt-2" "run-2" "slot-2" "attempt-2",
    twiceRecord .observation "observation-2" "run-2" "slot-2" "attempt-2"]

def twiceComparisons : List ComparisonRow :=
  [twiceRow "observation-1" "attempt-1", twiceRow "observation-2" "attempt-2"]

def twiceTables : AnalysisTables where
  resolvedSpecification := [.object [("id", .str "run-1"), ("candidate_id", .str "candidate")],
    .object [("id", .str "run-2"), ("candidate_id", .str "candidate")]]
  resolvedAttemptSlot :=
    [.object [("id", .str "slot-1"), ("resolved_run_id", .str "run-1"), ("role", .str "measurement")],
      .object [("id", .str "slot-2"), ("resolved_run_id", .str "run-2"), ("role", .str "measurement")]]
  observation :=
    [.object [("id", .str "observation-1"), ("attempt_slot_id", .str "slot-1"), ("selected", .bool true)],
      .object [("id", .str "observation-2"), ("attempt_slot_id", .str "slot-2"), ("selected", .bool true)]]
  freshDisposition := none
  freshSequence := none
  graph id :=
    if id = "run-1" ∨ id = "run-2" then some (.object [("id", .str id), ("candidate_id", .str "candidate")]) else none

def plainJson : JsonLibrary := ⟨fun _ => [], fun _ => none⟩

def twiceProjected : Except ExportError AnalysisSnapshot :=
  project plainJson (fun _ => .fill 0) twiceRecords twiceComparisons twiceTables

/-- The snapshot is complete although one repetition is measured twice and the other never. -/
theorem twice_projected : ∃ s, twiceProjected = .ok s ∧ s.completeness.complete = true ∧
    ∃ candidate ∈ s.candidates, s.Declares candidate 1 2 ∧ s.repetitions candidate = [some (0, 0), some (0, 0)] := by
  have evaluated : (twiceProjected.toOption.any fun s => s.completeness.complete && s.candidates.any fun c =>
      c.implementationRepetitions = some 1 && (c.measurementRepetitions = some 2 &&
        ((s.slots.any fun slot => slot.candidateId = c.id) &&
          s.repetitions c = [some (0, 0), some (0, 0)]))) = true := by
    decide +kernel
  obtain ⟨s, ran, holds⟩ : ∃ s, twiceProjected.toOption = some s ∧ _ := by
    cases ran : twiceProjected.toOption with
    | none =>
        rw [ran] at evaluated
        cases evaluated
    | some s =>
        rw [ran] at evaluated
        exact ⟨s, rfl, evaluated⟩
  obtain ⟨complete, some⟩ := Bool.and_eq_true_iff.mp holds
  obtain ⟨c, member, is⟩ := List.any_eq_true.mp some
  simp only [Bool.and_eq_true, decide_eq_true_eq] at is
  obtain ⟨implementations, measurements, slots, twice⟩ := is
  obtain ⟨slot, here, own⟩ := List.any_eq_true.mp slots
  exact ⟨s, toOption_eq_some.mp ran, complete, c, member,
    ⟨implementations, measurements, .inr ⟨slot, here, of_decide_eq_true own⟩⟩, twice⟩

/-- Its slots are settled all the same. -/
theorem twice_settled : ∃ s, twiceProjected = .ok s ∧
    Settled twiceRecords twiceComparisons twiceTables "slot-1" := by
  obtain ⟨s, ran, complete, -⟩ := twice_projected
  refine ⟨s, ran, ((complete_iff_regular ran).1 complete).settled "slot-1" "candidate" ?_ trivial⟩
  exact ⟨_, List.mem_cons_self, rfl, rfl, "run-1", _, rfl, rfl, rfl⟩

/-- A complete snapshot need not cover the declared repetitions. -/
theorem complete_uncovered : ∃ s, twiceProjected = .ok s ∧ s.completeness.complete = true ∧
    ∃ candidate ∈ s.candidates, s.Declares candidate 1 2 ∧
      ¬MarkedOnce (AnalysisSnapshot.cells 1 2) (s.repetitions candidate) := by
  obtain ⟨s, ran, complete, candidate, member, declared, twice⟩ := twice_projected
  refine ⟨s, ran, complete, candidate, member, declared, fun once => ?_⟩
  rw [twice] at once
  have count := once (some (0, 0)) (by decide)
  exact absurd count (by decide)

end Metewand.Export
