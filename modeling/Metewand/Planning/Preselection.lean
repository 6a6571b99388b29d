import Metewand.Planning.Selection
import Metewand.Planning.Locality
import Mathlib.Data.List.Flatten

/-!
# Preselection keeps exactly the selected work

`keptPlan` states what a preselected plan should hold, level by level: the measured slots
under one of whose identities something is selected, each with its trajectory.  Selection
recovers trajectories by chunking; the reference filters by measurement index.

Both agree on a specification whose slots come in full groups (`Grouped`), which planning
produces and selection preserves, so a second selection changes nothing
(`preselect_keeps_selected`).
-/

namespace Metewand.Planning

open Lib Lib.Check

/-! ## The reference -/

/-- The slots of one measurement repetition. -/
def trajectoryOf (bound : Nat) (specification : OneShotSpecificationPlan)
    (observation : RecordId .logicalObservationSlot) : List ObservationSlot :=
  match findAnchor specification observation with
  | none => []
  | some anchor => specification.observationSlots.filter fun slot =>
      slot.record.measurementIndex / bound = anchor.record.measurementIndex / bound

/-- The trajectory of a measured slot. -/
def attemptTrajectory (bound : Nat) (specification : OneShotSpecificationPlan)
    (slot : AttemptSlot) : List ObservationSlot :=
  match slot.record.role with
  | .warmup _ => []
  | .measured observation => trajectoryOf bound specification observation

def isWarmup (slot : AttemptSlot) : Bool :=
  match slot.record.role with
  | .warmup _ => true
  | .measured _ => false

def hasFreshSlots (specification : OneShotSpecificationPlan) : Bool :=
  specification.observationSlots.any fun slot => slot.record.fresh.isSome

section Reference

variable (selects : String → Bool) (bound : Nat) (candidate : RecordId .logicalCandidate)

/-- The identities that select a measured slot. -/
def slotSelectors (specification : OneShotSpecificationPlan) (slot : AttemptSlot) : List String :=
  match slot.record.role with
  | .warmup _ => []
  | .measured _ =>
      [candidate.text, specification.specification.id.text, slot.id.text] ++
        (attemptTrajectory bound specification slot).map (·.id.text)

/-- The identities that select something of a specification. -/
def specificationSelectors (specification : OneShotSpecificationPlan) : List String :=
  if hasFreshSlots specification then
    candidate.text :: specification.specification.id.text ::
      (specification.attemptSlots.map (·.id.text) ++
        specification.observationSlots.map (·.id.text))
  else specification.attemptSlots.flatMap (slotSelectors bound candidate specification)

def keptSpecification (specification : OneShotSpecificationPlan) : OneShotSpecificationPlan :=
  if hasFreshSlots specification then
    if (specificationSelectors bound candidate specification).any selects then specification
    else { specification with observationSlots := [], attemptSlots := [] }
  else
    { specification with
      attemptSlots := specification.attemptSlots.filter fun slot =>
        isWarmup slot || (slotSelectors bound candidate specification slot).any selects
      observationSlots :=
        (specification.attemptSlots.filter fun slot =>
            (slotSelectors bound candidate specification slot).any selects).flatMap
          (attemptTrajectory bound specification) }

end Reference

def keptCandidate (selects : String → Bool) (bound : Nat) (candidate : LogicalCandidatePlan) :
    LogicalCandidatePlan :=
  { candidate with
    specifications :=
      (candidate.specifications.map
          (keptSpecification selects bound candidate.candidate.id)).filter fun specification =>
        !specification.observationSlots.isEmpty }

def keptExperiment (selects : String → Bool) (experiment : LogicalExperimentPlan) :
    LogicalExperimentPlan :=
  { experiment with
    candidates :=
      (experiment.candidates.map
          (keptCandidate selects (preselectBound experiment.observationPolicy.record))).filter
        fun candidate => !candidate.specifications.isEmpty }

/-- The plan that keeps the selected work. -/
def keptPlan (selects : String → Bool) (plan : LogicalPlan) : LogicalPlan :=
  ⟨(plan.experiments.map (keptExperiment selects)).filter fun experiment =>
    !experiment.candidates.isEmpty⟩

/-- An identity matches a measured slot, or any slot of a fresh specification. -/
def Matches (plan : LogicalPlan) (id : String) : Prop :=
  ∃ experiment ∈ plan.experiments, ∃ candidate ∈ experiment.candidates,
    ∃ specification ∈ candidate.specifications,
      id ∈ specificationSelectors (preselectBound experiment.observationPolicy.record)
        candidate.candidate.id specification

/-! ## Grouped specifications -/

/-- A measured slot with its trajectory and the number of its repetition. -/
structure Group where
  number : Nat
  attempt : AttemptSlot
  slots : List ObservationSlot

/-- Warm-ups, then one measured slot for each of the full groups of observation slots. -/
structure Grouped (bound : Nat) (specification : OneShotSpecificationPlan)
    (warmups : List AttemptSlot) (groups : List Group) : Prop where
  positive : 0 < bound
  attempts : specification.attemptSlots = warmups ++ groups.map (·.attempt)
  observations : specification.observationSlots = groups.flatMap (·.slots)
  warm : ∀ slot ∈ warmups, ∃ index, slot.record.role = .warmup index
  full : ∀ g ∈ groups, g.slots.length = bound
  headed : ∀ g ∈ groups, ∃ first, g.slots.head? = some first ∧
    g.attempt.record.role = .measured first.id
  numbered : ∀ g ∈ groups, ∀ slot ∈ g.slots, slot.record.measurementIndex / bound = g.number
  numbers : Keyed (·.number) groups
  keyed : Keyed (·.id) specification.observationSlots
  plain : ∀ slot ∈ specification.observationSlots, slot.record.fresh = none

/-- The identities that select a group. -/
def Group.selectors (group : Group) (candidate : RecordId .logicalCandidate)
    (specification : OneShotSpecificationPlan) : List String :=
  [candidate.text, specification.specification.id.text, group.attempt.id.text] ++
    group.slots.map (·.id.text)

def Group.selected (selects : String → Bool) (candidate : RecordId .logicalCandidate)
    (specification : OneShotSpecificationPlan) (group : Group) : Bool :=
  (group.selectors candidate specification).any selects

/-- The groups of a specification that satisfy a predicate. -/
def restrict (specification : OneShotSpecificationPlan) (warmups : List AttemptSlot)
    (groups : List Group) : OneShotSpecificationPlan :=
  { specification with
    attemptSlots := warmups ++ groups.map (·.attempt)
    observationSlots := groups.flatMap (·.slots) }

theorem filter_selectors_eq_nil (logical selectors : List String) :
    logical.filter (· ∈ selectors) = [] ↔ selectors.any (· ∈ logical) = false := by
  rw [List.filter_eq_nil_iff, List.any_eq_false]
  constructor
  · intro none id member listed
    exact none id (of_decide_eq_true listed) (decide_eq_true member)
  · intro none id listed selected
    exact none id (of_decide_eq_true selected) (decide_eq_true listed)

namespace Grouped

variable {bound : Nat} {specification : OneShotSpecificationPlan} {warmups : List AttemptSlot}
  {groups : List Group} {candidate : RecordId .logicalCandidate} {g : Group}

theorem plainSpecification (grouped : Grouped bound specification warmups groups) :
    hasFreshSlots specification = false := by
  refine List.any_eq_false.mpr fun slot member => ?_
  simp [grouped.plain slot member]

theorem first_mem (grouped : Grouped bound specification warmups groups) (member : g ∈ groups)
    {first : ObservationSlot} (head : g.slots.head? = some first) :
    first ∈ specification.observationSlots := by
  rw [grouped.observations]
  exact List.mem_flatMap.mpr ⟨g, member, List.mem_of_mem_head? head⟩

/-- Filtering by number recovers a group. -/
theorem attemptTrajectory_eq (grouped : Grouped bound specification warmups groups)
    (member : g ∈ groups) : attemptTrajectory bound specification g.attempt = g.slots := by
  obtain ⟨first, head, role⟩ := grouped.headed g member
  have anchor : findAnchor specification first.id = some first :=
    grouped.keyed.find_of_mem (grouped.first_mem member head)
  have number := grouped.numbered g member first (List.mem_of_mem_head? head)
  have whole : specification.observationSlots.filter
      (fun slot => decide (slot.record.measurementIndex / bound = g.number)) = g.slots := by
    rw [grouped.observations, filter_flatMap_of
      (q := fun h : Group => decide (h.number = g.number)) fun h inside slot within => by
        rw [grouped.numbered h inside slot within],
      grouped.numbers.filter_of_mem member, List.flatMap_singleton]
  simp only [attemptTrajectory, role, trajectoryOf, anchor, number, whole]

theorem slotSelectors_eq (grouped : Grouped bound specification warmups groups)
    (member : g ∈ groups) :
    slotSelectors bound candidate specification g.attempt =
      g.selectors candidate specification := by
  obtain ⟨first, -, role⟩ := grouped.headed g member
  simp only [slotSelectors, role, grouped.attemptTrajectory_eq member, Group.selectors]

theorem slotSelectors_warm (grouped : Grouped bound specification warmups groups)
    {slot : AttemptSlot} (member : slot ∈ warmups) :
    slotSelectors bound candidate specification slot = [] := by
  obtain ⟨index, role⟩ := grouped.warm slot member
  simp only [slotSelectors, role]

theorem specificationSelectors_eq (grouped : Grouped bound specification warmups groups) :
    specificationSelectors bound candidate specification =
      groups.flatMap fun g => g.selectors candidate specification := by
  have none : warmups.flatMap (slotSelectors bound candidate specification) = [] :=
    List.flatMap_eq_nil_iff.mpr fun slot member => grouped.slotSelectors_warm member
  rw [specificationSelectors, grouped.plainSpecification, grouped.attempts]
  simp only [Bool.false_eq_true, if_false, List.flatMap_append, none, List.nil_append,
    List.flatMap_map]
  exact List.flatMap_congr fun g member => grouped.slotSelectors_eq member

theorem keptSpecification_eq (grouped : Grouped bound specification warmups groups)
    (selects : String → Bool) :
    keptSpecification selects bound candidate specification =
      restrict specification warmups
        (groups.filter (Group.selected selects candidate specification)) := by
  have measured : ∀ g ∈ groups, ((isWarmup g.attempt ||
      (slotSelectors bound candidate specification g.attempt).any selects) : Bool) =
        g.selected selects candidate specification := by
    intro g member
    obtain ⟨first, -, role⟩ := grouped.headed g member
    simp only [isWarmup, role, grouped.slotSelectors_eq member, Bool.false_or, Group.selected]
  have warm : ∀ slot ∈ warmups, ((isWarmup slot ||
      (slotSelectors bound candidate specification slot).any selects) : Bool) = true := by
    intro slot member
    obtain ⟨index, role⟩ := grouped.warm slot member
    simp only [isWarmup, role, Bool.true_or]
  have unselected : ∀ slot ∈ warmups,
      ¬(slotSelectors bound candidate specification slot).any selects = true := by
    intro slot member
    rw [grouped.slotSelectors_warm member]
    simp
  have selected : groups.filter
      ((fun slot => (slotSelectors bound candidate specification slot).any selects) ∘
        fun g : Group => g.attempt) =
      groups.filter (Group.selected selects candidate specification) :=
    List.filter_congr fun g member =>
      congrArg (List.any · selects) (grouped.slotSelectors_eq member)
  rw [keptSpecification, grouped.plainSpecification, grouped.attempts]
  simp only [Bool.false_eq_true, if_false, restrict, List.filter_append, List.filter_map,
    List.filter_eq_self.mpr warm, List.filter_eq_nil_iff.mpr unselected, List.nil_append,
    List.flatMap_map, selected]
  congr 1
  · exact List.flatMap_congr fun g member =>
      grouped.attemptTrajectory_eq (List.mem_of_mem_filter member)
  · exact congrArg (warmups ++ List.map _ ·) (List.filter_congr measured)

/-- Some of the groups of a grouped specification. -/
theorem restrict (grouped : Grouped bound specification warmups groups) (p : Group → Bool) :
    Grouped bound (Planning.restrict specification warmups (groups.filter p)) warmups
      (groups.filter p) := by
  have fewer : ((groups.filter p).flatMap (·.slots)).Sublist specification.observationSlots := by
    rw [grouped.observations]
    exact List.Sublist.flatMap List.filter_sublist _
  exact {
    positive := grouped.positive
    attempts := rfl
    observations := rfl
    warm := grouped.warm
    full := fun g member => grouped.full g (List.mem_of_mem_filter member)
    headed := fun g member => grouped.headed g (List.mem_of_mem_filter member)
    numbered := fun g member => grouped.numbered g (List.mem_of_mem_filter member)
    numbers := grouped.numbers.filter p
    keyed := grouped.keyed.sublist (fewer.map _)
    plain := fun slot member => grouped.plain slot (fewer.subset member) }

/-- A group is known by any of its slots. -/
theorem eq_of_slot (grouped : Grouped bound specification warmups groups) {h : Group}
    (left : g ∈ groups) (right : h ∈ groups) {a b : ObservationSlot} (mine : a ∈ g.slots)
    (other : b ∈ h.slots) (same : a.id = b.id) : g = h := by
  have inside : a ∈ specification.observationSlots :=
    grouped.observations ▸ List.mem_flatMap.mpr ⟨g, left, mine⟩
  have within : b ∈ specification.observationSlots :=
    grouped.observations ▸ List.mem_flatMap.mpr ⟨h, right, other⟩
  have equal : a = b := grouped.keyed.eq_of_key inside within same
  refine grouped.numbers.eq_of_key left right ?_
  rw [← grouped.numbered g left a mine, ← grouped.numbered h right b other, equal]

/-! ### Selection -/

theorem captures_eq (grouped : Grouped bound specification warmups groups) :
    captures bound specification = groups.filterMap fun g =>
      g.slots.head?.map fun first => (first.id, g.slots.map (·.id)) := by
  have flat : specification.observationSlots = (groups.map (·.slots)).flatten := by
    rw [grouped.observations, List.flatMap_def]
  have cut : chunks bound (groups.map (·.slots)).flatten = groups.map (·.slots) := by
    refine chunks_flatten grouped.positive fun slots member => ?_
    obtain ⟨g, inside, rfl⟩ := List.mem_map.mp member
    exact grouped.full g inside
  rw [captures, flat, cut, List.filterMap_map]
  rfl

/-- The lookup of a measured slot's trajectory succeeds. -/
theorem findCapture_eq (grouped : Grouped bound specification warmups groups) (member : g ∈ groups)
    {first : ObservationSlot} (head : g.slots.head? = some first) :
    findCapture (captures bound specification) first.id = some (g.slots.map (·.id)) := by
  have recorded : (first.id, g.slots.map (·.id)) ∈ captures bound specification := by
    rw [grouped.captures_eq]
    exact List.mem_filterMap.mpr ⟨g, member, by rw [head]; rfl⟩
  have unique : ∀ capture ∈ captures bound specification, capture.1 = first.id →
      capture.2 = g.slots.map (·.id) := by
    intro capture inside same
    rw [grouped.captures_eq] at inside
    obtain ⟨h, there, made⟩ := List.mem_filterMap.mp inside
    obtain ⟨other, headed, rfl⟩ := Option.map_eq_some_iff.mp made
    rw [grouped.eq_of_slot there member (List.mem_of_mem_head? headed)
      (List.mem_of_mem_head? head) same]
  cases found : (captures bound specification).reverse.find?
      (fun capture => decide (capture.1 = first.id)) with
  | none =>
      have absent := List.find?_eq_none.mp found _ (List.mem_reverse.mpr recorded)
      simp at absent
  | some capture =>
      have same : capture.1 = first.id := by simpa using List.find?_some found
      have inside := List.mem_reverse.mp (List.mem_of_find?_eq_some found)
      rw [findCapture, found, Option.map_some, unique capture inside same]

/-- What selection adds for one group. -/
def collected (logical : List String) (candidate : RecordId .logicalCandidate)
    (specification : OneShotSpecificationPlan) (state : Retained) (gs : List Group) : Retained where
  matched := state.matched ++ gs.flatMap fun g =>
    logical.filter (· ∈ g.selectors candidate specification)
  observations := state.observations ++
    (gs.filter (Group.selected (· ∈ logical) candidate specification)).flatMap fun g =>
      g.slots.map (·.id)
  attemptSlots := state.attemptSlots ++
    (gs.filter (Group.selected (· ∈ logical) candidate specification)).map (·.attempt)

theorem retainAttempt_group (grouped : Grouped bound specification warmups groups)
    {logical : List String} (member : g ∈ groups) (state : Retained) :
    retainAttempt logical candidate bound specification state g.attempt =
      .ok (collected logical candidate specification state [g]) := by
  obtain ⟨first, head, role⟩ := grouped.headed g member
  have inside : first.id ∈ g.slots.map (·.id) :=
    List.mem_map_of_mem (List.mem_of_mem_head? head)
  have ids : ∀ id ∈ logical, (decide (id ∈ [candidate.text, specification.specification.id.text,
      g.attempt.id.text, first.id.text] ++ (g.slots.map (·.id)).map RecordId.text) : Bool) =
        decide (id ∈ g.selectors candidate specification) := by
    intro id _
    refine decide_eq_decide.mpr ?_
    have shown : first.id.text ∈ g.slots.map (·.id.text) := by
      simpa [List.map_map, Function.comp_def] using List.mem_map_of_mem (f := RecordId.text) inside
    simp only [Group.selectors, List.mem_append, List.mem_cons, List.not_mem_nil, or_false,
      List.map_map, Function.comp_def]
    constructor
    · rintro ((left | left | left | rfl) | right)
      · exact .inl (.inl left)
      · exact .inl (.inr (.inl left))
      · exact .inl (.inr (.inr left))
      · exact .inr shown
      · exact .inr right
    · rintro ((left | left | left) | right)
      · exact .inl (.inl left)
      · exact .inl (.inr (.inl left))
      · exact .inl (.inr (.inr (.inl left)))
      · exact .inr right
  have found : logical.filter (fun id => decide (id ∈ [candidate.text,
      specification.specification.id.text, g.attempt.id.text, first.id.text] ++
        (g.slots.map (·.id)).map RecordId.text)) =
      logical.filter (· ∈ g.selectors candidate specification) := List.filter_congr ids
  simp only [retainAttempt, role, ok_bind, ok_expect]
  refine ⟨_, grouped.findCapture_eq member head, ?_⟩
  rw [found]
  cases selected : g.selected (· ∈ logical) candidate specification with
  | true =>
      have some_ : logical.filter (· ∈ g.selectors candidate specification) ≠ [] :=
        fun none => by
          have unselected := (filter_selectors_eq_nil logical _).mp none
          exact absurd (selected.symm.trans unselected) (by decide)
      rw [if_neg some_]
      simp only [collected, List.flatMap_cons, List.flatMap_nil, List.append_nil,
        List.filter_cons_of_pos selected, List.filter_nil, List.map_cons, List.map_nil]
      rfl
  | false =>
      have none : logical.filter (· ∈ g.selectors candidate specification) = [] :=
        (filter_selectors_eq_nil logical _).mpr selected
      rw [if_pos none]
      simp only [collected, List.flatMap_cons, List.flatMap_nil, List.append_nil, none,
        List.filter_cons_of_neg (Bool.eq_false_iff.mp selected), List.filter_nil, List.map_nil]
      rfl

theorem thread_groups (grouped : Grouped bound specification warmups groups)
    {logical : List String} {gs : List Group} (inside : ∀ g ∈ gs, g ∈ groups) (state : Retained) :
    thread (retainAttempt logical candidate bound specification) state (gs.map (·.attempt)) =
      .ok (collected logical candidate specification state gs) := by
  induction gs generalizing state with
  | nil => simp [thread, collected]
  | cons g gs ih =>
      have rest := ih fun h member => inside h (List.mem_cons_of_mem _ member)
      simp only [List.map_cons, thread, ok_bind]
      refine ⟨_, grouped.retainAttempt_group (inside g List.mem_cons_self) state, ?_⟩
      rw [rest]
      cases selected : g.selected (· ∈ logical) candidate specification with
      | true => simp [collected, List.filter_cons_of_pos selected]
      | false => simp [collected, List.filter_cons_of_neg (Bool.eq_false_iff.mp selected)]

theorem thread_warmups (grouped : Grouped bound specification warmups groups)
    {logical : List String} {slots : List AttemptSlot} (inside : ∀ slot ∈ slots, slot ∈ warmups)
    (state : Retained) :
    thread (retainAttempt logical candidate bound specification) state slots =
      .ok { state with attemptSlots := state.attemptSlots ++ slots } := by
  induction slots generalizing state with
  | nil => simp [thread]
  | cons slot slots ih =>
      obtain ⟨index, role⟩ := grouped.warm slot (inside slot List.mem_cons_self)
      simp only [thread, ok_bind]
      refine ⟨{ state with attemptSlots := state.attemptSlots ++ [slot] }, ?_, ?_⟩
      · simp only [retainAttempt, role]
      · rw [ih fun other member => inside other (List.mem_cons_of_mem _ member)]
        simp

/-- Selection keeps the selected groups, whole. -/
theorem selectMeasured_ok (grouped : Grouped bound specification warmups groups)
    (logical : List String) :
    ∃ found, selectMeasured logical candidate bound specification =
        .ok (found, keptSpecification (· ∈ logical) bound candidate specification) ∧
      ∀ id, id ∈ found ↔
        id ∈ logical ∧ id ∈ specificationSelectors bound candidate specification := by
  let start : Retained := { matched := [], observations := [], attemptSlots := warmups }
  let retained := collected logical candidate specification start groups
  have ran : thread (retainAttempt logical candidate bound specification) ⟨[], [], []⟩
      specification.attemptSlots = .ok retained := by
    rw [grouped.attempts, thread_append, ok_bind]
    exact ⟨start, grouped.thread_warmups (fun _ member => member) _,
      grouped.thread_groups (fun _ member => member) _⟩
  refine ⟨retained.matched, ?_, fun id => ?_⟩
  · have kept : specification.observationSlots.filter (fun slot =>
        decide (slot.id ∈ retained.observations)) =
        (groups.filter (Group.selected (· ∈ logical) candidate specification)).flatMap
          (·.slots) := by
      rw [grouped.observations]
      refine filter_flatMap_of fun g member slot within => ?_
      refine Bool.eq_iff_iff.mpr ⟨fun held => ?_, fun selected => ?_⟩
      · obtain ⟨h, there, listed⟩ := List.mem_flatMap.mp (of_decide_eq_true held)
        obtain ⟨chosen, selected⟩ := List.mem_filter.mp there
        obtain ⟨other, inside, same⟩ := List.mem_map.mp listed
        rwa [grouped.eq_of_slot member chosen within inside same.symm]
      · refine decide_eq_true (List.mem_flatMap.mpr ⟨g, ?_, List.mem_map_of_mem within⟩)
        exact List.mem_filter.mpr ⟨member, selected⟩
    simp only [selectMeasured, ok_bind, ok_reject, ok_pure]
    refine ⟨(), grouped.positive.ne', retained, ran, ?_⟩
    rw [grouped.keptSpecification_eq, kept]
    rfl
  · rw [grouped.specificationSelectors_eq]
    simp only [retained, collected, start, List.nil_append, List.mem_flatMap, List.mem_filter,
      decide_eq_true_eq]
    constructor
    · rintro ⟨g, member, listed, selected⟩
      exact ⟨listed, g, member, selected⟩
    · rintro ⟨listed, g, member, selected⟩
      exact ⟨g, member, listed, selected⟩

/-- The kept slots are the trajectories of the kept measured slots, each complete. -/
theorem whole (grouped : Grouped bound specification warmups groups) :
    specification.observationSlots =
        specification.attemptSlots.flatMap (attemptTrajectory bound specification) ∧
      ∀ slot ∈ specification.attemptSlots, isWarmup slot = false →
        (attemptTrajectory bound specification slot).length = bound := by
  have none : warmups.flatMap (attemptTrajectory bound specification) = [] := by
    refine List.flatMap_eq_nil_iff.mpr fun slot member => ?_
    obtain ⟨index, role⟩ := grouped.warm slot member
    simp only [attemptTrajectory, role]
  constructor
  · rw [grouped.attempts, List.flatMap_append, none, List.nil_append, List.flatMap_map,
      grouped.observations]
    exact List.flatMap_congr fun g member => (grouped.attemptTrajectory_eq member).symm
  · intro slot member measured
    rw [grouped.attempts] at member
    rcases List.mem_append.mp member with warm | group
    · obtain ⟨index, role⟩ := grouped.warm slot warm
      simp [isWarmup, role] at measured
    · obtain ⟨g, inside, rfl⟩ := List.mem_map.mp group
      rw [grouped.attemptTrajectory_eq inside]
      exact grouped.full g inside

end Grouped

/-! ## Selectable specifications -/

/-- A specification with fresh slots, or with its slots in full groups. -/
inductive Selectable (bound : Nat) (specification : OneShotSpecificationPlan) : Prop where
  | fresh (marked : hasFreshSlots specification = true)
  | grouped (warmups : List AttemptSlot) (groups : List Group)
      (grouped : Grouped bound specification warmups groups)

namespace Selectable

variable {bound : Nat} {specification : OneShotSpecificationPlan}
  {candidate : RecordId .logicalCandidate}

theorem select (selectable : Selectable bound specification) (logical : List String) :
    ∃ found, selectSpecification logical candidate bound specification =
        .ok (found, keptSpecification (· ∈ logical) bound candidate specification) ∧
      ∀ id, id ∈ found ↔
        id ∈ logical ∧ id ∈ specificationSelectors bound candidate specification := by
  cases selectable with
  | grouped warmups groups grouped =>
      have plain : specification.observationSlots.any (fun slot => slot.record.fresh.isSome) =
          false := grouped.plainSpecification
      simp only [selectSpecification, plain, Bool.false_eq_true, if_false]
      exact grouped.selectMeasured_ok logical
  | fresh marked =>
      have fresh : specification.observationSlots.any (fun slot => slot.record.fresh.isSome) =
          true := marked
      let ids := specificationSelectors bound candidate specification
      have listed : ids = candidate.text :: specification.specification.id.text ::
          (specification.attemptSlots.map (·.id.text) ++
            specification.observationSlots.map (·.id.text)) := if_pos marked
      have empty := filter_selectors_eq_nil logical ids
      simp only [selectSpecification, fresh, if_true, selectFresh, ← listed]
      refine ⟨logical.filter (· ∈ ids), ?_, fun id => by simp [ids, List.mem_filter]⟩
      rw [keptSpecification, marked, if_pos rfl]
      split
      · rename_i none
        rw [if_neg (Bool.eq_false_iff.mp (empty.mp none)), none]
      · rename_i some_
        have selected : ids.any (· ∈ logical) = true := by
          cases any : ids.any (· ∈ logical) with
          | true => rfl
          | false => exact absurd (empty.mpr any) some_
        rw [if_pos selected]

/-- A selected identity leaves something. -/
theorem kept_ne_nil (selectable : Selectable bound specification) {selects : String → Bool}
    {id : String} (selected : selects id = true)
    (member : id ∈ specificationSelectors bound candidate specification) :
    (keptSpecification selects bound candidate specification).observationSlots ≠ [] := by
  cases selectable with
  | fresh marked =>
      have any : (specificationSelectors bound candidate specification).any selects = true :=
        List.any_eq_true.mpr ⟨id, member, selected⟩
      obtain ⟨slot, inside, -⟩ := List.any_eq_true.mp marked
      rw [keptSpecification, if_pos marked, if_pos any]
      exact List.ne_nil_of_mem inside
  | grouped warmups groups grouped =>
      rw [grouped.specificationSelectors_eq] at member
      obtain ⟨g, inside, mine⟩ := List.mem_flatMap.mp member
      obtain ⟨first, head, -⟩ := grouped.headed g inside
      have chosen : g ∈ groups.filter (Group.selected selects candidate specification) :=
        List.mem_filter.mpr ⟨inside, List.any_eq_true.mpr ⟨id, mine, selected⟩⟩
      rw [grouped.keptSpecification_eq]
      exact List.ne_nil_of_mem
        (List.mem_flatMap.mpr ⟨g, chosen, List.mem_of_mem_head? head⟩)

/-- What is kept is selectable again, under the same identities. -/
theorem kept (selectable : Selectable bound specification) {selects : String → Bool}
    (some_ : (keptSpecification selects bound candidate specification).observationSlots ≠ []) :
    Selectable bound (keptSpecification selects bound candidate specification) ∧
      keptSpecification selects bound candidate
          (keptSpecification selects bound candidate specification) =
        keptSpecification selects bound candidate specification ∧
      ∀ id, selects id = true → id ∈ specificationSelectors bound candidate specification →
        id ∈ specificationSelectors bound candidate
          (keptSpecification selects bound candidate specification) := by
  cases selectable with
  | fresh marked =>
      cases any : (specificationSelectors bound candidate specification).any selects with
      | false =>
          rw [keptSpecification, if_pos marked, if_neg (Bool.eq_false_iff.mp any)] at some_
          exact absurd rfl some_
      | true =>
          have same : keptSpecification selects bound candidate specification = specification := by
            rw [keptSpecification, if_pos marked, if_pos any]
          rw [same]
          exact ⟨.fresh marked, same, fun _ _ member => member⟩
  | grouped warmups groups grouped =>
      have again := grouped.restrict (Group.selected selects candidate specification)
      rw [grouped.keptSpecification_eq]
      refine ⟨.grouped _ _ again, ?_, fun id selected member => ?_⟩
      · rw [again.keptSpecification_eq]
        have all : ∀ g ∈ groups.filter (Group.selected selects candidate specification),
            Group.selected selects candidate
              (restrict specification warmups
                (groups.filter (Group.selected selects candidate specification))) g = true :=
          fun g chosen => (List.mem_filter.mp chosen).2
        rw [List.filter_eq_self.mpr all]
        rfl
      · rw [grouped.specificationSelectors_eq] at member
        obtain ⟨g, inside, mine⟩ := List.mem_flatMap.mp member
        rw [again.specificationSelectors_eq]
        refine List.mem_flatMap.mpr ⟨g, ?_, mine⟩
        exact List.mem_filter.mpr ⟨inside, List.any_eq_true.mpr ⟨id, mine, selected⟩⟩

end Selectable

/-! ## Plans -/

def PlanSelectable (plan : LogicalPlan) : Prop :=
  ∀ experiment ∈ plan.experiments, ∀ candidate ∈ experiment.candidates,
    ∀ specification ∈ candidate.specifications,
      Selectable (preselectBound experiment.observationPolicy.record) specification

section Levels

variable {logical : List String} {bound : Nat}

theorem selectCandidate_ok {candidate : LogicalCandidatePlan}
    (selectable : ∀ s ∈ candidate.specifications, Selectable bound s) :
    ∃ found, selectCandidate logical bound candidate =
        .ok (found, keptCandidate (· ∈ logical) bound candidate) ∧
      ∀ id, id ∈ found ↔ ∃ s ∈ candidate.specifications,
        id ∈ logical ∧ id ∈ specificationSelectors bound candidate.candidate.id s := by
  obtain ⟨parts, ran, kept, found⟩ :=
    traverseAll_collect (f := selectSpecification logical candidate.candidate.id bound)
      fun s member => (selectable s member).select logical
  refine ⟨parts.flatMap Prod.fst, ?_, found⟩
  simp only [selectCandidate, ok_bind, ok_pure]
  exact ⟨parts, ran, by rw [kept]; rfl⟩

theorem selectExperiment_ok {experiment : LogicalExperimentPlan}
    (selectable : ∀ c ∈ experiment.candidates, ∀ s ∈ c.specifications,
      Selectable (preselectBound experiment.observationPolicy.record) s) :
    ∃ found, selectExperiment logical experiment =
        .ok (found, keptExperiment (· ∈ logical) experiment) ∧
      ∀ id, id ∈ found ↔ ∃ c ∈ experiment.candidates, ∃ s ∈ c.specifications, id ∈ logical ∧
        id ∈ specificationSelectors (preselectBound experiment.observationPolicy.record)
          c.candidate.id s := by
  obtain ⟨parts, ran, kept, found⟩ :=
    traverseAll_collect
      (f := selectCandidate logical (preselectBound experiment.observationPolicy.record))
      fun c member => selectCandidate_ok (selectable c member)
  refine ⟨parts.flatMap Prod.fst, ?_, found⟩
  simp only [selectExperiment, ok_bind, ok_pure]
  exact ⟨parts, ran, by rw [kept]; rfl⟩

/-- Selection succeeds exactly when every identity matches, and returns the reference. -/
theorem selectPlan_ok (logical : List String) {plan : LogicalPlan}
    (selectable : PlanSelectable plan) :
    (∀ selected, selectPlan logical plan = .ok selected ↔
      (∀ id ∈ logical, Matches plan id) ∧ selected = keptPlan (· ∈ logical) plan) ∧
    ∀ message, selectPlan logical plan ≠ .error (.panicked message) := by
  obtain ⟨parts, ran, kept, found⟩ :=
    traverseAll_collect (f := selectExperiment logical)
      fun e member => selectExperiment_ok (selectable e member)
  have matched : ∀ id ∈ logical, id ∈ parts.flatMap Prod.fst ↔ Matches plan id := by
    intro id listed
    rw [found]
    constructor
    · rintro ⟨e, inside, c, within, s, there, -, selects⟩
      exact ⟨e, inside, c, within, s, there, selects⟩
    · rintro ⟨e, inside, c, within, s, there, selects⟩
      exact ⟨e, inside, c, within, s, there, listed, selects⟩
  constructor
  · intro selected
    simp only [selectPlan, ok_bind, ok_pure, ok_each, ok_reject, not_not]
    constructor
    · rintro ⟨parts', ran', -, all, rfl⟩
      cases same_result rfl ran ran'
      refine ⟨fun id listed => (matched id listed).mp (all id listed), ?_⟩
      rw [kept]
      rfl
    · rintro ⟨all, rfl⟩
      refine ⟨parts, ran, (), fun id listed => (matched id listed).mpr (all id listed), ?_⟩
      rw [kept]
      rfl
  · intro message failed
    rcases error_bind.mp failed with first | ⟨parts', -, failed⟩
    · rw [ran] at first
      cases first
    · rcases error_bind.mp failed with unmatched | ⟨-, -, impossible⟩
      · obtain ⟨id, -, rejected⟩ := error_each unmatched
        have impossible := (error_reject.mp rejected).2
        cases impossible
      · cases impossible

end Levels

/-! ## A second selection -/

section Again

variable {selects : String → Bool} {bound : Nat}

theorem keptCandidate_kept {candidate : LogicalCandidatePlan}
    (selectable : ∀ s ∈ candidate.specifications, Selectable bound s) :
    (∀ s ∈ (keptCandidate selects bound candidate).specifications, Selectable bound s) ∧
      keptCandidate selects bound (keptCandidate selects bound candidate) =
        keptCandidate selects bound candidate ∧
      ∀ id, selects id = true →
        (∃ s ∈ candidate.specifications,
          id ∈ specificationSelectors bound candidate.candidate.id s) →
        ∃ s ∈ (keptCandidate selects bound candidate).specifications,
          id ∈ specificationSelectors bound candidate.candidate.id s := by
  have keeps : ∀ s ∈ candidate.specifications,
      (!(keptSpecification selects bound candidate.candidate.id s).observationSlots.isEmpty) = true →
        (keptSpecification selects bound candidate.candidate.id s).observationSlots ≠ [] := by
    intro s _ some_
    simpa using some_
  refine ⟨fun s member => ?_, ?_, ?_⟩
  · obtain ⟨mapped, some_⟩ := List.mem_filter.mp member
    obtain ⟨t, inside, rfl⟩ := List.mem_map.mp mapped
    exact ((selectable t inside).kept (keeps t inside some_)).1
  · have fixed := filter_map_filter_map (f := keptSpecification selects bound candidate.candidate.id)
      (p := fun specification => !specification.observationSlots.isEmpty)
      fun s inside some_ => ((selectable s inside).kept (keeps s inside some_)).2.1
    exact congrArg (fun specifications => { candidate with specifications }) fixed
  · rintro id selected ⟨s, inside, member⟩
    have some_ := (selectable s inside).kept_ne_nil selected member
    refine ⟨keptSpecification selects bound candidate.candidate.id s, ?_,
      ((selectable s inside).kept some_).2.2 id selected member⟩
    exact List.mem_filter.mpr ⟨List.mem_map_of_mem inside, by simpa using some_⟩

theorem keptExperiment_kept {experiment : LogicalExperimentPlan}
    (selectable : ∀ c ∈ experiment.candidates, ∀ s ∈ c.specifications,
      Selectable (preselectBound experiment.observationPolicy.record) s) :
    (∀ c ∈ (keptExperiment selects experiment).candidates, ∀ s ∈ c.specifications,
      Selectable (preselectBound experiment.observationPolicy.record) s) ∧
      keptExperiment selects (keptExperiment selects experiment) =
        keptExperiment selects experiment ∧
      ∀ id, selects id = true →
        (∃ c ∈ experiment.candidates, ∃ s ∈ c.specifications,
          id ∈ specificationSelectors (preselectBound experiment.observationPolicy.record)
            c.candidate.id s) →
        ∃ c ∈ (keptExperiment selects experiment).candidates, ∃ s ∈ c.specifications,
          id ∈ specificationSelectors (preselectBound experiment.observationPolicy.record)
            c.candidate.id s := by
  refine ⟨fun c member => ?_, ?_, ?_⟩
  · obtain ⟨mapped, -⟩ := List.mem_filter.mp member
    obtain ⟨d, inside, rfl⟩ := List.mem_map.mp mapped
    exact (keptCandidate_kept (selectable d inside)).1
  · have fixed := filter_map_filter_map
      (f := keptCandidate selects (preselectBound experiment.observationPolicy.record))
      (p := fun candidate => !candidate.specifications.isEmpty)
      fun c inside _ => (keptCandidate_kept (selectable c inside)).2.1
    exact congrArg (fun candidates => { experiment with candidates }) fixed
  · rintro id selected ⟨c, inside, s, within, member⟩
    obtain ⟨t, there, member⟩ :=
      (keptCandidate_kept (selectable c inside)).2.2 id selected ⟨s, within, member⟩
    refine ⟨keptCandidate selects (preselectBound experiment.observationPolicy.record) c, ?_, t,
      there, member⟩
    refine List.mem_filter.mpr ⟨List.mem_map_of_mem inside, ?_⟩
    simpa using List.ne_nil_of_mem there

theorem keptPlan_kept (selects : String → Bool) {plan : LogicalPlan}
    (selectable : PlanSelectable plan) :
    PlanSelectable (keptPlan selects plan) ∧
      keptPlan selects (keptPlan selects plan) = keptPlan selects plan ∧
      ∀ id, selects id = true → Matches plan id → Matches (keptPlan selects plan) id := by
  refine ⟨fun e member => ?_, ?_, ?_⟩
  · obtain ⟨mapped, -⟩ := List.mem_filter.mp member
    obtain ⟨d, inside, rfl⟩ := List.mem_map.mp mapped
    exact (keptExperiment_kept (selectable d inside)).1
  · have fixed := filter_map_filter_map (f := keptExperiment selects)
      (p := fun experiment => !experiment.candidates.isEmpty)
      fun e inside _ => (keptExperiment_kept (selectable e inside)).2.1
    exact congrArg LogicalPlan.mk fixed
  · rintro id selected ⟨e, inside, found⟩
    obtain ⟨c, there, s, within, member⟩ :=
      (keptExperiment_kept (selectable e inside)).2.2 id selected found
    refine ⟨keptExperiment selects e, ?_, c, there, s, within, member⟩
    refine List.mem_filter.mpr ⟨List.mem_map_of_mem inside, ?_⟩
    simpa using List.ne_nil_of_mem there

end Again

/-! ## Elements are only removed -/

structure SpecificationWithin (part whole : OneShotSpecificationPlan) : Prop where
  specification : part.specification = whole.specification
  attempts : part.attemptSlots.Sublist whole.attemptSlots
  observations : part.observationSlots.Sublist whole.observationSlots

structure CandidateWithin (part whole : LogicalCandidatePlan) : Prop where
  same : part = { whole with specifications := part.specifications }
  specifications :
    List.SublistForall₂ SpecificationWithin part.specifications whole.specifications

structure ExperimentWithin (part whole : LogicalExperimentPlan) : Prop where
  same : part = { whole with candidates := part.candidates }
  candidates : List.SublistForall₂ CandidateWithin part.candidates whole.candidates

/-- A plan with some elements of another, in the same order. -/
def PlanWithin (part whole : LogicalPlan) : Prop :=
  List.SublistForall₂ ExperimentWithin part.experiments whole.experiments

section Within

variable {selects : String → Bool} {bound : Nat}

theorem keptSpecification_within {specification : OneShotSpecificationPlan}
    {candidate : RecordId .logicalCandidate} (selectable : Selectable bound specification) :
    SpecificationWithin (keptSpecification selects bound candidate specification)
      specification := by
  cases selectable with
  | fresh marked =>
      rw [keptSpecification, if_pos marked]
      split
      · exact ⟨rfl, .refl _, .refl _⟩
      · exact ⟨rfl, List.nil_sublist _, List.nil_sublist _⟩
  | grouped warmups groups grouped =>
      rw [grouped.keptSpecification_eq]
      refine ⟨rfl, ?_, ?_⟩
      · rw [grouped.attempts]
        exact (List.Sublist.refl _).append (List.filter_sublist.map _)
      · rw [grouped.observations]
        exact List.Sublist.flatMap List.filter_sublist _

theorem keptPlan_within {plan : LogicalPlan} (selectable : PlanSelectable plan) :
    PlanWithin (keptPlan selects plan) plan := by
  refine sublistForall₂_filter_map fun e inside _ => ⟨rfl, ?_⟩
  refine sublistForall₂_filter_map fun c within _ => ⟨rfl, ?_⟩
  exact sublistForall₂_filter_map fun s there _ =>
    keptSpecification_within (selectable e inside c within s there)

end Within

/-- Nothing empty is left, and every trajectory is left whole. -/
structure Whole (plan : LogicalPlan) : Prop where
  candidates : ∀ experiment ∈ plan.experiments, experiment.candidates ≠ []
  specifications : ∀ experiment ∈ plan.experiments, ∀ candidate ∈ experiment.candidates,
    candidate.specifications ≠ []
  slots : ∀ experiment ∈ plan.experiments, ∀ candidate ∈ experiment.candidates,
    ∀ specification ∈ candidate.specifications, specification.observationSlots ≠ []
  trajectories : ∀ experiment ∈ plan.experiments, ∀ candidate ∈ experiment.candidates,
    ∀ specification ∈ candidate.specifications, hasFreshSlots specification = false →
      specification.observationSlots =
          specification.attemptSlots.flatMap
            (attemptTrajectory (preselectBound experiment.observationPolicy.record) specification) ∧
        ∀ slot ∈ specification.attemptSlots, isWarmup slot = false →
          (attemptTrajectory (preselectBound experiment.observationPolicy.record) specification
            slot).length = preselectBound experiment.observationPolicy.record

theorem keptPlan_whole {plan : LogicalPlan} {selects : String → Bool}
    (selectable : PlanSelectable plan) : Whole (keptPlan selects plan) := by
  have again := (keptPlan_kept selects selectable).1
  have experiments : ∀ e ∈ (keptPlan selects plan).experiments,
      ∃ d, e = keptExperiment selects d ∧ e.candidates ≠ [] := by
    intro e member
    obtain ⟨mapped, some_⟩ := List.mem_filter.mp member
    obtain ⟨d, -, rfl⟩ := List.mem_map.mp mapped
    exact ⟨d, rfl, by simpa using some_⟩
  have candidates : ∀ e ∈ (keptPlan selects plan).experiments, ∀ c ∈ e.candidates,
      ∃ d, c = keptCandidate selects (preselectBound e.observationPolicy.record) d ∧
        c.specifications ≠ [] := by
    intro e member c inside
    obtain ⟨d, rfl, -⟩ := experiments e member
    obtain ⟨mapped, some_⟩ := List.mem_filter.mp inside
    obtain ⟨b, -, rfl⟩ := List.mem_map.mp mapped
    exact ⟨b, rfl, by simpa using some_⟩
  constructor
  · intro e member
    obtain ⟨-, -, some_⟩ := experiments e member
    exact some_
  · intro e member c inside
    obtain ⟨-, -, some_⟩ := candidates e member c inside
    exact some_
  · intro e member c inside s within
    obtain ⟨d, rfl, -⟩ := candidates e member c inside
    simpa using (List.mem_filter.mp within).2
  · intro e member c inside s within plain
    cases again e member c inside s within with
    | fresh marked => exact absurd (plain.symm.trans marked) (by decide)
    | grouped warmups groups grouped => exact grouped.whole

/-! ## Planned specifications -/

/-- A trajectory layout is a list of full groups. -/
theorem TrajectoryLayout.grouped {repetitions warmups bound : Nat} {delivery : Delivery}
    {specification : OneShotSpecificationPlan}
    (layout : TrajectoryLayout repetitions warmups bound delivery specification) :
    ∃ warm groups, Grouped bound specification warm groups := by
  obtain ⟨warm, measured, split, first, second⟩ := List.map_eq_append_iff.mp layout.attempts
  have count : measured.length = repetitions := by simpa using congrArg List.length second
  let groups : List Group := measured.zipIdx.map fun entry =>
    ⟨entry.2, entry.1, trajectory specification bound entry.2⟩
  have numbers : groups.map (·.number) = List.range repetitions := by
    simp only [groups, List.map_map, Function.comp_def, List.zipIdx_map_snd, count,
      List.range_eq_range']
  have attempts : groups.map (·.attempt) = measured := by
    simp only [groups, List.map_map, Function.comp_def]
    exact List.zipIdx_map_fst 0 measured
  have at_ : ∀ g ∈ groups, g.number < repetitions ∧
      g.slots = trajectory specification bound g.number ∧
      g.attempt.record.role = .measured (slotAt specification (g.number * bound)).id := by
    intro g member
    obtain ⟨⟨slot, k⟩, inside, rfl⟩ := List.mem_map.mp member
    obtain ⟨below, read⟩ := List.mem_zipIdx' inside
    refine ⟨count ▸ below, rfl, ?_⟩
    have role : (measured.map (·.record.role))[k]? =
        some (.measured (slotAt specification (k * bound)).id) := by
      rw [second]
      simp [count ▸ below]
    simpa [below, ← read] using role
  clear_value groups
  have index : ∀ k < repetitions, ∀ slot ∈ trajectory specification bound k,
      slot.record.fresh = none ∧ slot.record.measurementIndex / bound = k := by
    intro k group slot member
    obtain ⟨j, inside, rfl⟩ := List.mem_map.mp member
    have offset := List.mem_range.mp inside
    rw [layout.record _ (mul_add_lt group offset)]
    refine ⟨rfl, ?_⟩
    change (k * bound + j) / bound = k
    rw [Nat.mul_comm, Nat.mul_add_div layout.positive, Nat.div_eq_of_lt offset, Nat.add_zero]
  have observations : specification.observationSlots = groups.flatMap (·.slots) := by
    have slots : groups.flatMap (·.slots) =
        (groups.map (·.number)).flatMap (trajectory specification bound) := by
      rw [List.flatMap_map]
      exact List.flatMap_congr fun g member => (at_ g member).2.1
    rw [slots, numbers, layout.partition]
  refine ⟨warm, groups, {
    positive := layout.positive
    attempts := by rw [attempts, split]
    observations
    warm := fun slot member => ?_
    full := fun g member => ?_
    headed := fun g member => ?_
    numbered := fun g member slot inside => ?_
    numbers := by
      unfold Keyed
      rw [numbers]
      exact List.nodup_range
    keyed := layout.observationIds
    plain := fun slot member => ?_ }⟩
  · have role : slot.record.role ∈ (List.range warmups).map AttemptSlotRole.warmup :=
      first ▸ List.mem_map_of_mem member
    obtain ⟨k, -, same⟩ := List.mem_map.mp role
    exact ⟨k, same.symm⟩
  · rw [(at_ g member).2.1, trajectory, List.length_map, List.length_range]
  · obtain ⟨-, slots, role⟩ := at_ g member
    refine ⟨slotAt specification (g.number * bound), ?_, role⟩
    obtain ⟨n, rfl⟩ := Nat.exists_eq_succ_of_ne_zero layout.positive.ne'
    rw [slots, trajectory, List.range_succ_eq_map]
    rfl
  · obtain ⟨below, slots, -⟩ := at_ g member
    exact (index _ below slot (slots ▸ inside)).2
  · rw [observations] at member
    obtain ⟨g, inside, within⟩ := List.mem_flatMap.mp member
    obtain ⟨below, slots, -⟩ := at_ g inside
    exact (index _ below slot (slots ▸ within)).1

/-- A fresh layout has a fresh slot, or no slots at all. -/
theorem FreshLayout.selectable {repetitions warmups bound : Nat} {controls : List CanonicalValue}
    {delivery : Delivery} {specification : OneShotSpecificationPlan} (positive : 0 < bound)
    (layout : FreshLayout repetitions warmups controls delivery specification) :
    Selectable bound specification := by
  rcases Nat.eq_zero_or_pos repetitions with rfl | some_
  · have none : specification.observationSlots = [] :=
      List.length_eq_zero_iff.mp (layout.count.trans (Nat.zero_mul _))
    have roles := layout.attempts
    rw [none, List.map_nil, List.append_nil] at roles
    refine .grouped specification.attemptSlots [] {
      positive
      attempts := by simp
      observations := by simp [none]
      warm := fun slot member => ?_
      full := by simp
      headed := by simp
      numbered := by simp
      numbers := Keyed.nil
      keyed := layout.observationIds
      plain := by simp [none] }
    obtain ⟨k, -, same⟩ := List.mem_map.mp (roles ▸ List.mem_map_of_mem member)
    exact ⟨k, same.symm⟩
  · have inside : 0 < repetitions * controls.length := Nat.mul_pos some_ layout.positive
    obtain ⟨control, -, record⟩ := layout.record 0 inside
    refine .fresh (List.any_eq_true.mpr ⟨slotAt specification 0, ?_, by rw [record]; rfl⟩)
    have some_ : 0 < specification.observationSlots.length := layout.count ▸ inside
    simp [slotAt, some_]

/-- The profiles of a manifest are valid, with the bindings they give. -/
def ValidPolicies (manifest : Manifest) : Prop :=
  ∀ name definition profile, manifest.observationPolicies.get name = some definition →
    definition.profile = some profile → profile.policy.validate = .ok () ∧
      ∀ implementation binding, profile.implementations.get implementation = some binding →
        binding.validate profile.policy = .ok ()

/-- The identity hash has no collision within a specification of the plan. -/
def PlanSeparates (hash : Hasher) (plan : LogicalPlan) : Prop :=
  ∀ experiment ∈ plan.experiments, ∀ candidate ∈ experiment.candidates,
    ∀ specification ∈ candidate.specifications, Separates hash specification

instance (hash : Hasher) (plan : LogicalPlan) : Decidable (PlanSeparates hash plan) :=
  inferInstanceAs (Decidable (∀ experiment ∈ plan.experiments, ∀ candidate ∈ experiment.candidates,
    ∀ specification ∈ candidate.specifications, Separates hash specification))

section Planned

variable {hashes : Hashes} {manifest : Manifest} {catalog : LogicalPlanningCatalog}

theorem selectable_of_layout {repetitions warmups bound : Nat} {delivery : Delivery}
    {specification : OneShotSpecificationPlan} (positive : 0 < bound)
    (plain : delivery.isFresh = false → bound = delivery.bound)
    (layout : SlotLayout repetitions warmups delivery specification) :
    Selectable bound specification := by
  match delivery with
  | none =>
      obtain ⟨warm, groups, grouped⟩ := TrajectoryLayout.grouped layout
      exact .grouped warm groups (plain rfl ▸ grouped)
  | some (policy, .buffered binding) =>
      obtain ⟨warm, groups, grouped⟩ := TrajectoryLayout.grouped layout
      exact .grouped warm groups (plain rfl ▸ grouped)
  | some (policy, .streaming binding) =>
      obtain ⟨warm, groups, grouped⟩ := TrajectoryLayout.grouped layout
      exact .grouped warm groups (plain rfl ▸ grouped)
  | some (policy, .fresh binding) =>
      obtain ⟨controls, -, layout⟩ := layout
      exact layout.selectable positive

/-- Every planned specification is selectable under the bound of its experiment. -/
theorem planned_selectable {experiments : List (ExperimentDefinition × ExpandedExperiment)}
    {plan : LogicalPlan} (valid : ValidPolicies manifest)
    (planned : expandManifestLogicalPlan hashes manifest catalog experiments = .ok plan)
    (separates : PlanSeparates hashes.identity plan) : PlanSelectable plan := by
  intro experiment member candidate inside specification within
  have separate := separates experiment member candidate inside specification within
  simp only [expandManifestLogicalPlan, ok_bind, ok_pure] at planned
  obtain ⟨plans, planned, rfl⟩ := planned
  obtain ⟨⟨definition, expanded⟩, -, run⟩ := exists_of_traverseAll planned member
  simp only [planExperiment, ok_bind, ok_expect, ok_pure] at run
  obtain ⟨_, -, _, -, _, -, policy, found, record, recorded, identified, identity, _, -, candidates,
    traversed, rfl⟩ := run
  obtain ⟨expandedCandidate, -, run⟩ := exists_of_traverseAll traversed inside
  simp only [planCandidate, ok_bind, ok_pure] at run
  obtain ⟨_, -, _, -, _, -, _, -, _, -, _, -, _, -, _, -, _, -, selected, atSelected, _, -, _, -,
    specifications, specified, rfl⟩ := run
  obtain ⟨repetition, -, run⟩ := exists_of_traverseAll specified within
  obtain ⟨policy', found', profile, -, bound⟩ := selectedProfile_ok atSelected
  cases Option.some.inj (found.symm.trans found')
  let delivery : Delivery := selected.map fun selected => (selected.1.policy, selected.2)
  have common : policy.profile.map (·.policy) = delivery.map Prod.fst := by
    rw [← profile]
    simp [delivery, Option.map_map, Function.comp_def]
  have read : (selected.map fun selected => (selected.1.policy.maxObservations, selected.2)) =
      delivery.profileBound := by
    simp [delivery, Delivery.profileBound, Option.map_map, Function.comp_def]
  rw [read] at run
  have layout := layout_of_planned run separate
  have same : identified.record = record := (identify_ok identity).1
  have plain : delivery.isFresh = false → preselectBound record = delivery.bound :=
    preselectBound_eq common recorded
  refine selectable_of_layout ?_ (fun notFresh => ?_) layout
  · rw [same, preselectBound_policy recorded]
    cases held : policy.profile with
    | none => exact Nat.one_pos
    | some used => exact maxObservations_positive (valid _ policy used found held).1
  · rw [same]
    exact plain notFresh

end Planned

/-! ## Preselection -/

/-- An admissible bound and a nonempty set of well-formed logical identities. -/
structure LogicalSelection (options : RunOptions) : Prop where
  bound : ∀ n, options.maxAttempts = some n → 0 < n ∧ n ≤ maxSafeInteger
  some_ : options.selectedIds ≠ []
  ids : ∀ id ∈ options.selectedIds, wellFormed id = true ∧ isLogical id = true

theorem preselect_eq {options : RunOptions} (selection : LogicalSelection options)
    (plan : LogicalPlan) :
    ∃ logical, (∀ id, id ∈ logical ↔ id ∈ options.selectedIds) ∧
      preselect plan options = selectPlan logical plan := by
  let logical := ((options.selectedIds.filter isLogical).dedup).insertionSort (· ≤ ·)
  have listed : ∀ id, id ∈ logical ↔ id ∈ options.selectedIds := by
    intro id
    rw [List.mem_insertionSort, List.mem_dedup, List.mem_filter]
    exact ⟨And.left, fun member => ⟨member, (selection.ids id member).2⟩⟩
  refine ⟨logical, listed, ?_⟩
  have bound : reject (options.maxAttempts.any fun bound => bound = 0 ∨ maxSafeInteger < bound)
      SelectionError.attemptBound = .ok () := by
    rw [ok_reject]
    cases held : options.maxAttempts with
    | none => simp
    | some n =>
        obtain ⟨positive, safe⟩ := selection.bound n held
        simp only [Option.any_some, decide_eq_true_eq, not_or, not_lt]
        exact ⟨positive.ne', safe⟩
  have formed : each (fun id => reject (wellFormed id = false) (SelectionError.invalidIdentity id))
      options.selectedIds = .ok () := by
    refine ok_each.mpr fun id member => ok_reject.mpr ?_
    rw [(selection.ids id member).1]
    decide
  have resolved : options.selectedIds.any (fun id => id ∉ logical) = false := by
    refine List.any_eq_false.mpr fun id member => ?_
    simpa using (listed id).mpr member
  simp only [preselect, bound, selection.some_, if_false, formed]
  change (if options.selectedIds.any (fun id => id ∉ logical) = true then _ else _) = _
  rw [resolved]
  rfl

/-- Logical preselection keeps exactly the selected work, whole. -/
theorem preselect_keeps_selected (hashes : Hashes) (manifest : Manifest)
    (catalog : LogicalPlanningCatalog)
    (experiments : List (ExperimentDefinition × ExpandedExperiment)) (plan : LogicalPlan)
    (valid : ValidPolicies manifest)
    (planned : expandManifestLogicalPlan hashes manifest catalog experiments = .ok plan)
    (separates : PlanSeparates hashes.identity plan) (options : RunOptions)
    (selection : LogicalSelection options) :
    ((∃ e, preselect plan options = .error e) ↔ ∃ id ∈ options.selectedIds, ¬Matches plan id) ∧
    (∀ message, preselect plan options ≠ .error (.panicked message)) ∧
    ∀ selected, preselect plan options = .ok selected →
      selected = keptPlan (· ∈ options.selectedIds) plan ∧ PlanWithin selected plan ∧
        Whole selected ∧ preselect selected options = .ok selected := by
  have selectable := planned_selectable valid planned separates
  obtain ⟨logical, listed, ran⟩ := preselect_eq selection plan
  have same : (fun id => decide (id ∈ logical)) = fun id => decide (id ∈ options.selectedIds) :=
    funext fun id => decide_eq_decide.mpr (listed id)
  obtain ⟨succeeds, reaches⟩ := selectPlan_ok logical selectable
  rw [same] at succeeds
  refine ⟨?_, fun message => ran ▸ reaches message, fun selected result => ?_⟩
  · constructor
    · rintro ⟨e, failed⟩
      by_contra none
      have all : ∀ id ∈ logical, Matches plan id := by
        intro id member
        by_contra unmatched
        exact none ⟨id, (listed id).mp member, unmatched⟩
      have result := (succeeds _).mpr ⟨all, rfl⟩
      rw [← ran, failed] at result
      cases result
    · rintro ⟨id, member, unmatched⟩
      cases result : preselect plan options with
      | error e => exact ⟨e, rfl⟩
      | ok selected =>
          have all := ((succeeds selected).mp (ran ▸ result)).1
          exact absurd (all id ((listed id).mpr member)) unmatched
  · obtain ⟨all, rfl⟩ := (succeeds selected).mp (ran ▸ result)
    refine ⟨rfl, keptPlan_within selectable, keptPlan_whole selectable, ?_⟩
    obtain ⟨again, fixed, matched⟩ :=
      keptPlan_kept (fun id => decide (id ∈ options.selectedIds)) selectable
    obtain ⟨logical', listed', ran'⟩ := preselect_eq selection
      (keptPlan (fun id => decide (id ∈ options.selectedIds)) plan)
    have same' : (fun id => decide (id ∈ logical')) = fun id => decide (id ∈ options.selectedIds) :=
      funext fun id => decide_eq_decide.mpr (listed' id)
    rw [ran']
    refine ((selectPlan_ok logical' again).1 _).mpr ⟨fun id member => ?_, ?_⟩
    · have mine := (listed' id).mp member
      exact matched id (decide_eq_true mine) (all id ((listed id).mpr mine))
    · rw [same', fixed]

/-! The last slot of the study's second repetition selects that repetition. -/

section Study

def studyOptions : RunOptions where
  maxAttempts := some 3
  selectedIds := [(⟨.fill 3⟩ : RecordId .logicalObservationSlot).text]

theorem validPolicies_study : ValidPolicies studyManifest := by
  have facts : (studyPolicy.validate.toBool && (studyBinding.validate studyPolicy).toBool) = true := by
    decide +kernel
  rw [Bool.and_eq_true] at facts
  intro name definition profile found held
  have named : (if name = "curve" then some studyDefinition else none) = some definition := by
    rw [← found, studyManifest, OrderedMap.get_insert]
    rfl
  split at named
  · cases named
    cases held
    refine ⟨ok_of_toBool facts.1, fun implementation binding given => ?_⟩
    have bound : (if implementation = "worker" then some studyBinding else none) = some binding := by
      rw [← given, OrderedMap.get_insert]
      rfl
    split at bound
    · cases bound
      exact ok_of_toBool facts.2
    · cases bound
  · cases named

theorem preselect_keeps_selected_study :
    ∃ plan selected,
      expandManifestLogicalPlan studyHashes studyManifest studyCatalog studyExperiments = .ok plan ∧
      preselect plan studyOptions = .ok selected ∧ PlanWithin selected plan ∧ Whole selected ∧
      preselect selected studyOptions = .ok selected := by
  have facts :
      (match expandManifestLogicalPlan studyHashes studyManifest studyCatalog studyExperiments with
        | .ok plan => decide (PlanSeparates studyHashes.identity plan) &&
            (preselect plan studyOptions).toBool
        | .error _ => false) = true ∧
      studyOptions.selectedIds.all (fun id => wellFormed id && isLogical id) = true := by
    decide +kernel
  obtain ⟨ran, formed⟩ := facts
  have selection : LogicalSelection studyOptions := {
    bound := fun n held => by
      cases held
      decide
    some_ := List.cons_ne_nil _ _
    ids := fun id member => by simpa using List.all_eq_true.mp formed id member }
  cases planned : expandManifestLogicalPlan studyHashes studyManifest studyCatalog
      studyExperiments with
  | error e =>
      rw [planned] at ran
      cases ran
  | ok plan =>
      rw [planned] at ran
      obtain ⟨separates, succeeds⟩ := Bool.and_eq_true_iff.mp ran
      cases result : preselect plan studyOptions with
      | error e =>
          rw [result] at succeeds
          cases succeeds
      | ok selected =>
          obtain ⟨-, -, kept⟩ := preselect_keeps_selected studyHashes studyManifest studyCatalog
            studyExperiments plan validPolicies_study planned (of_decide_eq_true separates)
            studyOptions selection
          obtain ⟨-, within, whole, again⟩ := kept selected result
          exact ⟨plan, selected, rfl, result, within, whole, again⟩

end Study

end Metewand.Planning
