import Metewand.Lib.Table
import Metewand.Planning.Selection

/-!
# Slots and trajectories

What `planSpecification` lays out, whatever the delivery.  For a binding with bound `b`
the observation slots fall into one group of `b` for each measurement repetition; chunking
the slots and filtering them by measurement index find the same groups
(`TrajectoryLayout`).  For a fresh binding every observation slot has its own attempt slot
(`FreshLayout`).

Identities are told apart by `Separates`: the identity hash has no collision among the
slots of the specification.
-/

namespace Metewand.Planning

open Lib Lib.Check

/-! ## Identity values -/

theorem normalize_nat {n : Nat} {w : Json} (h : (Json.nat n).normalize = .ok w) :
    w = .nat n ∧ n ≤ maxSafeInteger := by
  simp only [Json.nat, Json.normalize, Json.normalizeNumber, Int.natAbs_natCast] at h
  split at h
  · cases h
  · rename_i small
    cases h
    exact ⟨rfl, not_lt.mp small⟩

/-- A member of an identity value is the record's field, normalized. -/
theorem canonicalIdentity_get {T : Type} {kind : IdentityKind} [IdentityRecord T kind] {record : T}
    {value : Json} (canonical : canonicalIdentity record = .ok value) (key : String) :
    ((Json.object (("version", .nat identityVersion) ::
      IdentityRecord.identityFields record)).get key).normalize = .ok (value.get key) :=
  Json.normalize_get key canonical

theorem observationSlot_identity {a b : LogicalObservationSlotRecord} {value : Json}
    (left : canonicalIdentity a = .ok value) (right : canonicalIdentity b = .ok value) :
    a.measurementIndex = b.measurementIndex ∧
      ∀ f g, a.fresh = some f → b.fresh = some g → f.scheduleIndex = g.scheduleIndex := by
  have number : ∀ {m n : Nat} {w : Json}, (Json.nat m).normalize = .ok w →
      (Json.nat n).normalize = .ok w → m = n := by
    intro m n w first second
    have same := (normalize_nat first).1.symm.trans (normalize_nat second).1
    simpa [Json.nat] using same
  constructor
  · have first := canonicalIdentity_get left "measurement_index"
    have second := canonicalIdentity_get right "measurement_index"
    simp only [IdentityRecord.identityFields, List.cons_append, Json.get_object_cons,
      String.reduceEq, if_true, if_false] at first second
    exact number first second
  · intro f g freshA freshB
    have first := canonicalIdentity_get left "fresh"
    have second := canonicalIdentity_get right "fresh"
    simp only [IdentityRecord.identityFields, freshA, freshB, List.cons_append, List.nil_append,
      Json.get_object_cons, String.reduceEq, if_true, if_false] at first second
    have first := Json.normalize_get "schedule_index" first
    have second := Json.normalize_get "schedule_index" second
    simp only [FreshControl.json, Json.get_object_cons, if_true] at first second
    exact number first second

theorem attemptSlot_identity {a b : LogicalAttemptSlotRecord} {value : Json}
    (left : canonicalIdentity a = .ok value) (right : canonicalIdentity b = .ok value) :
    a.role = b.role := by
  have first := canonicalIdentity_get left "role"
  have second := canonicalIdentity_get right "role"
  simp only [IdentityRecord.identityFields, Json.get_object_cons, String.reduceEq, if_true,
    if_false] at first second
  have kindA := Json.normalize_get "kind" first
  have kindB := Json.normalize_get "kind" second
  cases roleA : a.role with
  | warmup i =>
      cases roleB : b.role with
      | warmup j =>
          rw [roleA] at first
          rw [roleB] at second
          have first := Json.normalize_get "warmup_index" first
          have second := Json.normalize_get "warmup_index" second
          simp only [AttemptSlotRole.json, Json.get_object_cons, String.reduceEq, if_true,
            if_false] at first second
          have same := (normalize_nat first).1.symm.trans (normalize_nat second).1
          rw [show i = j by simpa [Json.nat] using same]
      | measured o =>
          simp [roleA, roleB, AttemptSlotRole.json, Json.normalize] at kindA kindB
          rw [← kindA] at kindB
          simp at kindB
  | measured o =>
      cases roleB : b.role with
      | warmup j =>
          simp [roleA, roleB, AttemptSlotRole.json, Json.normalize] at kindA kindB
          rw [← kindA] at kindB
          simp at kindB
      | measured p =>
          rw [roleA] at first
          rw [roleB] at second
          have first := Json.normalize_get "observation_slot" first
          have second := Json.normalize_get "observation_slot" second
          simp only [AttemptSlotRole.json, Json.get_object_cons, String.reduceEq, if_true,
            if_false, RecordId.json, Json.normalize, Except.ok.injEq] at first second
          rw [← first] at second
          rw [RecordId.text_injective (Json.str.inj second)]

/-- The identity values of the slots. -/
def identityValues {T : Type} {kind : IdentityKind} [IdentityRecord T kind]
    (slots : List (IdentifiedRecord T kind)) : List Json :=
  slots.filterMap fun slot => (canonicalIdentity slot.record).toOption

theorem mem_identityValues {T : Type} {kind : IdentityKind} [IdentityRecord T kind]
    {slots : List (IdentifiedRecord T kind)} {slot : IdentifiedRecord T kind} {value : Json}
    (member : slot ∈ slots) (canonical : canonicalIdentity slot.record = .ok value) :
    value ∈ identityValues slots :=
  List.mem_filterMap.mpr ⟨slot, member, toOption_eq_some.mpr canonical⟩

/-- The identity hash has no collision among the slots of a specification. -/
structure Separates (hash : Hasher) (specification : OneShotSpecificationPlan) : Prop where
  observations : ∀ a ∈ identityValues specification.observationSlots,
    ∀ b ∈ identityValues specification.observationSlots,
      hash .logicalObservationSlot a = hash .logicalObservationSlot b → a = b
  attempts : ∀ a ∈ identityValues specification.attemptSlots,
    ∀ b ∈ identityValues specification.attemptSlots,
      hash .logicalAttemptSlot a = hash .logicalAttemptSlot b → a = b

instance (hash : Hasher) (specification : OneShotSpecificationPlan) :
    Decidable (Separates hash specification) :=
  decidable_of_iff
    ((∀ a ∈ identityValues specification.observationSlots,
        ∀ b ∈ identityValues specification.observationSlots,
          hash .logicalObservationSlot a = hash .logicalObservationSlot b → a = b) ∧
      ∀ a ∈ identityValues specification.attemptSlots,
        ∀ b ∈ identityValues specification.attemptSlots,
          hash .logicalAttemptSlot a = hash .logicalAttemptSlot b → a = b)
    ⟨fun h => ⟨h.1, h.2⟩, fun h => ⟨h.observations, h.attempts⟩⟩

/-! ## What planning returns -/

section Planned

variable {hashes : Hashes} {experiment : ExperimentDefinition}
  {candidate : RecordId .logicalCandidate} {datasetConfiguration : RecordId .datasetConfiguration}
  {problemConfiguration : RecordId .problemConfiguration}
  {implementationRepetition warmupRuns : Nat} {schedulingSeed : DerivedSeedRecord}
  {delivery : Delivery} {specification : OneShotSpecificationPlan}

/-- The bound and binding that planning is given. -/
def Delivery.profileBound (delivery : Delivery) : Option (Nat × ProfileBinding) :=
  delivery.map fun selected => (selected.1.maxObservations, selected.2)

/-- A specification as planned: slots by index, then attempts by role. -/
structure Planned (hashes : Hashes) (schedulingSeed : DerivedSeedRecord)
    (repetitions warmups bound step : Nat) (controls : Option (List CanonicalValue))
    (specification : OneShotSpecificationPlan) : Prop where
  fits : repetitions * bound < 2 ^ 64
  stepping : 0 < step
  observations : List.Forall₂
    (fun index slot =>
      planObservationSlot hashes specification.specification.id controls bound index = .ok slot)
    (List.range (repetitions * bound)) specification.observationSlots
  attempts : List.Forall₂
    (fun role slot =>
      planAttemptSlot hashes schedulingSeed specification.specification.id role = .ok slot)
    ((List.range warmups).map .warmup ++
      (stepBy step specification.observationSlots).map fun slot => .measured slot.id)
    specification.attemptSlots

theorem planSpecification_ok
    (planned : planSpecification hashes experiment candidate datasetConfiguration
      problemConfiguration implementationRepetition warmupRuns schedulingSeed
      delivery.profileBound = .ok specification) :
    ∃ controls, freshControls delivery.profileBound = .ok controls ∧
      specification.specification.record.implementationRepetition = implementationRepetition ∧
      Planned hashes schedulingSeed experiment.measurementRepetitions warmupRuns
        (slotBound delivery.profileBound controls)
        (if controls.isSome then 1 else slotBound delivery.profileBound controls) controls
        specification := by
  simp only [planSpecification, ok_bind, ok_reject, ok_pure, ok_traverseAll] at planned
  obtain ⟨seed, -, identified, identify, controls, expanded, -, fits, observations, slots, warmups,
    first, -, stepping, measured, second, rfl⟩ := planned
  have record := (identifyRecord_ok.mp (ok_mapError.mp identify)).1
  refine ⟨controls, expanded, congrArg (·.implementationRepetition) record, ?_⟩
  refine ⟨not_le.mp fits, Nat.pos_of_ne_zero stepping, slots, ?_⟩
  exact List.rel_append (List.forall₂_map_left_iff.mpr first) (List.forall₂_map_left_iff.mpr second)

end Planned

/-! ## Positions -/

/-- The observation slot at a position. -/
def slotAt (specification : OneShotSpecificationPlan) (i : Nat) : ObservationSlot :=
  specification.observationSlots.getD i default

/-- The observation slots of one measurement repetition. -/
def trajectory (specification : OneShotSpecificationPlan) (bound k : Nat) : List ObservationSlot :=
  (List.range bound).map fun j => slotAt specification (k * bound + j)

theorem identify_ok {hashes : Hashes} {T : Type} {kind : IdentityKind} [IdentityRecord T kind]
    {record : T} {slot : IdentifiedRecord T kind} (identified : identify hashes record = .ok slot) :
    slot.record = record ∧ ∃ value, canonicalIdentity slot.record = .ok value ∧
      slot.id = ⟨hashes.identity kind value⟩ := by
  obtain ⟨same, identity⟩ := identifyRecord_ok.mp (ok_mapError.mp identified)
  exact ⟨same, same ▸ identity⟩

theorem forall₂_range {α : Type} [Inhabited α] {R : Nat → α → Prop} {n : Nat} {as : List α}
    (related : List.Forall₂ R (List.range n) as) {i : Nat} (inside : i < n) :
    R i (as.getD i default) := by
  have length := related.length_eq
  rw [List.length_range] at length
  have at_ := List.Forall₂.get related (i := i) (by simpa using inside) (length ▸ inside)
  simpa [length ▸ inside] using at_

theorem map_of_forall₂ {α β : Type} {R : α → β → Prop} {f : β → α} {as : List α} {bs : List β}
    (read : ∀ {a b}, R a b → f b = a) (related : List.Forall₂ R as bs) : bs.map f = as := by
  induction related with
  | nil => rfl
  | cons head _ ih => rw [List.map_cons, read head, ih]

theorem filter_range_interval {n start count : Nat} (inside : start + count ≤ n) :
    (List.range n).filter (fun i => start ≤ i ∧ i < start + count) =
      (List.range count).map (start + ·) := by
  obtain ⟨rest, rfl⟩ := Nat.exists_eq_add_of_le inside
  rw [List.range_add, List.range_add, List.filter_append, List.filter_append, List.filter_map,
    List.filter_map]
  have before : (List.range start).filter (fun i => start ≤ i ∧ i < start + count) = [] := by
    refine List.filter_eq_nil_iff.mpr fun i member => ?_
    have := List.mem_range.mp member
    simp [this]
  have within : (List.range count).filter
      ((fun i => decide (start ≤ i ∧ i < start + count)) ∘ (start + ·)) = List.range count := by
    refine List.filter_eq_self.mpr fun i member => ?_
    have := List.mem_range.mp member
    simp [this]
  have after : (List.range rest).filter
      ((fun i => decide (start ≤ i ∧ i < start + count)) ∘ (start + count + ·)) = [] := by
    refine List.filter_eq_nil_iff.mpr fun i _ => ?_
    simp
  rw [before, within, after, List.nil_append, List.map_nil, List.append_nil]

namespace Planned

variable {hashes : Hashes} {schedulingSeed : DerivedSeedRecord}
  {repetitions warmups bound step : Nat} {controls : Option (List CanonicalValue)}
  {specification : OneShotSpecificationPlan}

theorem count (planned : Planned hashes schedulingSeed repetitions warmups bound step controls
    specification) : specification.observationSlots.length = repetitions * bound := by
  rw [← planned.observations.length_eq, List.length_range]

theorem slots (planned : Planned hashes schedulingSeed repetitions warmups bound step controls
    specification) :
    specification.observationSlots = (List.range (repetitions * bound)).map (slotAt specification) := by
  rw [← planned.count]
  exact eq_map_getD _

theorem mem_slots (planned : Planned hashes schedulingSeed repetitions warmups bound step controls
    specification) {i : Nat} (inside : i < repetitions * bound) :
    slotAt specification i ∈ specification.observationSlots := by
  rw [planned.slots]
  exact List.mem_map_of_mem (List.mem_range.mpr inside)

theorem at_ (planned : Planned hashes schedulingSeed repetitions warmups bound step controls
    specification) {i : Nat} (inside : i < repetitions * bound) :
    observationSlotRecord specification.specification.id controls bound i =
        .ok (slotAt specification i).record ∧
      ∃ value, canonicalIdentity (slotAt specification i).record = .ok value ∧
        (slotAt specification i).id = ⟨hashes.identity .logicalObservationSlot value⟩ := by
  have slot := forall₂_range planned.observations inside
  simp only [planObservationSlot, ok_bind] at slot
  obtain ⟨record, read, identified⟩ := slot
  obtain ⟨same, identity⟩ := identify_ok identified
  exact ⟨read.trans (congrArg _ same.symm), identity⟩

/-- The record at a position, for each kind of control. -/
theorem record_at (planned : Planned hashes schedulingSeed repetitions warmups bound step controls
    specification) {i : Nat} (inside : i < repetitions * bound) :
    match controls with
    | none => (slotAt specification i).record =
        { fresh := none, specification := specification.specification.id, measurementIndex := i }
    | some values => ∃ control, values[i % bound]? = some control ∧
        (slotAt specification i).record =
          { fresh := some { scheduleIndex := i % bound, observationControl := control.value }
            specification := specification.specification.id
            measurementIndex := i / bound } := by
  have read := (planned.at_ inside).1
  cases controls with
  | none => exact (Except.ok.inj read).symm
  | some values =>
      simp only [observationSlotRecord, ok_bind, ok_expect, ok_pure] at read
      obtain ⟨control, found, same⟩ := read
      exact ⟨control, found, same.symm⟩

theorem observationIds (planned : Planned hashes schedulingSeed repetitions warmups bound step
    controls specification) (separates : Separates hashes.identity specification) :
    Keyed (·.id) specification.observationSlots := by
  rw [Keyed, planned.slots, List.map_map]
  refine List.Nodup.map_on ?_ List.nodup_range
  intro i left j right same
  have left := List.mem_range.mp left
  have right := List.mem_range.mp right
  obtain ⟨-, v, canonical, id⟩ := planned.at_ left
  obtain ⟨-, w, canonical', id'⟩ := planned.at_ right
  have equal : hashes.identity .logicalObservationSlot v =
      hashes.identity .logicalObservationSlot w :=
    congrArg RecordId.digest (id.symm.trans (same.trans id'))
  have values := separates.observations v (mem_identityValues (planned.mem_slots left) canonical) w
    (mem_identityValues (planned.mem_slots right) canonical') equal
  obtain ⟨index, schedule⟩ := observationSlot_identity canonical (values ▸ canonical')
  have first := planned.record_at left
  have second := planned.record_at right
  cases controls with
  | none =>
      simp only [first, second] at index
      exact index
  | some controls =>
      obtain ⟨_, -, first⟩ := first
      obtain ⟨_, -, second⟩ := second
      simp only [first, second] at index schedule
      have remainder := schedule _ _ rfl rfl
      simp only at remainder
      rw [← Nat.div_add_mod i bound, ← Nat.div_add_mod j bound, index, remainder]

theorem attempt_roles (planned : Planned hashes schedulingSeed repetitions warmups bound step
    controls specification) :
    specification.attemptSlots.map (·.record.role) =
      (List.range warmups).map .warmup ++
        (stepBy step specification.observationSlots).map fun slot => .measured slot.id :=
  map_of_forall₂ (fun identified => congrArg (·.role) (identify_ok identified).1) planned.attempts

theorem attemptIds (planned : Planned hashes schedulingSeed repetitions warmups bound step controls
    specification) (separates : Separates hashes.identity specification)
    (roles : (specification.attemptSlots.map (·.record.role)).Nodup) :
    Keyed (·.id) specification.attemptSlots := by
  have identified : ∀ slot ∈ specification.attemptSlots, ∃ value,
      canonicalIdentity slot.record = .ok value ∧
        slot.id = ⟨hashes.identity .logicalAttemptSlot value⟩ := by
    intro slot member
    obtain ⟨i, inside, rfl⟩ := List.getElem_of_mem member
    have at_ := planned.attempts.get (i := i) (planned.attempts.length_eq ▸ inside) inside
    exact (identify_ok at_).2
  refine List.pairwise_map.mpr ((List.pairwise_map.mp roles).imp_of_mem ?_)
  intro a b left right differs same
  obtain ⟨v, canonical, id⟩ := identified a left
  obtain ⟨w, canonical', id'⟩ := identified b right
  have equal : hashes.identity .logicalAttemptSlot v = hashes.identity .logicalAttemptSlot w :=
    congrArg RecordId.digest (id.symm.trans (same.trans id'))
  have values := separates.attempts v (mem_identityValues left canonical) w
    (mem_identityValues right canonical') equal
  exact differs (attemptSlot_identity canonical (values ▸ canonical'))

theorem nodup_roles (planned : Planned hashes schedulingSeed repetitions warmups bound step controls
    specification) (separates : Separates hashes.identity specification)
    {positions : List Nat} (distinct : positions.Nodup)
    (inside : ∀ i ∈ positions, i < repetitions * bound)
    (stepped : stepBy step specification.observationSlots = positions.map (slotAt specification)) :
    (specification.attemptSlots.map (·.record.role)).Nodup := by
  have ids := planned.observationIds separates
  rw [Keyed, planned.slots, List.map_map] at ids
  rw [planned.attempt_roles, stepped, List.map_map]
  refine List.Nodup.append ?_ ?_ ?_
  · exact List.nodup_range.map fun a b same => AttemptSlotRole.warmup.inj same
  · refine List.Nodup.map_on ?_ distinct
    intro i left j right same
    exact List.inj_on_of_nodup_map ids (List.mem_range.mpr (inside i left))
      (List.mem_range.mpr (inside j right)) (AttemptSlotRole.measured.inj same)
  · intro role warm measured
    obtain ⟨_, -, rfl⟩ := List.mem_map.mp warm
    obtain ⟨_, -, other⟩ := List.mem_map.mp measured
    cases other

end Planned

/-! ## Layouts -/

/-- Slots in groups of `bound`, one group and one measured attempt for each repetition. -/
structure TrajectoryLayout (repetitions warmups bound : Nat) (delivery : Delivery)
    (specification : OneShotSpecificationPlan) : Prop where
  positive : 0 < bound
  /-- No measurement index or range end leaves 64 bits. -/
  fits : ∀ k < repetitions, k * bound + bound < 2 ^ 64
  count : specification.observationSlots.length = repetitions * bound
  record : ∀ i < repetitions * bound, (slotAt specification i).record =
    { fresh := none, specification := specification.specification.id, measurementIndex := i }
  /-- Warm-ups, then one measured slot for each repetition. -/
  attempts : specification.attemptSlots.map (·.record.role) =
    (List.range warmups).map .warmup ++
      (List.range repetitions).map fun k => .measured (slotAt specification (k * bound)).id
  chunked : chunks bound specification.observationSlots =
    (List.range repetitions).map (trajectory specification bound)
  anchored : ∀ k < repetitions, findAnchor specification (slotAt specification (k * bound)).id =
    some (slotAt specification (k * bound))
  filtered : ∀ k < repetitions,
    observationGroup delivery specification (slotAt specification (k * bound)) =
      trajectory specification bound k
  partition : (List.range repetitions).flatMap (trajectory specification bound) =
    specification.observationSlots
  observationIds : Keyed (·.id) specification.observationSlots
  attemptIds : Keyed (·.id) specification.attemptSlots

/-- One observation slot and one measured attempt for each repetition and control. -/
structure FreshLayout (repetitions warmups : Nat) (controls : List CanonicalValue)
    (delivery : Delivery) (specification : OneShotSpecificationPlan) : Prop where
  positive : 0 < controls.length
  fits : repetitions * controls.length < 2 ^ 64
  count : specification.observationSlots.length = repetitions * controls.length
  record : ∀ i < repetitions * controls.length, ∃ control,
    controls[i % controls.length]? = some control ∧
      (slotAt specification i).record =
        { fresh := some
            { scheduleIndex := i % controls.length, observationControl := control.value }
          specification := specification.specification.id
          measurementIndex := i / controls.length }
  /-- The slots run through the pairs of repetition and schedule index in order. -/
  coordinates : (specification.observationSlots.map fun slot =>
      (slot.record.measurementIndex, slot.record.fresh.map FreshControl.scheduleIndex)) =
    (List.range repetitions).flatMap fun k =>
      (List.range controls.length).map fun j => (k, some j)
  attempts : specification.attemptSlots.map (·.record.role) =
    (List.range warmups).map .warmup ++
      specification.observationSlots.map fun slot => .measured slot.id
  anchored : ∀ slot ∈ specification.observationSlots,
    findAnchor specification slot.id = some slot
  filtered : ∀ slot ∈ specification.observationSlots,
    observationGroup delivery specification slot = [slot]
  observationIds : Keyed (·.id) specification.observationSlots
  attemptIds : Keyed (·.id) specification.attemptSlots

/-- The layout a delivery calls for. -/
def SlotLayout (repetitions warmups : Nat) (delivery : Delivery)
    (specification : OneShotSpecificationPlan) : Prop :=
  match delivery with
  | some (policy, .fresh binding) => ∃ controls,
      binding.schedule.expand policy.maxObservations = .ok controls ∧
        FreshLayout repetitions warmups controls delivery specification
  | _ => TrajectoryLayout repetitions warmups delivery.bound delivery specification

namespace Planned

variable {hashes : Hashes} {schedulingSeed : DerivedSeedRecord}
  {repetitions warmups bound : Nat} {delivery : Delivery}
  {specification : OneShotSpecificationPlan}

theorem trajectoryLayout (planned : Planned hashes schedulingSeed repetitions warmups bound bound
    none specification) (separates : Separates hashes.identity specification)
    (plain : delivery.isFresh = false) (same : delivery.bound = bound) :
    TrajectoryLayout repetitions warmups bound delivery specification := by
  have positive : 0 < bound := planned.stepping
  have ids := planned.observationIds separates
  have anchors : stepBy bound specification.observationSlots =
      (List.range repetitions).map fun k => slotAt specification (k * bound) := by
    rw [planned.slots, stepBy_map_range _ positive]
  have last : ∀ {k}, k < repetitions → k * bound + bound ≤ repetitions * bound := by
    intro k group
    calc k * bound + bound = (k + 1) * bound := (Nat.succ_mul k bound).symm
      _ ≤ repetitions * bound := Nat.mul_le_mul_right bound group
  have anchor : ∀ {k}, k < repetitions → k * bound < repetitions * bound := by
    intro k group
    have := last group
    omega
  refine ⟨positive, fun k group => (last group).trans_lt planned.fits, planned.count,
    fun i inside => planned.record_at inside, ?_, ?_, ?_, ?_, ?_, ids, ?_⟩
  · rw [planned.attempt_roles, anchors, List.map_map]
    rfl
  · rw [planned.slots, chunks_map_range _ positive]
    rfl
  · exact fun k group => ids.find_of_mem (planned.mem_slots (anchor group))
  · intro k group
    have index : ∀ {i}, i < repetitions * bound →
        (slotAt specification i).record.measurementIndex = i :=
      fun inside => congrArg (·.measurementIndex) (planned.record_at inside)
    have selected : (List.range (repetitions * bound)).filter
        ((fun slot : ObservationSlot =>
          decide ((slotAt specification (k * bound)).record.measurementIndex ≤
              slot.record.measurementIndex ∧
            slot.record.measurementIndex <
              (slotAt specification (k * bound)).record.measurementIndex + delivery.bound)) ∘
          slotAt specification) = (List.range bound).map (k * bound + ·) := by
      rw [← filter_range_interval (last group), index (anchor group), same]
      refine List.filter_congr fun i member => ?_
      simp only [Function.comp_apply, index (List.mem_range.mp member)]
    unfold observationGroup
    simp only [plain, Bool.false_eq_true, if_false]
    rw [planned.slots, List.filter_map, selected, List.map_map]
    rfl
  · exact (flatMap_groups (slotAt specification)).trans planned.slots.symm
  · have distinct : ((List.range repetitions).map (· * bound)).Nodup :=
      List.nodup_range.map fun a b equal => Nat.eq_of_mul_eq_mul_right positive equal
    refine planned.attemptIds separates (planned.nodup_roles separates distinct ?_ ?_)
    · intro i member
      obtain ⟨k, group, rfl⟩ := List.mem_map.mp member
      exact anchor (List.mem_range.mp group)
    · rw [anchors, List.map_map]
      rfl

theorem freshLayout {controls : List CanonicalValue}
    (planned : Planned hashes schedulingSeed repetitions warmups controls.length 1
      (some controls) specification) (separates : Separates hashes.identity specification)
    (positive : 0 < controls.length) (fresh : delivery.isFresh = true) :
    FreshLayout repetitions warmups controls delivery specification := by
  have ids := planned.observationIds separates
  have record : ∀ {i}, i < repetitions * controls.length → ∃ control,
      controls[i % controls.length]? = some control ∧ (slotAt specification i).record =
        { fresh := some
            { scheduleIndex := i % controls.length, observationControl := control.value }
          specification := specification.specification.id
          measurementIndex := i / controls.length } :=
    fun inside => planned.record_at inside
  have stepped : stepBy 1 specification.observationSlots =
      (List.range (repetitions * controls.length)).map (slotAt specification) := by
    have single := stepBy_map_range (m := repetitions * controls.length) (slotAt specification)
      Nat.one_pos
    simp only [Nat.mul_one] at single
    rw [planned.slots, single]
  refine ⟨positive, planned.fits, planned.count, fun i inside => record inside, ?_, ?_,
    fun slot member => ids.find_of_mem member, ?_, ids, ?_⟩
  · rw [planned.slots, List.map_map]
    have pairs := congrArg (List.map fun pair : Nat × Nat => (pair.1, some pair.2))
      (map_divMod (m := repetitions) positive)
    simp only [List.map_map, List.map_flatMap] at pairs
    refine Eq.trans (List.map_congr_left fun i member => ?_) pairs
    obtain ⟨control, -, same⟩ := record (List.mem_range.mp member)
    simp [same]
  · rw [planned.attempt_roles, stepped, ← planned.slots]
  · intro slot member
    rw [observationGroup, fresh]
    simp only [if_true]
    exact ids.filter_of_mem member
  · refine planned.attemptIds separates (planned.nodup_roles separates List.nodup_range ?_ stepped)
    exact fun i member => List.mem_range.mp member

end Planned

/-! ## Every delivery -/

section Deliveries

variable {hashes : Hashes} {experiment : ExperimentDefinition}
  {candidate : RecordId .logicalCandidate} {datasetConfiguration : RecordId .datasetConfiguration}
  {problemConfiguration : RecordId .problemConfiguration}
  {implementationRepetition warmupRuns : Nat} {schedulingSeed : DerivedSeedRecord}
  {delivery : Delivery}

theorem maxObservations_positive {policy : ProfilePolicy} (valid : policy.validate = .ok ()) :
    0 < policy.maxObservations := by
  rcases Nat.eq_zero_or_pos policy.maxObservations with zero | positive
  · simp [ProfilePolicy.validate, zero, throw, throwThe, MonadExceptOf.throw, bind, Except.bind]
      at valid
  · exact positive

/-- What a binding expands to, and how many slots that gives each repetition. -/
theorem freshControls_ok {controls : Option (List CanonicalValue)}
    (expanded : freshControls delivery.profileBound = .ok controls) :
    match delivery with
    | some (policy, .fresh binding) => ∃ values,
        binding.schedule.expand policy.maxObservations = .ok values ∧ controls = some values
    | some (policy, _) => controls = none ∧
        slotBound delivery.profileBound controls = policy.maxObservations
    | none => controls = none ∧ slotBound delivery.profileBound controls = 1 := by
  match delivery with
  | none =>
      cases expanded
      exact ⟨rfl, rfl⟩
  | some (policy, .buffered binding) =>
      cases expanded
      exact ⟨rfl, rfl⟩
  | some (policy, .streaming binding) =>
      cases expanded
      exact ⟨rfl, rfl⟩
  | some (policy, .fresh binding) =>
      simp only [freshControls, Delivery.profileBound, Option.map_some] at expanded
      cases schedule : binding.schedule.expand policy.maxObservations with
      | error e =>
          rw [schedule] at expanded
          cases expanded
      | ok values =>
          rw [schedule] at expanded
          exact ⟨values, schedule, (Except.ok.inj expanded).symm⟩

/-- The bound that selection reads back is the policy's. -/
theorem preselectBound_policy {policyName : String} {definition : ObservationPolicyDefinition}
    {record : ObservationPolicyRecord}
    (recorded : observationPolicyRecord policyName definition = .ok record) :
    preselectBound record = (definition.profile.map (·.policy.maxObservations)).getD 1 := by
  unfold observationPolicyRecord at recorded
  cases profile : definition.profile with
  | none =>
      rw [profile] at recorded
      cases recorded
      rfl
  | some selected =>
      rw [profile] at recorded
      simp only [ok_bind, ok_mapError, ok_pure, CanonicalValue.tryFrom_ok] at recorded
      obtain ⟨value, normalized, rfl⟩ := recorded
      have read := Json.normalize_get "max-observations" normalized
      rw [ProfilePolicy.json_maxObservations] at read
      obtain ⟨written, safe⟩ := normalize_nat read
      have small : selected.policy.maxObservations < 18446744073709551616 :=
        safe.trans_lt (by decide)
      simp [preselectBound, written, asU64?, Json.nat, small]

/-- The bound that chunks an experiment's slots is the binding's own. -/
theorem preselectBound_eq {policyName : String} {definition : ObservationPolicyDefinition}
    {record : ObservationPolicyRecord}
    (common : definition.profile.map (·.policy) = delivery.map Prod.fst)
    (recorded : observationPolicyRecord policyName definition = .ok record)
    (plain : delivery.isFresh = false) : preselectBound record = delivery.bound := by
  have policy : definition.profile.map (·.policy.maxObservations) =
      (delivery.map Prod.fst).map (·.maxObservations) := by
    rw [← common, Option.map_map]
    rfl
  rw [preselectBound_policy recorded, policy]
  match delivery, plain with
  | none, _ => rfl
  | some (_, .buffered _), _ => rfl
  | some (_, .streaming _), _ => rfl

theorem freshControls_panics (message : String) :
    freshControls delivery.profileBound ≠ .error (.panicked message) := by
  intro schedule
  match delivery with
  | none | some (_, .buffered _) | some (_, .streaming _) => cases schedule
  | some (policy, .fresh binding) =>
      simp only [freshControls, Delivery.profileBound, Option.map_some] at schedule
      cases result : binding.schedule.expand policy.maxObservations with
      | ok values =>
          rw [result] at schedule
          cases schedule
      | error e =>
          rw [result] at schedule
          cases schedule

/-- Every schedule index has a control. -/
theorem indexed_of_expanded {values : List CanonicalValue}
    (expanded : freshControls delivery.profileBound = .ok (some values)) :
    0 < values.length ∧ slotBound delivery.profileBound (some values) = values.length := by
  have kind := freshControls_ok expanded
  match delivery with
  | none => exact absurd kind.1 (by simp)
  | some (policy, .buffered binding) => exact absurd kind.1 (by simp)
  | some (policy, .streaming binding) => exact absurd kind.1 (by simp)
  | some (policy, .fresh binding) =>
      obtain ⟨_, schedule, same⟩ := kind
      cases same
      exact ⟨(ControlSchedule.expand_length schedule).2.1, rfl⟩

/-- The step over the observation slots is positive. -/
theorem stepping_of_expanded (valid : delivery.Valid) {controls : Option (List CanonicalValue)}
    (expanded : freshControls delivery.profileBound = .ok controls) :
    (if controls.isSome then 1 else slotBound delivery.profileBound controls) ≠ 0 := by
  have kind := freshControls_ok expanded
  match delivery with
  | none =>
      obtain ⟨rfl, bound⟩ := kind
      simp [bound]
  | some (policy, .buffered binding) =>
      obtain ⟨rfl, bound⟩ := kind
      simpa [bound] using (maxObservations_positive valid.1).ne'
  | some (policy, .streaming binding) =>
      obtain ⟨rfl, bound⟩ := kind
      simpa [bound] using (maxObservations_positive valid.1).ne'
  | some (policy, .fresh binding) =>
      obtain ⟨_, -, rfl⟩ := kind
      simp

theorem identify_panics {T : Type} {kind : IdentityKind} [IdentityRecord T kind] {record : T}
    {message : String} : identify hashes record ≠ .error (.panicked message) := by
  intro failed
  obtain ⟨violation, -, impossible⟩ := error_mapError.mp failed
  cases impossible

/-- Planning reaches every index it computes. -/
theorem planSpecification_panics (valid : delivery.Valid) (message : String) :
    planSpecification hashes experiment candidate datasetConfiguration problemConfiguration
      implementationRepetition warmupRuns schedulingSeed delivery.profileBound ≠
        .error (.panicked message) := by
  intro failed
  rcases error_bind.mp failed with derive | ⟨seed, -, failed⟩
  · obtain ⟨violation, -, impossible⟩ := error_mapError.mp derive
    cases impossible
  rcases error_bind.mp failed with identity | ⟨specification, -, failed⟩
  · exact identify_panics identity
  rcases error_bind.mp failed with schedule | ⟨controls, expanded, failed⟩
  · exact freshControls_panics message schedule
  rcases error_bind.mp failed with count | ⟨-, -, failed⟩
  · have impossible := (error_reject.mp count).2
    cases impossible
  rcases error_bind.mp failed with slots | ⟨observations, -, failed⟩
  · obtain ⟨index, -, slot⟩ := error_traverseAll slots
    rcases error_bind.mp slot with read | ⟨record, -, identity⟩
    · cases controls with
      | none => cases read
      | some values =>
          obtain ⟨positive, bound⟩ := indexed_of_expanded expanded
          rcases error_bind.mp read with missing | ⟨control, -, impossible⟩
          · have absent := (error_expect.mp missing).1
            rw [bound, List.getElem?_eq_none_iff] at absent
            exact absurd (Nat.mod_lt index positive) (not_lt.mpr absent)
          · cases impossible
    · exact identify_panics identity
  rcases error_bind.mp failed with warmups | ⟨warm, -, failed⟩
  · obtain ⟨index, -, identity⟩ := error_traverseAll warmups
    exact identify_panics identity
  rcases error_bind.mp failed with step | ⟨-, -, failed⟩
  · exact stepping_of_expanded valid expanded (error_reject.mp step).1
  rcases error_bind.mp failed with measured | ⟨slots, -, impossible⟩
  · obtain ⟨slot, -, identity⟩ := error_traverseAll measured
    exact identify_panics identity
  · cases impossible

/-- A planned specification has the layout of its delivery. -/
theorem layout_of_planned {specification : OneShotSpecificationPlan}
    (result : planSpecification hashes experiment candidate datasetConfiguration
      problemConfiguration implementationRepetition warmupRuns schedulingSeed
      delivery.profileBound = .ok specification)
    (separates : Separates hashes.identity specification) :
    SlotLayout experiment.measurementRepetitions warmupRuns delivery specification := by
  obtain ⟨controls, expanded, -, planned⟩ := planSpecification_ok result
  have kind := freshControls_ok expanded
  match delivery with
  | none =>
      obtain ⟨rfl, bound⟩ := kind
      rw [bound] at planned
      exact planned.trajectoryLayout separates rfl rfl
  | some (policy, .buffered binding) =>
      obtain ⟨rfl, bound⟩ := kind
      rw [bound] at planned
      exact planned.trajectoryLayout separates rfl rfl
  | some (policy, .streaming binding) =>
      obtain ⟨rfl, bound⟩ := kind
      rw [bound] at planned
      exact planned.trajectoryLayout separates rfl rfl
  | some (policy, .fresh binding) =>
      obtain ⟨values, schedule, rfl⟩ := kind
      exact ⟨values, schedule, planned.freshLayout separates
        (ControlSchedule.expand_length schedule).2.1 rfl⟩

end Deliveries

/-- Slots partition into trajectories: planning, chunking and filtering agree. -/
theorem slots_partition (hashes : Hashes) (experiment : ExperimentDefinition)
    (candidate : RecordId .logicalCandidate) (datasetConfiguration : RecordId .datasetConfiguration)
    (problemConfiguration : RecordId .problemConfiguration)
    (implementationRepetition warmupRuns : Nat) (schedulingSeed : DerivedSeedRecord)
    (delivery : Delivery) (valid : delivery.Valid) (policyName : String)
    (definition : ObservationPolicyDefinition) (record : ObservationPolicyRecord)
    (common : definition.profile.map (·.policy) = delivery.map Prod.fst)
    (recorded : observationPolicyRecord policyName definition = .ok record) :
    (∀ message, planSpecification hashes experiment candidate datasetConfiguration
      problemConfiguration implementationRepetition warmupRuns schedulingSeed
      delivery.profileBound ≠ .error (.panicked message)) ∧
    (delivery.isFresh = false → preselectBound record = delivery.bound) ∧
    ∀ specification, planSpecification hashes experiment candidate datasetConfiguration
        problemConfiguration implementationRepetition warmupRuns schedulingSeed
        delivery.profileBound = .ok specification →
      Separates hashes.identity specification →
        SlotLayout experiment.measurementRepetitions warmupRuns delivery specification := by
  exact ⟨planSpecification_panics valid, preselectBound_eq common recorded,
    fun specification result separates => layout_of_planned result separates⟩

/-! A study with two repetitions of a streaming trajectory of two checkpoints. -/

section Study

/-- Hashes that read an index or a role off the identity value. -/
def studyHashes : Hashes where
  identity kind value :=
    match kind with
    | .logicalObservationSlot =>
        .fill (.ofNat ((asU64? (value.get "measurement_index")).getD 0))
    | .logicalAttemptSlot =>
        .fill
          (if (value.get "role").get "kind" = .str "warmup" then 0
            else if (value.get "role").get "observation_slot" =
                .str (⟨.fill 0⟩ : RecordId .logicalObservationSlot).text then 1
            else 2)
    | _ => .fill 0
  seed _ _ := .fill 0
  transcript _ := .fill 0

def studyExperiment : ExperimentDefinition where
  name := "study"
  problem := "problem"
  datasets := []
  implementations := ["worker"]
  executionPolicy := "@local"
  observationPolicy := "curve"
  implementationRepetitions := 1
  measurementRepetitions := 2
  seed := 7
  datasetParameters := ∅
  problemParameters := ∅
  implementationParameters := ∅
  cases := []

def studyPolicy : ProfilePolicy where
  metric := none
  direction := none
  threshold := none
  recordThresholds := []
  maxObservations := 2
  maxCheckpointBytes := 1024
  maxTracePoints := 2
  maxBufferBytes := 4096
  terminalReserveBytes := 1024
  maxActiveTime := "1s"

def studyBinding : ProfileBinding := .streaming ⟨.periodic 1 0⟩

def studyDefinition : ObservationPolicyDefinition where
  kind := .profile
  profile := some ⟨studyPolicy, OrderedMap.empty.insert "worker" studyBinding⟩

def studyDelivery : Delivery := some (studyPolicy, studyBinding)

theorem slots_partition_study :
    ∃ specification record,
      planSpecification studyHashes studyExperiment ⟨.fill 0⟩ ⟨.fill 0⟩ ⟨.fill 0⟩ 0 1
          ⟨0, .fill 0⟩ studyDelivery.profileBound = .ok specification ∧
        observationPolicyRecord "curve" studyDefinition = .ok record ∧
        preselectBound record = 2 ∧
        SlotLayout 2 1 studyDelivery specification := by
  have facts :
      (match planSpecification studyHashes studyExperiment ⟨.fill 0⟩ ⟨.fill 0⟩ ⟨.fill 0⟩ 0 1
            ⟨0, .fill 0⟩ studyDelivery.profileBound with
        | .ok specification => decide (Separates studyHashes.identity specification)
        | .error _ => false) = true ∧
      (observationPolicyRecord "curve" studyDefinition).toBool = true ∧
      (studyPolicy.validate.toBool && (studyBinding.validate studyPolicy).toBool) = true := by
    decide +kernel
  obtain ⟨separate, recorded, valid⟩ := facts
  rw [Bool.and_eq_true] at valid
  cases planned : planSpecification studyHashes studyExperiment ⟨.fill 0⟩ ⟨.fill 0⟩ ⟨.fill 0⟩ 0 1
      ⟨0, .fill 0⟩ studyDelivery.profileBound with
  | error e =>
      rw [planned] at separate
      cases separate
  | ok specification =>
      rw [planned] at separate
      cases result : observationPolicyRecord "curve" studyDefinition with
      | error e =>
          rw [result] at recorded
          cases recorded
      | ok record =>
          obtain ⟨-, bound, layout⟩ := slots_partition studyHashes studyExperiment ⟨.fill 0⟩
            ⟨.fill 0⟩ ⟨.fill 0⟩ 0 1 ⟨0, .fill 0⟩ studyDelivery
            ⟨ok_of_toBool valid.1, ok_of_toBool valid.2⟩ "curve" studyDefinition record rfl result
          exact ⟨specification, record, rfl, rfl, bound rfl,
            layout specification planned (of_decide_eq_true separate)⟩

end Study

end Metewand.Planning
