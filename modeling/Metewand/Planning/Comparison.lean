import Metewand.Planning.Slots

/-!
# Comparison blocks

Measured slots of one measurement repetition are to be compared, and so to be scheduled,
together.  The resolver takes the block's repetition from the anchor's measurement index
and divides by the bound only for streaming bindings; for a buffered binding the index
counts observation slots.  `blocks_shared_iff` states exactly when every block names its
repetition.

Randomized dispatch puts equal blocks next to each other whatever they are
(`scheduleSlots_contiguous`).
-/

namespace Metewand.Planning

open Lib Lib.Check

/-! ## Dispatch order -/

/-- Lists of one length decide the order of whatever extends them. -/
theorem append_lt {a b x y : List Nat} (length : a.length = b.length) (lt : a < b) :
    a ++ x < b ++ y := by
  induction a generalizing b with
  | nil =>
      cases b with
      | nil => exact absurd lt (lt_irrefl _)
      | cons _ _ => cases length
  | cons m a ih =>
      cases b with
      | nil => cases length
      | cons n b =>
          rw [List.cons_append, List.cons_append, List.cons_lt_cons_iff]
          rw [List.cons_lt_cons_iff] at lt
          exact lt.imp_right fun same => ⟨same.1, ih (Nat.succ.inj length) same.2⟩

theorem append_le {a b x y : List Nat} (length : a.length = b.length) (le : a ++ x ≤ b ++ y) :
    a ≤ b :=
  not_lt.mp fun after => not_lt.mpr le (append_lt length.symm after)

theorem Digest.key_length (digest : Digest) : (Digest.key digest).length = 32 := by
  rw [Digest.key, List.length_map, digest.size]

theorem Digest.key_injective {a b : Digest} (same : Digest.key a = Digest.key b) : a = b := by
  obtain ⟨bytes, size⟩ := a
  obtain ⟨bytes', size'⟩ := b
  have injective : Function.Injective UInt8.toNat := fun x y h => UInt8.toNat_inj.mp h
  cases injective.list_map same
  rfl

theorem ComparisonBlock.key_length (block : ComparisonBlock) : block.key.length = 66 := by
  simp [ComparisonBlock.key, Digest.key_length]

theorem ComparisonBlock.key_injective {a b : ComparisonBlock} (same : a.key = b.key) : a = b := by
  obtain ⟨⟨dataset⟩, ⟨problem⟩, repetition, index⟩ := a
  obtain ⟨⟨dataset'⟩, ⟨problem'⟩, repetition', index'⟩ := b
  simp only [ComparisonBlock.key] at same
  obtain ⟨digests, numbers⟩ := List.append_inj same (by simp [Digest.key_length])
  obtain ⟨first, second⟩ := List.append_inj digests (by simp [Digest.key_length])
  cases Digest.key_injective first
  cases Digest.key_injective second
  cases numbers
  rfl

/-- The part of a sort key that its block decides. -/
def blockKey (hashes : Hashes) (schedulingSeed : DerivedSeedRecord) (block : ComparisonBlock) :
    List Nat :=
  Digest.key (deriveBlockSchedulingPriority hashes schedulingSeed block) ++ block.key

theorem blockKey_length (hashes : Hashes) (schedulingSeed : DerivedSeedRecord)
    (block : ComparisonBlock) : (blockKey hashes schedulingSeed block).length = 98 := by
  simp [blockKey, Digest.key_length, ComparisonBlock.key_length]

theorem blockKey_injective {hashes : Hashes} {schedulingSeed : DerivedSeedRecord}
    {a b : ComparisonBlock}
    (same : blockKey hashes schedulingSeed a = blockKey hashes schedulingSeed b) : a = b :=
  ComparisonBlock.key_injective (List.append_inj same (by simp [Digest.key_length])).2

theorem blockKey_le {hashes : Hashes} {schedulingSeed : DerivedSeedRecord} {a b : SchedulingSlot}
    (le : a.key hashes schedulingSeed ≤ b.key hashes schedulingSeed) :
    blockKey hashes schedulingSeed a.comparisonBlock ≤
      blockKey hashes schedulingSeed b.comparisonBlock := by
  have split : ∀ slot : SchedulingSlot, slot.key hashes schedulingSeed =
      blockKey hashes schedulingSeed slot.comparisonBlock ++
        ([slot.observationRound] ++ Digest.key slot.schedulingPriority ++
          Digest.key slot.logicalSlot.digest) := by
    intro slot
    simp only [SchedulingSlot.key, blockKey, List.append_assoc]
  rw [split a, split b] at le
  exact append_le (by simp [blockKey_length]) le

/-- The slots in dispatch order. -/
def dispatched (hashes : Hashes) (schedulingSeed : DerivedSeedRecord)
    (slots : List SchedulingSlot) : List (SchedulingSlot × Nat) :=
  slots.zipIdx.mergeSort fun a b =>
    decide (a.1.key hashes schedulingSeed ≤ b.1.key hashes schedulingSeed)

theorem dispatched_sorted (hashes : Hashes) (schedulingSeed : DerivedSeedRecord)
    (slots : List SchedulingSlot) :
    (dispatched hashes schedulingSeed slots).Pairwise fun a b =>
      a.1.key hashes schedulingSeed ≤ b.1.key hashes schedulingSeed := by
  have sorted : (dispatched hashes schedulingSeed slots).Pairwise fun a b =>
      decide (a.1.key hashes schedulingSeed ≤ b.1.key hashes schedulingSeed) :=
    List.pairwise_mergeSort (fun a b c => by simpa using le_trans)
      (fun a b => by simpa using le_total _ _) slots.zipIdx
  exact sorted.imp fun le => by simpa using le

/-- A dispatched position holds the slot it names. -/
theorem dispatched_getElem? {hashes : Hashes} {schedulingSeed : DerivedSeedRecord}
    {slots : List SchedulingSlot} {entry : SchedulingSlot × Nat}
    (member : entry ∈ dispatched hashes schedulingSeed slots) :
    slots[entry.2]? = some entry.1 := by
  have inside := (List.mergeSort_perm _ _).mem_iff.mp member
  exact List.mem_zipIdx_iff_getElem?.mp inside

/-- In randomized order the slots of one block are next to each other. -/
theorem scheduleSlots_contiguous {hashes : Hashes} {schedulingSeed : DerivedSeedRecord}
    {slots : List SchedulingSlot} {p q r : Nat} (left : p < q) (right : q < r)
    {i j k : Nat} {a b c : SchedulingSlot}
    (first : (scheduleSlots hashes .randomized schedulingSeed slots)[p]? = some i)
    (second : (scheduleSlots hashes .randomized schedulingSeed slots)[q]? = some j)
    (third : (scheduleSlots hashes .randomized schedulingSeed slots)[r]? = some k)
    (atI : slots[i]? = some a) (atJ : slots[j]? = some b) (atK : slots[k]? = some c)
    (same : a.comparisonBlock = c.comparisonBlock) :
    b.comparisonBlock = a.comparisonBlock := by
  have entry : ∀ {p i : Nat} {a : SchedulingSlot},
      (scheduleSlots hashes .randomized schedulingSeed slots)[p]? = some i → slots[i]? = some a →
        (dispatched hashes schedulingSeed slots)[p]? = some (a, i) := by
    intro p i a position at_
    obtain ⟨⟨slot, _⟩, found, rfl⟩ :=
      Option.map_eq_some_iff.mp (List.getElem?_map.symm.trans position)
    have held := dispatched_getElem? (List.mem_of_getElem? found)
    cases held.symm.trans at_
    exact found
  have sorted := dispatched_sorted hashes schedulingSeed slots
  have before := entry first atI
  have middle := entry second atJ
  have after := entry third atK
  obtain ⟨_, before⟩ := List.getElem?_eq_some_iff.mp before
  obtain ⟨_, middle⟩ := List.getElem?_eq_some_iff.mp middle
  obtain ⟨_, after⟩ := List.getElem?_eq_some_iff.mp after
  have lower := List.pairwise_iff_getElem.mp sorted p q ‹_› ‹_› left
  have upper := List.pairwise_iff_getElem.mp sorted q r ‹_› ‹_› right
  rw [before, middle] at lower
  rw [middle, after] at upper
  have below := blockKey_le lower
  have above := blockKey_le upper
  rw [← same] at above
  exact blockKey_injective (le_antisymm above below)

/-! ## Resolved measurements -/

namespace Delivery

def isBuffered : Delivery → Bool
  | some (_, .buffered _) => true
  | _ => false

/-- The number of measured slots of one repetition. -/
def points : Delivery → Nat
  | some (_, .fresh binding) => binding.schedule.len
  | _ => 1

end Delivery

def AttemptSlotRole.observation? : AttemptSlotRole → Option (RecordId .logicalObservationSlot)
  | .warmup _ => none
  | .measured observation => some observation

section Resolved

variable {hashes : Hashes} {delivery : Delivery} {datasetInstance : RecordId .datasetInstance}
  {problemConfiguration : RecordId .problemConfiguration} {candidate : RecordId .logicalCandidate}
  {applicability : String} {resolved : RecordId .resolvedSpecification}
  {specification : OneShotSpecificationPlan} {measurements : List ResolvedMeasurement}

/-- What a measurement takes over from its attempt slot and its anchor. -/
structure ResolvedFrom (hashes : Hashes) (delivery : Delivery)
    (datasetInstance : RecordId .datasetInstance)
    (problemConfiguration : RecordId .problemConfiguration)
    (resolved : RecordId .resolvedSpecification) (specification : OneShotSpecificationPlan)
    (slot : AttemptSlot) (anchor : ObservationSlot) (measurement : ResolvedMeasurement) : Prop where
  fresh : measurement.fresh = anchor.record.fresh
  specificationId : measurement.specification = resolved
  scheduling : measurement.scheduling =
    schedulingSlot delivery datasetInstance problemConfiguration specification slot anchor
  logicalSlot : measurement.logicalSlot = slot.id
  attemptSlot : identify hashes { logicalSlot := slot.id, specification := resolved :
    ResolvedAttemptSlotRecord } = .ok measurement.attemptSlot

theorem resolveSpecification_ok
    (result : resolveSpecification hashes delivery datasetInstance problemConfiguration candidate
      applicability resolved specification = .ok measurements) :
    List.Forall₂
      (fun slot measurement => ∃ anchor, findAnchor specification slot.2 = some anchor ∧
        ResolvedFrom hashes delivery datasetInstance problemConfiguration resolved specification
          slot.1 anchor measurement)
      (measuredSlots specification) measurements := by
  simp only [resolveSpecification, ok_bind, ok_traverseAll] at result
  obtain ⟨warmups, -, each⟩ := result
  refine each.imp fun slot measurement resolves => ?_
  simp only [resolveMeasurement, ok_bind, ok_expect, ok_pure] at resolves
  obtain ⟨anchor, found, attempt, identified, observation, -, group, -, rfl⟩ := resolves
  exact ⟨anchor, found, rfl, rfl, rfl, rfl, identified⟩

theorem measuredSlots_snd (specification : OneShotSpecificationPlan) :
    (measuredSlots specification).map Prod.snd =
      (specification.attemptSlots.map (·.record.role)).filterMap AttemptSlotRole.observation? := by
  rw [measuredSlots, List.map_filterMap, List.filterMap_map]
  refine List.filterMap_congr fun slot _ => ?_
  cases role : slot.record.role with
  | warmup index => simp [AttemptSlotRole.observation?, role]
  | measured observation => simp [AttemptSlotRole.observation?, role]

/-- Slots that name the anchors in order hand their measurements to them. -/
theorem forall₂_anchors {R : AttemptSlot → ObservationSlot → ResolvedMeasurement → Prop}
    {slots : List (AttemptSlot × RecordId .logicalObservationSlot)}
    {anchors : List ObservationSlot}
    (named : slots.map Prod.snd = anchors.map (·.id))
    (anchored : ∀ anchor ∈ anchors, findAnchor specification anchor.id = some anchor)
    (each : List.Forall₂
      (fun slot measurement => ∃ anchor, findAnchor specification slot.2 = some anchor ∧
        R slot.1 anchor measurement) slots measurements) :
    List.Forall₂ (fun anchor measurement => ∃ slot ∈ slots.map Prod.fst,
      R slot anchor measurement) anchors measurements := by
  induction each generalizing anchors with
  | nil =>
      cases anchors with
      | nil => exact .nil
      | cons _ _ => cases named
  | cons head tail ih =>
      cases anchors with
      | nil => cases named
      | cons anchor rest =>
          obtain ⟨same, others⟩ := List.cons.inj named
          obtain ⟨found, at_, resolved⟩ := head
          rw [same, anchored anchor List.mem_cons_self] at at_
          cases at_
          refine .cons ⟨_, List.mem_cons_self, resolved⟩ ?_
          refine (ih others fun a member => anchored a (List.mem_cons_of_mem _ member)).imp ?_
          rintro a m ⟨slot, member, related⟩
          exact ⟨slot, List.mem_cons_of_mem _ member, related⟩

/-- Measurements stand in the order of the anchors that the attempt slots name. -/
theorem anchored_measurements {warmups : Nat} {anchors : List ObservationSlot}
    (roles : specification.attemptSlots.map (·.record.role) =
      (List.range warmups).map .warmup ++ anchors.map fun slot => .measured slot.id)
    (anchored : ∀ anchor ∈ anchors, findAnchor specification anchor.id = some anchor)
    (result : resolveSpecification hashes delivery datasetInstance problemConfiguration candidate
      applicability resolved specification = .ok measurements) :
    List.Forall₂
      (fun anchor measurement => ∃ slot ∈ specification.attemptSlots,
        ResolvedFrom hashes delivery datasetInstance problemConfiguration resolved specification
          slot anchor measurement) anchors measurements := by
  have named : (measuredSlots specification).map Prod.snd = anchors.map (·.id) := by
    rw [measuredSlots_snd, roles, List.filterMap_append]
    have warm : ((List.range warmups).map AttemptSlotRole.warmup).filterMap
        AttemptSlotRole.observation? = [] := by
      refine List.filterMap_eq_nil_iff.mpr fun role member => ?_
      obtain ⟨_, -, rfl⟩ := List.mem_map.mp member
      rfl
    rw [warm, List.nil_append, List.filterMap_map]
    exact filterMap_eq_map fun slot _ => rfl
  have measured : ∀ slot ∈ measuredSlots specification, slot.1 ∈ specification.attemptSlots := by
    intro slot member
    obtain ⟨attempt, inside, found⟩ := List.mem_filterMap.mp member
    cases role : attempt.record.role with
    | warmup index => simp [role] at found
    | measured observation =>
        simp only [role, Option.some.injEq] at found
        rw [← found]
        exact inside
  refine (forall₂_anchors named anchored (resolveSpecification_ok result)).imp ?_
  rintro anchor measurement ⟨slot, member, resolved⟩
  obtain ⟨pair, inside, rfl⟩ := List.mem_map.mp member
  exact ⟨pair.1, measured pair inside, resolved⟩

/-- The anchors of a layout, in the order of their attempt slots. -/
def anchorsOf (repetitions : Nat) (delivery : Delivery) (specification : OneShotSpecificationPlan) :
    List ObservationSlot :=
  if delivery.isFresh then specification.observationSlots
  else (List.range repetitions).map fun k => slotAt specification (k * delivery.bound)

theorem SlotLayout.anchors {repetitions warmups : Nat}
    (layout : SlotLayout repetitions warmups delivery specification) :
    specification.attemptSlots.map (·.record.role) = (List.range warmups).map .warmup ++
        (anchorsOf repetitions delivery specification).map (fun slot => .measured slot.id) ∧
      ∀ anchor ∈ anchorsOf repetitions delivery specification,
        findAnchor specification anchor.id = some anchor := by
  have plain : ∀ {delivery : Delivery}, delivery.isFresh = false →
      TrajectoryLayout repetitions warmups delivery.bound delivery specification →
      specification.attemptSlots.map (·.record.role) = (List.range warmups).map .warmup ++
          (anchorsOf repetitions delivery specification).map (fun slot => .measured slot.id) ∧
        ∀ anchor ∈ anchorsOf repetitions delivery specification,
          findAnchor specification anchor.id = some anchor := by
    intro delivery plain layout
    simp only [anchorsOf, plain, Bool.false_eq_true, if_false]
    refine ⟨?_, ?_⟩
    · rw [layout.attempts, List.map_map]
      rfl
    · intro anchor member
      obtain ⟨k, group, rfl⟩ := List.mem_map.mp member
      exact layout.anchored k (List.mem_range.mp group)
  match delivery with
  | none => exact plain rfl layout
  | some (policy, .buffered binding) => exact plain rfl layout
  | some (policy, .streaming binding) => exact plain rfl layout
  | some (policy, .fresh binding) =>
      obtain ⟨controls, -, layout⟩ := layout
      exact ⟨layout.attempts, layout.anchored⟩

/-- The measurement index that a block is given at each anchor. -/
theorem SlotLayout.blockIndices {repetitions warmups : Nat}
    (layout : SlotLayout repetitions warmups delivery specification) :
    (anchorsOf repetitions delivery specification).map
        (fun anchor => delivery.measurementIndex anchor.record.measurementIndex) =
      (List.range (repetitions * delivery.points)).map fun j =>
        if delivery.isBuffered then j * delivery.bound else j / delivery.points := by
  have index : ∀ (delivery : Delivery) {k : Nat}, k < repetitions →
      TrajectoryLayout repetitions warmups delivery.bound delivery specification →
      (slotAt specification (k * delivery.bound)).record.measurementIndex = k * delivery.bound := by
    intro delivery k group layout
    have inside : k * delivery.bound < repetitions * delivery.bound :=
      mul_add_lt (j := 0) group layout.positive
    exact congrArg (·.measurementIndex) (layout.record _ inside)
  match delivery with
  | none =>
      simp only [anchorsOf, Delivery.isFresh, Delivery.isBuffered, Delivery.points, List.map_map,
        Nat.mul_one, Nat.div_one, Bool.false_eq_true, if_false]
      refine List.map_congr_left fun k member => ?_
      exact (index none (List.mem_range.mp member) layout).trans (Nat.mul_one k)
  | some (policy, .buffered binding) =>
      simp only [anchorsOf, Delivery.isFresh, Delivery.isBuffered, Delivery.points, List.map_map,
        Nat.mul_one, Bool.false_eq_true, if_false, if_true]
      refine List.map_congr_left fun k member => ?_
      exact index (some (policy, .buffered binding)) (List.mem_range.mp member) layout
  | some (policy, .streaming binding) =>
      simp only [anchorsOf, Delivery.isFresh, Delivery.isBuffered, Delivery.points, List.map_map,
        Nat.mul_one, Nat.div_one, Bool.false_eq_true, if_false]
      refine List.map_congr_left fun k member => ?_
      have at_ := index (some (policy, .streaming binding)) (List.mem_range.mp member)
        layout
      simp only [Function.comp_apply, at_]
      exact Nat.mul_div_cancel k layout.positive
  | some (policy, .fresh binding) =>
      obtain ⟨controls, expanded, layout⟩ := layout
      have length := (ControlSchedule.expand_length expanded).1
      have firsts := congrArg (List.map Prod.fst) layout.coordinates
      simp only [List.map_map, List.map_flatMap] at firsts
      simp only [anchorsOf, Delivery.isFresh, Delivery.isBuffered, Delivery.points, if_true,
        Bool.false_eq_true, if_false, Delivery.measurementIndex, ← length]
      have quotients := congrArg (List.map Prod.fst)
        (map_divMod (m := repetitions) layout.positive)
      simp only [List.map_map, List.map_flatMap] at quotients
      exact firsts.trans quotients.symm

/-- Every block, in the order of the measurements. -/
theorem SlotLayout.blocks {repetitions warmups : Nat}
    (layout : SlotLayout repetitions warmups delivery specification)
    (result : resolveSpecification hashes delivery datasetInstance problemConfiguration candidate
      applicability resolved specification = .ok measurements) :
    measurements.map (·.scheduling.comparisonBlock) =
      (List.range (repetitions * delivery.points)).map fun j =>
        { datasetInstance, problemConfiguration
          implementationRepetition := specification.specification.record.implementationRepetition
          measurementIndex :=
            if delivery.isBuffered then j * delivery.bound else j / delivery.points } := by
  obtain ⟨roles, found⟩ := layout.anchors
  have each := anchored_measurements roles found result
  have blocks : measurements.map (·.scheduling.comparisonBlock) =
      (anchorsOf repetitions delivery specification).map fun anchor =>
        { datasetInstance, problemConfiguration
          implementationRepetition := specification.specification.record.implementationRepetition
          measurementIndex := delivery.measurementIndex anchor.record.measurementIndex } := by
    clear roles found result
    generalize anchorsOf repetitions delivery specification = anchors at each ⊢
    induction each with
    | nil => rfl
    | cons head _ ih =>
        obtain ⟨slot, -, resolved⟩ := head
        rw [List.map_cons, List.map_cons, ih, resolved.scheduling]
        rfl
  rw [blocks]
  have indices := congrArg (List.map fun index : Nat =>
    ({ datasetInstance, problemConfiguration
       implementationRepetition := specification.specification.record.implementationRepetition
       measurementIndex := index } : ComparisonBlock)) layout.blockIndices
  rw [List.map_map, List.map_map] at indices
  exact indices

end Resolved

/-! ## Sharing blocks -/

/-- One implementation's specification with its measured slots. -/
structure Member where
  delivery : Delivery
  specification : OneShotSpecificationPlan
  measurements : List ResolvedMeasurement

/-- The measurement repetition of a measured slot. -/
def Member.repetition (member : Member) (j : Nat) : Nat := j / member.delivery.points

section Sharing

variable (hashes : Hashes) (experiment : ExperimentDefinition) (policy : Option ProfilePolicy)
  (datasetConfiguration : RecordId .datasetConfiguration)
  (problemConfiguration : RecordId .problemConfiguration)
  (datasetInstance : RecordId .datasetInstance) (implementationRepetition warmupRuns : Nat)
  (schedulingSeed : DerivedSeedRecord)

/-- The member was planned and resolved for the common experiment and inputs. -/
structure Belongs (member : Member) : Prop where
  valid : member.delivery.Valid
  common : member.delivery.map Prod.fst = policy
  planned : ∃ candidate, planSpecification hashes experiment candidate datasetConfiguration
    problemConfiguration implementationRepetition warmupRuns schedulingSeed
    member.delivery.profileBound = .ok member.specification
  resolved : ∃ candidate applicability resolved, resolveSpecification hashes member.delivery
    datasetInstance problemConfiguration candidate applicability resolved member.specification =
      .ok member.measurements
  separates : Separates hashes.identity member.specification

/-- Measured slots of one repetition share a block, which names the repetition. -/
structure SharesBlocks (members : List Member) : Prop where
  index : ∀ a ∈ members, ∀ i m, a.measurements[i]? = some m →
    m.scheduling.comparisonBlock.measurementIndex = a.repetition i
  shared : ∀ a ∈ members, ∀ b ∈ members, ∀ i j m m', a.measurements[i]? = some m →
    b.measurements[j]? = some m' → a.repetition i = b.repetition j →
      m.scheduling.comparisonBlock = m'.scheduling.comparisonBlock
  /-- In randomized order nothing else comes between them. -/
  contiguous : ∀ a ∈ members, ∀ b ∈ members, ∀ i j m m', a.measurements[i]? = some m →
    b.measurements[j]? = some m' → a.repetition i = b.repetition j →
      ∀ (slots : List SchedulingSlot) (p q r x y z : Nat) (slot : SchedulingSlot), p < q → q < r →
        (scheduleSlots hashes .randomized schedulingSeed slots)[p]? = some x →
        (scheduleSlots hashes .randomized schedulingSeed slots)[q]? = some y →
        (scheduleSlots hashes .randomized schedulingSeed slots)[r]? = some z →
        slots[x]? = some m.scheduling → slots[y]? = some slot → slots[z]? = some m'.scheduling →
          slot.comparisonBlock = m.scheduling.comparisonBlock

end Sharing

section Sharing

variable {hashes : Hashes} {experiment : ExperimentDefinition} {policy : Option ProfilePolicy}
  {datasetConfiguration : RecordId .datasetConfiguration}
  {problemConfiguration : RecordId .problemConfiguration}
  {datasetInstance : RecordId .datasetInstance} {implementationRepetition warmupRuns : Nat}
  {schedulingSeed : DerivedSeedRecord}

theorem Belongs.layout {member : Member}
    (belongs : Belongs hashes experiment policy datasetConfiguration problemConfiguration
      datasetInstance implementationRepetition warmupRuns schedulingSeed member) :
    SlotLayout experiment.measurementRepetitions warmupRuns member.delivery
        member.specification ∧
      member.specification.specification.record.implementationRepetition =
        implementationRepetition := by
  obtain ⟨candidate, planned⟩ := belongs.planned
  obtain ⟨controls, -, repetition, -⟩ := planSpecification_ok planned
  exact ⟨layout_of_planned planned belongs.separates, repetition⟩

theorem Belongs.blocks {member : Member}
    (belongs : Belongs hashes experiment policy datasetConfiguration problemConfiguration
      datasetInstance implementationRepetition warmupRuns schedulingSeed member) :
    member.measurements.map (·.scheduling.comparisonBlock) =
      (List.range (experiment.measurementRepetitions * member.delivery.points)).map fun j =>
        { datasetInstance, problemConfiguration, implementationRepetition
          measurementIndex :=
            if member.delivery.isBuffered then j * member.delivery.bound
            else j / member.delivery.points } := by
  obtain ⟨layout, repetition⟩ := belongs.layout
  obtain ⟨_, _, _, result⟩ := belongs.resolved
  have blocks := layout.blocks result
  rw [repetition] at blocks
  exact blocks

theorem Belongs.block {member : Member}
    (belongs : Belongs hashes experiment policy datasetConfiguration problemConfiguration
      datasetInstance implementationRepetition warmupRuns schedulingSeed member)
    {j : Nat} {m : ResolvedMeasurement} (at_ : member.measurements[j]? = some m) :
    j < experiment.measurementRepetitions * member.delivery.points ∧
      m.scheduling.comparisonBlock =
        { datasetInstance, problemConfiguration, implementationRepetition
          measurementIndex :=
            if member.delivery.isBuffered then j * member.delivery.bound
            else j / member.delivery.points } := by
  have mapped := congrArg (·[j]?) belongs.blocks
  simp only [List.getElem?_map, at_, Option.map_some] at mapped
  obtain ⟨_, found, same⟩ := Option.map_eq_some_iff.mp mapped.symm
  obtain ⟨inside, rfl⟩ := List.getElem?_eq_some_iff.mp found
  simp only [List.length_range] at inside
  simp only [List.getElem_range] at same
  exact ⟨inside, same.symm⟩

theorem Belongs.exists_measurement {member : Member}
    (belongs : Belongs hashes experiment policy datasetConfiguration problemConfiguration
      datasetInstance implementationRepetition warmupRuns schedulingSeed member)
    {j : Nat} (inside : j < experiment.measurementRepetitions * member.delivery.points) :
    ∃ m, member.measurements[j]? = some m := by
  have length := congrArg List.length belongs.blocks
  rw [List.length_map, List.length_map, List.length_range] at length
  exact ⟨_, List.getElem?_eq_getElem (length ▸ inside)⟩

end Sharing

/-- Comparable slots share a block that names their repetition exactly when no buffered
member has more than one observation in more than one repetition. -/
theorem blocks_shared_iff (hashes : Hashes) (experiment : ExperimentDefinition)
    (policy : Option ProfilePolicy) (datasetConfiguration : RecordId .datasetConfiguration)
    (problemConfiguration : RecordId .problemConfiguration)
    (datasetInstance : RecordId .datasetInstance) (implementationRepetition warmupRuns : Nat)
    (schedulingSeed : DerivedSeedRecord) (members : List Member)
    (belongs : ∀ member ∈ members, Belongs hashes experiment policy datasetConfiguration
      problemConfiguration datasetInstance implementationRepetition warmupRuns schedulingSeed
      member) :
    SharesBlocks hashes schedulingSeed members ↔
      ∀ member ∈ members, member.delivery.isBuffered = true →
        member.delivery.bound = 1 ∨ experiment.measurementRepetitions ≤ 1 := by
  constructor
  · intro shares member inside buffered
    by_cases single : experiment.measurementRepetitions ≤ 1
    · exact .inr single
    · refine .inl ?_
      have points : member.delivery.points = 1 := by
        match member.delivery, buffered with
        | some (_, .buffered _), _ => rfl
      obtain ⟨m, at_⟩ := (belongs member inside).exists_measurement (j := 1) (by
        rw [points]
        omega)
      have named := shares.index member inside 1 m at_
      rw [((belongs member inside).block at_).2] at named
      simpa [buffered, Member.repetition, points] using named
  · intro condition
    have block : ∀ member ∈ members, ∀ (j : Nat) (m : ResolvedMeasurement),
        member.measurements[j]? = some m → m.scheduling.comparisonBlock =
          { datasetInstance, problemConfiguration, implementationRepetition
            measurementIndex := member.repetition j } := by
      intro member inside j m at_
      obtain ⟨small, same⟩ := (belongs member inside).block at_
      rw [same]
      by_cases buffered : member.delivery.isBuffered = true
      · have points : member.delivery.points = 1 := by
          match member.delivery, buffered with
          | some (_, .buffered _), _ => rfl
        rw [points, Nat.mul_one] at small
        rcases condition member inside buffered with bound | single
        · simp [buffered, bound, Member.repetition, points]
        · have first : j = 0 := by omega
          simp [first, Member.repetition]
      · simp [buffered, Member.repetition]
    have shared : ∀ a ∈ members, ∀ b ∈ members, ∀ i j m m', a.measurements[i]? = some m →
        b.measurements[j]? = some m' → a.repetition i = b.repetition j →
          m.scheduling.comparisonBlock = m'.scheduling.comparisonBlock := by
      intro a left b right i j m m' atI atJ same
      rw [block a left i m atI, block b right j m' atJ, same]
    refine ⟨?_, shared, ?_⟩
    · intro a inside i m at_
      rw [block a inside i m at_]
    · intro a left b right i j m m' atI atJ same slots p q r x y z slot before after first second
        third atX atY atZ
      exact scheduleSlots_contiguous before after first second third atX atY atZ
        (shared a left b right i j m m' atI atJ same)

/-! Two repetitions of two observations each, streamed by one member and buffered by another. -/

section Study

def bufferedBinding : ProfileBinding :=
  .buffered {
    instrumentedScope := "solve"
    instrumentationSchema := ⟨"instrumentation.schema.json", none⟩
    instrumentation := .obj []
    checkSchedule := .periodic 1 0 }

def bufferedDelivery : Delivery := some (studyPolicy, bufferedBinding)

/-- The measurements of the study under a delivery. -/
def studyMember (delivery : Delivery) : Except LogicalPlanningError Member := do
  let specification ← planSpecification studyHashes studyExperiment ⟨.fill 0⟩ ⟨.fill 0⟩ ⟨.fill 0⟩ 0
    1 ⟨0, .fill 0⟩ delivery.profileBound
  let measurements ← resolveSpecification studyHashes delivery ⟨.fill 0⟩ ⟨.fill 0⟩ ⟨.fill 0⟩ ""
    ⟨.fill 0⟩ specification
  return { delivery, specification, measurements }

theorem belongs_of_studyMember {delivery : Delivery} {member : Member}
    (result : studyMember delivery = .ok member) (valid : delivery.Valid)
    (common : delivery.map Prod.fst = some studyPolicy)
    (separates : Separates studyHashes.identity member.specification) :
    Belongs studyHashes studyExperiment (some studyPolicy) ⟨.fill 0⟩ ⟨.fill 0⟩ ⟨.fill 0⟩ 0 1
      ⟨0, .fill 0⟩ member := by
  simp only [studyMember, ok_bind, ok_pure] at result
  obtain ⟨specification, planned, measurements, resolved, rfl⟩ := result
  exact ⟨valid, common, ⟨_, planned⟩, ⟨_, _, _, resolved⟩, separates⟩

/-- The second repetition of the buffered member is filed under index two. -/
theorem blocks_differ_study : ∃ members,
    (∀ member ∈ members, Belongs studyHashes studyExperiment (some studyPolicy) ⟨.fill 0⟩
      ⟨.fill 0⟩ ⟨.fill 0⟩ 0 1 ⟨0, .fill 0⟩ member) ∧
    ¬SharesBlocks studyHashes ⟨0, .fill 0⟩ members := by
  have facts :
      (match studyMember studyDelivery with
        | .ok member => decide (Separates studyHashes.identity member.specification)
        | .error _ => false) = true ∧
      (match studyMember bufferedDelivery with
        | .ok member => decide (Separates studyHashes.identity member.specification) &&
            decide (member.delivery.points = 1) &&
            decide (member.measurements[1]?.map
              (·.scheduling.comparisonBlock.measurementIndex) = some 2)
        | .error _ => false) = true ∧
      (studyPolicy.validate.toBool && (studyBinding.validate studyPolicy).toBool &&
        (bufferedBinding.validate studyPolicy).toBool) = true := by
    decide +kernel
  obtain ⟨first, second, valid⟩ := facts
  simp only [Bool.and_eq_true] at valid
  cases streamed : studyMember studyDelivery with
  | error e =>
      rw [streamed] at first
      cases first
  | ok stream =>
      rw [streamed] at first
      cases buffered : studyMember bufferedDelivery with
      | error e =>
          rw [buffered] at second
          cases second
      | ok buffer =>
          rw [buffered] at second
          simp only [Bool.and_eq_true, decide_eq_true_eq] at first second
          obtain ⟨⟨separates, points⟩, index⟩ := second
          refine ⟨[stream, buffer], ?_, ?_⟩
          · refine List.forall_mem_cons.mpr ⟨?_, List.forall_mem_singleton.mpr ?_⟩
            · exact belongs_of_studyMember streamed
                ⟨ok_of_toBool valid.1.1, ok_of_toBool valid.1.2⟩ rfl first
            · exact belongs_of_studyMember buffered
                ⟨ok_of_toBool valid.1.1, ok_of_toBool valid.2⟩ rfl separates
          · intro shares
            obtain ⟨m, at_, named⟩ := Option.map_eq_some_iff.mp index
            have repeated := shares.index buffer (by simp) 1 m at_
            rw [named, Member.repetition, points] at repeated
            cases repeated

/-- Streaming members alone share their blocks. -/
theorem blocks_shared_study : ∃ member,
    member.delivery = studyDelivery ∧ member.measurements.length = 2 ∧
      SharesBlocks studyHashes ⟨0, .fill 0⟩ [member] := by
  have facts :
      (match studyMember studyDelivery with
        | .ok member => decide (Separates studyHashes.identity member.specification) &&
            decide (member.measurements.length = 2)
        | .error _ => false) = true ∧
      (studyPolicy.validate.toBool && (studyBinding.validate studyPolicy).toBool) = true := by
    decide +kernel
  obtain ⟨first, valid⟩ := facts
  rw [Bool.and_eq_true] at valid
  cases streamed : studyMember studyDelivery with
  | error e =>
      rw [streamed] at first
      cases first
  | ok stream =>
      rw [streamed] at first
      simp only [Bool.and_eq_true, decide_eq_true_eq] at first
      have delivered : stream.delivery = studyDelivery := by
        simp only [studyMember, ok_bind, ok_pure] at streamed
        obtain ⟨_, -, _, -, rfl⟩ := streamed
        rfl
      have belongs := belongs_of_studyMember streamed
        ⟨ok_of_toBool valid.1, ok_of_toBool valid.2⟩ rfl first.1
      refine ⟨stream, delivered, first.2, ?_⟩
      refine (blocks_shared_iff studyHashes studyExperiment (some studyPolicy) ⟨.fill 0⟩ ⟨.fill 0⟩
        ⟨.fill 0⟩ 0 1 ⟨0, .fill 0⟩ [stream] (List.forall_mem_singleton.mpr belongs)).mpr ?_
      refine List.forall_mem_singleton.mpr fun buffered => ?_
      rw [delivered] at buffered
      cases buffered

end Study

end Metewand.Planning
