import Metewand.Planning.Plan

/-!
# Measured slots after resolution

The slot loop of `runtime/run/resolution.rs` and the dispatch order of
`core/scheduling.rs`.  Every measured attempt slot of a specification finds the
observation slot it is anchored at, the block it is compared in and the observation slots
it produces.
-/

namespace Metewand.Planning

open Lib Lib.Check

abbrev ObservationSlot : Type :=
  IdentifiedRecord LogicalObservationSlotRecord .logicalObservationSlot

abbrev AttemptSlot : Type := IdentifiedRecord LogicalAttemptSlotRecord .logicalAttemptSlot

instance : Inhabited ObservationSlot := ⟨⟨default, ⟨none, default, 0⟩⟩⟩

/-! ## Scheduling -/

/-- Comparable measurements that differ only in implementation configuration. -/
structure ComparisonBlock where
  datasetInstance : RecordId .datasetInstance
  problemConfiguration : RecordId .problemConfiguration
  /-- Zero-based implementation replication. -/
  implementationRepetition : Nat
  /-- Zero-based measurement repetition. -/
  measurementIndex : Nat
  deriving DecidableEq

/-- Scheduling inputs for one measured slot, independent of executor state. -/
structure SchedulingSlot where
  observationRound : Nat
  logicalSlot : RecordId .logicalAttemptSlot
  comparisonBlock : ComparisonBlock
  schedulingPriority : Digest
  deriving DecidableEq

def deriveBlockSchedulingPriority (hashes : Hashes) (schedulingSeed : DerivedSeedRecord)
    (block : ComparisonBlock) : Digest :=
  hashes.transcript (utf8 schedulingPriorityDomain ++ [0] ++ schedulingSeed.derivationDigest.bytes ++
    [0] ++ utf8 "block" ++ [0] ++ utf8 block.datasetInstance.text ++
    [0] ++ utf8 block.problemConfiguration.text ++
    [0] ++ toBeBytes block.implementationRepetition ++ [0] ++ toBeBytes block.measurementIndex)

/-- The bytes of a digest as part of a sort key. -/
def Digest.key (digest : Digest) : List Nat := digest.bytes.map UInt8.toNat

/-- The fields of a block in the order they are compared. -/
def ComparisonBlock.key (block : ComparisonBlock) : List Nat :=
  Digest.key block.datasetInstance.digest ++ Digest.key block.problemConfiguration.digest ++
    [block.implementationRepetition, block.measurementIndex]

/-- The sort key of a slot; its parts have a fixed length, so it compares like their tuple. -/
def SchedulingSlot.key (hashes : Hashes) (schedulingSeed : DerivedSeedRecord)
    (slot : SchedulingSlot) : List Nat :=
  Digest.key (deriveBlockSchedulingPriority hashes schedulingSeed slot.comparisonBlock) ++
    slot.comparisonBlock.key ++ [slot.observationRound] ++ Digest.key slot.schedulingPriority ++
    Digest.key slot.logicalSlot.digest

/-- Slot positions in deterministic dispatch order. -/
def scheduleSlots (hashes : Hashes) (runOrder : RunOrder) (schedulingSeed : DerivedSeedRecord)
    (slots : List SchedulingSlot) : List Nat :=
  match runOrder with
  | .sequential => List.range slots.length
  | .randomized =>
      (slots.zipIdx.mergeSort fun a b =>
        decide (a.1.key hashes schedulingSeed ≤ b.1.key hashes schedulingSeed)).map Prod.snd

/-! ## Resolution -/

/-- The policy and binding under which an implementation is observed. -/
abbrev Delivery : Type := Option (ProfilePolicy × ProfileBinding)

namespace Delivery

/-- The policy is valid, and so is the binding under it. -/
def Valid : Delivery → Prop
  | none => True
  | some (policy, binding) => policy.validate = .ok () ∧ binding.validate policy = .ok ()

def isFresh : Delivery → Bool
  | some (_, .fresh _) => true
  | _ => false

/-- The number of observation slots one attempt may fill. -/
def bound : Delivery → Nat
  | some (policy, .buffered _) | some (policy, .streaming _) => policy.maxObservations
  | _ => 1

/-- `SelectedStreamingProfile::measurement_index` for a streaming binding. -/
def measurementIndex (delivery : Delivery) (slotIndex : Nat) : Nat :=
  match delivery with
  | some (policy, .streaming _) => slotIndex / policy.maxObservations
  | _ => slotIndex

end Delivery

structure ResolvedMeasurement where
  fresh : Option FreshControl
  observationSlots :
    List (IdentifiedRecord ResolvedObservationSlotRecord .resolvedObservationSlot)
  candidate : RecordId .logicalCandidate
  specification : RecordId .resolvedSpecification
  selectionIds : List String
  scheduling : SchedulingSlot
  warmups : List (Nat × RecordId .resolvedAttemptSlot)
  logicalSlot : RecordId .logicalAttemptSlot
  attemptSlot : IdentifiedRecord ResolvedAttemptSlotRecord .resolvedAttemptSlot
  observationSlot : IdentifiedRecord ResolvedObservationSlotRecord .resolvedObservationSlot
  seed : Nat

/-- The observation slots an anchored attempt fills. -/
def observationGroup (delivery : Delivery) (specification : OneShotSpecificationPlan)
    (anchor : ObservationSlot) : List ObservationSlot :=
  specification.observationSlots.filter fun slot =>
    if delivery.isFresh then slot.id = anchor.id
    else
      anchor.record.measurementIndex ≤ slot.record.measurementIndex ∧
        slot.record.measurementIndex < anchor.record.measurementIndex + delivery.bound

/-- The planned observation a measured slot is anchored at. -/
def findAnchor (specification : OneShotSpecificationPlan)
    (anchor : RecordId .logicalObservationSlot) : Option ObservationSlot :=
  specification.observationSlots.find? fun slot => slot.id = anchor

section Resolution

variable (hashes : Hashes) (delivery : Delivery) (datasetInstance : RecordId .datasetInstance)
  (problemConfiguration : RecordId .problemConfiguration) (candidate : RecordId .logicalCandidate)
  (applicability : String) (resolved : RecordId .resolvedSpecification)
  (specification : OneShotSpecificationPlan)

/-- The scheduling inputs of a measured slot. -/
def schedulingSlot (slot : AttemptSlot) (anchor : ObservationSlot) : SchedulingSlot where
  observationRound := (anchor.record.fresh.map FreshControl.scheduleIndex).getD 0
  logicalSlot := slot.id
  comparisonBlock := {
    datasetInstance
    problemConfiguration
    implementationRepetition := specification.specification.record.implementationRepetition
    measurementIndex := delivery.measurementIndex anchor.record.measurementIndex }
  schedulingPriority := slot.record.schedulingPriority

def resolveWarmups : Except LogicalPlanningError (List (Nat × RecordId .resolvedAttemptSlot)) :=
  traverseAll (fun warmup => do
      let identified ← identify hashes
        { logicalSlot := warmup.2, specification := resolved : ResolvedAttemptSlotRecord }
      return (warmup.1, identified.id))
    (specification.attemptSlots.filterMap fun slot =>
      match slot.record.role with
      | .warmup warmupIndex => some (warmupIndex, slot.id)
      | .measured _ => none)

def resolveMeasurement (warmups : List (Nat × RecordId .resolvedAttemptSlot))
    (slot : AttemptSlot) (observation : RecordId .logicalObservationSlot) :
    Except LogicalPlanningError ResolvedMeasurement := do
  let anchor ← expect (findAnchor specification observation) (.panicked "planned observation")
  let attemptSlot ← identify hashes
    { logicalSlot := slot.id, specification := resolved : ResolvedAttemptSlotRecord }
  let observationSlot ← identify hashes
    { logicalSlot := observation, specification := resolved : ResolvedObservationSlotRecord }
  let observationSlots ←
    traverseAll (fun group => identify hashes
        { logicalSlot := group.id, specification := resolved : ResolvedObservationSlotRecord })
      (observationGroup delivery specification anchor)
  return {
    fresh := anchor.record.fresh
    observationSlots
    candidate
    specification := resolved
    selectionIds :=
      [candidate.text, specification.specification.id.text, resolved.text, slot.id.text,
        attemptSlot.id.text, anchor.id.text, observationSlot.id.text, applicability] ++
      observationSlots.flatMap fun observation =>
        [observation.id.text, observation.record.logicalSlot.text]
    scheduling :=
      schedulingSlot delivery datasetInstance problemConfiguration specification slot anchor
    warmups
    logicalSlot := slot.id
    attemptSlot
    observationSlot
    seed := specification.specification.record.implementationSeed.value }

/-- The measured slots of a specification, with the anchors their roles name. -/
def measuredSlots : List (AttemptSlot × RecordId .logicalObservationSlot) :=
  specification.attemptSlots.filterMap fun slot =>
    match slot.record.role with
    | .warmup _ => none
    | .measured observation => some (slot, observation)

def resolveSpecification : Except LogicalPlanningError (List ResolvedMeasurement) := do
  let warmups ← resolveWarmups hashes resolved specification
  traverseAll (fun slot =>
      resolveMeasurement hashes delivery datasetInstance problemConfiguration candidate
        applicability resolved specification warmups slot.1 slot.2)
    (measuredSlots specification)

end Resolution

end Metewand.Planning
