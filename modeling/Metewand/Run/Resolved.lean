import Metewand.Planning.Scheduling
import Metewand.Planning.Preselection
import Metewand.Run.Covering

/-!
# The resolved schedule

The end of `resolve` in `runtime/run/resolution.rs`: the measurements of every candidate,
listed experiment by experiment, are put in the dispatch order of their experiment.

A fresh repetition is a resolved specification and a measurement index.  Its points are
planned by ascending schedule index (`BoundSpecification.inOrder`), no two specifications
share one (`BoundPlan.inOrder`), and neither dispatch order changes the order of its points
(`BoundPlan.schedule_rising`).
-/

namespace Metewand.Run

open Lib Lib.Check Planning

/-! ## Measurements -/

abbrev Measurement : Type := Planning.ResolvedMeasurement

/-- The fresh repetition a measurement is a point of. -/
def freshRepetition (m : Measurement) : Option Repetition :=
  m.fresh.map fun _ => (m.specification, m.scheduling.comparisonBlock.measurementIndex)

/-- The place of a measurement in its fresh repetition. -/
def scheduleIndex (m : Measurement) : Nat := (m.fresh.map FreshControl.scheduleIndex).getD 0

/-- What planning and preselection leave of a specification: the points of whole fresh
repetitions, or none. -/
def PointLayout (delivery : Delivery) (plan : OneShotSpecificationPlan) : Prop :=
  (∃ repetitions warmups controls policy binding, delivery = some (policy, .fresh binding) ∧
    FreshLayout repetitions warmups controls delivery plan) ∨
  ∀ slot ∈ plan.observationSlots, slot.record.fresh = none

/-- A planned specification with the measurements it resolved to. -/
structure BoundSpecification (hashes : Hashes) where
  delivery : Delivery
  datasetInstance : RecordId .datasetInstance
  problemConfiguration : RecordId .problemConfiguration
  candidate : RecordId .logicalCandidate
  applicability : String
  resolved : RecordId .resolvedSpecification
  plan : OneShotSpecificationPlan
  measurements : List Measurement
  points : PointLayout delivery plan
  resolves : resolveSpecification hashes delivery datasetInstance problemConfiguration candidate
    applicability resolved plan = .ok measurements

structure BoundCandidate (hashes : Hashes) where
  specifications : List (BoundSpecification hashes)

def BoundCandidate.measurements {hashes : Hashes} (candidate : BoundCandidate hashes) :
    List Measurement :=
  candidate.specifications.flatMap (·.measurements)

structure BoundExperiment (hashes : Hashes) where
  name : String
  maxConcurrency : Nat
  positive : 0 < maxConcurrency
  runOrder : RunOrder
  schedulingSeed : DerivedSeedRecord
  candidates : List (BoundCandidate hashes)

/-- What `resolve` has checked before it schedules. -/
structure BoundPlan (hashes : Hashes) where
  experiments : List (BoundExperiment hashes)
  named : (experiments.map (·.name)).Nodup
  /-- The plan selects no resolved attempt slot more than once. -/
  distinct : (((experiments.flatMap (·.candidates)).flatMap (·.measurements)).map
    (·.attemptSlot.id)).Nodup
  /-- A resolved specification names the plan it resolves. -/
  names : ∀ c ∈ experiments.flatMap (·.candidates), ∀ s ∈ c.specifications,
    ∀ d ∈ experiments.flatMap (·.candidates), ∀ t ∈ d.specifications,
      s.resolved = t.resolved → s.plan = t.plan

variable {hashes : Hashes}

/-- A measurement as the runner keeps it. -/
def runMeasurement (provenance : Measurement → Json) (m : Measurement) : ResolvedMeasurement where
  fresh := m.fresh
  specification := m.specification
  measurementIndex := m.scheduling.comparisonBlock.measurementIndex
  provenance := provenance m

namespace BoundPlan

def candidates (plan : BoundPlan hashes) : List (BoundCandidate hashes) :=
  plan.experiments.flatMap (·.candidates)

def runCandidates (plan : BoundPlan hashes) (provenance : Measurement → Json) :
    List ResolvedCandidate :=
  plan.experiments.flatMap fun experiment => experiment.candidates.map fun candidate =>
    ⟨experiment.name, experiment.maxConcurrency, candidate.measurements.map (runMeasurement provenance)⟩

end BoundPlan

/-! ## Scheduling -/

/-- Candidates with their positions. -/
abbrev Placed (hashes : Hashes) : Type := List (BoundCandidate hashes × Nat)

/-- The `positions` of some candidates, each with the measurement there. -/
def positions (placed : Placed hashes) : List (Slot × Measurement) :=
  placed.flatMap fun entry =>
    entry.1.measurements.zipIdx.map fun measurement => ((entry.2, measurement.2), measurement.1)

/-- The measurements of one experiment in dispatch order. -/
def ordered (runOrder : RunOrder) (schedulingSeed : DerivedSeedRecord) (hashes : Hashes)
    (entries : List (Slot × Measurement)) : List (Slot × Measurement) :=
  picked entries (scheduleSlots hashes runOrder schedulingSeed (entries.map (·.2.scheduling)))

/-- The loop over the experiments; the candidates left start at the offset. -/
def scheduleExperiments (hashes : Hashes) :
    List (BoundExperiment hashes) → Placed hashes → List (Slot × Measurement)
  | [], _ => []
  | experiment :: rest, placed =>
      ordered experiment.runOrder experiment.schedulingSeed hashes
          (positions (placed.take experiment.candidates.length)) ++
        scheduleExperiments hashes rest (placed.drop experiment.candidates.length)

def BoundPlan.schedule (plan : BoundPlan hashes) : List (Slot × Measurement) :=
  scheduleExperiments hashes plan.experiments plan.candidates.zipIdx

/-! ## Points of one repetition -/

/-- If both are points of one repetition, the first is planned before the second, in the
same comparison block. -/
def InOrder (a b : Measurement) : Prop :=
  ∀ r, freshRepetition a = some r → freshRepetition b = some r →
    a.scheduling.comparisonBlock = b.scheduling.comparisonBlock ∧
      a.scheduling.observationRound < b.scheduling.observationRound

/-- If both are points of one repetition, the first has the lower schedule index. -/
def Rising (a b : Measurement) : Prop :=
  ∀ r, freshRepetition a = some r → freshRepetition b = some r → scheduleIndex a < scheduleIndex b

/-- What a measurement takes from its attempt slot and its anchor. -/
structure Resolves (hashes : Hashes) (s : BoundSpecification hashes) (slot : AttemptSlot)
    (anchor : ObservationSlot) (m : Measurement) : Prop where
  fresh : m.fresh = anchor.record.fresh
  specification : m.specification = s.resolved
  scheduling : m.scheduling =
    schedulingSlot s.delivery s.datasetInstance s.problemConfiguration s.plan slot anchor
  attempt : identify hashes
    { logicalSlot := slot.id, specification := s.resolved : ResolvedAttemptSlotRecord } =
      .ok m.attemptSlot

theorem resolveMeasurement_resolves {s : BoundSpecification hashes} {slot : AttemptSlot}
    {observation : RecordId .logicalObservationSlot} {m : Measurement}
    {warmups : List (Nat × RecordId .resolvedAttemptSlot)}
    (resolved : resolveMeasurement hashes s.delivery s.datasetInstance s.problemConfiguration
      s.candidate s.applicability s.resolved s.plan warmups slot observation = .ok m) :
    ∃ anchor, findAnchor s.plan observation = some anchor ∧ Resolves hashes s slot anchor m := by
  simp only [resolveMeasurement, ok_bind, ok_expect, ok_pure] at resolved
  rcases resolved with ⟨anchor, found, attempt, identified, observed, -, group, -, rfl⟩
  exact ⟨anchor, found, rfl, rfl, rfl, identified⟩

/-- The measurements are those of the measured slots, one by one. -/
theorem BoundSpecification.measured (s : BoundSpecification hashes) :
    List.Forall₂ (fun slot m => ∃ anchor, findAnchor s.plan slot.2 = some anchor ∧
      Resolves hashes s slot.1 anchor m) (measuredSlots s.plan) s.measurements := by
  have resolves := s.resolves
  simp only [resolveSpecification, ok_bind] at resolves
  rcases resolves with ⟨warmups, -, each⟩
  apply (ok_traverseAll.mp each).imp
  intro slot m resolved
  exact resolveMeasurement_resolves resolved

theorem measuredSlots_anchors (plan : OneShotSpecificationPlan) :
    (measuredSlots plan).map Prod.snd = (plan.attemptSlots.map (·.record.role)).filterMap fun
      | .warmup _ => none
      | .measured observation => some observation := by
  unfold measuredSlots
  rw [List.map_filterMap, List.filterMap_map]
  apply List.filterMap_congr
  intro slot _
  cases role : slot.record.role <;> simp [role]

theorem measuredSlots_of_roles {plan : OneShotSpecificationPlan} {warmups : Nat}
    {anchors : List (RecordId .logicalObservationSlot)}
    (roles : plan.attemptSlots.map (·.record.role) =
      (List.range warmups).map .warmup ++ anchors.map .measured) :
    (measuredSlots plan).map Prod.snd = anchors := by
  rw [measuredSlots_anchors, roles, List.filterMap_append, List.filterMap_map, List.filterMap_map]
  have none_ : (List.range warmups).filterMap ((fun
      | .warmup _ => none
      | .measured observation => some observation) ∘ AttemptSlotRole.warmup) = [] := by
    apply List.filterMap_eq_nil_iff.mpr
    intro i _
    rfl
  rw [none_, List.nil_append]
  exact List.filterMap_some

/-! ## Planned points -/

/-- Every planned specification has a layout of points. -/
theorem SlotLayout.points {repetitions warmups : Nat} {delivery : Delivery}
    {plan : OneShotSpecificationPlan} (layout : SlotLayout repetitions warmups delivery plan) :
    PointLayout delivery plan := by
  unfold SlotLayout at layout
  split at layout
  · rename_i policy binding
    rcases layout with ⟨controls, -, layout⟩
    exact .inl ⟨repetitions, warmups, controls, policy, binding, rfl, layout⟩
  · right
    intro slot member
    rcases List.getElem_of_mem member with ⟨i, inside, is⟩
    have record := layout.record i (by rw [← layout.count]; exact inside)
    have here : Planning.slotAt plan i = slot := by
      unfold Planning.slotAt
      rw [← is]
      simp [inside]
    rw [← here, record]

/-- Preselection keeps it: fresh points are selected all or none. -/
theorem PointLayout.kept {delivery : Delivery} {plan : OneShotSpecificationPlan}
    (points : PointLayout delivery plan) (selects : String → Bool) (bound : Nat)
    (candidate : RecordId .logicalCandidate) :
    PointLayout delivery (keptSpecification selects bound candidate plan) := by
  unfold keptSpecification
  split
  · split
    · exact points
    · right
      intro slot member
      cases member
  · rename_i plain
    right
    intro slot member
    rcases List.mem_flatMap.mp member with ⟨attempt, -, inside⟩
    have planned : slot ∈ plan.observationSlots := by
      unfold attemptTrajectory at inside
      split at inside
      · cases inside
      · unfold trajectoryOf at inside
        split at inside
        · cases inside
        · exact (List.mem_filter.mp inside).1
    have none_ := List.any_eq_false.mp (Bool.not_eq_true _ |>.mp plain) slot planned
    simpa using none_

/-- Planned pairs of repetition and index rise within a repetition. -/
theorem coordinates_rising (repetitions count : Nat) :
    ((List.range repetitions).flatMap fun k => (List.range count).map fun j => (k, some j)).Pairwise
      fun a b => a.1 = b.1 → ∀ i j, a.2 = some i → b.2 = some j → i < j := by
  apply List.pairwise_flatMap.mpr
  constructor
  · intro k _
    apply List.pairwise_map.mpr
    apply List.pairwise_lt_range.imp
    intro a b less _ i j here there
    cases here
    cases there
    exact less
  · apply List.pairwise_lt_range.imp
    intro k l less a inA b inB same
    rcases List.mem_map.mp inA with ⟨i, -, rfl⟩
    rcases List.mem_map.mp inB with ⟨j, -, rfl⟩
    exact absurd same (Nat.ne_of_lt less)

/-- What pairs the elements of two lists carries a relation along the first to the second. -/
theorem pairwise_of_forall₂ {α β : Type} {R : α → β → Prop} {S : α → α → Prop} {T : β → β → Prop}
    (step : ∀ {a b a' b'}, R a b → R a' b' → S a a' → T b b') {as : List α} {bs : List β}
    (each : List.Forall₂ R as bs) : as.Pairwise S → bs.Pairwise T := by
  induction each with
  | nil => exact fun _ => .nil
  | @cons a b as bs here rest ih =>
      intro sorted
      rcases List.pairwise_cons.mp sorted with ⟨first, later⟩
      apply List.pairwise_cons.mpr
      refine ⟨fun b' member => ?_, ih later⟩
      rcases List.getElem_of_mem member with ⟨i, inside, rfl⟩
      have inside' : i < as.length := by rw [rest.length_eq]; exact inside
      exact step here (rest.get inside' inside) (first _ (List.getElem_mem inside'))

theorem Resolves.repetition {s : BoundSpecification hashes} {slot : AttemptSlot}
    {anchor : ObservationSlot} {m : Measurement} (resolves : Resolves hashes s slot anchor m) :
    freshRepetition m = anchor.record.fresh.map fun _ =>
      (s.resolved, s.delivery.measurementIndex anchor.record.measurementIndex) := by
  unfold freshRepetition
  rw [resolves.fresh, resolves.specification, resolves.scheduling]
  rfl

/-- The round of a resolved point is its schedule index. -/
theorem Resolves.round {s : BoundSpecification hashes} {slot : AttemptSlot}
    {anchor : ObservationSlot} {m : Measurement} (resolves : Resolves hashes s slot anchor m) :
    m.scheduling.observationRound = scheduleIndex m := by
  unfold scheduleIndex
  rw [resolves.fresh, resolves.scheduling]
  rfl

theorem BoundSpecification.resolves_of_mem (s : BoundSpecification hashes) {m : Measurement}
    (member : m ∈ s.measurements) : ∃ slot ∈ measuredSlots s.plan, ∃ anchor,
      findAnchor s.plan slot.2 = some anchor ∧ Resolves hashes s slot.1 anchor m := by
  rcases List.getElem_of_mem member with ⟨i, inside, rfl⟩
  have inside' : i < (measuredSlots s.plan).length := by rw [s.measured.length_eq]; exact inside
  exact ⟨_, List.getElem_mem inside', s.measured.get inside' inside⟩

/-- Without fresh points no measurement is one. -/
theorem BoundSpecification.no_repetition {s : BoundSpecification hashes}
    (plain : ∀ slot ∈ s.plan.observationSlots, slot.record.fresh = none) {m : Measurement}
    (member : m ∈ s.measurements) : freshRepetition m = none := by
  rcases s.resolves_of_mem member with ⟨slot, -, anchor, found, resolves⟩
  rw [resolves.repetition, plain anchor (List.mem_of_find?_eq_some found)]
  rfl

/-- The points of a fresh repetition are resolved by ascending schedule index. -/
theorem FreshLayout.inOrder {s : BoundSpecification hashes} {repetitions warmups : Nat}
    {controls : List CanonicalValue}
    (layout : FreshLayout repetitions warmups controls s.delivery s.plan)
    (fresh : ∀ i, s.delivery.measurementIndex i = i) : s.measurements.Pairwise InOrder := by
  have anchors : (measuredSlots s.plan).map Prod.snd = s.plan.observationSlots.map (·.id) := by
    apply measuredSlots_of_roles
    rw [layout.attempts, List.map_map]
    rfl
  have risen := coordinates_rising repetitions controls.length
  rw [← layout.coordinates, List.pairwise_map] at risen
  -- The anchors of the measurements are the observation slots in order.
  have paired : List.Forall₂ (fun anchor m => ∃ slot, Resolves hashes s slot anchor m)
      s.plan.observationSlots s.measurements := by
    apply List.forall₂_iff_get.mpr
    have count := congrArg List.length anchors
    rw [List.length_map, List.length_map, s.measured.length_eq] at count
    refine ⟨count.symm, fun i inside inside' => ?_⟩
    have measured : i < (measuredSlots s.plan).length := by rw [s.measured.length_eq]; exact inside'
    rcases s.measured.get measured inside' with ⟨anchor, found, resolves⟩
    have at_ : (measuredSlots s.plan)[i].2 = s.plan.observationSlots[i].id := by
      have same := congrArg (fun l => l[i]?) anchors
      simpa [measured, inside] using same
    change findAnchor s.plan (measuredSlots s.plan)[i].2 = _ at found
    rw [at_, layout.anchored _ (List.getElem_mem inside)] at found
    cases found
    exact ⟨_, resolves⟩
  refine pairwise_of_forall₂ ?_ paired risen
  intro first m second n ⟨slot, here⟩ ⟨slot', there⟩ rises r isFirst isSecond
  rw [here.repetition] at isFirst
  rw [there.repetition] at isSecond
  rcases Option.map_eq_some_iff.mp isFirst with ⟨f, freshF, rfl⟩
  rcases Option.map_eq_some_iff.mp isSecond with ⟨g, freshG, same⟩
  have index : second.record.measurementIndex = first.record.measurementIndex := by
    have indices := congrArg Prod.snd same
    change s.delivery.measurementIndex _ = s.delivery.measurementIndex _ at indices
    rwa [fresh, fresh] at indices
  rw [here.scheduling, there.scheduling]
  unfold schedulingSlot
  rw [freshF, freshG, index]
  refine ⟨rfl, rises index.symm _ _ ?_ ?_⟩
  · rw [freshF]
    rfl
  · rw [freshG]
    rfl

theorem BoundSpecification.inOrder (s : BoundSpecification hashes) :
    s.measurements.Pairwise InOrder := by
  rcases s.points with ⟨_, _, _, _, _, delivery, layout⟩ | plain
  · apply FreshLayout.inOrder layout
    intro i
    rw [delivery]
    rfl
  · apply List.pairwise_of_forall_mem_list
    intro m member n _ r is
    rw [BoundSpecification.no_repetition plain member] at is
    cases is

/-! ## The whole plan -/

/-- Two specifications of one resolved identity would resolve one attempt slot twice. -/
theorem BoundSpecification.shared_attempt {s t : BoundSpecification hashes}
    (same : s.resolved = t.resolved) (plan : s.plan = t.plan) {m : Measurement}
    (member : m ∈ s.measurements) :
    ∃ n ∈ t.measurements, n.attemptSlot.id = m.attemptSlot.id := by
  rcases s.resolves_of_mem member with ⟨slot, slotIn, _, _, here⟩
  rw [plan] at slotIn
  rcases List.getElem_of_mem slotIn with ⟨i, inside, is⟩
  have inside' : i < t.measurements.length := by rw [← t.measured.length_eq]; exact inside
  rcases t.measured.get inside inside' with ⟨_, _, there⟩
  change Resolves hashes t (measuredSlots t.plan)[i].1 _ _ at there
  refine ⟨_, List.getElem_mem inside', ?_⟩
  have first := here.attempt
  have second := there.attempt
  rw [is, ← same, first] at second
  exact congrArg (·.id) (Except.ok.inj second).symm

namespace BoundPlan

variable (plan : BoundPlan hashes)

theorem positions_measurements (placed : Placed hashes) :
    (positions placed).map Prod.snd = (placed.map Prod.fst).flatMap (·.measurements) := by
  unfold positions
  rw [List.map_flatMap, List.flatMap_map]
  apply List.flatMap_congr
  intro entry _
  rw [List.map_map]
  exact List.zipIdx_map_fst 0 entry.1.measurements

/-- Every specification of the plan. -/
def specifications : List (BoundSpecification hashes) := plan.candidates.flatMap (·.specifications)

theorem measurements_specifications :
    plan.candidates.flatMap (·.measurements) = plan.specifications.flatMap (·.measurements) := by
  unfold specifications
  rw [List.flatMap_assoc]
  rfl

/-- All measurements of a plan, point by point. -/
theorem inOrder : (plan.candidates.flatMap (·.measurements)).Pairwise InOrder := by
  have distinct := plan.distinct
  change ((plan.candidates.flatMap (·.measurements)).map _).Nodup at distinct
  rw [measurements_specifications] at distinct ⊢
  have names : ∀ s ∈ plan.specifications, ∀ t ∈ plan.specifications, s.resolved = t.resolved →
      s.plan = t.plan := by
    intro s sIn t tIn same
    rcases List.mem_flatMap.mp sIn with ⟨c, cIn, sIn⟩
    rcases List.mem_flatMap.mp tIn with ⟨d, dIn, tIn⟩
    exact plan.names c cIn s sIn d dIn t tIn same
  generalize plan.specifications = specifications at distinct names
  induction specifications with
  | nil => exact .nil
  | cons s rest ih =>
      rw [List.flatMap_cons, List.map_append, List.nodup_append] at distinct
      rcases distinct with ⟨-, later, apart⟩
      rw [List.flatMap_cons, List.pairwise_append]
      refine ⟨s.inOrder, ih later fun a aIn b bIn => names a (List.mem_cons_of_mem _ aIn) b
        (List.mem_cons_of_mem _ bIn), fun m member n other r first second => ?_⟩
      -- A shared repetition is a shared resolved specification, and so a shared attempt slot.
      exfalso
      rcases List.mem_flatMap.mp other with ⟨t, tIn, other⟩
      rcases s.resolves_of_mem member with ⟨_, -, _, -, here⟩
      rcases t.resolves_of_mem other with ⟨_, -, _, -, there⟩
      rw [here.repetition] at first
      rw [there.repetition] at second
      rcases Option.map_eq_some_iff.mp first with ⟨_, -, rfl⟩
      rcases Option.map_eq_some_iff.mp second with ⟨_, -, same⟩
      have resolved : s.resolved = t.resolved := (congrArg Prod.fst same).symm
      have plans := names s List.mem_cons_self t (List.mem_cons_of_mem _ tIn) resolved
      rcases BoundSpecification.shared_attempt resolved plans member with ⟨n', shared, attempt⟩
      apply apart _ (List.mem_map_of_mem member) _ _ attempt.symm
      exact List.mem_map_of_mem (List.mem_flatMap.mpr ⟨t, tIn, shared⟩)

end BoundPlan

/-! ## Dispatch order -/

theorem picked_range {α : Type} (as : List α) : picked as (List.range as.length) = as := by
  apply List.ext_getElem?
  intro i
  rw [picked_getElem? fun _ member => List.mem_range.mp member]
  by_cases inside : i < as.length
  · simp [inside]
  · simp [inside]

/-- Scheduling an experiment rearranges its measurements. -/
theorem ordered_perm (runOrder : RunOrder) (schedulingSeed : DerivedSeedRecord)
    (entries : List (Slot × Measurement)) :
    (ordered runOrder schedulingSeed hashes entries).Perm entries := by
  have order := @scheduleSlots_perm hashes schedulingSeed
    (entries.map (·.2.scheduling)) runOrder
  rw [List.length_map] at order
  have same := order.filterMap fun i => entries[i]?
  exact same.trans (.of_eq (picked_range entries))

/-- Neither dispatch order changes the order of the points of one repetition: within a block
the round comes first. -/
theorem ordered_rising (runOrder : RunOrder) (schedulingSeed : DerivedSeedRecord)
    {entries : List (Slot × Measurement)} (planned : entries.Pairwise fun a b => InOrder a.2 b.2)
    (rounds : ∀ entry ∈ entries, entry.2.scheduling.observationRound = scheduleIndex entry.2) :
    (ordered runOrder schedulingSeed hashes entries).Pairwise fun a b => Rising a.2 b.2 := by
  have before : ∀ {a b}, a ∈ entries → b ∈ entries → InOrder a.2 b.2 → Rising a.2 b.2 := by
    intro a b aIn bIn inOrder r first second
    rw [← rounds a aIn, ← rounds b bIn]
    exact (inOrder r first second).2
  cases runOrder with
  | sequential =>
      have same : ordered .sequential schedulingSeed hashes entries = entries := by
        unfold ordered scheduleSlots
        rw [List.length_map]
        exact picked_range entries
      rw [same]
      exact planned.imp_of_mem before
  | randomized =>
      have sorted := dispatched_sorted hashes schedulingSeed (entries.map (·.2.scheduling))
      have apart : (dispatched hashes schedulingSeed (entries.map (·.2.scheduling))).Pairwise
          fun a b => a.2 ≠ b.2 := by
        apply List.pairwise_map.mp
        have positions := @scheduleSlots_perm hashes schedulingSeed
          (entries.map (·.2.scheduling)) .randomized
        exact positions.nodup_iff.mpr List.nodup_range
      change (((dispatched hashes schedulingSeed (entries.map (·.2.scheduling))).map
        Prod.snd).filterMap fun i => entries[i]?).Pairwise _
      rw [List.filterMap_map, List.pairwise_filterMap]
      apply (sorted.and apart).imp_of_mem
      intro a b aIn bIn ⟨le, other⟩ x atX y atY
      change entries[a.2]? = some x at atX
      change entries[b.2]? = some y at atY
      have keyX : a.1 = x.2.scheduling := by
        have found := dispatched_getElem? aIn
        rw [List.getElem?_map, atX] at found
        exact (Option.some.inj found).symm
      have keyY : b.1 = y.2.scheduling := by
        have found := dispatched_getElem? bIn
        rw [List.getElem?_map, atY] at found
        exact (Option.some.inj found).symm
      have xIn := List.mem_of_getElem? atX
      have yIn := List.mem_of_getElem? atY
      rcases List.getElem?_eq_some_iff.mp atX with ⟨insideX, isX⟩
      rcases List.getElem?_eq_some_iff.mp atY with ⟨insideY, isY⟩
      rcases Nat.lt_or_gt_of_ne other with less | more
      · have inOrder := List.pairwise_iff_getElem.mp planned _ _ insideX insideY less
        rw [isX, isY] at inOrder
        exact before xIn yIn inOrder
      · -- Planned the other way round, they share a block and the key has them in order.
        have inOrder := List.pairwise_iff_getElem.mp planned _ _ insideY insideX more
        rw [isX, isY] at inOrder
        intro r first second
        rcases inOrder r second first with ⟨block, later⟩
        rw [keyX, keyY] at le
        have := key_rounds le block.symm
        omega

namespace BoundPlan

variable (plan : BoundPlan hashes)

theorem round {m : Measurement} (member : m ∈ plan.candidates.flatMap (·.measurements)) :
    m.scheduling.observationRound = scheduleIndex m := by
  rw [measurements_specifications] at member
  rcases List.mem_flatMap.mp member with ⟨s, -, member⟩
  rcases s.resolves_of_mem member with ⟨_, -, _, -, resolves⟩
  exact resolves.round

theorem positions_append (first second : Placed hashes) :
    positions (first ++ second) = positions first ++ positions second := List.flatMap_append

/-- The loop visits the measurements of the candidates that belong to its experiments. -/
theorem scheduleExperiments_perm (experiments : List (BoundExperiment hashes)) :
    ∀ placed : Placed hashes, placed.map Prod.fst = experiments.flatMap (·.candidates) →
      (scheduleExperiments hashes experiments placed).Perm (positions placed) := by
  induction experiments with
  | nil =>
      intro placed all
      cases List.map_eq_nil_iff.mp all
      exact .refl _
  | cons experiment rest ih =>
      intro placed all
      have split := congrArg (List.drop experiment.candidates.length) all
      rw [List.flatMap_cons, ← List.map_drop, List.drop_left] at split
      unfold scheduleExperiments
      have whole := positions_append (placed.take experiment.candidates.length)
        (placed.drop experiment.candidates.length)
      rw [List.take_append_drop] at whole
      rw [whole]
      exact (ordered_perm _ _ _).append (ih _ split)

theorem scheduleExperiments_rising (experiments : List (BoundExperiment hashes)) :
    ∀ placed : Placed hashes, placed.map Prod.fst = experiments.flatMap (·.candidates) →
      (positions placed).Pairwise (fun a b => InOrder a.2 b.2) →
      (∀ entry ∈ positions placed, entry.2.scheduling.observationRound = scheduleIndex entry.2) →
        (scheduleExperiments hashes experiments placed).Pairwise fun a b => Rising a.2 b.2 := by
  induction experiments with
  | nil => exact fun _ _ _ _ => .nil
  | cons experiment rest ih =>
      intro placed all planned rounds
      have split := congrArg (List.drop experiment.candidates.length) all
      rw [List.flatMap_cons, ← List.map_drop, List.drop_left] at split
      have whole := positions_append (placed.take experiment.candidates.length)
        (placed.drop experiment.candidates.length)
      rw [List.take_append_drop] at whole
      rw [whole] at planned rounds
      rcases List.pairwise_append.mp planned with ⟨here, later, across⟩
      unfold scheduleExperiments
      apply List.pairwise_append.mpr
      refine ⟨ordered_rising _ _ here fun entry member => rounds entry (List.mem_append_left _ member),
        ih _ split later fun entry member => rounds entry (List.mem_append_right _ member),
        fun a aIn b bIn r first second => ?_⟩
      have aIn := (ordered_perm _ _ _).mem_iff.mp aIn
      have bIn := (scheduleExperiments_perm rest _ split).mem_iff.mp bIn
      rw [← rounds a (List.mem_append_left _ aIn), ← rounds b (List.mem_append_right _ bIn)]
      exact (across a aIn b bIn r first second).2

theorem placed_all : plan.candidates.zipIdx.map Prod.fst = plan.experiments.flatMap (·.candidates) :=
  List.zipIdx_map_fst 0 plan.candidates

theorem schedule_perm : plan.schedule.Perm (positions plan.candidates.zipIdx) :=
  scheduleExperiments_perm _ _ plan.placed_all

/-- In the resolved schedule the points of a fresh repetition rise. -/
theorem schedule_rising : plan.schedule.Pairwise fun a b => Rising a.2 b.2 := by
  have measurements := positions_measurements plan.candidates.zipIdx
  rw [plan.placed_all] at measurements
  apply scheduleExperiments_rising _ _ plan.placed_all
  · have planned := plan.inOrder
    change (List.flatMap _ (plan.experiments.flatMap (·.candidates))).Pairwise _ at planned
    rw [← measurements, List.pairwise_map] at planned
    exact planned
  · intro entry member
    apply plan.round
    change _ ∈ List.flatMap _ (plan.experiments.flatMap (·.candidates))
    rw [← measurements]
    exact List.mem_map_of_mem member

/-! ## The runner's view -/

theorem runCandidates_getElem? (provenance : Measurement → Json) (c : Nat) :
    ((plan.runCandidates provenance)[c]?).map (·.measurements) =
      (plan.candidates[c]?).map fun candidate =>
        candidate.measurements.map (runMeasurement provenance) := by
  have same : (plan.runCandidates provenance).map (·.measurements) =
      plan.candidates.map fun candidate => candidate.measurements.map (runMeasurement provenance) := by
    unfold runCandidates candidates
    rw [List.map_flatMap, List.map_flatMap]
    apply List.flatMap_congr
    intro experiment _
    rw [List.map_map]
    rfl
  rw [← List.getElem?_map, ← List.getElem?_map, same]

/-- A scheduled slot is where its measurement is. -/
theorem slotAt_schedule (provenance : Measurement → Json) {entry : Slot × Measurement}
    (member : entry ∈ plan.schedule) :
    slotAt (plan.runCandidates provenance) entry.1 = some (runMeasurement provenance entry.2) := by
  rcases List.mem_flatMap.mp (plan.schedule_perm.mem_iff.mp member) with ⟨placed, placedIn, inside⟩
  rcases List.mem_map.mp inside with ⟨measurement, measured, rfl⟩
  have candidate := List.mem_zipIdx_iff_getElem?.mp placedIn
  have found := List.mem_zipIdx_iff_getElem?.mp measured
  have at_ := plan.runCandidates_getElem? provenance placed.2
  rw [candidate] at at_
  rcases Option.map_eq_some_iff.mp at_ with ⟨running, isAt, measurements⟩
  change ((plan.runCandidates provenance)[placed.2]?).bind _ = _
  rw [isAt, Option.bind_some]
  change running.measurements[measurement.2]? = _
  rw [measurements, List.getElem?_map, found]
  rfl

theorem repetitionOf_schedule (provenance : Measurement → Json) {entry : Slot × Measurement}
    (member : entry ∈ plan.schedule) :
    repetitionOf (plan.runCandidates provenance) entry.1 = freshRepetition entry.2 := by
  unfold repetitionOf
  rw [plan.slotAt_schedule provenance member, Option.bind_some]
  cases fresh : entry.2.fresh <;> simp [runMeasurement, freshRepetition, fresh,
    ResolvedMeasurement.repetition]

/-- No slot is scheduled twice. -/
theorem schedule_nodup : (plan.schedule.map Prod.fst).Nodup := by
  rw [(plan.schedule_perm.map Prod.fst).nodup_iff]
  unfold positions
  rw [List.map_flatMap]
  apply List.nodup_flatMap.mpr
  have slots : ∀ placed : BoundCandidate hashes × Nat,
      (placed.1.measurements.zipIdx.map fun measurement => ((placed.2, measurement.2), measurement.1)).map
        Prod.fst = (List.range placed.1.measurements.length).map (Prod.mk placed.2) := by
    intro placed
    rw [List.map_map, List.range_eq_range', ← List.zipIdx_map_snd 0, List.map_map]
    rfl
  constructor
  · intro placed _
    rw [slots]
    apply List.nodup_range.map
    intro i j same
    exact congrArg Prod.snd same
  · have places : (plan.candidates.zipIdx.map Prod.snd).Nodup := by
      rw [List.zipIdx_map_snd]
      exact List.nodup_range'
    apply (List.pairwise_map.mp places).imp
    intro a b apart slot inA inB
    simp only [slots] at inA inB
    rcases List.mem_map.mp inA with ⟨i, -, rfl⟩
    rcases List.mem_map.mp inB with ⟨j, -, same⟩
    exact apart (congrArg Prod.fst same).symm

/-- The experiment of a name has one bound. -/
theorem runCandidates_shared (provenance : Measurement → Json) :
    SharedBounds (plan.runCandidates provenance) := by
  intro c cIn d dIn same
  rcases List.mem_flatMap.mp cIn with ⟨e, eIn, cIn⟩
  rcases List.mem_flatMap.mp dIn with ⟨f, fIn, dIn⟩
  rcases List.mem_map.mp cIn with ⟨_, -, rfl⟩
  rcases List.mem_map.mp dIn with ⟨_, -, rfl⟩
  rw [List.inj_on_of_nodup_map plan.named eIn fIn same]

/-- The run `resolve` hands on; the batches it cut itself are replaced before they are used. -/
def run (provenance : Measurement → Json) : ResolvedRun :=
  ⟨plan.runCandidates provenance, plan.schedule.map Prod.fst, []⟩

theorem runCandidates_positive (provenance : Measurement → Json) :
    ∀ candidate ∈ plan.runCandidates provenance, 0 < candidate.maxConcurrency := by
  intro c cIn
  rcases List.mem_flatMap.mp cIn with ⟨e, -, cIn⟩
  rcases List.mem_map.mp cIn with ⟨_, -, rfl⟩
  exact e.positive

end BoundPlan

end Metewand.Run
