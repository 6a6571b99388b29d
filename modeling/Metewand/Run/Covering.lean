import Metewand.Run.Batches

/-!
# Batches cover the schedule

What `rebuild_batches` leaves: consecutive batches that make up the schedule, each within the
lanes and the experiment of its run, and with every slot's place on record
(`rebuildBatches_exact`).  Recording changes provenances only, so everything the loops read
stays as it was (`still`).
-/

namespace Metewand.Run

open Lib Lib.Check

variable {candidates candidates' : List ResolvedCandidate} {schedule : List Slot}

/-! ## What the loops read -/

def experimentOf (candidates : List ResolvedCandidate) (slot : Slot) : Option String :=
  candidates[slot.1]?.map (·.experiment)

def boundOf (candidates : List ResolvedCandidate) (slot : Slot) : Option Nat :=
  candidates[slot.1]?.map (·.maxConcurrency)

/-- The fresh repetition a slot is a point of. -/
def repetitionOf (candidates : List ResolvedCandidate) (slot : Slot) : Option Repetition :=
  (slotAt candidates slot).bind fun measurement =>
    if measurement.fresh.isSome then some measurement.repetition else none

def ResolvedMeasurement.still (measurement : ResolvedMeasurement) : ResolvedMeasurement :=
  { measurement with provenance := .null }

/-- A candidate without the provenances of its measurements. -/
def ResolvedCandidate.still (candidate : ResolvedCandidate) : ResolvedCandidate :=
  { candidate with measurements := candidate.measurements.map ResolvedMeasurement.still }

/-- Two states that differ in provenances at most. -/
def Still (candidates candidates' : List ResolvedCandidate) : Prop :=
  candidates'.map ResolvedCandidate.still = candidates.map ResolvedCandidate.still

theorem slotAt_still (candidates : List ResolvedCandidate) (slot : Slot) :
    slotAt (candidates.map ResolvedCandidate.still) slot =
      (slotAt candidates slot).map ResolvedMeasurement.still := by
  unfold slotAt
  rw [List.getElem?_map]
  cases candidates[slot.1]? with
  | none => rfl
  | some candidate =>
      simp only [Option.map_some, Option.bind_some, ResolvedCandidate.still, List.getElem?_map]

theorem Still.slotAt (still : Still candidates candidates') (slot : Slot) :
    (slotAt candidates' slot).map ResolvedMeasurement.still =
      (Run.slotAt candidates slot).map ResolvedMeasurement.still := by
  rw [← slotAt_still, ← slotAt_still, show candidates'.map ResolvedCandidate.still = _ from still]

theorem Still.experimentOf (still : Still candidates candidates') (slot : Slot) :
    experimentOf candidates' slot = Run.experimentOf candidates slot := by
  have each : ∀ cs : List ResolvedCandidate, Run.experimentOf (cs.map ResolvedCandidate.still) slot =
      Run.experimentOf cs slot := by
    intro cs
    unfold Run.experimentOf
    rw [List.getElem?_map, Option.map_map]
    rfl
  rw [← each candidates', ← each candidates, show candidates'.map ResolvedCandidate.still = _ from still]

theorem Still.boundOf (still : Still candidates candidates') (slot : Slot) :
    boundOf candidates' slot = Run.boundOf candidates slot := by
  have each : ∀ cs : List ResolvedCandidate, Run.boundOf (cs.map ResolvedCandidate.still) slot =
      Run.boundOf cs slot := by
    intro cs
    unfold Run.boundOf
    rw [List.getElem?_map, Option.map_map]
    rfl
  rw [← each candidates', ← each candidates, show candidates'.map ResolvedCandidate.still = _ from still]

theorem repetitionOf_map (m : Option ResolvedMeasurement) :
    (m.bind fun measurement =>
      if measurement.fresh.isSome then some measurement.repetition else none) =
    (m.map ResolvedMeasurement.still).bind fun measurement =>
      if measurement.fresh.isSome then some measurement.repetition else none := by
  cases m <;> rfl

theorem Still.repetitionOf (still : Still candidates candidates') (slot : Slot) :
    repetitionOf candidates' slot = Run.repetitionOf candidates slot := by
  unfold Run.repetitionOf
  rw [repetitionOf_map (Run.slotAt candidates' slot), still.slotAt, ← repetitionOf_map]

/-! ## Recording -/

theorem slotAt_setProvenance (candidates : List ResolvedCandidate) (slot other : Slot)
    (provenance : Json) :
    slotAt (setProvenance candidates slot provenance) other =
      if slot = other then (slotAt candidates other).map fun m => { m with provenance := provenance }
      else slotAt candidates other := by
  obtain ⟨c, m⟩ := slot
  obtain ⟨c', m'⟩ := other
  unfold slotAt setProvenance
  rw [List.getElem?_modify]
  by_cases candidate : c = c'
  · subst candidate
    cases candidates[c]? with
    | none => simp
    | some found =>
        simp only [if_true, Option.map_some, Option.bind_some, Prod.mk.injEq, true_and]
        change (found.measurements.modify m _)[m']? = _
        rw [List.getElem?_modify]
        split
        · rfl
        · simp
  · cases candidates[c']? <;> simp [candidate]

theorem still_setProvenance (candidates : List ResolvedCandidate) (slot : Slot) (provenance : Json) :
    Still candidates (setProvenance candidates slot provenance) := by
  have inner : ∀ (measurements : List ResolvedMeasurement) (i : Nat),
      (measurements.modify i fun m => { m with provenance := provenance }).map ResolvedMeasurement.still =
        measurements.map ResolvedMeasurement.still := by
    intro measurements i
    refine List.ext_getElem? fun k => ?_
    rw [List.getElem?_map, List.getElem?_map, List.getElem?_modify]
    split <;> cases measurements[k]? <;> rfl
  unfold Still setProvenance
  refine List.ext_getElem? fun k => ?_
  rw [List.getElem?_map, List.getElem?_map, List.getElem?_modify]
  split
  · cases candidates[k]? with
    | none => rfl
    | some candidate => simp [ResolvedCandidate.still, inner]
  · cases candidates[k]? <;> rfl

theorem Still.trans {candidates'' : List ResolvedCandidate} (first : Still candidates candidates')
    (second : Still candidates' candidates'') : Still candidates candidates'' :=
  Eq.trans (show candidates''.map _ = candidates'.map _ from second) first

/-- The recorded place is canonical when its numbers are safe. -/
theorem normalize_concurrency {bound index size lane : Nat} {v : Json} :
    (concurrency bound index size lane).normalize = .ok v ↔
      (bound ≤ maxSafeInteger ∧ index ≤ maxSafeInteger ∧ size ≤ maxSafeInteger ∧
        lane ≤ maxSafeInteger) ∧ v = concurrency bound index size lane := by
  unfold concurrency
  constructor
  · intro normal
    obtain ⟨others, each, rfl⟩ := Json.normalize_object_fields (by simp) normal
    simp only [List.forall₂_cons_left_iff, List.forall₂_nil_left_iff, Json.normalMember_nat,
      Json.normalMember_str] at each
    obtain ⟨_, _, ⟨bound, rfl⟩, ⟨_, _, rfl, ⟨_, _, ⟨index, rfl⟩, ⟨_, _, ⟨size, rfl⟩, ⟨_, _, ⟨lane, rfl⟩,
      rfl, rfl⟩, rfl⟩, rfl⟩, rfl⟩, rfl⟩ := each
    exact ⟨⟨bound, index, size, lane⟩, rfl⟩
  · rintro ⟨⟨bound, index, size, lane⟩, rfl⟩
    refine Json.normalize_object (.cons (Json.normalMember_nat.mpr ⟨bound, rfl⟩) (.cons
      (Json.normalMember_str.mpr rfl) (.cons (Json.normalMember_nat.mpr ⟨index, rfl⟩) (.cons
        (Json.normalMember_nat.mpr ⟨size, rfl⟩) (.cons (Json.normalMember_nat.mpr ⟨lane, rfl⟩) .nil)))))

/-- The place a slot has on record. -/
def HasPlace (candidates : List ResolvedCandidate) (slot : Slot) (place : Json) : Prop :=
  ∃ measurement, slotAt candidates slot = some measurement ∧
    measurement.provenance.get "concurrency" = place

/-- Every provenance is a canonical object. -/
def CanonicalProvenances (candidates : List ResolvedCandidate) : Prop :=
  ∀ slot measurement, slotAt candidates slot = some measurement →
    measurement.provenance.isObject = true ∧
      measurement.provenance.normalize = .ok measurement.provenance

theorem indexSet_ok {key : String} {value v w : Json} (set : indexSet key value v = .ok w) :
    w.isObject = true ∧ w.get key = value := by
  cases v with
  | obj members =>
      cases set
      simp [Json.isObject, Json.get, Json.lookup_insertMember]
  | null =>
      cases set
      simp [Json.isObject, Json.get, Json.lookupMember]
  | bool _ | num _ | str _ | arr _ => cases set

theorem canonical_ok {v w : Json} : canonical v = .ok w ↔ v.normalize = .ok w := ok_mapError

theorem isObject_normalize {v w : Json} (normal : v.normalize = .ok w) (object : v.isObject = true) :
    w.isObject = true := by
  cases v with
  | obj members =>
      simp only [Json.normalize] at normal
      cases read : Json.normalizeMembers members with
      | error e =>
          rw [read] at normal
          cases normal
      | ok members' =>
          rw [read] at normal
          cases normal
          rfl
  | null | bool _ | num _ | str _ | arr _ => cases object

/-- What recording one place does. -/
theorem recordLane_ok {bound index size lane : Nat} {slot : Slot}
    (recorded : recordLane bound index size candidates (slot, lane) = .ok candidates') :
    Still candidates candidates' ∧ (∀ other ≠ slot, slotAt candidates' other = slotAt candidates other) ∧
      HasPlace candidates' slot (concurrency bound index size lane) ∧
      (CanonicalProvenances candidates → CanonicalProvenances candidates') := by
  simp only [recordLane, ok_bind, ok_expect, ok_pure, canonical_ok] at recorded
  obtain ⟨measurement, found, value, set, provenance, normal, rfl⟩ := recorded
  obtain ⟨object, get⟩ := indexSet_ok set
  have place := Json.normalize_get "concurrency" normal
  rw [get] at place
  refine ⟨still_setProvenance _ _ _, fun other apart => ?_, ?_, fun canonical other m held => ?_⟩
  · rw [slotAt_setProvenance, if_neg (Ne.symm apart)]
  · refine ⟨{ measurement with provenance := provenance }, ?_, (normalize_concurrency.mp place).2⟩
    rw [slotAt_setProvenance, if_pos rfl, found]
    rfl
  · rw [slotAt_setProvenance] at held
    split at held
    · obtain ⟨m', _, rfl⟩ := Option.map_eq_some_iff.mp held
      exact ⟨isObject_normalize normal object, Json.normalize_idempotent normal⟩
    · exact canonical other m held

/-- Recording the places of several slots. -/
structure RecordedPlaces (bound index size : Nat) (candidates : List ResolvedCandidate)
    (entries : List (Slot × Nat)) (candidates' : List ResolvedCandidate) : Prop where
  still : Still candidates candidates'
  others : ∀ other ∉ entries.map Prod.fst, slotAt candidates' other = slotAt candidates other
  places : ∀ entry ∈ entries, HasPlace candidates' entry.1 (concurrency bound index size entry.2)
  canonical : CanonicalProvenances candidates → CanonicalProvenances candidates'

theorem recordLanes_ok {bound index size : Nat} {entries : List (Slot × Nat)}
    (distinct : (entries.map Prod.fst).Nodup)
    (recorded : thread (recordLane bound index size) candidates entries = .ok candidates') :
    RecordedPlaces bound index size candidates entries candidates' := by
  refine thread_all (fun done candidates' => (done.map Prod.fst).Nodup →
    RecordedPlaces bound index size candidates done candidates')
    (fun _ => ⟨rfl, fun _ _ => rfl, by simp, id⟩) ?_ recorded distinct
  intro done before entry after kept step distinct
  rw [List.map_append, List.map_singleton, List.nodup_append] at distinct
  obtain ⟨earlier, -, apart⟩ := distinct
  have kept := kept earlier
  obtain ⟨still, others, place, canonical⟩ := recordLane_ok step
  refine ⟨kept.still.trans still, fun other absent => ?_, fun entry' member => ?_,
    fun before => canonical (kept.canonical before)⟩
  · rw [List.map_append, List.mem_append, not_or, List.map_singleton, List.mem_singleton] at absent
    rw [others other absent.2, kept.others other absent.1]
  · rcases List.mem_append.mp member with earlier | last
    · obtain ⟨m, held, here⟩ := kept.places entry' earlier
      have other : entry'.1 ≠ entry.1 := apart _ (List.mem_map_of_mem earlier) _ (by simp)
      exact ⟨m, (others _ other).trans held, here⟩
    · cases List.mem_singleton.mp last
      exact place

theorem recordLane_exists {bound index size lane : Nat} {slot : Slot}
    (canonical_ : CanonicalProvenances candidates) (valid : (slotAt candidates slot).isSome)
    (safe : bound ≤ maxSafeInteger ∧ index ≤ maxSafeInteger ∧ size ≤ maxSafeInteger ∧
      lane ≤ maxSafeInteger) :
    ∃ candidates', recordLane bound index size candidates (slot, lane) = .ok candidates' := by
  obtain ⟨measurement, found⟩ := Option.isSome_iff_exists.mp valid
  obtain ⟨object, normal⟩ := canonical_ slot measurement found
  cases held : measurement.provenance with
  | obj members =>
      rw [held] at normal
      have listed : Json.normalizeMembers members = .ok members := by
        simp only [Json.normalize] at normal
        cases read : Json.normalizeMembers members with
        | error e =>
            rw [read] at normal
            cases normal
        | ok members' =>
            rw [read] at normal
            cases normal
            rfl
      have place := normalize_concurrency.mpr ⟨safe, rfl⟩
      have each := Json.normalMembers_insert (a := ("concurrency", concurrency bound index size lane))
        (b := ("concurrency", concurrency bound index size lane)) ⟨rfl, place⟩
        (Json.normalizeMembers_ok.mp listed)
      have updated : (Json.obj (Json.insertMember "concurrency" (concurrency bound index size lane)
          members)).normalize = .ok (.obj (Json.insertMember "concurrency"
            (concurrency bound index size lane) members)) := by
        simp only [Json.normalize, Json.normalizeMembers_ok.mpr each]
        rfl
      simp only [recordLane, found, ok_bind, ok_expect, ok_pure, canonical_ok]
      exact ⟨_, measurement, rfl, _, by rw [held]; rfl, _, updated, rfl⟩
  | null | bool _ | num _ | str _ | arr _ =>
      rw [held] at object
      cases object

theorem recordLanes_exists {bound index size : Nat} {entries : List (Slot × Nat)}
    (canonical_ : CanonicalProvenances candidates)
    (valid : ∀ entry ∈ entries, (slotAt candidates entry.1).isSome)
    (safe : bound ≤ maxSafeInteger ∧ index ≤ maxSafeInteger ∧ size ≤ maxSafeInteger)
    (lanes : ∀ entry ∈ entries, entry.2 ≤ maxSafeInteger) :
    ∃ candidates', thread (recordLane bound index size) candidates entries = .ok candidates' := by
  induction entries generalizing candidates with
  | nil => exact ⟨candidates, rfl⟩
  | cons entry rest ih =>
      obtain ⟨slot, lane⟩ := entry
      obtain ⟨here, others⟩ := List.forall_mem_cons.mp valid
      obtain ⟨small, smalls⟩ := List.forall_mem_cons.mp lanes
      obtain ⟨next, first⟩ := recordLane_exists canonical_ here ⟨safe.1, safe.2.1, safe.2.2, small⟩
      obtain ⟨still, -, -, keeps⟩ := recordLane_ok first
      have valid' : ∀ entry ∈ rest, (slotAt next entry.1).isSome := by
        intro entry member
        have same := congrArg Option.isSome (still.slotAt entry.1)
        rw [Option.isSome_map, Option.isSome_map] at same
        rw [same]
        exact others entry member
      obtain ⟨last, run⟩ := ih (keeps canonical_) valid' smalls
      exact ⟨last, by rw [thread, first]; exact run⟩

/-! ## Filling a batch -/

theorem fill_ok {lanes : Nat} {slots : List Slot} : ∀ {taken size : Nat} {repetitions : List Repetition},
    fill candidates lanes taken repetitions slots = .ok size →
      size ≤ slots.length ∧ size ≤ lanes - taken ∧
      ((slots.take size).filterMap (repetitionOf candidates)).Nodup ∧
      (∀ r ∈ (slots.take size).filterMap (repetitionOf candidates), r ∉ repetitions) ∧
      (size < lanes - taken → size = slots.length ∨ ∃ next r, slots[size]? = some next ∧
        repetitionOf candidates next = some r ∧
          (r ∈ repetitions ∨ r ∈ (slots.take size).filterMap (repetitionOf candidates))) := by
  induction slots with
  | nil =>
      intro taken size repetitions filled
      cases filled
      simp
  | cons slot rest ih =>
      intro taken size repetitions filled
      unfold fill at filled
      split at filled
      · cases filled
        rename_i full
        simp only [Nat.zero_le, List.take_zero, List.filterMap_nil, List.nodup_nil, true_and]
        exact ⟨by simp, fun less => by omega⟩
      · rename_i room
        cases found : slotAt candidates slot with
        | none =>
            rw [found] at filled
            cases filled
        | some measurement =>
            rw [found] at filled
            simp only at filled
            split at filled
            · rename_i repeated
              cases filled
              simp only [Nat.zero_le, List.take_zero, List.filterMap_nil, List.nodup_nil, true_and]
              refine ⟨by simp, fun _ => .inr ⟨slot, measurement.repetition, rfl, ?_, .inl repeated.2⟩⟩
              rw [repetitionOf, found, Option.bind_some, if_pos repeated.1]
            · rename_i fresh
              cases more : fill candidates lanes (taken + 1)
                  (if measurement.fresh.isSome then measurement.repetition :: repetitions
                    else repetitions) rest with
              | error e =>
                  rw [more] at filled
                  cases filled
              | ok size' =>
                  rw [more] at filled
                  cases filled
                  obtain ⟨short, within, distinct, apart, ends⟩ := ih more
                  have point : repetitionOf candidates slot =
                      if measurement.fresh.isSome then some measurement.repetition else none := by
                    rw [repetitionOf, found]
                    rfl
                  have room : size' + 1 ≤ lanes - taken := by omega
                  rw [List.take_succ_cons, List.filterMap_cons, point]
                  cases kind : measurement.fresh.isSome with
                  | false =>
                      simp only [kind, Bool.false_eq_true, if_false] at apart ends ⊢
                      refine ⟨Nat.succ_le_succ short, room, distinct, apart, fun less => ?_⟩
                      exact (ends (by omega)).imp (congrArg (· + 1)) id
                  | true =>
                      simp only [kind, if_true] at apart ends ⊢
                      have new : measurement.repetition ∉ repetitions := fun old => fresh ⟨kind, old⟩
                      refine ⟨Nat.succ_le_succ short, room, ?_, ?_, fun less => ?_⟩
                      · refine List.nodup_cons.mpr ⟨fun member => ?_, distinct⟩
                        exact apart _ member List.mem_cons_self
                      · intro r member
                        rcases List.mem_cons.mp member with rfl | later
                        · exact new
                        · exact fun old => apart r later (List.mem_cons_of_mem _ old)
                      · rcases ends (by omega) with all | ⟨next, r, position, is, seen⟩
                        · exact .inl (congrArg (· + 1) all)
                        · refine .inr ⟨next, r, position, is, ?_⟩
                          rcases seen with before | here
                          · rcases List.mem_cons.mp before with rfl | old
                            · exact .inr List.mem_cons_self
                            · exact .inl old
                          · exact .inr (List.mem_cons_of_mem _ here)

theorem fill_exists {lanes : Nat} {slots : List Slot}
    (valid : ∀ slot ∈ slots, (slotAt candidates slot).isSome) :
    ∀ (taken : Nat) (repetitions : List Repetition),
      ∃ size, fill candidates lanes taken repetitions slots = .ok size := by
  induction slots with
  | nil => exact fun _ _ => ⟨0, rfl⟩
  | cons slot rest ih =>
      intro taken repetitions
      obtain ⟨here, others⟩ := List.forall_mem_cons.mp valid
      obtain ⟨measurement, found⟩ := Option.isSome_iff_exists.mp here
      unfold fill
      split
      · exact ⟨0, rfl⟩
      · rw [found]
        simp only
        split
        · exact ⟨0, rfl⟩
        · obtain ⟨size, more⟩ := ih others (taken + 1) (if measurement.fresh.isSome then
            measurement.repetition :: repetitions else repetitions)
          rw [more]
          exact ⟨size + 1, rfl⟩

/-- A batch with a lane takes the first slot. -/
theorem fill_positive {lanes size : Nat} (some : 0 < lanes) {slot : Slot} {rest : List Slot}
    (filled : fill candidates lanes 0 [] (slot :: rest) = .ok size) : 0 < size := by
  unfold fill at filled
  rw [if_neg (Nat.not_le.mpr some)] at filled
  cases found : slotAt candidates slot with
  | none =>
      rw [found] at filled
      cases filled
  | some measurement =>
      rw [found] at filled
      simp only [List.not_mem_nil, and_false, if_false] at filled
      cases more : fill candidates lanes (0 + 1)
          (if measurement.fresh.isSome then [measurement.repetition] else []) rest with
      | error e =>
          rw [more] at filled
          cases filled
      | ok size' =>
          rw [more] at filled
          cases filled
          exact Nat.succ_pos _

/-! ## The guarantees -/

/-- The slots of a batch. -/
def slice (schedule : List Slot) (batch : ResolvedBatch) : List Slot :=
  (schedule.drop batch.start).take batch.size

/-- Consecutive nonempty ranges from one position to another. -/
def Covers : Nat → List ResolvedBatch → Nat → Prop
  | start, [], stop => start = stop
  | start, batch :: rest, stop => batch.start = start ∧ start < batch.stop ∧ Covers batch.stop rest stop

/-- One batch, against the run it was cut from. -/
structure BatchExact (candidates : List ResolvedCandidate) (schedule : List Slot)
    (batch : ResolvedBatch) : Prop where
  nonempty : batch.start < batch.stop
  inside : batch.stop ≤ schedule.length
  lanes : batch.size ≤ batch.laneCount
  bound : ∀ slot ∈ slice schedule batch, ∀ bound ∈ boundOf candidates slot, batch.laneCount ≤ bound
  experiment : ∀ slot ∈ slice schedule batch, ∀ other ∈ slice schedule batch,
    experimentOf candidates slot = experimentOf candidates other
  fresh : ((slice schedule batch).filterMap (repetitionOf candidates)).Nodup
  /-- A batch leaves a lane idle at the end of its experiment's run or before a repeated
  repetition only. -/
  short : batch.size < batch.laneCount → batch.stop = schedule.length ∨
    ∃ next, schedule[batch.stop]? = some next ∧
      ((∀ slot ∈ slice schedule batch, experimentOf candidates next ≠ experimentOf candidates slot) ∨
        ∃ r, repetitionOf candidates next = some r ∧
          r ∈ (slice schedule batch).filterMap (repetitionOf candidates))

/-- The experiment of a batch is that of its first slot. -/
def ResolvedBatch.experiment (candidates : List ResolvedCandidate) (schedule : List Slot)
    (batch : ResolvedBatch) : Option String := schedule[batch.start]?.bind (experimentOf candidates)

/-- How many batches of one experiment end a list. -/
def trailing (candidates : List ResolvedCandidate) (schedule : List Slot)
    (batches : List ResolvedBatch) (experiment : Option String) : Nat :=
  (batches.reverse.takeWhile fun batch => batch.experiment candidates schedule = experiment).length

/-- Every slot's place is on record: its batch within the run of its experiment, the size of
the batch, and its lane. -/
def Recorded (candidates : List ResolvedCandidate) (schedule : List Slot)
    (batches : List ResolvedBatch) (candidates' : List ResolvedCandidate) : Prop :=
  ∀ before batch after, batches = before ++ batch :: after → ∀ lane slot,
    (slice schedule batch)[lane]? = some slot → ∀ bound ∈ boundOf candidates slot,
      HasPlace candidates' slot (concurrency bound
        (trailing candidates schedule before (batch.experiment candidates schedule)) batch.size lane)

/-- The batches up to a position. -/
structure Built (candidates : List ResolvedCandidate) (schedule : List Slot) (position : Nat)
    (state : List ResolvedCandidate × List ResolvedBatch) : Prop where
  still : Still candidates state.1
  covers : Covers 0 state.2 position
  each : ∀ batch ∈ state.2, BatchExact candidates schedule batch
  recorded : Recorded candidates schedule state.2 state.1

theorem Covers.append {start middle stop : Nat} {batches rest : List ResolvedBatch}
    (first : Covers start batches middle) (second : Covers middle rest stop) :
    Covers start (batches ++ rest) stop := by
  induction batches generalizing start with
  | nil =>
      cases first
      exact second
  | cons batch batches ih => exact ⟨first.1, first.2.1, ih first.2.2⟩

theorem Covers.le {start stop : Nat} {batches : List ResolvedBatch} (covers : Covers start batches stop) :
    start ≤ stop ∧ ∀ batch ∈ batches, batch.stop ≤ stop := by
  induction batches generalizing start with
  | nil => exact ⟨Nat.le_of_eq covers, by simp⟩
  | cons batch rest ih =>
      obtain ⟨below, later⟩ := ih covers.2.2
      exact ⟨Nat.le_trans (Nat.le_of_lt covers.2.1) below, List.forall_mem_cons.mpr ⟨below, later⟩⟩

/-- Consecutive ranges make up what lies between their ends. -/
theorem Covers.concat {start stop : Nat} {batches : List ResolvedBatch}
    (covers : Covers start batches stop) :
    batches.flatMap (slice schedule) = (schedule.drop start).take (stop - start) := by
  induction batches generalizing start with
  | nil =>
      cases covers
      simp
  | cons batch rest ih =>
      obtain ⟨rfl, below, later⟩ := covers
      have le := later.le.1
      rw [List.flatMap_cons, ih later, slice, ResolvedBatch.size]
      have split : stop - batch.start = (batch.stop - batch.start) + (stop - batch.stop) := by omega
      rw [split, List.take_add, List.drop_drop]
      have sum : batch.start + (batch.stop - batch.start) = batch.stop := by omega
      rw [sum]

/-- Slots of batches at different places are different. -/
theorem slice_apart (distinct : schedule.Nodup) {batch later : ResolvedBatch}
    (before : batch.stop ≤ later.start) {slot : Slot} (member : slot ∈ slice schedule batch) :
    slot ∉ slice schedule later := by
  intro again
  obtain ⟨i, iBelow, iAt⟩ := List.mem_take_iff_getElem.mp member
  obtain ⟨j, jBelow, jAt⟩ := List.mem_take_iff_getElem.mp again
  rw [List.getElem_drop] at iAt jAt
  have same := (List.Nodup.getElem_inj_iff distinct).mp (iAt.trans jAt.symm)
  unfold ResolvedBatch.size at iBelow
  omega

theorem Built.append {position bound size lanes : Nat}
    {state : List ResolvedCandidate × List ResolvedBatch} {after : List ResolvedCandidate}
    (built : Built candidates schedule position state) (distinct : schedule.Nodup)
    (positive : 0 < size)
    (exact_ : BatchExact candidates schedule ⟨position, position + size, lanes⟩)
    (bounds : ∀ slot ∈ slice schedule ⟨position, position + size, lanes⟩,
      boundOf candidates slot = some bound)
    (places : RecordedPlaces bound (trailing candidates schedule state.2
        ((⟨position, position + size, lanes⟩ : ResolvedBatch).experiment candidates schedule)) size
      state.1 (slice schedule ⟨position, position + size, lanes⟩).zipIdx after) :
    Built candidates schedule (position + size)
      (after, state.2 ++ [⟨position, position + size, lanes⟩]) := by
  refine ⟨built.still.trans places.still,
    built.covers.append ⟨rfl, Nat.lt_add_of_pos_right positive, rfl⟩, ?_, ?_⟩
  · intro batch member
    rcases List.mem_append.mp member with earlier | last
    · exact built.each batch earlier
    · cases List.mem_singleton.mp last
      exact exact_
  · intro before batch later split lane slot held n bound'
    rcases List.eq_nil_or_concat later with rfl | ⟨later, last, rfl⟩
    · obtain ⟨rfl, same⟩ := List.append_inj' split rfl
      cases same
      have size_ : (⟨position, position + size, lanes⟩ : ResolvedBatch).size = size := by
        simp [ResolvedBatch.size]
      have here := places.places (slot, lane) (List.mem_zipIdx_iff_getElem?.mpr held)
      rw [bounds slot (List.mem_of_getElem? held)] at bound'
      cases bound'
      rw [size_]
      exact here
    · rw [List.concat_eq_append, ← List.cons_append, ← List.append_assoc] at split
      obtain ⟨earlier, same⟩ := List.append_inj' split rfl
      obtain ⟨m, found, place⟩ := built.recorded before batch later earlier lane slot held n bound'
      have inside : batch ∈ state.2 := by
        rw [earlier]
        simp
      have apart : slot ∉ (slice schedule ⟨position, position + size, lanes⟩).zipIdx.map Prod.fst := by
        rw [List.zipIdx_map_fst]
        exact slice_apart distinct (built.covers.le.2 batch inside) (List.mem_of_getElem? held)
      exact ⟨m, (places.others slot apart).trans found, place⟩

/-! ## The runs of the loops -/

theorem trailing_append {batches : List ResolvedBatch} {batch : ResolvedBatch} {experiment : Option String}
    (same : batch.experiment candidates schedule = experiment) :
    trailing candidates schedule (batches ++ [batch]) experiment =
      trailing candidates schedule batches experiment + 1 := by
  unfold trailing
  rw [List.reverse_append, List.reverse_singleton, List.singleton_append,
    List.takeWhile_cons_of_pos (by simpa using same), List.length_cons]

theorem trailing_eq_zero {batches : List ResolvedBatch} {experiment : Option String}
    (other : ∀ batch, batches.getLast? = some batch → batch.experiment candidates schedule ≠ experiment) :
    trailing candidates schedule batches experiment = 0 := by
  unfold trailing
  rcases List.eq_nil_or_concat batches with rfl | ⟨earlier, last, rfl⟩
  · rfl
  · rw [List.concat_eq_append] at other ⊢
    have apart := other last (by simp)
    rw [List.reverse_append, List.reverse_singleton, List.singleton_append,
      List.takeWhile_cons_of_neg (by simpa using apart), List.length_nil]

/-- The batch `fill` finds at a position. -/
theorem batch_exact {name : String} {bound lanes size position : Nat} {slots rest : List Slot}
    (lanesBound : lanes ≤ bound) (positive : 0 < size)
    (here : schedule.drop position = slots ++ rest)
    (run : ∀ slot ∈ slots, experimentOf candidates slot = some name ∧ boundOf candidates slot = some bound)
    (ends : ∀ next, rest.head? = some next → experimentOf candidates next ≠ some name)
    (filled : fill candidates lanes 0 [] slots = .ok size) :
    slice schedule ⟨position, position + size, lanes⟩ = slots.take size ∧
      BatchExact candidates schedule ⟨position, position + size, lanes⟩ := by
  obtain ⟨short, within, distinct, -, stops⟩ := fill_ok filled
  have sliced : slice schedule ⟨position, position + size, lanes⟩ = slots.take size := by
    simp only [slice, ResolvedBatch.size, Nat.add_sub_cancel_left]
    rw [here, List.take_append_of_le_length short]
  have length := congrArg List.length here
  rw [List.length_drop, List.length_append] at length
  have among : ∀ slot ∈ slots.take size, slot ∈ slots := fun _ member => List.mem_of_mem_take member
  refine ⟨sliced, ⟨Nat.lt_add_of_pos_right positive, ?_, ?_, ?_, ?_, ?_, ?_⟩⟩
  · change position + size ≤ schedule.length
    omega
  · simpa [ResolvedBatch.size] using within
  · intro slot member n bound'
    rw [sliced] at member
    rw [(run slot (among slot member)).2] at bound'
    cases bound'
    exact lanesBound
  · intro slot member other member'
    rw [sliced] at member member'
    rw [(run slot (among slot member)).1, (run other (among other member')).1]
  · rw [sliced]
    exact distinct
  · intro idle
    rw [sliced]
    have idle' : size < lanes - 0 := by simpa [ResolvedBatch.size] using idle
    have at_ : schedule[position + size]? = (slots ++ rest)[size]? := by
      rw [← here, List.getElem?_drop]
    rcases stops idle' with all | ⟨next, r, found, repetition, seen⟩
    · -- The run of the experiment ends here.
      cases rest with
      | nil =>
          left
          change position + size = schedule.length
          rw [List.length_nil] at length
          omega
      | cons next rest =>
          right
          refine ⟨next, ?_, .inl fun slot member => ?_⟩
          · rw [at_, all, List.getElem?_append_right (Nat.le_refl _), Nat.sub_self]
            rfl
          · rw [(run slot (among slot member)).1]
            exact ends next rfl
    · right
      refine ⟨next, ?_, .inr ⟨r, repetition, ?_⟩⟩
      · rw [at_, List.getElem?_append_left (List.getElem?_eq_some_iff.mp found).1]
        exact found
      · exact seen.resolve_left (List.not_mem_nil)

theorem fill_congr {lanes : Nat} (still : Still candidates candidates') {slots : List Slot} :
    ∀ {taken : Nat} {repetitions : List Repetition},
      fill candidates' lanes taken repetitions slots = fill candidates lanes taken repetitions slots := by
  induction slots with
  | nil => exact rfl
  | cons slot rest ih =>
      intro taken repetitions
      unfold fill
      have same := still.slotAt slot
      cases found : slotAt candidates slot with
      | none =>
          rw [found, Option.map_none, Option.map_eq_none_iff] at same
          rw [same]
      | some measurement =>
          rw [found, Option.map_some, Option.map_eq_some_iff] at same
          obtain ⟨measurement', found', like⟩ := same
          have fresh : measurement'.still.fresh = measurement.still.fresh := by rw [like]
          have repetition : measurement'.still.repetition = measurement.still.repetition := by rw [like]
          change measurement'.fresh = measurement.fresh at fresh
          change measurement'.repetition = measurement.repetition at repetition
          rw [found']
          simp only [fresh, repetition, ih]

theorem Covers.length_le {start stop : Nat} {batches : List ResolvedBatch}
    (covers : Covers start batches stop) : start + batches.length ≤ stop := by
  induction batches generalizing start with
  | nil => exact Nat.le_of_eq covers
  | cons batch rest ih =>
      have later := ih covers.2.2
      have below := covers.2.1
      rw [List.length_cons]
      omega

theorem trailing_le (batches : List ResolvedBatch) (experiment : Option String) :
    trailing candidates schedule batches experiment ≤ batches.length :=
  Nat.le_trans (List.takeWhile_sublist _).length_le (Nat.le_of_eq List.length_reverse)

/-- One run of an experiment is cut into exact batches. -/
theorem cutRun_exact {name : String} {bound lanes : Nat} {rest : List Slot} (distinct : schedule.Nodup)
    (valid : ∀ slot ∈ schedule, (slotAt candidates slot).isSome)
    (some_ : 0 < lanes) (lanesBound : lanes ≤ bound)
    (ends : ∀ next, rest.head? = some next → experimentOf candidates next ≠ some name) (count : Nat) :
    ∀ {slots : List Slot} {position index : Nat} {state : List ResolvedCandidate × List ResolvedBatch},
      slots.length = count →
      schedule.drop position = slots ++ rest →
      (∀ slot ∈ slots, experimentOf candidates slot = some name ∧ boundOf candidates slot = some bound) →
      trailing candidates schedule state.2 (some name) = index →
      Built candidates schedule position state →
      ∃ result, (∀ fuel ≥ slots.length, cutRun bound lanes fuel position index slots state = some result) ∧
        (∀ state', result = .ok state' → Built candidates schedule (position + slots.length) state' ∧
          (slots ≠ [] → ∀ batch, state'.2.getLast? = some batch →
            batch.experiment candidates schedule = some name)) ∧
        (CanonicalProvenances state.1 → bound ≤ maxSafeInteger → schedule.length ≤ maxSafeInteger →
          ∃ state', result = .ok state' ∧ CanonicalProvenances state'.1) := by
  induction count using Nat.strongRecOn with
  | ind count ih =>
  intro slots position index state length here run counted built
  cases slots with
  | nil =>
      refine ⟨.ok state, fun fuel _ => by cases fuel <;> rfl, fun state' is => ?_, fun canonical _ _ =>
        ⟨state, rfl, canonical⟩⟩
      cases is
      exact ⟨built, fun no => absurd rfl no⟩
  | cons slot more =>
      obtain ⟨candidates', batches⟩ := state
      have member : ∀ other ∈ slot :: more, other ∈ schedule := fun other inside =>
        List.mem_of_mem_drop (by rw [here]; exact List.mem_append_left _ inside)
      have found : ∃ size, fill candidates lanes 0 [] (slot :: more) = .ok size :=
        fill_exists (fun other inside => valid other (member other inside)) 0 []
      obtain ⟨size, filled⟩ := found
      have positive := fill_positive some_ filled
      obtain ⟨sliced, exact_⟩ := batch_exact lanesBound positive here run ends filled
      have filled' : fill candidates' lanes 0 [] (slot :: more) = .ok size :=
        (fill_congr built.still).trans filled
      have short := (fill_ok filled).1
      have inside := congrArg List.length here
      rw [List.length_drop, List.length_append] at inside
      have apart : (((slot :: more).take size).zipIdx.map Prod.fst).Nodup := by
        rw [List.zipIdx_map_fst, ← sliced]
        exact (distinct.sublist (List.drop_sublist _ _)).sublist (List.take_sublist _ _)
      have named : (⟨position, position + size, lanes⟩ : ResolvedBatch).experiment candidates schedule =
          some name := by
        have first : schedule[position]? = some slot := by
          rw [← List.head?_drop, here]
          rfl
        rw [ResolvedBatch.experiment, first]
        exact (run slot List.mem_cons_self).1
      cases recorded : thread (recordLane bound index size) candidates'
          ((slot :: more).take size).zipIdx with
      | error e =>
          refine ⟨.error e, fun fuel enough => ?_, (fun _ no => by cases no), fun canonical small total => ?_⟩
          · obtain ⟨fuel, rfl⟩ := Nat.exists_eq_add_one.mpr (Nat.lt_of_lt_of_le (Nat.succ_pos _) enough)
            simp only [cutRun, filled', recorded]
          · have isSome : ∀ entry ∈ ((slot :: more).take size).zipIdx,
                (slotAt candidates' entry.1).isSome := by
              intro entry entryIn
              have same := congrArg Option.isSome (built.still.slotAt entry.1)
              rw [Option.isSome_map, Option.isSome_map] at same
              rw [same]
              exact valid _ (member _ (List.mem_of_mem_take (List.fst_mem_of_mem_zipIdx entryIn)))
            have lanesSafe : ∀ entry ∈ ((slot :: more).take size).zipIdx, entry.2 ≤ maxSafeInteger := by
              intro entry entryIn
              have below := List.snd_lt_of_mem_zipIdx entryIn
              rw [List.length_take] at below
              omega
            have batchesFew : 0 + batches.length ≤ position := built.covers.length_le
            have indexFew : index ≤ batches.length := by
              rw [← counted]
              exact trailing_le batches (some name)
            have safe : bound ≤ maxSafeInteger ∧ index ≤ maxSafeInteger ∧ size ≤ maxSafeInteger :=
              ⟨small, by omega, by omega⟩
            obtain ⟨after, fine⟩ := recordLanes_exists canonical isSome safe lanesSafe
            rw [recorded] at fine
            cases fine
      | ok after =>
          have places := recordLanes_ok apart recorded
          have built' : Built candidates schedule (position + size)
              (after, batches ++ [⟨position, position + size, lanes⟩]) := by
            have bounds : ∀ other ∈ slice schedule ⟨position, position + size, lanes⟩,
                boundOf candidates other = some bound := by
              intro other otherIn
              rw [sliced] at otherIn
              exact (run other (List.mem_of_mem_take otherIn)).2
            refine built.append distinct positive exact_ bounds ?_
            rw [sliced, named, counted]
            exact places
          have here' : schedule.drop (position + size) = (slot :: more).drop size ++ rest := by
            rw [← List.drop_drop, here, List.drop_append_of_le_length short]
          have counted' : trailing candidates schedule
              (batches ++ [⟨position, position + size, lanes⟩]) (some name) = index + 1 := by
            rw [trailing_append named, counted]
          obtain ⟨result, terminates, exact', fine⟩ := ih ((slot :: more).drop size).length
            (by rw [List.length_drop, ← length]; omega) rfl here'
            (fun other otherIn => run other (List.mem_of_mem_drop otherIn)) counted' built'
          have total : position + size + ((slot :: more).drop size).length =
              position + (slot :: more).length := by
            rw [List.length_drop]
            omega
          refine ⟨result, fun fuel enough => ?_, fun state' is => ?_, fun canonical small total => ?_⟩
          · obtain ⟨fuel, rfl⟩ := Nat.exists_eq_add_one.mpr (Nat.lt_of_lt_of_le (Nat.succ_pos _) enough)
            simp only [cutRun, filled', recorded]
            refine terminates fuel ?_
            rw [List.length_drop]
            omega
          · obtain ⟨done, last⟩ := exact' state' is
            rw [total] at done
            refine ⟨done, fun _ batch final => ?_⟩
            by_cases empty : (slot :: more).drop size = []
            · have stopped := terminates 0 (by rw [empty]; exact Nat.le_refl _)
              rw [empty, is] at stopped
              cases stopped
              rw [List.getLast?_concat] at final
              cases final
              exact named
            · exact last empty batch final
          · exact fine (places.canonical canonical) small total

theorem sameExperiment_iff {experiment : String} {slot : Slot} :
    sameExperiment candidates experiment slot = true ↔ experimentOf candidates slot = some experiment := by
  unfold sameExperiment experimentOf
  cases candidates[slot.1]? <;> simp

theorem Still.sameExperiment (still : Still candidates candidates') (name : String) :
    sameExperiment candidates' name = Run.sameExperiment candidates name := by
  funext slot
  rw [Bool.eq_iff_iff, sameExperiment_iff, sameExperiment_iff, still.experimentOf]

/-- The candidates of one experiment share its bound. -/
def SharedBounds (candidates : List ResolvedCandidate) : Prop :=
  ∀ candidate ∈ candidates, ∀ other ∈ candidates, candidate.experiment = other.experiment →
    candidate.maxConcurrency = other.maxConcurrency

theorem boundOf_shared (shared : SharedBounds candidates) {slot other : Slot} {name : String} {bound : Nat}
    (here : experimentOf candidates slot = some name) (is : boundOf candidates slot = some bound)
    (there : experimentOf candidates other = some name) : boundOf candidates other = some bound := by
  obtain ⟨candidate, found, rfl⟩ := Option.map_eq_some_iff.mp here
  obtain ⟨candidate', found', same⟩ := Option.map_eq_some_iff.mp there
  rw [boundOf, found] at is
  cases is
  rw [boundOf, found', Option.map_some]
  exact congrArg some (shared _ (List.mem_of_getElem? found') _ (List.mem_of_getElem? found) same)

/-- The run that starts a nonempty rest of the schedule. -/
theorem head_run {slot : Slot} {name : String} (is : experimentOf candidates slot = some name)
    (more : List Slot) :
    let same := more.takeWhile (sameExperiment candidates name)
    (∀ other ∈ slot :: same, experimentOf candidates other = some name) ∧
      (∀ next, (more.drop same.length).head? = some next → experimentOf candidates next ≠ some name) ∧
      slot :: more = (slot :: same) ++ more.drop same.length := by
  intro same
  have rest : more.drop same.length = more.dropWhile (sameExperiment candidates name) := by
    have split := List.takeWhile_append_dropWhile (p := sameExperiment candidates name) (l := more)
    conv_lhs => rw [← split]
    exact List.drop_left
  refine ⟨fun other member => ?_, fun next head again => ?_, ?_⟩
  · rcases List.mem_cons.mp member with rfl | later
    · exact is
    · exact sameExperiment_iff.mp (List.mem_takeWhile_imp later)
  · rw [rest] at head
    have other := List.head?_dropWhile_not (sameExperiment candidates name) more
    rw [head] at other
    exact absurd (sameExperiment_iff.mpr again) (by simpa using other)
  · rw [rest, List.cons_append, List.takeWhile_append_dropWhile]

theorem cutSchedule_exact (distinct : schedule.Nodup)
    (valid : ∀ slot ∈ schedule, (slotAt candidates slot).isSome) (shared : SharedBounds candidates)
    (positive : ∀ candidate ∈ candidates, 0 < candidate.maxConcurrency) (count : Nat) :
    ∀ {slots : List Slot} {position : Nat} {state : List ResolvedCandidate × List ResolvedBatch},
      slots.length = count →
      schedule.drop position = slots →
      (∀ last next, state.2.getLast? = some last → slots.head? = some next →
        last.experiment candidates schedule ≠ experimentOf candidates next) →
      Built candidates schedule position state →
      ∃ result, (∀ fuel ≥ slots.length, cutSchedule fuel position slots state = some result) ∧
        (∀ state', result = .ok state' → Built candidates schedule (position + slots.length) state') ∧
        (CanonicalProvenances state.1 → (∀ candidate ∈ candidates, candidate.maxConcurrency ≤ maxSafeInteger) →
          schedule.length ≤ maxSafeInteger → ∃ state', result = .ok state') := by
  induction count using Nat.strongRecOn with
  | ind count ih =>
  intro slots position state length here apart built
  cases slots with
  | nil =>
      refine ⟨.ok state, fun fuel _ => by cases fuel <;> rfl, fun state' is => ?_, fun _ _ _ => ⟨state, rfl⟩⟩
      cases is
      exact built
  | cons slot more =>
      obtain ⟨candidates', batches⟩ := state
      have member : slot ∈ schedule := List.mem_of_mem_drop (by rw [here]; exact List.mem_cons_self)
      obtain ⟨measurement, found⟩ := Option.isSome_iff_exists.mp (valid slot member)
      obtain ⟨candidate, at_, -⟩ := Option.bind_eq_some_iff.mp found
      have named : experimentOf candidates slot = some candidate.experiment := by
        rw [experimentOf, at_]
        rfl
      have bounded : boundOf candidates slot = some candidate.maxConcurrency := by
        rw [boundOf, at_]
        rfl
      obtain ⟨candidate', at', named', bounded'⟩ : ∃ candidate', candidates'[slot.1]? = some candidate' ∧
          candidate'.experiment = candidate.experiment ∧
          candidate'.maxConcurrency = candidate.maxConcurrency := by
        have sameName := built.still.experimentOf slot
        have sameBound := built.still.boundOf slot
        rw [named] at sameName
        rw [bounded] at sameBound
        obtain ⟨candidate', at', name⟩ := Option.map_eq_some_iff.mp sameName
        rw [boundOf, at'] at sameBound
        exact ⟨candidate', at', name, Option.some.inj sameBound⟩
      obtain ⟨run, ends, split⟩ := head_run named more
      have runs : ∀ other ∈ slot :: more.takeWhile (sameExperiment candidates candidate.experiment),
          experimentOf candidates other = some candidate.experiment ∧
            boundOf candidates other = some candidate.maxConcurrency :=
        fun other inside => ⟨run other inside, boundOf_shared shared named bounded (run other inside)⟩
      have one := positive candidate (List.mem_of_getElem? at_)
      have none_ : trailing candidates schedule batches (some candidate.experiment) = 0 :=
        trailing_eq_zero fun batch final => named ▸ apart batch slot final rfl
      rw [split] at here
      obtain ⟨cut, terminates, exact_, fine⟩ := cutRun_exact distinct valid
        (show 0 < min candidate.maxConcurrency
          ((more.takeWhile (sameExperiment candidates candidate.experiment)).length + 1) by omega)
        (Nat.min_le_left _ _) ends _ rfl here runs none_ built
      generalize same_ : more.takeWhile (sameExperiment candidates candidate.experiment) = same at *
      have sameLength : same.length ≤ more.length := by
        rw [← same_]
        exact (List.takeWhile_sublist _).length_le
      -- One round of the outer loop.
      have round : ∀ fuel ≥ more.length, cutSchedule (fuel + 1) position (slot :: more)
          (candidates', batches) = match cut with
            | .ok state => cutSchedule fuel (position + (same.length + 1)) (more.drop same.length) state
            | .error e => some (.error e) := by
        intro fuel enough
        have first := terminates (fuel + 1) (by rw [List.length_cons]; omega)
        rw [cutSchedule]
        simp only [at', named', bounded', built.still.sameExperiment, same_, first]
        cases cut <;> rfl
      cases cut with
      | error e =>
          refine ⟨.error e, fun fuel enough => ?_, (fun _ no => by cases no), fun canonical small total => ?_⟩
          · obtain ⟨fuel, rfl⟩ := Nat.exists_eq_add_one.mpr (Nat.lt_of_lt_of_le (Nat.succ_pos _) enough)
            exact round fuel (Nat.le_of_succ_le_succ enough)
          · obtain ⟨_, no, -⟩ := fine canonical (small candidate (List.mem_of_getElem? at_)) total
            cases no
      | ok state =>
          obtain ⟨done, last⟩ := exact_ state rfl
          have here' : schedule.drop (position + (same.length + 1)) = more.drop same.length := by
            rw [← List.drop_drop, here]
            exact List.drop_left
          have apart' : ∀ final next, state.2.getLast? = some final →
              (more.drop same.length).head? = some next →
              final.experiment candidates schedule ≠ experimentOf candidates next := by
            intro final next ended head
            rw [last (List.cons_ne_nil _ _) final ended]
            exact (ends next head).symm
          have rest : (more.drop same.length).length = more.length - same.length := List.length_drop
          obtain ⟨result, terminates', exact', fine'⟩ := ih (more.drop same.length).length
            (by rw [rest, ← length, List.length_cons]; omega) rfl here' apart' done
          have total : position + (same.length + 1) + (more.drop same.length).length =
              position + (slot :: more).length := by
            rw [rest, List.length_cons]
            omega
          refine ⟨result, fun fuel enough => ?_, fun state' is => ?_, fun canonical small total => ?_⟩
          · obtain ⟨fuel, rfl⟩ := Nat.exists_eq_add_one.mpr (Nat.lt_of_lt_of_le (Nat.succ_pos _) enough)
            have enough' := Nat.le_of_succ_le_succ enough
            rw [round fuel enough']
            exact terminates' fuel (by rw [rest]; omega)
          · rw [← total]
            exact exact' state' is
          · obtain ⟨_, is, canonical'⟩ := fine canonical (small candidate (List.mem_of_getElem? at_)) total
            cases is
            exact fine' canonical' small total

/-- What `rebuild_batches` leaves. -/
structure Exact (candidates : List ResolvedCandidate) (schedule : List Slot) (rebuilt : ResolvedRun) :
    Prop where
  slots : rebuilt.schedule = schedule
  still : Still candidates rebuilt.candidates
  covers : Covers 0 rebuilt.batches schedule.length
  concat : rebuilt.batches.flatMap (slice schedule) = schedule
  each : ∀ batch ∈ rebuilt.batches, BatchExact candidates schedule batch
  recorded : Recorded candidates schedule rebuilt.batches rebuilt.candidates

theorem rebuildBatches_exact {resolved : ResolvedRun} (distinct : schedule.Nodup)
    (valid : ∀ slot ∈ schedule, (slotAt resolved.candidates slot).isSome)
    (shared : SharedBounds resolved.candidates)
    (positive : ∀ candidate ∈ resolved.candidates, 0 < candidate.maxConcurrency) :
    ∃ result, (∀ fuel ≥ schedule.length, rebuildBatches fuel resolved schedule = some result) ∧
      (∀ rebuilt, result = .ok rebuilt → Exact resolved.candidates schedule rebuilt) ∧
      (CanonicalProvenances resolved.candidates →
        (∀ candidate ∈ resolved.candidates, candidate.maxConcurrency ≤ maxSafeInteger) →
          schedule.length ≤ maxSafeInteger → ∃ rebuilt, result = .ok rebuilt) := by
  have start : Built resolved.candidates schedule 0 (resolved.candidates, []) := by
    refine ⟨rfl, rfl, by simp, fun before batch after split => ?_⟩
    cases before <;> cases split
  obtain ⟨cut, terminates, exact_, fine⟩ := cutSchedule_exact distinct valid shared positive _ rfl
    List.drop_zero (fun _ _ no => by cases no) start
  refine ⟨cut.map fun state => ⟨state.1, schedule, state.2⟩, fun fuel enough => ?_, fun rebuilt is => ?_,
    fun canonical small total => ?_⟩
  · unfold rebuildBatches
    rw [terminates fuel enough]
    rfl
  · cases cut with
    | error e => cases is
    | ok state =>
        cases is
        have built := exact_ state rfl
        rw [Nat.zero_add] at built
        refine ⟨rfl, built.still, built.covers, ?_, built.each, built.recorded⟩
        rw [built.covers.concat]
        simp
  · obtain ⟨state, rfl⟩ := fine canonical small total
    exact ⟨_, rfl⟩

end Metewand.Run
