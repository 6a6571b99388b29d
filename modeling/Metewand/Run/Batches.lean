import Metewand.Core.Encoding
import Metewand.Lib.Check
import Mathlib.Data.List.TakeWhile

/-!
# Fixed batches

`rebuild_batches` of `runtime/run/selection.rs`: the schedule is cut into the runs of one
experiment, each run into batches of at most its lanes, and a batch ends early before a
second point of one fresh repetition.  The position of every slot is recorded in its
provenance.

The middle loop advances by the size of its batch, so it is given fuel and runs out when a
batch is empty.
-/

namespace Metewand.Run

open Lib Lib.Check

/-! ## Resolved runs -/

/-- Positions of a candidate and of one of its measurements. -/
abbrev Slot : Type := Nat × Nat

/-- What identifies one fresh sequence. -/
abbrev Repetition : Type := RecordId .resolvedSpecification × Nat

structure ResolvedMeasurement where
  fresh : Option FreshControl
  specification : RecordId .resolvedSpecification
  /-- The measurement index of the comparison block. -/
  measurementIndex : Nat
  provenance : Json

def ResolvedMeasurement.repetition (measurement : ResolvedMeasurement) : Repetition :=
  (measurement.specification, measurement.measurementIndex)

structure ResolvedCandidate where
  experiment : String
  maxConcurrency : Nat
  measurements : List ResolvedMeasurement

structure ResolvedBatch where
  start : Nat
  stop : Nat
  laneCount : Nat

def ResolvedBatch.size (batch : ResolvedBatch) : Nat := batch.stop - batch.start

structure ResolvedRun where
  candidates : List ResolvedCandidate
  schedule : List Slot
  batches : List ResolvedBatch

inductive RunError where
  | canonical (violation : Json.CanonicalValueViolation)
  | io
  | store
  | executionThreadPanic
  /-- An index out of range. -/
  | panicked
  deriving DecidableEq

def slotAt (candidates : List ResolvedCandidate) (slot : Slot) : Option ResolvedMeasurement :=
  candidates[slot.1]?.bind fun candidate => candidate.measurements[slot.2]?

def setProvenance (candidates : List ResolvedCandidate) (slot : Slot) (provenance : Json) :
    List ResolvedCandidate :=
  candidates.modify slot.1 fun candidate =>
    { candidate with
      measurements := candidate.measurements.modify slot.2 fun measurement =>
        { measurement with provenance := provenance } }

/-! ## Recording a position -/

/-- `value[key] = ..` on a JSON value. -/
def indexSet (key : String) (value : Json) : Json → Except RunError Json
  | .obj members => .ok (.obj (Json.insertMember key value members))
  | .null => .ok (.obj [(key, value)])
  | _ => .error .panicked

def canonical (v : Json) : Except RunError Json := v.normalize.mapError .canonical

def concurrency (bound batchIndex batchSize lane : Nat) : Json :=
  .object [("max_concurrency", .nat bound), ("dispatch", .str "fixed_batches"),
    ("batch_index", .nat batchIndex), ("batch_size", .nat batchSize), ("lane_index", .nat lane)]

/-- One slot of a batch learns its place. -/
def recordLane (bound batchIndex batchSize : Nat) (candidates : List ResolvedCandidate)
    (entry : Slot × Nat) : Except RunError (List ResolvedCandidate) := do
  let measurement ← expect (slotAt candidates entry.1) .panicked
  let value ← indexSet "concurrency" (concurrency bound batchIndex batchSize entry.2)
    measurement.provenance
  let provenance ← canonical value
  return setProvenance candidates entry.1 provenance

/-! ## Cutting the schedule -/

/-- The slots a batch takes: at most `lanes`, and no second point of a fresh repetition. -/
def fill (candidates : List ResolvedCandidate) (lanes : Nat) :
    Nat → List Repetition → List Slot → Except RunError Nat
  | _, _, [] => .ok 0
  | taken, repetitions, slot :: rest =>
      if lanes ≤ taken then .ok 0
      else
        match slotAt candidates slot with
        | none => .error .panicked
        | some measurement =>
            if measurement.fresh.isSome ∧ measurement.repetition ∈ repetitions then .ok 0
            else
              (fill candidates lanes (taken + 1)
                (if measurement.fresh.isSome then measurement.repetition :: repetitions
                  else repetitions) rest).map (· + 1)

/-- The batches of one experiment's run, from a position of the schedule on. -/
def cutRun (bound lanes : Nat) : Nat → Nat → Nat → List Slot →
    List ResolvedCandidate × List ResolvedBatch →
      Option (Except RunError (List ResolvedCandidate × List ResolvedBatch))
  | _, _, _, [], state => some (.ok state)
  | 0, _, _, _ :: _, _ => none
  | fuel + 1, start, batchIndex, slot :: rest, (candidates, batches) =>
      match fill candidates lanes 0 [] (slot :: rest) with
      | .error e => some (.error e)
      | .ok size =>
          match thread (recordLane bound batchIndex size) candidates
              ((slot :: rest).take size).zipIdx with
          | .error e => some (.error e)
          | .ok candidates =>
              cutRun bound lanes fuel (start + size) (batchIndex + 1) ((slot :: rest).drop size)
                (candidates, batches ++ [⟨start, start + size, lanes⟩])

def sameExperiment (candidates : List ResolvedCandidate) (experiment : String) (slot : Slot) : Bool :=
  candidates[slot.1]?.any fun candidate => candidate.experiment = experiment

/-- The runs of one experiment, from a position of the schedule on. -/
def cutSchedule : Nat → Nat → List Slot → List ResolvedCandidate × List ResolvedBatch →
    Option (Except RunError (List ResolvedCandidate × List ResolvedBatch))
  | _, _, [], state => some (.ok state)
  | 0, _, _ :: _, _ => none
  | fuel + 1, start, slot :: rest, (candidates, batches) =>
      match candidates[slot.1]? with
      | none => some (.error .panicked)
      | some candidate =>
          let same := rest.takeWhile (sameExperiment candidates candidate.experiment)
          let lanes := min candidate.maxConcurrency (same.length + 1)
          match cutRun candidate.maxConcurrency lanes (fuel + 1) start 0 (slot :: same)
              (candidates, batches) with
          | some (.ok state) =>
              cutSchedule fuel (start + (same.length + 1)) (rest.drop same.length) state
          | failed => failed

/-- `rebuild_batches`, for at most `fuel` rounds of each loop. -/
def rebuildBatches (fuel : Nat) (resolved : ResolvedRun) (schedule : List Slot) :
    Option (Except RunError ResolvedRun) :=
  (cutSchedule fuel 0 schedule (resolved.candidates, [])).map fun result =>
    result.map fun state => { candidates := state.1, schedule := schedule, batches := state.2 }

end Metewand.Run
