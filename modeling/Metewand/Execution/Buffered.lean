import Metewand.Execution.Driver

/-!
# The buffered executor

`run_buffered` of `runtime/fixed_dataset_run/buffered.rs`: one execution returns a buffer, which is
validated as a whole and published before its snapshots are evaluated one by one.
-/

namespace Metewand.Execution

open Lib Lib.Check Effect Buffered

/-- What the world answers for one snapshot. -/
structure SnapshotEvaluation where
  /-- The copy, its validation and its tree. -/
  prepared : Except Failure Unit
  /-- Whether the evaluator's verdict is valid. -/
  evaluated : Except Failure Bool
  unchanged : Except Failure Unit
  metrics : Except Failure Json
  record : BufferedObservationRecord
  written : Except Failure Unit
  /-- The metrics of the snapshot agree with those of its trace point. -/
  agreement : Except Failure Unit

structure BufferedRun where
  policy : ProfilePolicy
  store : Store
  /-- The planned observation slots. -/
  slots : Nat
  /-- Directories, launch and handshake. -/
  started : Except Failure Unit
  prepared : Except Failure Unit
  executed : Except Failure Unit
  /-- `validate_buffer`, the instrumented scope, the frozen copy and the check of every snapshot. -/
  validated : Except Failure StopReason
  snapshots : List SnapshotEvaluation
  /-- The evaluator is launched and bound. -/
  evaluator : Except Failure Unit
  shutdown : Except Failure Unit

namespace BufferedRun

variable (run : BufferedRun)

def event (event : ProfileEvent) : DriverStep Unit := onEvent run.store run.slots event

def completion (metrics : Json) : DriverStep CompletionStatus :=
  match run.policy.metric, run.policy.threshold with
  | some metric, some target => do
      let value ← answer (expect ((metrics.get metric).asF64?.filter F64.isFinite)
        (.invalidBuffer "independent target metric must be finite and numeric"))
      return if run.policy.reaches value target then .reached else .notReached
  | _, _ => return .notRequired

def observe (snapshot : SnapshotEvaluation) : DriverStep Unit := do
  answer snapshot.prepared
  let valid ← answer snapshot.evaluated
  answer snapshot.unchanged
  require (valid = true) .scientificInvalidResult
  let metrics ← answer snapshot.metrics
  let completion ← run.completion metrics
  answer snapshot.written
  run.event (.observation { metrics, completion, profile := .buffered snapshot.record })
  answer snapshot.agreement

def runBuffered : DriverStep Unit := do
  answer run.started
  run.event (.phase .preparing)
  answer run.prepared
  run.event (.phase .executing)
  answer run.executed
  run.event (.phase .validating)
  let stopReason ← answer run.validated
  run.event (.buffer run.snapshots.length stopReason)
  answer run.evaluator
  run.event (.phase .evaluating)
  forEach run.observe run.snapshots
  answer run.shutdown

end BufferedRun

end Metewand.Execution
