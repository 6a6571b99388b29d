import Metewand.Execution.Driver

/-!
# The streaming executor

`run_streaming` of `runtime/fixed_dataset_run/streaming.rs`.  Each checkpoint is inspected,
validated, evaluated and published before the decision that asks for the next message.

A turn holds what the world answers between two messages.  Clocks are read where the code
compares them.
-/

namespace Metewand.Execution

open Lib Lib.Check Effect Buffered

/-- What the world answers while one checkpoint is evaluated. -/
structure Evaluation where
  inspect : Inspection
  /-- The result tree is hashed, copied and found unchanged. -/
  frozen : Except Failure Unit
  /-- `validate_execution_result` of the copy. -/
  result : Except Failure Unit
  /-- The evaluator is launched, for the first checkpoint only. -/
  launched : Except Failure Unit
  bound : Except Failure Unit
  /-- Whether the evaluator's verdict is valid. -/
  evaluated : Except Failure Bool
  unchanged : Except Failure Unit
  metrics : Except Failure Json
  /-- The active time used, in nanoseconds. -/
  used : Nat
  /-- The elapsed and the evaluation time, when they fit their fields. -/
  times : Except Failure (Nat × Nat)
  written : Except Failure Unit
  deadline : Except Failure Unit

/-- One pass of the loop: the evaluation of a checkpoint, and the exchange of its decision. -/
structure Turn where
  evaluation : Evaluation
  exchange : Exchange

structure StreamingRun where
  profile : SelectedStreamingProfile
  store : Store
  /-- The planned observation slots. -/
  slots : Nat
  /-- The lesser of the active time and the timeout, when it is positive and the dataset is intact. -/
  limit : Except Failure Nat
  /-- Directories, launch and accounting. -/
  started : Except Failure Unit
  prepared : Except Failure Unit
  deadline : Except Failure Unit
  first : Exchange
  turns : List Turn
  /-- `integrity.verify` at the end. -/
  verified : Except Failure Unit
  shutdown : Except Failure Unit

/-- The locals of the loop. -/
structure Runner where
  session : Session
  driver : Driver
  previousIndex : Option Nat := none
  previousWork : Work := ∅
  directories : List Components := []
  crossed : List UInt64 := []
  evaluator : Bool := false
  stopReason : StopReason := .implementationStopped

abbrev RunnerStep : Type → Type := Effect Runner Failure

/-- A step of the session, whose errors are those of the implementation. -/
def onSession {α : Type} (step : SessionStep α) : RunnerStep α := fun runner =>
  match step runner.session with
  | (session, outcome) => ({ runner with session }, outcome.mapError .implementation)

theorem onSession_holds {α : Type} {step : SessionStep α} {pre : Runner → Prop} {inner : Session → Prop}
    {innerPost : α → Session → Prop} {innerFails : WorkerSessionError → Session → Prop}
    {post : α → Runner → Prop} {fails : Failure → Runner → Prop}
    (holds : Holds inner step innerPost innerFails) (enter : ∀ r, pre r → inner r.session)
    (after : ∀ a r session, pre r → innerPost a session → post a { r with session })
    (failing : ∀ e r session, pre r → innerFails e session → fails (.implementation e) { r with session }) :
    Holds pre (onSession step) post fails := by
  intro runner start
  have outcome := holds runner.session (enter runner start)
  unfold onSession
  rcases h : step runner.session with ⟨session, result⟩
  rw [h] at outcome
  cases result with
  | ok a => exact after a runner session start outcome
  | error e => exact failing e runner session start outcome

namespace StreamingRun

variable (run : StreamingRun)

def event (event : ProfileEvent) : RunnerStep Unit :=
  within Runner.driver (fun runner driver => { runner with driver }) (onEvent run.store run.slots event)

/-- The progress of a checkpoint continues that of the last. -/
def accepts (runner : Runner) (checkpoint : StreamCheckpoint) : Prop :=
  ¬((∃ n ∈ runner.previousIndex, checkpoint.checkIndex ≤ n) ∨
    (checkpoint.terminal = false ∧ run.profile.checkSchedule.includes checkpoint.checkIndex = false) ∨
    ∃ entry ∈ checkpoint.work.entries, ∃ last ∈ runner.previousWork.get entry.1, entry.2 < last)

instance (runner : Runner) (checkpoint : StreamCheckpoint) : Decidable (run.accepts runner checkpoint) := by
  unfold accepts
  infer_instance

/-- The value of the independent target metric, when the policy has one. -/
def targetMetric (metrics : Json) : RunnerStep (Option UInt64) :=
  match run.profile.policy.metric with
  | none => pure none
  | some name => do
      let value ← answer (expect ((metrics.get name).asF64?.filter F64.isFinite)
        (.invalidStream "independent target metric must be finite and numeric"))
      return some value

def reached (metric : Option UInt64) : Bool :=
  match metric, run.profile.policy.threshold with
  | some value, some target => run.profile.policy.reaches value target
  | _, _ => false

def completion (metric : Option UInt64) : CompletionStatus :=
  if run.reached metric then .reached else if metric.isSome then .notReached else .notRequired

/-- Why the stream stops at this checkpoint, if it does. -/
def reason (metric : Option UInt64) (checkpoint : StreamCheckpoint) (used limit : Nat) : Option StopReason :=
  if run.reached metric then some .targetReached
  else if checkpoint.sequence + 1 = run.profile.policy.maxObservations then
    some (if metric = none then .fixedCount else .observationLimit)
  else if limit ≤ used then some .activeTimeLimit
  else if checkpoint.terminal then some .implementationStopped
  else none

/-- The thresholds first reached here. -/
def crossings (crossed : List UInt64) (metric : Option UInt64) : List UInt64 :=
  run.profile.policy.thresholds.filter fun threshold =>
    !containsF64 crossed threshold && metric.any (run.profile.policy.reaches · threshold)

/-- The snapshot of a checkpoint: its directory, which no earlier checkpoint had. -/
def snapshot (checkpoint : StreamCheckpoint) (evaluation : Evaluation) : RunnerStep Unit := do
  let manifest ← answer (expect checkpoint.manifest .panicked)
  let (directory, _) ← answer ((snapshotDirectory evaluation.inspect manifest
    run.profile.policy.maxCheckpointBytes).mapError .invalidStream)
  let runner ← get
  require (directory ∉ runner.directories) (.invalidStream "checkpoint directories cannot be reused")
  modify fun r => { r with directories := directory :: r.directories }

/-- The evaluator is launched for the first snapshot. -/
def launchEvaluator (evaluation : Evaluation) : RunnerStep Unit := do
  let runner ← get
  if runner.evaluator = true then pure ()
  else do
    answer evaluation.launched
    modify fun r => { r with evaluator := true }

/-- The evaluator's metrics of a snapshot. -/
def evaluate (evaluation : Evaluation) : RunnerStep Json := do
  launchEvaluator evaluation
  answer evaluation.bound
  run.event (.phase .evaluating)
  let valid ← answer evaluation.evaluated
  answer evaluation.unchanged
  require (valid = true) .scientificInvalidResult
  answer evaluation.metrics

/-- A checkpoint up to the decision about it. -/
def observe (limit : Nat) (checkpoint : StreamCheckpoint) (evaluation : Evaluation) :
    RunnerStep (Option StopReason) := do
  let runner ← get
  require (run.accepts runner checkpoint)
    (.invalidStream "checkpoint progress violates its schedule or decreases")
  modify fun r => { r with
    previousIndex := some checkpoint.checkIndex
    previousWork := r.previousWork.extend checkpoint.work }
  run.event (.phase .checkpointing)
  run.snapshot checkpoint evaluation
  answer evaluation.frozen
  run.event (.phase .validating)
  answer evaluation.result
  let metrics ← run.evaluate evaluation
  let metric ← run.targetMetric metrics
  let reason := run.reason metric checkpoint evaluation.used limit
  let runner ← get
  let thresholds := run.crossings runner.crossed metric
  modify fun r => { r with crossed := r.crossed ++ thresholds }
  let (elapsed, evaluationTime) ← answer evaluation.times
  answer evaluation.written
  run.event (.observation {
    metrics
    completion := run.completion metric
    profile := .streaming {
      checkpointSequence := checkpoint.sequence
      checkIndex := checkpoint.checkIndex
      work := checkpoint.work.entries
      terminal := checkpoint.terminal
      thresholds
      activeTimeNs := evaluation.used
      elapsedWallTimeNs := elapsed
      evaluationTimeNs := evaluationTime
      decision := if reason.isSome then "stop" else "continue"
      stopReason := reason } })
  return reason

/-- The decision about a checkpoint, and the message it is answered with. -/
def proceed (reason : Option StopReason) (turn : Turn) : RunnerStep StreamMessage :=
  match reason with
  | some stop => do
      modify fun r => { r with stopReason := stop }
      onSession (decideStream .stop (some stop.name) turn.exchange)
  | none => do
      run.event (.phase .executing)
      answer turn.evaluation.deadline
      onSession (decideStream .continues none turn.exchange)

/-- The loop; a worker that sends no more has closed its pipe. -/
def loop (limit : Nat) : StreamMessage → List Turn → RunnerStep Unit
  | .finished _, _ => pure ()
  | .checkpoint _, [] => fail (.implementation (.process "closed"))
  | .checkpoint checkpoint, turn :: turns => do
      let reason ← run.observe limit checkpoint turn.evaluation
      let message ← run.proceed reason turn
      loop limit message turns

/-- The closure of `run_streaming`. -/
def stream (limit : Nat) : RunnerStep Unit := do
  answer run.started
  run.event (.phase .preparing)
  answer run.prepared
  run.event (.phase .executing)
  answer run.deadline
  let message ← onSession (startStream run.profile run.first)
  run.loop limit message run.turns
  let runner ← get
  run.event (.stopped runner.stopReason)

def runStreaming : RunnerStep Unit := do
  let limit ← answer run.limit
  let result ← capture (run.stream limit)
  answer run.verified
  answer result
  answer run.shutdown

end StreamingRun

end Metewand.Execution
