import Metewand.Buffered.Collector
import Metewand.Execution.Session

/-!
# Streaming contexts

`StreamingContext` of `runtime/streaming.rs` and the `execute_stream` request of
`runtime/worker_sdk.rs`: the worker's side of a stream.  A call of the native code is answered on
the spot or sends a checkpoint, whose decision it then settles.

A writer is what it returns.  `files` is what the result root shows to who inspects it.
-/

namespace Metewand.Execution

open Lib Lib.Check Buffered

/-- A `checkpoint` or `finish` call. -/
structure Call where
  progress : Progress
  /-- Whether the call is `finish`. -/
  terminal : Bool
  /-- The directory is created and the writer returns its manifest. -/
  written : Except Buffered.Failure String

structure StreamingContext where
  profile : SelectedStreamingProfile
  id : RequestId
  count : Nat := 0
  last : Option Nat := none
  stopped : Option StopReason := none

namespace StreamingContext

def new (profile : SelectedStreamingProfile) (id : RequestId) :
    Except Buffered.Failure StreamingContext := do
  profile.policy.validate.mapError .operationFailed
  profile.checkSchedule.validate.mapError .operationFailed
  reject (profile.policy.maxCheckpointBytes = 0)
    (.operationFailed "streaming requires max-checkpoint-bytes")
  return { profile, id }

variable (context : StreamingContext) (files : Inspection)

/-- The directory of the next snapshot, below the result root. -/
def relative : Components := ["checkpoints".toList, (toString context.count).toList]

/-- The snapshot is written and inspected; its reference is returned. -/
def snapshot (call : Call) : Except Buffered.Failure String := do
  let manifest ← call.written
  let path ← expect (validateRelativePath manifest) (.operationFailed "invalid relative path")
  let reference := referenceText (context.relative ++ path)
  let _ ← (snapshotDirectory files reference context.profile.policy.maxCheckpointBytes).mapError
    .operationFailed
  return reference

/-- `capture` up to the exchange; no checkpoint is sent off the schedule. -/
def capture (call : Call) : Except Buffered.Failure (Option StreamCheckpoint) := do
  reject (context.stopped.isSome = true) (.operationFailed "checkpoint after stop")
  reject (maxSafeInteger < call.progress.checkIndex ∨
      (call.progress.work.entries.any fun entry => maxSafeInteger < entry.2) ∨
      ∃ last ∈ context.last, call.progress.checkIndex ≤ last)
    (.operationFailed "checkpoint progress must increase and use safe integers")
  if call.terminal = false ∧ context.profile.checkSchedule.includes call.progress.checkIndex = false then
    return none
  else do
    reject (context.profile.policy.maxObservations ≤ context.count)
      (.operationFailed "checkpoint count exceeds policy")
    let reference ← context.snapshot files call
    return some {
      id := context.id
      sequence := context.count
      checkIndex := call.progress.checkIndex
      work := call.progress.work
      terminal := call.terminal
      manifest := some reference
      draft := none }

/-- A call up to the exchange; `finish` adds nothing to a stopped stream or to its last check. -/
def request (call : Call) : Except Buffered.Failure (Option StreamCheckpoint) :=
  if call.terminal = true ∧ (context.stopped.isSome = true ∨ context.last = some call.progress.checkIndex) then
    .ok none
  else context.capture files call

/-- `capture` after the exchange.  The text of an unknown reason is the decoder's. -/
def settle (checkpoint : StreamCheckpoint) (decision : StreamDecision) :
    StreamingContext × Except Buffered.Failure Decision :=
  if decision.id ≠ context.id ∨ decision.sequence ≠ context.count ∨
      (checkpoint.terminal = true ∧ decision.action ≠ .stop) then
    (context, .error (.operationFailed "decision does not match the pending checkpoint"))
  else
    let context := { context with count := context.count + 1, last := some checkpoint.checkIndex }
    match decision.action, decision.reason with
    | .continues, none => (context, .ok .continues)
    | .continues, some _ =>
        (context, .error (.operationFailed "continue must omit a stopping reason"))
    | .stop, reason =>
        match StopReason.fromJson (.ofOption .str reason) with
        | some reason => ({ context with stopped := some reason }, .ok (.stop reason))
        | none => (context, .error (.operationFailed "unknown stop reason"))

end StreamingContext

/-! ## The worker -/

/-- How a call went. -/
inductive Answer where
  /-- Off the schedule, or a `finish` with nothing to add. -/
  | skipped
  | refused (failure : Buffered.Failure)
  | decided (checkpoint : StreamCheckpoint) (answer : Except Buffered.Failure Decision)

/-- Native code that makes its calls whatever they answer, and then returns. -/
structure Peer where
  context : StreamingContext
  /-- The calls to come. -/
  calls : List Call
  /-- The call that waits for a decision. -/
  pending : Option (Call × StreamCheckpoint)
  log : List (Call × Answer)

namespace Peer

variable (files : Inspection)

/-- The calls up to the next checkpoint; without one the response declares the count. -/
def advance (context : StreamingContext) : List Call → List (Call × Answer) → Frame × Peer
  | [], log => (.response (some (context.id, .success context.count)), ⟨context, [], none, log⟩)
  | call :: calls, log =>
      match context.request files call with
      | .error failure => advance context calls (log ++ [(call, .refused failure)])
      | .ok none => advance context calls (log ++ [(call, .skipped)])
      | .ok (some checkpoint) => (.event (some checkpoint), ⟨context, calls, some (call, checkpoint), log⟩)

/-- A decision arrives; nobody waits for it without a checkpoint. -/
def hear (peer : Peer) (decision : StreamDecision) : Option (Frame × Peer) :=
  peer.pending.map fun (call, checkpoint) =>
    match peer.context.settle checkpoint decision with
    | (context, answer) => advance files context peer.calls (peer.log ++ [(call, .decided checkpoint answer)])

end Peer

end Metewand.Execution
