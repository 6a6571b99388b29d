import Metewand.Buffered.Documents
import Metewand.Lib.Check

/-!
# The buffered collector

`BufferedTrace` of `runtime/buffered.rs`.  A call of the collector maps a state to its
answer and the next state.  The clock is the sequence of its readings, and the state counts
how many were taken.  The callbacks that measure and freeze the current iterate are their
results; a call evaluates them only where the source does.

A check first admits the progress, then prepares the row and the snapshot it would add, and
commits both.  Nothing but the clock moves before the commit (`check_cases`).
-/

namespace Metewand.Buffered

open Lib Lib.Check

/-! ## Calls and answers -/

inductive Failure where
  | operationFailed (message : String)
  | resourceLimit (message : String)
  | canonical (violation : Json.CanonicalValueViolation)
  /-- An `expect` that did not hold. -/
  | panicked (message : String)
  deriving DecidableEq

inductive Decision where
  | continues
  | stop (reason : StopReason)
  deriving DecidableEq, Repr

/-- What a measuring or freezing callback returns. -/
abbrev Callback : Type := Except Failure Json

/-! ## The collector -/

structure BufferedTrace where
  profile : SelectedBufferedProfile
  points : List TracePoint
  snapshots : List (BufferedSnapshot × List UInt8)
  traceBytes : Nat
  snapshotBytes : Nat
  reached : List UInt64
  stopped : Option StopReason
  finished : Bool
  total : Nat
  adopted : Option String
  /-- Clock readings taken so far. -/
  readings : Nat

def zeroHash : String := String.ofList (List.replicate 64 '0')

def snapshotPath (ordinal : Nat) : String := "snapshots/" ++ toString ordinal ++ "/result.json"

/-- The result document of a frozen iterate. -/
def resultDocument (data : Json) : Json :=
  .object [("schema_version", .nat 1), ("data", data), ("files", .arr [])]

namespace BufferedTrace

def withClock (profile : SelectedBufferedProfile) : Except String BufferedTrace := do
  profile.policy.validate
  profile.policy.validateBuffered
  profile.checkSchedule.validate
  return {
    profile := profile, points := [], snapshots := [], traceBytes := 0, snapshotBytes := 0
    reached := [], stopped := none, finished := false, total := 0, adopted := none
    readings := 0 }

variable (t : BufferedTrace)

abbrev policy : ProfilePolicy := t.profile.policy

/-- The check the schedule asks for next. -/
def expected : Option Nat :=
  t.profile.checkSchedule.nextAfter (t.points.getLast?.map (·.checkIndex))

/-- What is refused before the clock is read. -/
def enter (progress : Progress) : Except Failure Unit := do
  reject (t.finished ∨ t.stopped.isSome ∨ t.adopted.isSome)
    (.operationFailed "recording after stop or finish violates the buffered contract")
  reject (maxSafeInteger < progress.checkIndex ∨
      progress.work.entries.any fun entry => maxSafeInteger < entry.2)
    (.operationFailed "progress must contain safe integers")
  reject (t.points.getLast?.any fun p => progress.checkIndex ≤ p.checkIndex || behind p.work progress.work)
    (.operationFailed "progress and work counts must increase monotonically")
  reject (t.expected.any (· < progress.checkIndex))
    (.operationFailed "a scheduled check was skipped")

/-- The target metric must be a finite number where the policy names one. -/
def targetValue (metrics : Json) : Except Failure (Option UInt64) :=
  match t.policy.metric with
  | none => .ok none
  | some metric =>
      (expect ((metrics.get metric).asF64?.filter F64.isFinite)
        (.operationFailed "provisional target metric must be finite and numeric")).map some

/-- The thresholds reached for the first time. -/
def crossed (value : Option UInt64) : List UInt64 :=
  t.policy.thresholds.filter fun threshold =>
    !containsF64 t.reached threshold && value.any (t.policy.reaches · threshold)

/-- The causes that are looked at before the observations are counted. -/
def reasonOf (value : Option UInt64) (elapsed active : Nat) (terminal : Bool) :
    Option StopReason :=
  if value.any fun v => t.policy.threshold.any (t.policy.reaches v ·) then some .targetReached
  else if terminal then some .implementationStopped
  else if active ≤ elapsed then some .activeTimeLimit
  else if t.policy.maxTracePoints ≤ t.points.length + 1 then some .traceLimit
  else none

def captures (crossed : List UInt64) (reason : Option StopReason) : Bool :=
  t.policy.metric.isNone || !crossed.isEmpty || reason.isSome

/-- The last snapshot the policy admits stops the run. -/
def countedReason (crossed : List UInt64) (reason : Option StopReason) : Option StopReason :=
  if t.captures crossed reason ∧ t.policy.maxObservations ≤ t.snapshots.length + 1 ∧
      reason.isNone then
    some (if t.policy.metric.isNone then .fixedCount else .observationLimit)
  else reason

/-- A snapshot of the last row. -/
def save (thresholds : List UInt64) (data : List UInt8) : BufferedTrace :=
  { t with
    snapshotBytes := t.snapshotBytes + data.length
    snapshots := t.snapshots ++ [({
      captureOrdinal := t.snapshots.length
      traceIndex := t.points.length - 1
      thresholds := thresholds
      manifest := snapshotPath t.snapshots.length }, data)] }

def manifest (total : Nat) (reason : StopReason) (files : List BufferFile) : BufferedManifest where
  schemaVersion := 1
  complete := true
  clock := "monotonic_ns"
  instrumentedScope := t.profile.instrumentedScope
  instrumentedTotalTimeNs := total
  stopReason := reason
  trace := "trace.jsonl"
  snapshots := t.snapshots.map Prod.fst
  files := files

/-- The manifest a byte estimate is made for. -/
def estimate (extraTrace : Nat) (extraSnapshot : Option (List UInt8)) : BufferedManifest :=
  let files := ⟨"trace.jsonl", zeroHash, t.traceBytes + extraTrace⟩ ::
    t.snapshots.map fun saved => ⟨saved.1.manifest, zeroHash, saved.2.length⟩
  let manifest := t.manifest maxSafeInteger .implementationStopped files
  match extraSnapshot with
  | none => manifest
  | some data =>
      { manifest with
        files := manifest.files ++ [⟨snapshotPath t.snapshots.length, zeroHash, data.length⟩]
        snapshots := manifest.snapshots ++ [{
          captureOrdinal := t.snapshots.length
          traceIndex := t.points.length
          thresholds := t.policy.thresholds
          manifest := snapshotPath t.snapshots.length }] }

/-- One reading of the clock. -/
def tick : BufferedTrace := { t with readings := t.readings + 1 }

section Library

variable (lib : JsonLibrary)

def bytes (v : Json) : Except Failure (List UInt8) := (lib.bytes v).mapError .canonical

def estimatedBytes (extraTrace : Nat) (extraSnapshot : Option (List UInt8)) :
    Except Failure Nat := do
  let encoded ← bytes lib (t.estimate extraTrace extraSnapshot).json
  return t.traceBytes + extraTrace + t.snapshotBytes + extraSnapshot.elim 0 List.length +
    encoded.length

/-- A row about to be recorded, its bytes, and why it stops the run. -/
structure Row where
  point : TracePoint
  encoded : List UInt8
  reason : Option StopReason

def row (point : TracePoint) (reason : Option StopReason) : Except Failure Row := do
  let point := { point with terminal := reason.isSome }
  return { point := point, encoded := ← bytes lib point.json, reason := reason }

/-- Regular collection must leave the terminal allowance. -/
def limited (captured : Option (List UInt8)) (entry : Row) : Except Failure Row :=
  if entry.reason.isSome then .ok entry
  else do
    let size ← t.estimatedBytes lib (entry.encoded.length + 1) captured
    if t.policy.maxBufferBytes - t.policy.terminalReserveBytes < size then
      row lib entry.point (some .byteLimit)
    else return entry

def capture (snapshot : Callback) : Except Failure (List UInt8) := do
  let data ← snapshot
  bytes lib (resultDocument data)

/-- The encoded result is read back and its data must be an object. -/
def objectData (data : List UInt8) : Except Failure Unit := do
  let document ← expect (lib.fromSlice data) (.panicked "encoded result")
  reject (¬ (document.value.get "data").isObject)
    (.operationFailed "snapshot data must be an object")

/-- The snapshot, where one is wanted. -/
def frozen (wanted : Bool) (snapshot : Callback) : Except Failure (Option (List UInt8)) :=
  if wanted then do
    let data ← capture lib snapshot
    objectData lib data
    return some data
  else .ok none

/-- What a check records. -/
structure Entry where
  row : Row
  captured : Option (List UInt8)
  crossed : List UInt64

/-- Measuring: an object of canonical values. -/
def measured (measure : Callback) : Except Failure Json := do
  let metrics ← measure
  reject (¬ metrics.isObject) (.operationFailed "provisional metrics must be an object")
  let _ ← (CanonicalValue.tryFrom metrics).mapError Failure.canonical
  return metrics

def prepare (progress : Progress) (metrics : Json) (elapsed active : Nat) (snapshot : Callback)
    (terminal : Bool) : Except Failure Entry := do
  reject (maxSafeInteger < elapsed ∨ t.points.getLast?.any (elapsed < ·.instrumentedTimeNs))
    (.operationFailed "instrumented clock must be monotonic safe nanoseconds")
  let value ← t.targetValue metrics
  let crossed := t.crossed value
  let first := t.reasonOf value elapsed active terminal
  let reason := t.countedReason crossed first
  let entry ← row lib ⟨progress.checkIndex, progress.work, metrics, elapsed, false⟩ reason
  let entry ← t.limited lib none entry
  let captured ← frozen lib (t.captures crossed first || entry.reason.isSome) snapshot
  let entry ← t.limited lib captured entry
  let size ← t.estimatedBytes lib (entry.encoded.length + 1) captured
  reject (t.policy.maxBufferBytes < size)
    (.resourceLimit "terminal check and snapshot exceed max-buffer-bytes")
  return { row := entry, captured := captured, crossed := crossed }

def decision : Option StopReason → Decision
  | none => .continues
  | some reason => .stop reason

/-- The row without its snapshot. -/
def push (entry : Row) : BufferedTrace :=
  { t with
    traceBytes := t.traceBytes + (entry.encoded.length + 1)
    points := t.points ++ [entry.point] }

def settle (entry : Entry) : BufferedTrace :=
  { t with reached := t.reached ++ entry.crossed, stopped := entry.row.reason }

def commit (entry : Entry) : Except Failure Decision × BufferedTrace :=
  let pushed := t.push entry.row
  match entry.captured with
  | none => (.ok (decision entry.row.reason), pushed.settle entry)
  | some data =>
      if t.policy.maxObservations ≤ t.snapshots.length then
        (.error (.resourceLimit "terminal snapshot exceeds max-observations"), pushed)
      else (.ok (decision entry.row.reason), (pushed.save entry.crossed data).settle entry)

section Clock

variable (clock : Nat → Nat)

/-- A check that is not due: neither terminal, nor expired, nor scheduled. -/
def undue (progress : Progress) (active : Nat) (terminal : Bool) : Bool :=
  !terminal && !decide (active ≤ clock t.readings) && decide (t.expected ≠ some progress.checkIndex)

def check (progress : Progress) (measure snapshot : Callback) (terminal : Bool) :
    Except Failure Decision × BufferedTrace :=
  match t.enter progress, t.policy.activeTimeNs with
  | .error e, _ => (.error e, t)
  | .ok (), .error e => (.error (.operationFailed e), t.tick)
  | .ok (), .ok active =>
      if t.undue clock progress active terminal then (.ok .continues, t.tick)
      else
        match measured measure with
        | .error e => (.error e, t.tick)
        | .ok metrics =>
            match t.prepare lib progress metrics (clock (t.readings + 1)) active snapshot terminal with
            | .error e => (.error e, t.tick.tick)
            | .ok entry => t.tick.tick.commit entry

def observe (progress : Progress) (measure snapshot : Callback) :
    Except Failure Decision × BufferedTrace :=
  t.check lib clock progress measure snapshot false

def record (progress : Progress) (metrics : Json) (snapshot : Callback) :
    Except Failure Decision × BufferedTrace :=
  t.check lib clock progress (.ok metrics) snapshot false

/-! ## Finishing -/

/-- The last row has a snapshot. -/
def savedLast : Bool := t.snapshots.getLast?.any fun saved => saved.1.traceIndex = t.points.length - 1

def terminalSnapshot (snapshot : Callback) : Except Failure BufferedTrace :=
  if t.savedLast then .ok t
  else do
    let data ← capture lib snapshot
    let size ← t.estimatedBytes lib 0 (some data)
    reject (t.policy.maxBufferBytes < size) (.resourceLimit "terminal snapshot does not fit")
    reject (t.policy.maxObservations ≤ t.snapshots.length)
      (.resourceLimit "terminal snapshot count exceeded")
    return t.save [] data

/-- The last row is the terminal one. -/
def markTerminal : BufferedTrace :=
  { t with points := t.points.modify (t.points.length - 1) fun p => { p with terminal := true } }

/-- The run stops at the latest here, and the total time is read. -/
def close : Except Failure Unit × BufferedTrace :=
  let total := clock t.readings
  let closed := { t with
    stopped := some (t.stopped.getD .implementationStopped)
    total := total
    readings := t.readings + 1 }
  if maxSafeInteger < total ∨ t.points.getLast?.any (total < ·.instrumentedTimeNs) then
    (.error (.operationFailed "invalid total instrumented duration"), closed)
  else (.ok (), { closed with finished := true })

/-- Finish at the row that is already recorded. -/
def finishLast (last : TracePoint) (progress : Progress) (snapshot : Callback) :
    Except Failure Unit × BufferedTrace :=
  if last.work.entries ≠ progress.work.entries then
    (.error (.operationFailed "terminal work changed without advancing progress"), t)
  else
    match t.terminalSnapshot lib snapshot with
    | .error e => (.error e, t)
    | .ok saved => saved.markTerminal.close clock

def finish (progress : Progress) (measure snapshot : Callback) :
    Except Failure Unit × BufferedTrace :=
  if t.finished ∨ t.adopted.isSome then
    (.error (.operationFailed "buffer was already finished"), t)
  else
    match t.points.getLast?.filter fun p => p.checkIndex = progress.checkIndex with
    | some last => t.finishLast lib clock last progress snapshot
    | none =>
        match t.check lib clock progress measure snapshot true with
        | (.error e, t') => (.error e, t')
        | (.ok _, t') => t'.close clock

end Clock

/-! ## Writing -/

section Hash

variable (sha256 : List UInt8 → Digest)

def file (path : String) (data : List UInt8) : BufferFile :=
  ⟨path, (sha256 data).hex, data.length⟩

/-- The rows of the trace, each with its newline. -/
def traceText (points : List TracePoint) : Except Failure (List UInt8) := do
  let rows ← traverseAll (fun point : TracePoint => bytes lib point.json) points
  return rows.flatMap (· ++ [10])

/-- The files a finished collector writes, in order, and the manifest it answers with. -/
def write : Except Failure (String × List (String × List UInt8)) := do
  reject (t.finished = false)
    (.operationFailed "execute_buffered must finish the terminal check before returning")
  match t.adopted with
  | some manifest => return (manifest, [])
  | none => do
      let trace ← traceText lib t.points
      let saved := t.snapshots.map fun saved => (saved.1.manifest, saved.2)
      let files := file sha256 "trace.jsonl" trace :: saved.map fun s => file sha256 s.1 s.2
      let manifest := t.manifest t.total (t.stopped.getD .implementationStopped) files
      let data ← bytes lib manifest.json
      reject (t.policy.maxBufferBytes < trace.length + t.snapshotBytes + data.length)
        (.resourceLimit "completed buffer exceeds byte bound")
      return ("buffer.json", ("trace.jsonl", trace) :: saved ++ [("buffer.json", data)])

end Hash

end Library

end BufferedTrace

end Metewand.Buffered
