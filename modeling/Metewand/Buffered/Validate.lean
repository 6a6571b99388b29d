import Metewand.Buffered.Collector
import Metewand.Evidence.LocalTree
import Mathlib.Data.List.Range

/-!
# Validating a buffer

`validate_buffer` of `runtime/buffered.rs`: the files below a directory are listed, the
manifest and the trace are read, and every row, snapshot, stop reason and proper prefix is
checked.  The directory does not change while it is read.

Paths are compared by their components, as `Path` compares them.
-/

namespace Metewand.Buffered

open Lib Lib.Check Evidence

/-! ## Paths -/

def pathParts (path : String) : List (List Char) := path.toList.splitOn '/'

/-- A normalized relative path. -/
def safePath (path : String) : Bool :=
  path ≠ "" && !(path.toList.any fun c => c = '\\' ∨ c.toNat = 0) &&
    !(pathParts path).any fun p => p = [] ∨ p = ['.'] ∨ p = ['.', '.'] ∨ ':' ∈ p

/-- `Path::components`: repeated separators and inner dots are passed over. -/
def components (path : String) : List (List Char) :=
  (match pathParts path with
    | [] :: _ :: _ => [['/']]
    | ['.'] :: _ => [['.']]
    | _ => []) ++ (pathParts path).filter fun p => p ≠ [] ∧ p ≠ ['.']

def samePath (a b : String) : Bool := components a = components b

/-- `Path::parent`, by its components. -/
def parent (path : String) : Option (List (List Char)) :=
  match components path with
  | [] | [['/']] => none
  | parts => some parts.dropLast

/-- `Path::starts_with`. -/
def startsWithPath (directory : List (List Char)) (path : String) : Bool :=
  directory.isPrefixOf (components path)

/-- A path that ends in a separator or a dot names a directory. -/
def namesDirectory (path : String) : Bool :=
  (pathParts path).getLast?.any fun p => p = [] ∨ p = ['.']

/-! ## Files -/

/-- Why a buffer is refused. -/
inductive InvalidBuffer where
  | text (message : String)
  | tree (error : LocalTreeHashError)
  | unreadable (path : String)
  | json
  deriving DecidableEq

/-- Regular files with their paths below the buffer. -/
abbrev Files : Type := List (String × List UInt8)

def Files.find (files : Files) (path : String) : Option (List UInt8) :=
  (files.find? fun f => samePath f.1 path).map Prod.snd

/-- `fs::read` below the root. -/
def Files.read (files : Files) (path : String) : Except InvalidBuffer (List UInt8) :=
  if namesDirectory path then .error (.unreadable path)
  else expect (files.find path) (.unreadable path)

def Files.size (files : Files) : Nat := (files.map (·.2.length)).sum

def inventoryEntry (entry : TreeEntry) : Except InvalidBuffer Files := do
  reject (safePath entry.path = false) (.text "buffer path must be normalized and relative")
  match entry.entry with
  | .directory => return []
  | .file content _ => return [(entry.path, content)]
  | _ => throw (.text "buffer entries must be regular files or directories")

/-- `inventory_files`: only regular files below directories, all with safe paths. -/
def inventoryFiles (root : Node) : Except InvalidBuffer Files := do
  reject (root.entry ≠ .directory) (.unreadable "")
  let found ← traverseAll inventoryEntry (root.entries "")
  return found.flatten

/-! ## The declared files -/

section Check

variable (lib : JsonLibrary) (sha256 : List UInt8 → Digest)

/-- One declared file: new, present, of its size, and with its hash. -/
def declare (actual : Files) (declared : List String) (entry : BufferFile) :
    Except InvalidBuffer (List String) := do
  reject (safePath entry.path = false) (.text "buffer path must be normalized and relative")
  reject (declared.any (samePath entry.path) ∨
      (actual.find entry.path).map List.length ≠ some entry.sizeBytes)
    (.text "duplicate, missing, or incorrectly sized buffer file")
  let data ← actual.read entry.path
  reject ((sha256 data).hex ≠ entry.sha256) (.text "buffer file hash mismatch")
  return declared ++ [entry.path]

/-- The declared paths are the paths of the files, as sets. -/
def sameKeys (declared : List String) (actual : Files) : Bool :=
  declared.all (fun path => actual.any fun f => samePath f.1 path) &&
    actual.all fun f => declared.any (samePath f.1)

/-! ## The trace -/

def traceLines (trace : List UInt8) : List (List UInt8) :=
  (trace.splitOn 10).filter (· ≠ [])

def readRow (limit : Nat) (points : List TracePoint) (line : List UInt8) :
    Except InvalidBuffer (List TracePoint) := do
  let value ← expect (lib.fromSlice line) .json
  let point ← expect (TracePoint.fromJson value.value) .json
  reject (limit < (points ++ [point]).length) (.text "trace point bound exceeded")
  return points ++ [point]

variable (profile : SelectedBufferedProfile)

/-- Whether a row reaches a threshold. -/
def reachesAt (threshold : UInt64) (p : TracePoint) : Bool :=
  (metricOf profile.policy p.provisionalMetrics).any (profile.policy.reaches · threshold)

/-- The next expected check, and the row before. -/
structure Cursor where
  expected : Option Nat
  previous : Option TracePoint

/-- A row that does not end the run met no required stop. -/
def checkContinued (p : TracePoint) : Except InvalidBuffer Unit :=
  if p.terminal then .ok ()
  else do
    let active ← profile.policy.activeTimeNs.mapError .text
    reject (active ≤ p.instrumentedTimeNs ∨
        profile.policy.threshold.any (reachesAt profile · p))
      (.text "execution continued after a required local stop")

def checkPoint (total : Nat) (cursor : Cursor) (p : TracePoint) : Except InvalidBuffer Cursor := do
  reject (maxSafeInteger < p.checkIndex ∨ total < p.instrumentedTimeNs ∨
      ¬ p.provisionalMetrics.isObject ∨
      (p.terminal = false ∧ some p.checkIndex ≠ cursor.expected) ∨
      (p.terminal ∧ cursor.expected.any (· < p.checkIndex)) ∨
      p.work.entries.any fun entry => maxSafeInteger < entry.2)
    (.text "invalid trace clock, progress, metrics, or check schedule")
  reject (cursor.previous.any fun previous => p.checkIndex ≤ previous.checkIndex ||
      p.instrumentedTimeNs < previous.instrumentedTimeNs || behind previous.work p.work)
    (.text "trace progress, times, and work counts must be monotonic")
  reject (profile.policy.metric.isSome ∧
      ¬ (metricOf profile.policy p.provisionalMetrics).any F64.isFinite)
    (.text "trace target metric must be finite and numeric")
  checkContinued profile p
  return ⟨profile.checkSchedule.nextAfter (some p.checkIndex), some p⟩

/-! ## The snapshots -/

/-- What the snapshots so far claim. -/
structure Claims where
  ordinal : Nat
  seen : List Nat
  previous : Option Nat
  thresholds : List UInt64

def claimThreshold (points : List TracePoint) (index : Nat) (thresholds : List UInt64)
    (threshold : UInt64) : Except InvalidBuffer (List UInt64) := do
  reject (containsF64 profile.policy.thresholds threshold = false ∨
      containsF64 thresholds threshold ∨
      ¬ (points[index]?).any (reachesAt profile threshold) ∨
      (points.take index).any (reachesAt profile threshold))
    (.text "invalid first-observed threshold claim")
  return thresholds ++ [threshold]

def checkSnapshot (declared : List String) (points : List TracePoint) (claims : Claims)
    (snapshot : BufferedSnapshot) : Except InvalidBuffer Claims := do
  reject (snapshot.captureOrdinal ≠ claims.ordinal ∨ points.length ≤ snapshot.traceIndex ∨
      snapshot.traceIndex ∈ claims.seen ∨ ¬ declared.any (samePath snapshot.manifest) ∨
      claims.previous.any (snapshot.traceIndex ≤ ·))
    (.text "invalid snapshot ordinal, order, or trace reference")
  let thresholds ← thread (claimThreshold profile points snapshot.traceIndex) claims.thresholds
    snapshot.thresholds
  return ⟨claims.ordinal + 1, claims.seen ++ [snapshot.traceIndex], some snapshot.traceIndex,
    thresholds⟩

/-! ## The stop reason -/

/-- The reasons that the rows and the counts must bear out. -/
def checkReason (manifest : BufferedManifest) (points : List TracePoint) (last : TracePoint) :
    Except InvalidBuffer Unit :=
  match manifest.stopReason with
  | .targetReached =>
      reject (¬ profile.policy.threshold.any (reachesAt profile · last))
        (.text "unsubstantiated local target stop")
  | .fixedCount =>
      reject (profile.policy.metric.isSome ∨
          manifest.snapshots.length ≠ profile.policy.maxObservations)
        (.text "unsubstantiated fixed-count stop")
  | .traceLimit =>
      reject (points.length ≠ profile.policy.maxTracePoints)
        (.text "unsubstantiated trace-limit stop")
  | .observationLimit =>
      reject (manifest.snapshots.length ≠ profile.policy.maxObservations)
        (.text "unsubstantiated observation-limit stop")
  | .activeTimeLimit => do
      let active ← profile.policy.activeTimeNs.mapError .text
      reject (last.instrumentedTimeNs < active) (.text "unsubstantiated active-time stop")
  | .byteLimit | .implementationStopped => .ok ()

/-! ## The reserve -/

/-- The manifest a run would have needed after a row. -/
def prefixManifest (manifest : BufferedManifest) (index traceBytes : Nat) : BufferedManifest :=
  let snapshots := manifest.snapshots.filter (·.traceIndex ≤ index)
  let parents := snapshots.map fun s => (parent s.manifest).getD []
  let files := manifest.files.filter fun f =>
    samePath f.path manifest.trace || parents.any (startsWithPath · f.path)
  { manifest with
    snapshots := snapshots
    files := files.map fun f =>
      if samePath f.path manifest.trace then { f with sizeBytes := traceBytes } else f
    instrumentedTotalTimeNs := maxSafeInteger
    stopReason := .implementationStopped }

def checkPrefix (manifest : BufferedManifest) (lines : List (List UInt8)) (index : Nat) :
    Except InvalidBuffer Unit := do
  let traceBytes := ((lines.take (index + 1)).map fun line => line.length + 1).sum
  let manifest := prefixManifest manifest index traceBytes
  let encoded ← (lib.bytes manifest.json).mapError fun _ => .json
  reject (profile.policy.maxBufferBytes - profile.policy.terminalReserveBytes <
      (manifest.files.map (·.sizeBytes)).sum + encoded.length)
    (.text "regular collection consumed the terminal byte reserve")

/-! ## The whole buffer -/

/-- The manifest at a path, with the version and scope it must have. -/
def readManifest (files : Files) (path : String) : Except InvalidBuffer BufferedManifest := do
  reject (safePath path = false) (.text "buffer path must be normalized and relative")
  let data ← files.read path
  let canonical ← expect (lib.fromSlice data) .json
  let manifest ← expect (BufferedManifest.fromJson canonical.value) .json
  reject (manifest.schemaVersion ≠ 1 ∨ manifest.complete = false ∨
      manifest.clock ≠ "monotonic_ns" ∨
      manifest.instrumentedScope ≠ profile.instrumentedScope ∨
      maxSafeInteger < manifest.instrumentedTotalTimeNs)
    (.text "invalid buffer version, completion, clock, scope, or total duration")
  return manifest

/-- The rows of the declared trace, the last of which is the terminal one. -/
def readTrace (files : Files) (declared : List String) (path : String) :
    Except InvalidBuffer (List (List UInt8) × List TracePoint) := do
  reject (¬ declared.any (samePath path)) (.text "trace is not declared")
  let trace ← files.read path
  reject (trace.getLast? ≠ some 10) (.text "trace must end with a complete JSONL row")
  let lines := traceLines trace
  let points ← thread (readRow lib profile.policy.maxTracePoints) [] lines
  reject (¬ points.getLast?.any (·.terminal) ∨ points.dropLast.any (·.terminal))
    (.text "buffer requires exactly one terminal check at its end")
  return (lines, points)

def checkSnapshots (manifest : BufferedManifest) (declared : List String)
    (points : List TracePoint) : Except InvalidBuffer Unit := do
  reject (manifest.snapshots = [] ∨ profile.policy.maxObservations < manifest.snapshots.length)
    (.text "snapshot count is empty or exceeds bound")
  reject (profile.policy.metric = none ∧ manifest.snapshots.length ≠ points.length)
    (.text "fixed-count profiles must save every checked iterate")
  let claims ← thread (checkSnapshot profile declared points) ⟨0, [], none, []⟩ manifest.snapshots
  reject (claims.previous ≠ some (points.length - 1)) (.text "terminal iterate requires a snapshot")
  each (fun threshold => reject (points.any (reachesAt profile threshold) ∧
      containsF64 claims.thresholds threshold = false)
    (.text "first threshold crossing was not saved")) profile.policy.thresholds

def validateBuffer (root : Node) (path : String) :
    Except InvalidBuffer (BufferedManifest × List TracePoint) := do
  profile.policy.validate.mapError .text
  profile.policy.validateBuffered.mapError .text
  let files ← inventoryFiles root
  reject (2 ^ 64 ≤ files.size) (.text "buffer size overflow")
  reject (profile.policy.maxBufferBytes < files.size) (.text "buffer exceeds max-buffer-bytes")
  let inventory ← (transcript ownMode root).mapError .tree
  let manifest ← readManifest lib profile files path
  let actual := files.filter fun f => !samePath f.1 path
  let declared ← thread (declare sha256 actual) [] manifest.files
  reject (sameKeys declared actual = false) (.text "buffer contains undeclared files")
  let (lines, points) ← readTrace lib profile files declared manifest.trace
  let _ ← thread (checkPoint profile manifest.instrumentedTotalTimeNs)
    ⟨profile.checkSchedule.nextAfter none, none⟩ points
  checkSnapshots profile manifest declared points
  let last ← expect points.getLast? (.text "terminal check")
  checkReason profile manifest points last
  each (checkPrefix lib profile manifest lines) (List.range (points.length - 1))
  let again ← (transcript ownMode root).mapError .tree
  reject (again ≠ inventory) (.text "buffer changed during validation")
  return (manifest, points)

end Check

end Metewand.Buffered
