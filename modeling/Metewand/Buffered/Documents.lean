import Metewand.Core.Binding
import Metewand.Core.Encoding
import Metewand.Core.Observation

/-!
# Documents of a buffered profile

The rows of `trace.jsonl`, the saved snapshots and the manifest of a completed buffer, as
they are written and read.  `Json.structFields` is how a structure without optional fields
is read from a JSON value: from an object with exactly these members, or from an array in
field order.
-/

namespace Metewand

open Lib

/-! ## Numbers -/

namespace F64

/-- The binary64 value nearest to an integer. -/
def ofInt (value : Int) : UInt64 := round (decide (value < 0)) (value.natAbs * 2 ^ 1074) 0

example : ofInt 3 = 0x4008000000000000 := by decide +kernel

end F64

namespace Json

/-- `Value::as_f64`. -/
def asF64? : Json → Option UInt64
  | .num (.int value) => some (F64.ofInt value)
  | .num (.float bits) => some bits
  | _ => none

/-- An unsigned integer of at most `bits` bits. -/
def asUnsigned? (bits : Nat) : Json → Option Nat
  | .num (.int value) => if 0 ≤ value ∧ value < 2 ^ bits then some value.toNat else none
  | _ => none

def asBool? : Json → Option Bool
  | .bool value => some value
  | _ => none

/-- The values of the named fields, all of which are required and no other admitted. -/
def structFields (names : List String) : Json → Option (List Json)
  | .obj members =>
      if members.all fun m => names.contains m.1 then names.mapM (lookupMember · members) else none
  | .arr items => if items.length = names.length then some items else none
  | _ => none

end Json

/-! ## Reasons to stop -/

namespace StopReason

def all : List StopReason :=
  [.targetReached, .fixedCount, .traceLimit, .observationLimit, .byteLimit, .activeTimeLimit,
    .implementationStopped]

/-- A variant by its name; an object holding `null` under the name spells it too. -/
def fromJson : Json → Option StopReason
  | .str name => all.find? (·.name = name)
  | .obj [(name, .null)] => all.find? (·.name = name)
  | _ => none

theorem fromJson_name (reason : StopReason) : fromJson (.str reason.name) = some reason := by
  cases reason <;> decide

end StopReason

namespace Buffered

/-! ## Trace rows -/

abbrev Work : Type := OrderedMap String Nat

structure Progress where
  checkIndex : Nat
  work : Work
  deriving DecidableEq

structure TracePoint where
  checkIndex : Nat
  work : Work
  provisionalMetrics : Json
  instrumentedTimeNs : Nat
  terminal : Bool
  deriving DecidableEq

def workJson (work : Work) : Json := .obj (work.entries.map fun entry => (entry.1, .nat entry.2))

def readWork : Json → Option Work
  | .obj members =>
      members.foldlM (fun work m => (m.2.asUnsigned? 64).map (work.insert m.1)) ∅
  | _ => none

namespace TracePoint

def fields : List String :=
  ["check_index", "work", "provisional_metrics", "instrumented_time_ns", "terminal"]

def json (point : TracePoint) : Json :=
  .object [("check_index", .nat point.checkIndex), ("work", workJson point.work),
    ("provisional_metrics", point.provisionalMetrics),
    ("instrumented_time_ns", .nat point.instrumentedTimeNs), ("terminal", .bool point.terminal)]

def fromJson (v : Json) : Option TracePoint :=
  match v.structFields fields with
  | some [index, work, metrics, time, terminal] => do
      return {
        checkIndex := ← index.asUnsigned? 64
        work := ← readWork work
        provisionalMetrics := metrics
        instrumentedTimeNs := ← time.asUnsigned? 64
        terminal := ← terminal.asBool? }
  | _ => none

end TracePoint

/-! ## The manifest -/

structure BufferedSnapshot where
  captureOrdinal : Nat
  traceIndex : Nat
  thresholds : List UInt64
  manifest : String
  deriving DecidableEq

namespace BufferedSnapshot

def fields : List String := ["capture_ordinal", "trace_index", "thresholds", "manifest"]

def json (snapshot : BufferedSnapshot) : Json :=
  .object [("capture_ordinal", .nat snapshot.captureOrdinal),
    ("trace_index", .nat snapshot.traceIndex),
    ("thresholds", .arr (snapshot.thresholds.map F64.json)), ("manifest", .str snapshot.manifest)]

def fromJson (v : Json) : Option BufferedSnapshot :=
  match v.structFields fields with
  | some [ordinal, index, thresholds, manifest] => do
      return {
        captureOrdinal := ← ordinal.asUnsigned? 64
        traceIndex := ← index.asUnsigned? 64
        thresholds := ← (← thresholds.asArray?).mapM Json.asF64?
        manifest := ← manifest.asStr? }
  | _ => none

end BufferedSnapshot

structure BufferFile where
  path : String
  sha256 : String
  sizeBytes : Nat
  deriving DecidableEq

namespace BufferFile

def fields : List String := ["path", "sha256", "size_bytes"]

def json (file : BufferFile) : Json :=
  .object [("path", .str file.path), ("sha256", .str file.sha256),
    ("size_bytes", .nat file.sizeBytes)]

def fromJson (v : Json) : Option BufferFile :=
  match v.structFields fields with
  | some [path, sha256, size] => do
      return { path := ← path.asStr?, sha256 := ← sha256.asStr?, sizeBytes := ← size.asUnsigned? 64 }
  | _ => none

end BufferFile

structure BufferedManifest where
  schemaVersion : Nat
  complete : Bool
  clock : String
  instrumentedScope : String
  instrumentedTotalTimeNs : Nat
  stopReason : StopReason
  trace : String
  snapshots : List BufferedSnapshot
  files : List BufferFile
  deriving DecidableEq

namespace BufferedManifest

def fields : List String :=
  ["schema_version", "complete", "clock", "instrumented_scope", "instrumented_total_time_ns",
    "stop_reason", "trace", "snapshots", "files"]

def json (manifest : BufferedManifest) : Json :=
  .object [("schema_version", .nat manifest.schemaVersion), ("complete", .bool manifest.complete),
    ("clock", .str manifest.clock), ("instrumented_scope", .str manifest.instrumentedScope),
    ("instrumented_total_time_ns", .nat manifest.instrumentedTotalTimeNs),
    ("stop_reason", .str manifest.stopReason.name), ("trace", .str manifest.trace),
    ("snapshots", .arr (manifest.snapshots.map BufferedSnapshot.json)),
    ("files", .arr (manifest.files.map BufferFile.json))]

def fromJson (v : Json) : Option BufferedManifest :=
  match v.structFields fields with
  | some [version, complete, clock, scope, total, reason, trace, snapshots, files] => do
      return {
        schemaVersion := ← version.asUnsigned? 32
        complete := ← complete.asBool?
        clock := ← clock.asStr?
        instrumentedScope := ← scope.asStr?
        instrumentedTotalTimeNs := ← total.asUnsigned? 64
        stopReason := ← StopReason.fromJson reason
        trace := ← trace.asStr?
        snapshots := ← (← snapshots.asArray?).mapM BufferedSnapshot.fromJson
        files := ← (← files.asArray?).mapM BufferFile.fromJson }
  | _ => none

end BufferedManifest

/-! ## The selected profile -/

/-- The policy and schedule a worker receives; the declared scope and the instrumentation
are passed on as they are. -/
structure SelectedBufferedProfile where
  policy : ProfilePolicy
  instrumentedScope : String
  scope : Json
  instrumentation : Json
  checkSchedule : CheckSchedule

def SelectedBufferedProfile.json (profile : SelectedBufferedProfile) : Json :=
  .object [("policy", profile.policy.json), ("instrumented_scope", .str profile.instrumentedScope),
    ("scope", profile.scope), ("instrumentation", profile.instrumentation),
    ("check_schedule", profile.checkSchedule.json)]

/-! ## Comparing progress -/

/-- Some count of the earlier work is missing from the later work, or larger there. -/
def behind (earlier later : Work) : Bool :=
  earlier.entries.any fun entry => !(later.get entry.1).any (entry.2 ≤ ·)

/-- The target metric of a row, when it is a number. -/
def metricOf (policy : ProfilePolicy) (metrics : Json) : Option UInt64 :=
  policy.metric.bind fun metric => (metrics.get metric).asF64?

/-- `Vec::contains` on binary64 values. -/
def containsF64 (values : List UInt64) (value : UInt64) : Bool := values.any (F64.eq · value)

end Buffered

end Metewand
