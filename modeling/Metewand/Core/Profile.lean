import Metewand.Core.Json

/-!
# Profile policies

The completion and collection limits shared by every profile delivery
(`core/profile.rs`).  A policy's thresholds are binary64 values, kept by their
bits; `F64.le` and `F64.eq` are the IEEE comparisons on them.

`ProfilePolicy.activeTimeNs` parses the active-time bound.  Every bound it
accepts is positive and a safe integer (`ProfilePolicy.activeTimeNs_bounds`),
which is what keeps the run store's budget arithmetic inside 64 bits.
-/

namespace Metewand

/-! ## Binary64 comparisons -/

namespace F64

def isNaN (bits : UInt64) : Bool :=
  bits.toNat / 2 ^ 52 % 2 ^ 11 = 2047 ∧ bits.toNat % 2 ^ 52 ≠ 0

def isFinite (bits : UInt64) : Bool :=
  bits.toNat / 2 ^ 52 % 2 ^ 11 ≠ 2047

/-- The value scaled to an integer; infinities lie beyond every finite value. -/
def magnitude (bits : UInt64) : Int :=
  (if bits.toNat / 2 ^ 63 = 1 then -1 else 1) *
    (Json.significand bits * 2 ^ Json.scale bits : Nat)

def le (a b : UInt64) : Bool := !isNaN a && !isNaN b && decide (magnitude a ≤ magnitude b)

def eq (a b : UInt64) : Bool := !isNaN a && !isNaN b && decide (magnitude a = magnitude b)

/-- A float as a JSON value; `serde_json` writes `null` for a value that is not finite. -/
def json (bits : UInt64) : Json :=
  if isFinite bits then .num (.float bits) else .null

/-- The float without the sign of a zero. -/
def unsignedZero (bits : UInt64) : UInt64 := if bits = 0x8000000000000000 then 0 else bits

theorem isFinite_unsignedZero (bits : UInt64) : isFinite (unsignedZero bits) = isFinite bits := by
  unfold unsignedZero
  split
  · rename_i zero
    rw [zero]
    decide +kernel
  · rfl

theorem isNaN_unsignedZero (bits : UInt64) : isNaN (unsignedZero bits) = isNaN bits := by
  unfold unsignedZero
  split
  · rename_i zero
    rw [zero]
    decide +kernel
  · rfl

theorem magnitude_unsignedZero (bits : UInt64) :
    magnitude (unsignedZero bits) = magnitude bits := by
  unfold unsignedZero
  split
  · rename_i zero
    rw [zero]
    decide +kernel
  · rfl

theorem eq_unsignedZero (a b : UInt64) : eq (unsignedZero a) (unsignedZero b) = eq a b := by
  unfold eq
  simp only [isNaN_unsignedZero, magnitude_unsignedZero]

theorem le_unsignedZero (a b : UInt64) : le (unsignedZero a) (unsignedZero b) = le a b := by
  unfold le
  simp only [isNaN_unsignedZero, magnitude_unsignedZero]

end F64

/-! ## Text -/

/-- Code points with the Unicode `White_Space` property. -/
def isWhiteSpace (c : Char) : Bool :=
  let n := c.toNat
  (9 ≤ n && n ≤ 13) || n == 32 || n == 133 || n == 160 || n == 5760 ||
    (8192 ≤ n && n ≤ 8202) || n == 8232 || n == 8233 || n == 8239 || n == 8287 || n == 12288

def trim (text : List Char) : List Char :=
  ((text.dropWhile isWhiteSpace).reverse.dropWhile isWhiteSpace).reverse

def stripSuffix (suffix text : List Char) : Option (List Char) :=
  if suffix.isSuffixOf text then some (text.take (text.length - suffix.length)) else none

def isAsciiDigit (c : Char) : Bool := 48 ≤ c.toNat && c.toNat ≤ 57

/-- A nonempty run of ASCII digits read as a `u64`. -/
def parseU64 (text : List Char) : Option Nat :=
  let value := text.foldl (fun acc c => acc * 10 + (c.toNat - 48)) 0
  if text ≠ [] ∧ text.all isAsciiDigit ∧ value < 2 ^ 64 then some value else none

/-! ## Policies -/

inductive Direction where
  | atMost
  | atLeast
  deriving DecidableEq, Repr

def Direction.name : Direction → String
  | .atMost => "at_most"
  | .atLeast => "at_least"

/-- Common completion and collection limits, independent of delivery. -/
structure ProfilePolicy where
  metric : Option String
  direction : Option Direction
  threshold : Option UInt64
  recordThresholds : List UInt64
  maxObservations : Nat
  maxCheckpointBytes : Nat
  maxTracePoints : Nat
  maxBufferBytes : Nat
  terminalReserveBytes : Nat
  maxActiveTime : String
  deriving DecidableEq

namespace ProfilePolicy

variable (policy : ProfilePolicy)

def thresholds : List UInt64 :=
  if policy.recordThresholds.isEmpty then policy.threshold.toList else policy.recordThresholds

def reaches (value threshold : UInt64) : Bool :=
  match policy.direction with
  | some .atMost => F64.le value threshold
  | some .atLeast => F64.le threshold value
  | none => false

/-- The suffix table of an active-time bound, in the order it is searched. -/
def timeUnits : List (String × Nat) :=
  [("ms", 1000000), ("s", 1000000000), ("min", 60000000000), ("h", 3600000000000)]

def activeTimeNs : Except String Nat :=
  let text := trim policy.maxActiveTime.toList
  match timeUnits.findSome? fun unit =>
      (stripSuffix unit.1.toList text).map fun number => (trim number, unit.2) with
  | none => .error "max-active-time requires a positive integer and ms, s, min, or h"
  | some (number, multiplier) =>
      match number with
      | [] => .error "max-active-time requires a positive decimal integer"
      | first :: _ =>
          if first.toNat < 49 ∨ 57 < first.toNat ∨ !number.all isAsciiDigit then
            .error "max-active-time requires a positive decimal integer"
          else
            match parseU64 number with
            | none => .error "max-active-time is zero, invalid, or too large"
            | some n =>
                if n * multiplier < 2 ^ 64 ∧ 0 < n * multiplier ∧
                    n * multiplier ≤ maxSafeInteger then
                  .ok (n * multiplier)
                else .error "max-active-time is zero, invalid, or too large"

def validateBuffered : Except String Unit :=
  if [policy.maxTracePoints, policy.maxBufferBytes, policy.terminalReserveBytes].any
        (fun v => v == 0 || decide (maxSafeInteger < v)) ∨
      policy.maxBufferBytes < policy.terminalReserveBytes then
    .error "buffered bounds must be positive safe integers; terminal reserve must fit the buffer"
  else .ok ()

/-- Adjacent thresholds must differ and grow more demanding. -/
def ordered : List UInt64 → Bool
  | a :: b :: rest => !F64.eq a b && policy.reaches b a && ordered (b :: rest)
  | _ => true

def validate : Except String Unit := do
  if policy.maxObservations = 0 ∨ maxSafeInteger < policy.maxObservations then
    throw "max-observations must be a positive safe integer"
  if policy.maxTracePoints ≠ 0 ∨ policy.maxBufferBytes ≠ 0 ∨ policy.terminalReserveBytes ≠ 0 then
    policy.validateBuffered
  let _ ← policy.activeTimeNs
  match policy.metric, policy.direction, policy.threshold with
  | none, none, none =>
      if !policy.recordThresholds.isEmpty then
        throw "profiles require either metric, direction, and threshold together, or a fixed count without thresholds"
      else if policy.maxTracePoints ≠ 0 ∧ policy.maxTracePoints < policy.maxObservations then
        throw "fixed count requires enough trace points for every observation"
  | some metric, some _, some target =>
      if metric.isEmpty ∨ !F64.isFinite target then
        throw "profiles require either metric, direction, and threshold together, or a fixed count without thresholds"
      else if policy.maxObservations < policy.thresholds.length ∨
          !(policy.thresholds.getLast?.any (F64.eq · target)) ∨
          !policy.thresholds.all F64.isFinite ∨ !policy.ordered policy.thresholds then
        throw "record thresholds must be distinct, least to most demanding, end at the target, and fit the observation bound"
  | _, _, _ =>
      throw "profiles require either metric, direction, and threshold together, or a fixed count without thresholds"

/-- The serialized policy: absent options, empty lists and zero bounds are left out. -/
def json : Json :=
  .object (
    (match policy.metric with | some m => [("metric", .str m)] | none => []) ++
    (match policy.direction with | some d => [("direction", .str d.name)] | none => []) ++
    (match policy.threshold with | some t => [("threshold", F64.json t)] | none => []) ++
    (if policy.recordThresholds.isEmpty then []
      else [("record-thresholds", .arr (policy.recordThresholds.map F64.json))]) ++
    [("max-observations", .nat policy.maxObservations)] ++
    (if policy.maxCheckpointBytes = 0 then []
      else [("max-checkpoint-bytes", .nat policy.maxCheckpointBytes)]) ++
    (if policy.maxTracePoints = 0 then []
      else [("max-trace-points", .nat policy.maxTracePoints)]) ++
    (if policy.maxBufferBytes = 0 then []
      else [("max-buffer-bytes", .nat policy.maxBufferBytes)]) ++
    (if policy.terminalReserveBytes = 0 then []
      else [("terminal-reserve-bytes", .nat policy.terminalReserveBytes)]) ++
    [("max-active-time", .str policy.maxActiveTime)])

theorem json_maxObservations : policy.json.get "max-observations" = .nat policy.maxObservations := by
  unfold json
  simp only [List.append_assoc]
  rw [Json.get_object_append, Json.get_object_append, Json.get_object_append,
    Json.get_object_append, List.singleton_append, Json.get_object_cons, if_pos rfl]
  · split
    · exact fun _ member => absurd member List.not_mem_nil
    · simp
  · cases policy.threshold <;> simp
  · cases policy.direction <;> simp
  · cases policy.metric <;> simp

/-- Reading the serialized policy back: a threshold written as `null` is no number. -/
def reread : Option ProfilePolicy :=
  if policy.threshold.all F64.isFinite ∧ policy.recordThresholds.all F64.isFinite then some policy
  else none

/-- The policy after its canonical text has been read back: the sign of a zero is lost. -/
def stored : ProfilePolicy :=
  { policy with
    threshold := policy.threshold.map F64.unsignedZero
    recordThresholds := policy.recordThresholds.map F64.unsignedZero }

theorem stored_activeTimeNs : policy.stored.activeTimeNs = policy.activeTimeNs := rfl

theorem stored_thresholds : policy.stored.thresholds = policy.thresholds.map F64.unsignedZero := by
  unfold thresholds stored
  simp only [List.isEmpty_map]
  split
  · cases policy.threshold <;> rfl
  · rfl

theorem stored_ordered (values : List UInt64) :
    policy.stored.ordered (values.map F64.unsignedZero) = policy.ordered values := by
  induction values with
  | nil => rfl
  | cons a rest ih =>
      cases rest with
      | nil => rfl
      | cons b rest =>
          simp only [List.map_cons, ordered] at ih ⊢
          rw [ih, F64.eq_unsignedZero]
          have reached : policy.stored.reaches (F64.unsignedZero b) (F64.unsignedZero a) =
              policy.reaches b a := by
            unfold reaches
            simp only [stored, F64.le_unsignedZero]
          rw [reached]

/-- A valid policy is still valid when it is read back. -/
theorem validate_stored {policy : ProfilePolicy} (valid : policy.validate = .ok ()) :
    policy.stored.validate = .ok () := by
  have last : ∀ target, (policy.stored.thresholds.getLast?.any (F64.eq · (F64.unsignedZero target))) =
      policy.thresholds.getLast?.any (F64.eq · target) := by
    intro target
    rw [stored_thresholds, List.getLast?_map]
    cases policy.thresholds.getLast? <;> simp [F64.eq_unsignedZero]
  have finite : policy.stored.thresholds.all F64.isFinite = policy.thresholds.all F64.isFinite := by
    rw [stored_thresholds, List.all_map]
    congr 1
    funext bits
    exact F64.isFinite_unsignedZero bits
  have length : policy.stored.thresholds.length = policy.thresholds.length := by
    rw [stored_thresholds, List.length_map]
  have order : policy.stored.ordered policy.stored.thresholds =
      policy.ordered policy.thresholds := by
    rw [stored_thresholds, stored_ordered]
  have empty : policy.stored.recordThresholds.isEmpty = policy.recordThresholds.isEmpty :=
    List.isEmpty_map
  have buffered : policy.stored.validateBuffered = policy.validateBuffered := rfl
  rw [← valid]
  unfold validate
  rw [buffered, stored_activeTimeNs]
  simp only [length, finite, order, empty]
  simp only [show policy.stored.metric = policy.metric from rfl,
    show policy.stored.direction = policy.direction from rfl,
    show policy.stored.threshold = policy.threshold.map F64.unsignedZero from rfl,
    show policy.stored.maxObservations = policy.maxObservations from rfl,
    show policy.stored.maxTracePoints = policy.maxTracePoints from rfl,
    show policy.stored.maxBufferBytes = policy.maxBufferBytes from rfl,
    show policy.stored.terminalReserveBytes = policy.terminalReserveBytes from rfl]
  cases policy.metric <;> cases policy.direction <;> cases policy.threshold <;>
    simp only [Option.map_some, Option.map_none, last, F64.isFinite_unsignedZero]

/-- The limit depends on its text only. -/
theorem activeTimeNs_congr {policy policy' : ProfilePolicy}
    (same : policy.maxActiveTime = policy'.maxActiveTime) :
    policy.activeTimeNs = policy'.activeTimeNs := by
  unfold activeTimeNs
  rw [same]

/-- An accepted active-time bound is positive and a safe integer. -/
theorem activeTimeNs_bounds {policy : ProfilePolicy} {limit : Nat}
    (h : policy.activeTimeNs = .ok limit) : 0 < limit ∧ limit ≤ maxSafeInteger := by
  unfold activeTimeNs at h
  simp only at h
  split at h
  · cases h
  · split at h
    · cases h
    · split at h
      · cases h
      · split at h
        · cases h
        · split at h
          · rename_i bounds
            cases h
            exact bounds.2
          · cases h

end ProfilePolicy

/-- Coordinates and exact control for one independently executed fresh point. -/
structure FreshControl where
  scheduleIndex : Nat
  observationControl : Json

/-! ## Progress of a fresh sequence -/

/-- Why an unexecuted fresh point is settled. -/
inductive DispositionReason where
  | skippedTargetReached
  | activeTimeLimit
  deriving DecidableEq, Repr

def DispositionReason.name : DispositionReason → String
  | .skippedTargetReached => "skipped_target_reached"
  | .activeTimeLimit => "active_time_limit"

inductive SequenceStatus where
  | accepted
  | censored
  | incomplete
  deriving DecidableEq, Repr

def SequenceStatus.name : SequenceStatus → String
  | .accepted => "accepted"
  | .censored => "censored"
  | .incomplete => "partial"

inductive SequenceReason where
  | targetReached
  | fixedCount
  | activeTimeLimit
  | scheduleExhausted
  deriving DecidableEq, Repr

def SequenceReason.name : SequenceReason → String
  | .targetReached => "target_reached"
  | .fixedCount => "fixed_count"
  | .activeTimeLimit => "active_time_limit"
  | .scheduleExhausted => "schedule_exhausted"

/-- Rebuildable repetition progress, separate from individual attempt acceptance. -/
structure FreshSequenceProgress where
  resolvedSpecificationId : String
  logicalSpecificationId : String
  measurementIndex : Nat
  scheduledPoints : Nat
  acceptedPoints : Nat
  consumedTimeNs : Nat
  conservativeTimeNs : Nat
  status : String
  reason : Option String
  deriving DecidableEq

end Metewand
