import Metewand.Buffered.Collector

/-!
# Runs of the collector

The calls a program makes on its collector, in any order and with any callbacks.  One
lemma says what a check may do to the state (`check_cases`) and one what the row and the
snapshot it commits satisfy (`prepare_ok`); every invariant of a run is derived from these.
-/

namespace Metewand.Buffered

open Lib Lib.Check

inductive Call where
  | observe (progress : Progress) (measure snapshot : Callback)
  | record (progress : Progress) (metrics : Json) (snapshot : Callback)
  | finish (progress : Progress) (measure snapshot : Callback)

/-- The call that checks an iterate: its progress, measurement and snapshot. -/
def Call.check? : Call → Option (Progress × Callback × Callback)
  | .observe progress measure snapshot => some (progress, measure, snapshot)
  | .record progress metrics snapshot => some (progress, .ok metrics, snapshot)
  | .finish _ _ _ => none

namespace BufferedTrace

variable {lib : JsonLibrary} {clock : Nat → Nat} {t : BufferedTrace}

/-! ## What a check does -/

/-- Two states that differ in the clock at most. -/
def SameRecord (t t' : BufferedTrace) : Prop :=
  t.readings ≤ t'.readings ∧ t' = { t with readings := t'.readings }

theorem SameRecord.refl (t : BufferedTrace) : SameRecord t t := ⟨Nat.le_refl _, rfl⟩

theorem sameRecord_tick (t : BufferedTrace) : SameRecord t t.tick := ⟨Nat.le_succ _, rfl⟩

theorem sameRecord_tick_tick (t : BufferedTrace) : SameRecord t t.tick.tick :=
  ⟨Nat.le_add_right _ 2, rfl⟩

/-- What a row and its snapshot satisfy when a check commits them. -/
structure Prepared (lib : JsonLibrary) (t : BufferedTrace) (progress : Progress) (metrics : Json)
    (elapsed active : Nat) (snapshot : Callback) (terminal : Bool) (entry : Entry)
    (value : Option UInt64) : Prop where
  safe : elapsed ≤ maxSafeInteger
  later : ∀ p ∈ t.points.getLast?, p.instrumentedTimeNs ≤ elapsed
  target : t.targetValue metrics = .ok value
  crossed : entry.crossed = t.crossed value
  point : entry.row.point =
    ⟨progress.checkIndex, progress.work, metrics, elapsed, entry.row.reason.isSome⟩
  encoded : bytes lib entry.row.point.json = .ok entry.row.encoded
  /-- The byte limit stops a run that no other cause stops. -/
  reason : entry.row.reason =
      t.countedReason entry.crossed (t.reasonOf value elapsed active terminal) ∨
    t.countedReason entry.crossed (t.reasonOf value elapsed active terminal) = none ∧
      entry.row.reason = some .byteLimit
  plain : entry.captured = none → entry.row.reason = none ∧
    t.captures entry.crossed (t.reasonOf value elapsed active terminal) = false
  wanted : entry.captured.isSome → entry.row.reason = none →
    t.captures entry.crossed (t.reasonOf value elapsed active terminal) = true
  frozen : ∀ data ∈ entry.captured, ∃ json, snapshot = .ok json ∧
    bytes lib (resultDocument json) = .ok data ∧ objectData lib data = .ok ()
  regular : entry.row.reason = none →
    ∃ size, t.estimatedBytes lib (entry.row.encoded.length + 1) entry.captured = .ok size ∧
      size ≤ t.policy.maxBufferBytes - t.policy.terminalReserveBytes
  fits : ∃ size, t.estimatedBytes lib (entry.row.encoded.length + 1) entry.captured = .ok size ∧
    size ≤ t.policy.maxBufferBytes

/-- A row that is encoded as it stands. -/
def Row.Encoded (lib : JsonLibrary) (point : TracePoint) (r : Row) : Prop :=
  r.point = { point with terminal := r.reason.isSome } ∧ bytes lib r.point.json = .ok r.encoded

theorem row_ok {point : TracePoint} {reason : Option StopReason} {r : Row}
    (made : row lib point reason = .ok r) : r.Encoded lib point ∧ r.reason = reason := by
  simp only [row, ok_bind, ok_pure] at made
  obtain ⟨encoded, written, rfl⟩ := made
  exact ⟨⟨rfl, written⟩, rfl⟩

theorem limited_ok {captured : Option (List UInt8)} {point : TracePoint} {r r' : Row}
    (before : r.Encoded lib point) (limited : t.limited lib captured r = .ok r') :
    r'.Encoded lib point ∧
      (r' = r ∧ (r.reason = none → ∃ size,
          t.estimatedBytes lib (r.encoded.length + 1) captured = .ok size ∧
            size ≤ t.policy.maxBufferBytes - t.policy.terminalReserveBytes) ∨
        r.reason = none ∧ r'.reason = some .byteLimit ∧ ∃ size,
          t.estimatedBytes lib (r.encoded.length + 1) captured = .ok size ∧
            t.policy.maxBufferBytes - t.policy.terminalReserveBytes < size) := by
  unfold BufferedTrace.limited at limited
  cases stops : r.reason with
  | some reason =>
      rw [stops] at limited
      cases limited
      exact ⟨before, .inl ⟨rfl, fun none => absurd none (by simp)⟩⟩
  | none =>
      rw [stops] at limited
      simp only [Option.isSome_none, Bool.false_eq_true, if_false, ok_bind] at limited
      obtain ⟨size, estimated, limited⟩ := limited
      split at limited
      · obtain ⟨⟨same, written⟩, reason⟩ := row_ok limited
        rename_i large
        refine ⟨⟨?_, written⟩, .inr ⟨rfl, reason, size, estimated, large⟩⟩
        rw [same, before.1]
      · rename_i small
        cases limited
        exact ⟨before, .inl ⟨rfl, fun _ => ⟨size, estimated, Nat.le_of_not_lt small⟩⟩⟩

theorem frozen_ok {wanted : Bool} {snapshot : Callback} {captured : Option (List UInt8)}
    (taken : frozen lib wanted snapshot = .ok captured) :
    captured.isSome = wanted ∧ ∀ data ∈ captured, ∃ json, snapshot = .ok json ∧
      bytes lib (resultDocument json) = .ok data ∧ objectData lib data = .ok () := by
  unfold frozen at taken
  cases wanted with
  | false =>
      cases taken
      exact ⟨rfl, fun data inside => absurd inside (by simp)⟩
  | true =>
      simp only [if_true, ok_bind, ok_pure] at taken
      obtain ⟨data, captured, _, object, rfl⟩ := taken
      simp only [capture, ok_bind] at captured
      obtain ⟨json, read, written⟩ := captured
      refine ⟨rfl, fun other same => ?_⟩
      cases Option.some.inj same
      exact ⟨json, read, written, object⟩

theorem prepare_ok {progress : Progress} {metrics : Json} {elapsed active : Nat}
    {snapshot : Callback} {terminal : Bool} {entry : Entry}
    (prepared : t.prepare lib progress metrics elapsed active snapshot terminal = .ok entry) :
    ∃ value, Prepared lib t progress metrics elapsed active snapshot terminal entry value := by
  simp only [prepare, ok_bind, ok_pure, ok_reject, not_or] at prepared
  obtain ⟨-, ⟨safe, later⟩, value, target, r, made, r', first, captured, taken, r'', second, size,
    estimated, -, small, rfl⟩ := prepared
  obtain ⟨encoded, reason⟩ := row_ok made
  obtain ⟨encoded', first⟩ := limited_ok encoded first
  obtain ⟨encoded'', second⟩ := limited_ok encoded' second
  obtain ⟨wanted, frozen⟩ := frozen_ok taken
  refine ⟨value, Nat.le_of_not_lt safe, ?_, target, rfl, encoded''.1, encoded''.2, ?_, ?_, ?_,
    frozen, ?_, ⟨size, estimated, Nat.le_of_not_lt small⟩⟩
  · intro p last
    rw [Option.mem_def] at last
    simpa [last] using later
  · -- the second limit changes only a row the first one left running
    rcases second with ⟨rfl, -⟩ | ⟨running, limit, -⟩
    · rcases first with ⟨rfl, -⟩ | ⟨running, limit, -⟩
      · exact .inl reason
      · exact .inr ⟨reason.symm.trans running, limit⟩
    · rcases first with ⟨rfl, -⟩ | ⟨-, limit', -⟩
      · exact .inr ⟨reason.symm.trans running, limit⟩
      · rw [limit'] at running
        cases running
  · -- without a snapshot both limits made the same estimate
    intro absent
    cases absent
    simp only [Option.isSome_none, Bool.false_eq, Bool.or_eq_false_iff] at wanted
    have running : r'.reason = none := Option.isSome_eq_false_iff.mp wanted.2 |> Option.isNone_iff_eq_none.mp
    rcases second with ⟨rfl, -⟩ | ⟨-, -, size', estimated', large⟩
    · exact ⟨running, wanted.1⟩
    · rcases first with ⟨rfl, regular⟩ | ⟨-, limit', -⟩
      · obtain ⟨size'', estimated'', regular⟩ := regular running
        cases estimated'.symm.trans estimated''
        omega
      · rw [limit'] at running
        cases running
  · -- a running row was not stopped by the first limit either
    intro some running
    rcases second with ⟨rfl, -⟩ | ⟨-, limit, -⟩
    · rw [some, running, Option.isSome_none, Bool.or_false] at wanted
      exact wanted.symm
    · rw [limit] at running
      cases running
  · intro running
    rcases second with ⟨rfl, regular⟩ | ⟨-, limit, -⟩
    · exact regular running
    · rw [limit] at running
      cases running

/-- A check leaves the record alone, or it commits a prepared entry. -/
theorem check_cases {progress : Progress} {measure snapshot : Callback} {terminal : Bool}
    {answer : Except Failure Decision} {t' : BufferedTrace}
    (checked : t.check lib clock progress measure snapshot terminal = (answer, t')) :
    SameRecord t t' ∧ ((∃ e, answer = .error e) ∨
        answer = .ok .continues ∧ ∃ active, t.undue clock progress active terminal = true) ∨
      ∃ active metrics entry value, t.enter progress = .ok () ∧ t.policy.activeTimeNs = .ok active ∧
        t.undue clock progress active terminal = false ∧ measured measure = .ok metrics ∧
        Prepared lib t progress metrics (clock (t.readings + 1)) active snapshot terminal entry
          value ∧ (answer, t') = t.tick.tick.commit entry := by
  unfold check at checked
  cases admitted : t.enter progress with
  | error e =>
      rw [admitted] at checked
      cases checked
      exact .inl ⟨.refl t, .inl ⟨e, rfl⟩⟩
  | ok u =>
      cases limit : t.policy.activeTimeNs with
      | error e =>
          rw [admitted, limit] at checked
          cases checked
          exact .inl ⟨sameRecord_tick t, .inl ⟨_, rfl⟩⟩
      | ok active =>
          rw [admitted, limit] at checked
          simp only at checked
          split at checked
          · rename_i early
            cases checked
            exact .inl ⟨sameRecord_tick t, .inr ⟨rfl, active, early⟩⟩
          · rename_i due
            cases read : measured measure with
            | error e =>
                rw [read] at checked
                cases checked
                exact .inl ⟨sameRecord_tick t, .inl ⟨e, rfl⟩⟩
            | ok metrics =>
                rw [read] at checked
                simp only at checked
                cases made : t.prepare lib progress metrics (clock (t.readings + 1)) active snapshot
                    terminal with
                | error e =>
                    rw [made] at checked
                    cases checked
                    exact .inl ⟨sameRecord_tick_tick t, .inl ⟨e, rfl⟩⟩
                | ok entry =>
                    rw [made] at checked
                    obtain ⟨value, prepared⟩ := prepare_ok made
                    exact .inr ⟨active, metrics, entry, value, rfl, rfl, by simpa using due,
                      rfl, prepared, checked.symm⟩

/-- An estimate is the bytes recorded and to be recorded, and the width of its manifest. -/
theorem estimatedBytes_ok {extra : Nat} {captured : Option (List UInt8)} {w : Json}
    (normal : (t.estimate extra captured).json.normalize = .ok w) :
    t.estimatedBytes lib extra captured = .ok (t.traceBytes + extra + t.snapshotBytes +
      captured.elim 0 List.length + Json.width (lib.text w)) := by
  simp only [estimatedBytes, bytes, JsonLibrary.bytes, normal, ok_bind, ok_pure]
  exact ⟨_, rfl, by rw [JsonLibrary.encode, Json.utf8_ofList_length]⟩

/-- A check that is due commits what it prepares. -/
theorem check_prepared {progress : Progress} {measure snapshot : Callback} {terminal : Bool}
    {active : Nat} {metrics : Json} {entry : Entry} (admitted : t.enter progress = .ok ())
    (limit : t.policy.activeTimeNs = .ok active)
    (due : t.undue clock progress active terminal = false) (read : measured measure = .ok metrics)
    (prepared : t.prepare lib progress metrics (clock (t.readings + 1)) active snapshot terminal =
      .ok entry) :
    t.check lib clock progress measure snapshot terminal = t.tick.tick.commit entry := by
  unfold check
  rw [admitted, limit]
  simp only [due, Bool.false_eq_true, if_false, read, prepared]

/-- A row that some cause stops is prepared without asking for the regular allowance. -/
theorem prepare_stops {progress : Progress} {metrics : Json} {elapsed active : Nat}
    {snapshot : Callback} {terminal : Bool} {value : Option UInt64} {reason : StopReason}
    {encoded data : List UInt8} {size : Nat}
    (safe : elapsed ≤ maxSafeInteger)
    (later : t.points.getLast?.any (elapsed < ·.instrumentedTimeNs) = false)
    (target : t.targetValue metrics = .ok value)
    (stops : t.countedReason (t.crossed value) (t.reasonOf value elapsed active terminal) = some reason)
    (written : bytes lib (TracePoint.json ⟨progress.checkIndex, progress.work, metrics, elapsed, true⟩) =
      .ok encoded)
    (taken : frozen lib true snapshot = .ok (some data))
    (estimated : t.estimatedBytes lib (encoded.length + 1) (some data) = .ok size)
    (fits : size ≤ t.policy.maxBufferBytes) :
    t.prepare lib progress metrics elapsed active snapshot terminal = .ok {
      row := ⟨⟨progress.checkIndex, progress.work, metrics, elapsed, true⟩, encoded, some reason⟩
      captured := some data
      crossed := t.crossed value } := by
  have made : row lib ⟨progress.checkIndex, progress.work, metrics, elapsed, false⟩ (some reason) =
      .ok ⟨⟨progress.checkIndex, progress.work, metrics, elapsed, true⟩, encoded, some reason⟩ := by
    simp only [row, ok_bind, ok_pure]
    exact ⟨encoded, written, rfl⟩
  have passed : ∀ captured, t.limited lib captured
      ⟨⟨progress.checkIndex, progress.work, metrics, elapsed, true⟩, encoded, some reason⟩ =
        .ok ⟨⟨progress.checkIndex, progress.work, metrics, elapsed, true⟩, encoded, some reason⟩ :=
    fun captured => if_pos rfl
  simp only [prepare, ok_bind, ok_pure, ok_reject, not_or]
  refine ⟨(), ⟨Nat.not_lt.mpr safe, by simp [later]⟩, value, target, _, ?_, _, passed none, some data,
    ?_, _, passed (some data), size, estimated, (), Nat.not_lt.mpr fits, rfl⟩
  · rw [stops]
    exact made
  · simpa using taken

/-! ## Runs -/

section Run

variable (lib : JsonLibrary) (clock : Nat → Nat)

/-- The answer of a call and the state it leaves. -/
def call (t : BufferedTrace) : Call → Except Failure (Option Decision) × BufferedTrace
  | .observe progress measure snapshot =>
      ((t.observe lib clock progress measure snapshot).1.map some,
        (t.observe lib clock progress measure snapshot).2)
  | .record progress metrics snapshot =>
      ((t.record lib clock progress metrics snapshot).1.map some,
        (t.record lib clock progress metrics snapshot).2)
  | .finish progress measure snapshot =>
      ((t.finish lib clock progress measure snapshot).1.map fun _ => none,
        (t.finish lib clock progress measure snapshot).2)

/-- The state after the calls, whatever they answered. -/
def run : List Call → BufferedTrace → BufferedTrace
  | [], t => t
  | c :: rest, t => run rest (t.call lib clock c).2

end Run

/-- What every call preserves holds after any calls. -/
theorem run_invariant (inv : BufferedTrace → Prop) (allowed : Call → Prop)
    (step : ∀ t c, inv t → allowed c → inv (t.call lib clock c).2) {calls : List Call}
    (each : ∀ c ∈ calls, allowed c) (start : inv t) : inv (t.run lib clock calls) := by
  induction calls generalizing t with
  | nil => exact start
  | cons c rest ih =>
      exact ih (fun c' member => each c' (List.mem_cons_of_mem _ member))
        (step t c start (each c List.mem_cons_self))

end BufferedTrace

end Metewand.Buffered
