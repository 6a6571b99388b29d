import Metewand.Buffered.Runs
import Metewand.Core.Policies

/-!
# Fixed-count completion

A profile without a metric saves every iterate it checks.  Its last admitted snapshot stops
the run, but the bound on the trace is looked at first: the stop is a fixed count exactly
when the trace admits more rows than the policy admits observations
(`fixedCount_iff`).
-/

namespace Metewand.Buffered.BufferedTrace

open Lib Lib.Check

variable {lib : JsonLibrary} {clock : Nat → Nat} {t : BufferedTrace}

/-! ## Accepted profiles -/

/-- A profile the collector is opened with. -/
structure Accepted (profile : SelectedBufferedProfile) : Prop where
  policy : profile.policy.Valid
  bounds : profile.policy.BufferedBounds
  schedule : profile.checkSchedule.valid = true

/-- Nothing is recorded yet. -/
def opened (profile : SelectedBufferedProfile) : BufferedTrace where
  profile := profile
  points := []
  snapshots := []
  traceBytes := 0
  snapshotBytes := 0
  reached := []
  stopped := none
  finished := false
  total := 0
  adopted := none
  readings := 0

theorem withClock_ok {profile : SelectedBufferedProfile} {t : BufferedTrace}
    (accepted : withClock profile = .ok t) : Accepted profile ∧ t = opened profile := by
  simp only [withClock, ok_bind, ok_pure] at accepted
  obtain ⟨_, valid, _, bounds, _, schedule, rfl⟩ := accepted
  exact ⟨⟨ProfilePolicy.validate_ok valid, ProfilePolicy.validateBuffered_ok.mp bounds,
    CheckSchedule.valid_of_validate schedule⟩, rfl⟩

theorem withClock_opened {profile : SelectedBufferedProfile}
    (policy : profile.policy.validate = .ok ()) (bounds : profile.policy.validateBuffered = .ok ())
    (schedule : profile.checkSchedule.validate = .ok ()) :
    withClock profile = .ok (opened profile) := by
  simp only [withClock, policy, bounds, schedule]
  rfl

/-! ## Counting -/

/-- One snapshot for each row, and room for another while the run goes on. -/
structure Counting (profile : SelectedBufferedProfile) (t : BufferedTrace) : Prop where
  same : t.profile = profile
  saved : t.snapshots.length = t.points.length
  room : t.stopped = none → t.snapshots.length < profile.policy.maxObservations

theorem SameRecord.counting {profile : SelectedBufferedProfile} {t' : BufferedTrace}
    (same : SameRecord t t') (counting : Counting profile t) : Counting profile t' := by
  rw [same.2]
  exact ⟨counting.same, counting.saved, counting.room⟩

theorem enter_ok {progress : Progress} (admitted : t.enter progress = .ok ()) :
    t.finished = false ∧ t.stopped = none ∧ t.adopted = none ∧
      progress.checkIndex ≤ maxSafeInteger ∧
      (∀ entry ∈ progress.work.entries, entry.2 ≤ maxSafeInteger) ∧
      (∀ p ∈ t.points.getLast?, p.checkIndex < progress.checkIndex ∧
        behind p.work progress.work = false) ∧
      ∀ next ∈ t.expected, progress.checkIndex ≤ next := by
  simp only [enter, ok_bind, ok_reject, not_or, Bool.not_eq_true, Option.isSome_eq_false_iff,
    Option.isNone_iff_eq_none] at admitted
  obtain ⟨-, ⟨unfinished, running, own⟩, -, ⟨index, work⟩, -, above, scheduled⟩ := admitted
  refine ⟨unfinished, running, own, Nat.le_of_not_lt index, fun entry inside => ?_,
    fun p last => ?_, fun next due => ?_⟩
  · have small := List.any_eq_false.mp work entry inside
    simpa using small
  · have later := (Option.any_eq_false _ _).mp above p last
    simpa using later
  · have skipped := (Option.any_eq_false _ _).mp scheduled next due
    simpa using skipped

/-- A committed check of an unmetered profile, step by step. -/
theorem commit_unmetered {profile : SelectedBufferedProfile} (counting : Counting profile t)
    (unmetered : profile.policy.metric = none) {progress : Progress} {metrics : Json}
    {elapsed active : Nat} {snapshot : Callback} {entry : Entry} {value : Option UInt64}
    (admitted : t.enter progress = .ok ())
    (prepared : Prepared lib t progress metrics elapsed active snapshot false entry value)
    {answer : Except Failure Decision} {t' : BufferedTrace}
    (committed : (answer, t') = t.tick.tick.commit entry) :
    answer = .ok (decision entry.row.reason) ∧ t'.profile = t.profile ∧
      t'.stopped = entry.row.reason ∧ t'.points = t.points ++ [entry.row.point] ∧
      t'.snapshots.length = t.snapshots.length + 1 := by
  have room := counting.room (enter_ok admitted).2.1
  have metric : t.policy.metric = none := by
    rw [policy, counting.same]
    exact unmetered
  cases captured : entry.captured with
  | none =>
      have idle := (prepared.plain captured).2
      simp [captures, metric] at idle
  | some data =>
      have within : ¬ t.tick.tick.policy.maxObservations ≤ t.tick.tick.snapshots.length := by
        have same : t.tick.tick.policy = profile.policy := congrArg _ counting.same
        rw [same]
        exact Nat.not_le.mpr room
      simp only [commit, captured, if_neg within] at committed
      cases committed
      exact ⟨rfl, rfl, rfl, rfl, by simp [settle, save, push, tick]⟩

/-- A stop at the last admitted snapshot comes from the trace bound or from the count. -/
theorem counted_unmetered {profile : SelectedBufferedProfile} (counting : Counting profile t)
    (unmetered : profile.policy.metric = none) {progress : Progress} {metrics : Json}
    {elapsed active : Nat} {snapshot : Callback} {terminal : Bool} {entry : Entry}
    {value : Option UInt64}
    (prepared : Prepared lib t progress metrics elapsed active snapshot terminal entry value)
    (full : profile.policy.maxObservations ≤ t.snapshots.length + 1) :
    entry.row.reason = some ((t.reasonOf value elapsed active terminal).getD .fixedCount) := by
  have same : t.policy = profile.policy := congrArg _ counting.same
  have counted : t.countedReason entry.crossed (t.reasonOf value elapsed active terminal) =
      some ((t.reasonOf value elapsed active terminal).getD .fixedCount) := by
    unfold countedReason
    cases t.reasonOf value elapsed active terminal with
    | some reason => simp
    | none => simp [captures, same, unmetered, full]
  rcases prepared.reason with reason | ⟨running, -⟩
  · exact reason.trans counted
  · rw [counted] at running
    cases running

theorem check_counting {profile : SelectedBufferedProfile} (counting : Counting profile t)
    (unmetered : profile.policy.metric = none) {progress : Progress} {measure snapshot : Callback}
    {answer : Except Failure Decision} {t' : BufferedTrace}
    (checked : t.check lib clock progress measure snapshot false = (answer, t')) :
    Counting profile t' := by
  rcases check_cases checked with
    ⟨same, -⟩ | ⟨active, metrics, entry, value, admitted, -, -, -, prepared, committed⟩
  · exact same.counting counting
  · obtain ⟨-, profile', stopped, points, saved⟩ :=
      commit_unmetered counting unmetered admitted prepared committed
    refine ⟨profile'.trans counting.same, ?_, ?_⟩
    · rw [saved, points, counting.saved, List.length_append, List.length_singleton]
    · intro running
      rw [stopped] at running
      rw [saved]
      refine Nat.lt_of_not_le fun full => ?_
      rw [counted_unmetered counting unmetered prepared full] at running
      cases running

/-- Observing and recording keep the count. -/
theorem call_counting {profile : SelectedBufferedProfile} (counting : Counting profile t)
    (unmetered : profile.policy.metric = none) {c : Call} (checks : c.check?.isSome) :
    Counting profile (t.call lib clock c).2 := by
  cases c with
  | observe progress measure snapshot => exact check_counting counting unmetered rfl
  | record progress metrics snapshot => exact check_counting counting unmetered rfl
  | finish _ _ _ => cases checks

theorem run_counting {profile : SelectedBufferedProfile} (valid : profile.policy.Valid)
    (unmetered : profile.policy.metric = none) {calls : List Call}
    (checks : ∀ c ∈ calls, c.check?.isSome) :
    Counting profile ((opened profile).run lib clock calls) :=
  run_invariant (Counting profile) (fun c => c.check?.isSome)
    (fun _ _ counting checks => call_counting counting unmetered checks) checks
    ⟨rfl, rfl, fun _ => valid.positive⟩

/-- A call that checks is a check. -/
theorem call_check {c : Call} {progress : Progress} {measure snapshot : Callback}
    (checks : c.check? = some (progress, measure, snapshot)) :
    t.call lib clock c =
      ((t.check lib clock progress measure snapshot false).1.map some,
        (t.check lib clock progress measure snapshot false).2) := by
  cases c with
  | observe _ _ _ | record _ _ _ =>
      cases checks
      rfl
  | finish _ _ _ => cases checks

/-! ## The stop at the last observation -/

/-- At the call that saves the last admitted observation, before the active-time limit, the
run ends as a fixed count exactly when the trace admits more rows than observations. -/
theorem fixedCount_iff {profile : SelectedBufferedProfile} {t₀ : BufferedTrace}
    (opens : withClock profile = .ok t₀) (unmetered : profile.policy.metric = none)
    {calls : List Call} (checks : ∀ c ∈ calls, c.check?.isSome)
    {last : Call} (checked : last.check?.isSome) {reason : StopReason} {t' : BufferedTrace}
    (stops : (t₀.run lib clock calls).call lib clock last = (.ok (some (.stop reason)), t'))
    (full : t'.snapshots.length = profile.policy.maxObservations)
    (early : ∀ p ∈ t'.points.getLast?, ∀ limit, profile.policy.activeTimeNs = .ok limit →
      p.instrumentedTimeNs < limit) :
    reason = .fixedCount ↔ profile.policy.maxObservations < profile.policy.maxTracePoints := by
  obtain ⟨accepted, rfl⟩ := withClock_ok opens
  have counting := @run_counting lib clock profile accepted.policy unmetered calls checks
  generalize (opened profile).run lib clock calls = t at counting stops
  obtain ⟨⟨progress, measure, snapshot⟩, check⟩ := Option.isSome_iff_exists.mp checked
  rw [call_check check] at stops
  cases answered : t.check lib clock progress measure snapshot false with
  | mk answer after =>
      rw [answered] at stops
      simp only [Prod.mk.injEq] at stops
      obtain ⟨stop, rfl⟩ := stops
      rcases check_cases answered with
        ⟨-, ⟨e, rfl⟩ | ⟨rfl, -⟩⟩ | ⟨active, metrics, entry, value, admitted, limit, -, -, prepared, committed⟩
      · cases stop
      · cases stop
      · obtain ⟨rfl, -, -, points, saved⟩ :=
          commit_unmetered counting unmetered admitted prepared committed
        have same : t.policy = profile.policy := congrArg _ counting.same
        have count : t.snapshots.length + 1 = profile.policy.maxObservations := saved ▸ full
        have counted := counted_unmetered counting unmetered prepared (Nat.le_of_eq count.symm)
        rw [counted] at stop
        have reason_eq : (t.reasonOf value (clock (t.readings + 1)) active false).getD .fixedCount =
            reason := by
          cases stop
          rfl
        have clock_ : clock (t.readings + 1) < active := by
          have row : entry.row.point ∈ after.points.getLast? := by
            rw [points, List.getLast?_append]
            rfl
          have time := early _ row active (same ▸ limit)
          rw [prepared.point] at time
          exact time
        obtain ⟨threshold, -, room⟩ := accepted.policy.unmetered unmetered
        have bounded := room (Nat.pos_iff_ne_zero.mp accepted.bounds.tracePoints.1)
        have untargeted : t.policy.threshold = none := by rw [same, threshold]
        have rows := counting.saved
        have targetless : (value.any fun _ => false) = false := by cases value <;> rfl
        rw [← reason_eq]
        unfold reasonOf
        rw [untargeted, same]
        simp only [Option.any_none, targetless, Bool.false_eq_true, if_false,
          if_neg (Nat.not_le.mpr clock_)]
        split
        · rename_i bound
          exact iff_of_false (by simp) (by omega)
        · rename_i bound
          exact iff_of_true rfl (by omega)

/-! A profile that checks every iterate. -/

/-- A fixed-count profile with the given bounds. -/
def countingProfile (observations rows : Nat) : SelectedBufferedProfile where
  policy := {
    metric := none, direction := none, threshold := none, recordThresholds := []
    maxObservations := observations, maxCheckpointBytes := 0, maxTracePoints := rows
    maxBufferBytes := 65536, terminalReserveBytes := 4096, maxActiveTime := "1 s" }
  instrumentedScope := "solve"
  scope := .object []
  instrumentation := .object []
  checkSchedule := .periodic 1 0

/-- A library that reads back the empty result only. -/
def emptyResultLibrary : JsonLibrary where
  fractionText _ := ['0', '.', '5']
  parse input :=
    if input = JsonLibrary.encode ⟨fun _ => [], fun _ => none⟩ (resultDocument (.obj [])) then
      some (resultDocument (.obj []))
    else none

def firstRecord : Call := .record ⟨0, ∅⟩ (.obj []) (.ok (.obj []))

/-- The row the first record adds. -/
def firstPoint : TracePoint := ⟨0, ∅, .obj [], 0, true⟩

/-- What the first record of such a profile leaves. -/
def recorded (observations rows : Nat) : BufferedTrace :=
  ((opened (countingProfile observations rows)).call emptyResultLibrary (fun _ => 0) firstRecord).2

theorem firstEstimate_normal :
    ((opened (countingProfile 1 1)).estimate ((emptyResultLibrary.encode firstPoint.json).length + 1)
      (some (emptyResultLibrary.encode (resultDocument (.obj []))))).json.normalize =
    .ok ((opened (countingProfile 1 1)).estimate ((emptyResultLibrary.encode firstPoint.json).length + 1)
      (some (emptyResultLibrary.encode (resultDocument (.obj []))))).json := by
  decide +kernel

theorem firstEstimate_fits :
    (emptyResultLibrary.encode firstPoint.json).length + 1 +
      (emptyResultLibrary.encode (resultDocument (.obj []))).length +
      Json.width (emptyResultLibrary.text
        ((opened (countingProfile 1 1)).estimate ((emptyResultLibrary.encode firstPoint.json).length + 1)
          (some (emptyResultLibrary.encode (resultDocument (.obj []))))).json) ≤ 65536 := by
  decide +kernel

/-- The first record stops for the reason that counts, and leaves one row and one snapshot. -/
theorem firstRecord_stops (observations rows : Nat) {reason : StopReason} (room : 0 < observations)
    (stops : (opened (countingProfile observations rows)).countedReason []
      ((opened (countingProfile observations rows)).reasonOf none 0 1000000000 false) = some reason) :
    (opened (countingProfile observations rows)).call emptyResultLibrary (fun _ => 0) firstRecord =
        (.ok (some (.stop reason)), recorded observations rows) ∧
      (recorded observations rows).snapshots.length = 1 ∧
      (recorded observations rows).points = [firstPoint] := by
  have text : (countingProfile observations rows).policy.maxActiveTime =
      (countingProfile 1 1).policy.maxActiveTime := rfl
  have limit : (countingProfile observations rows).policy.activeTimeNs = .ok 1000000000 := by
    rw [ProfilePolicy.activeTimeNs_congr text]
    decide +kernel
  have written : bytes emptyResultLibrary firstPoint.json =
      .ok (emptyResultLibrary.encode firstPoint.json) := by
    have normal : firstPoint.json.normalize = .ok firstPoint.json := by decide +kernel
    simp only [bytes, JsonLibrary.bytes, normal]
    rfl
  have taken : frozen emptyResultLibrary true (.ok (.obj [])) =
      .ok (some (emptyResultLibrary.encode (resultDocument (.obj [])))) := by decide +kernel
  have prepared : (opened (countingProfile observations rows)).prepare emptyResultLibrary ⟨0, ∅⟩
      (.obj []) 0 1000000000 (.ok (.obj [])) false = .ok {
        row := ⟨firstPoint, emptyResultLibrary.encode firstPoint.json, some reason⟩
        captured := some (emptyResultLibrary.encode (resultDocument (.obj [])))
        crossed := [] } :=
    prepare_stops (Nat.zero_le _) rfl rfl stops written taken
      (estimatedBytes_ok firstEstimate_normal) firstEstimate_fits
  have checked := @check_prepared emptyResultLibrary (fun _ => 0)
    (opened (countingProfile observations rows)) ⟨0, ∅⟩ (.ok (.obj [])) _ _ _ _ _ rfl limit rfl rfl
    prepared
  have within : ¬ (opened (countingProfile observations rows)).tick.tick.policy.maxObservations ≤
      (opened (countingProfile observations rows)).tick.tick.snapshots.length := Nat.not_le.mpr room
  simp only [commit, if_neg within] at checked
  unfold recorded
  simp only [call, record, firstRecord, checked]
  exact ⟨rfl, rfl, rfl⟩

theorem recorded_early {observations rows : Nat}
    (points : (recorded observations rows).points = [firstPoint]) :
    ∀ p ∈ (recorded observations rows).points.getLast?, ∀ limit,
      (countingProfile observations rows).policy.activeTimeNs = .ok limit →
        p.instrumentedTimeNs < limit := by
  intro p last limit active
  rw [points] at last
  cases last
  exact (ProfilePolicy.activeTimeNs_bounds active).1

theorem fixedCount_iff_sample : StopReason.fixedCount = .fixedCount ↔
    (countingProfile 1 2).policy.maxObservations < (countingProfile 1 2).policy.maxTracePoints := by
  obtain ⟨stops, saved, points⟩ := @firstRecord_stops 1 2 .fixedCount (by omega) (by decide +kernel)
  have opens : withClock (countingProfile 1 2) = .ok (opened (countingProfile 1 2)) :=
    withClock_opened (by decide +kernel) (by decide +kernel) (by decide +kernel)
  have none : ∀ c ∈ ([] : List Call), c.check?.isSome := fun _ absent => absurd absent List.not_mem_nil
  exact fixedCount_iff opens rfl none rfl stops saved (recorded_early points)

/-- With as many rows as observations the last observation is reported as a trace limit. -/
theorem traceLimit_at_last_observation :
    ¬ ∀ (lib : JsonLibrary) (clock : Nat → Nat) (profile : SelectedBufferedProfile)
        (t₀ : BufferedTrace) (calls : List Call) (last : Call) (reason : StopReason)
        (t' : BufferedTrace),
      withClock profile = .ok t₀ → profile.policy.metric = none →
      (∀ c ∈ calls, c.check?.isSome) → last.check?.isSome →
      (t₀.run lib clock calls).call lib clock last = (.ok (some (.stop reason)), t') →
      t'.snapshots.length = profile.policy.maxObservations →
      (∀ p ∈ t'.points.getLast?, ∀ limit, profile.policy.activeTimeNs = .ok limit →
        p.instrumentedTimeNs < limit) → reason = .fixedCount := by
  intro claim
  obtain ⟨stops, saved, points⟩ := @firstRecord_stops 1 1 .traceLimit (by omega) (by decide +kernel)
  have fixed := claim emptyResultLibrary (fun _ => 0) (countingProfile 1 1)
    (opened (countingProfile 1 1)) [] firstRecord .traceLimit (recorded 1 1)
    (withClock_opened (by decide +kernel) (by decide +kernel) (by decide +kernel)) rfl
    (fun _ absent => absurd absent List.not_mem_nil) rfl stops saved (recorded_early points)
  cases fixed

end Metewand.Buffered.BufferedTrace
