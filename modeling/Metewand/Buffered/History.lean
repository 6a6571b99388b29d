import Metewand.Buffered.Invariant
import Metewand.Buffered.Reading
import Metewand.Buffered.Sound

/-!
# What a collector has recorded

The rows, the snapshots and the stop of a collector after any calls, failed ones included
(`run_recounts`).  Every row continues the rows before it, every snapshot lists the
thresholds its row is the first to reach, the stop is borne out by the rows, and every
proper prefix of the rows was once the whole record, with the terminal allowance unspent.
-/

namespace Metewand

open Lib Lib.Check

/-- Every threshold of a valid policy is a finite number. -/
theorem ProfilePolicy.Valid.thresholds_finite {policy : ProfilePolicy} (valid : policy.Valid) :
    ∀ threshold ∈ policy.thresholds, F64.isFinite threshold = true := by
  rcases valid.kind with ⟨metric, -⟩ | ⟨_, _, _, -, -, -, -, -, -, -, finite, -⟩
  · rw [(valid.unmetered metric).2.1]
    exact fun threshold absent => absurd absent List.not_mem_nil
  · exact List.all_eq_true.mp finite

namespace Buffered

section Rows

variable (profile : SelectedBufferedProfile)

/-! ## Rows -/

/-- A row that may follow the rows before it. -/
structure Continues (before : List TracePoint) (p : TracePoint) : Prop where
  index : p.checkIndex ≤ maxSafeInteger
  time : p.instrumentedTimeNs ≤ maxSafeInteger
  work : ∀ entry ∈ p.work.entries, entry.2 ≤ maxSafeInteger
  metrics : p.provisionalMetrics.isObject = true
  target : profile.policy.metric.isSome = true →
    (metricOf profile.policy p.provisionalMetrics).any F64.isFinite = true
  later : ∀ q ∈ before.getLast?, q.checkIndex < p.checkIndex ∧
    q.instrumentedTimeNs ≤ p.instrumentedTimeNs ∧ behind q.work p.work = false
  due : ∀ next ∈ profile.checkSchedule.nextAfter (before.getLast?.map (·.checkIndex)), p.checkIndex ≤ next

/-- A row after which the run goes on. -/
structure Goes (before : List TracePoint) (p : TracePoint) : Prop where
  running : p.terminal = false
  scheduled : profile.checkSchedule.nextAfter (before.getLast?.map (·.checkIndex)) = some p.checkIndex
  early : ∃ active, profile.policy.activeTimeNs = .ok active ∧ p.instrumentedTimeNs < active
  short : ∀ threshold ∈ profile.policy.threshold, reachesAt profile threshold p = false

/-- Every row goes on from the rows before it. -/
def Ongoing (points : List TracePoint) : Prop :=
  ∀ before p after, points = before ++ p :: after → Continues profile before p ∧ Goes profile before p

/-- Every row but the last goes on. -/
def Trajectory (points : List TracePoint) : Prop :=
  ∀ before p after, points = before ++ p :: after →
    Continues profile before p ∧ (after ≠ [] → Goes profile before p)

/-- The row with this number reaches a threshold. -/
def Hits (points : List TracePoint) (threshold : UInt64) (i : Nat) : Prop :=
  ∃ p, points[i]? = some p ∧ reachesAt profile threshold p = true

/-- The snapshots of the rows. -/
structure Saves (points : List TracePoint) (snapshots : List BufferedSnapshot) : Prop where
  named : ∀ s ∈ snapshots, s.manifest = snapshotPath s.captureOrdinal
  policy : ∀ s ∈ snapshots, s.thresholds.Sublist profile.policy.thresholds
  first : ∀ s ∈ snapshots, ∀ threshold ∈ s.thresholds, Hits profile points threshold s.traceIndex ∧
    ∀ j < s.traceIndex, ¬Hits profile points threshold j
  every : ∀ threshold ∈ profile.policy.thresholds, ∀ i, Hits profile points threshold i →
    ∃ s ∈ snapshots, threshold ∈ s.thresholds
  whole : profile.policy.metric = none → snapshots.map (·.traceIndex) = List.range points.length

end Rows

section Lists

variable {profile : SelectedBufferedProfile} {points : List TracePoint} {p q : TracePoint}

/-- A row of an extended list is the new one, or one of the rows before. -/
theorem concat_split {before after : List TracePoint} (split : points ++ [q] = before ++ p :: after) :
    (before = points ∧ p = q ∧ after = []) ∨ ∃ rest, after = rest ++ [q] ∧ points = before ++ p :: rest := by
  rcases List.eq_nil_or_concat' after with none | ⟨rest, last, some⟩
  · rw [none] at split
    rcases List.append_inj' split rfl with ⟨same, one⟩
    cases one
    exact .inl ⟨same.symm, rfl, none⟩
  · rw [some, ← List.cons_append, ← List.append_assoc] at split
    rcases List.append_inj' split rfl with ⟨same, one⟩
    cases one
    exact .inr ⟨rest, some, same⟩

theorem Ongoing.trajectory (ongoing : Ongoing profile points) : Trajectory profile points := by
  intro before p after split
  have both := ongoing before p after split
  exact ⟨both.1, fun _ => both.2⟩

theorem Ongoing.concat (ongoing : Ongoing profile points) (continues : Continues profile points q)
    (goes : Goes profile points q) : Ongoing profile (points ++ [q]) := by
  intro before p after split
  rcases concat_split split with ⟨same, one, -⟩ | ⟨rest, -, old⟩
  · rw [same, one]
    exact ⟨continues, goes⟩
  · exact ongoing before p rest old

theorem Ongoing.ends (ongoing : Ongoing profile points) (continues : Continues profile points q) :
    Trajectory profile (points ++ [q]) := by
  intro before p after split
  rcases concat_split split with ⟨same, one, none⟩ | ⟨rest, -, old⟩
  · rw [same, one]
    exact ⟨continues, fun some => absurd none some⟩
  · have both := ongoing before p rest old
    exact ⟨both.1, fun _ => both.2⟩

theorem Hits.bound {threshold : UInt64} {i : Nat} (hits : Hits profile points threshold i) :
    i < points.length := by
  rcases hits with ⟨p, found, -⟩
  exact (List.getElem?_eq_some_iff.mp found).1

theorem hits_concat {threshold : UInt64} {i : Nat} : Hits profile (points ++ [q]) threshold i ↔
    Hits profile points threshold i ∨ i = points.length ∧ reachesAt profile threshold q = true := by
  constructor
  · intro hits
    rcases hits with ⟨p, found, reaches⟩
    rcases Nat.lt_trichotomy i points.length with before | here | beyond
    · rw [List.getElem?_append_left before] at found
      exact .inl ⟨p, found, reaches⟩
    · rw [here, List.getElem?_concat_length] at found
      cases found
      exact .inr ⟨here, reaches⟩
    · have outside : (points ++ [q]).length ≤ i := by
        rw [List.length_append, List.length_singleton]
        omega
      rw [List.getElem?_eq_none outside] at found
      cases found
  · intro either
    rcases either with ⟨p, found, reaches⟩ | ⟨here, reaches⟩
    · have before := (List.getElem?_eq_some_iff.mp found).1
      exact ⟨p, by rw [List.getElem?_append_left before, found], reaches⟩
    · exact ⟨q, by rw [here, List.getElem?_concat_length], reaches⟩

/-- A threshold no earlier row reaches is reached by the last. -/
theorem reachesAt_of_new {threshold : UInt64} {i : Nat} (hits : Hits profile (points ++ [q]) threshold i)
    (never : ¬∃ j, Hits profile points threshold j) : reachesAt profile threshold q = true := by
  rcases hits_concat.mp hits with earlier | ⟨-, here⟩
  · exact absurd ⟨i, earlier⟩ never
  · exact here

theorem exists_hits_iff {threshold : UInt64} :
    (∃ i, Hits profile points threshold i) ↔ points.any (reachesAt profile threshold) = true := by
  rw [List.any_eq_true]
  constructor
  · intro reached
    rcases reached with ⟨i, p, found, reaches⟩
    exact ⟨p, List.mem_of_getElem? found, reaches⟩
  · intro reached
    rcases reached with ⟨p, member, reaches⟩
    rcases List.getElem?_of_mem member with ⟨i, found⟩
    exact ⟨i, p, found, reaches⟩

/-- The flag of the last row may change once it is recorded. -/
def flagged (points : List TracePoint) : List TracePoint :=
  points.modify (points.length - 1) fun p => { p with terminal := true }

theorem hits_flagged {threshold : UInt64} {i : Nat} :
    Hits profile (flagged points) threshold i ↔ Hits profile points threshold i := by
  unfold Hits flagged
  rw [List.getElem?_modify]
  constructor
  · intro hits
    rcases hits with ⟨p, found, reaches⟩
    rcases Option.map_eq_some_iff.mp found with ⟨q, old, is⟩
    refine ⟨q, old, ?_⟩
    rw [← reaches, ← is]
    split
    · rfl
    · rfl
  · intro hits
    rcases hits with ⟨p, found, reaches⟩
    refine ⟨_, by rw [found]; rfl, ?_⟩
    rw [← reaches]
    split
    · rfl
    · rfl

theorem flagged_concat : flagged (points ++ [q]) = points ++ [{ q with terminal := true }] := by
  unfold flagged
  rw [List.length_append, List.length_singleton, Nat.add_sub_cancel]
  induction points with
  | nil => rfl
  | cons first rest ih => simpa using ih

theorem Trajectory.flagged (rows : Trajectory profile points) : Trajectory profile (flagged points) := by
  rcases List.eq_nil_or_concat' points with none | ⟨init, last, some⟩
  · rw [none]
    intro before p after split
    cases before <;> cases split
  · rw [some, flagged_concat]
    rw [some] at rows
    intro before p after split
    rcases concat_split split with ⟨same, one, none⟩ | ⟨rest, -, old⟩
    · have whole := (rows init last [] rfl).1
      rw [same, one]
      exact ⟨⟨whole.index, whole.time, whole.work, whole.metrics, whole.target, whole.later, whole.due⟩,
        fun some => absurd none some⟩
    · have row := rows before p (rest ++ [last]) (by rw [old, List.append_assoc, List.cons_append])
      exact ⟨row.1, fun _ => row.2 (List.append_ne_nil_of_right_ne_nil _ (List.cons_ne_nil _ _))⟩

theorem Saves.flagged {snapshots : List BufferedSnapshot} (saves : Saves profile points snapshots) :
    Saves profile (flagged points) snapshots where
  named := saves.named
  policy := saves.policy
  first := by
    intro s member threshold listed
    rcases saves.first s member threshold listed with ⟨here, before⟩
    exact ⟨hits_flagged.mpr here, fun j less hits => before j less (hits_flagged.mp hits)⟩
  every := fun threshold listed i hits => saves.every threshold listed i (hits_flagged.mp hits)
  whole := by
    intro unmetered
    rw [saves.whole unmetered]
    unfold Buffered.flagged
    rw [List.length_modify]

end Lists

/-! ## Measurements -/

/-- What a call measures. -/
def Call.measure : Call → Callback
  | .observe _ measure _ => measure
  | .record _ metrics _ => .ok metrics
  | .finish _ measure _ => measure

/-- An object that is measured has its members in order, as every JSON object has. -/
def Call.Sorted (c : Call) : Prop := ∀ metrics, c.measure = .ok metrics → metrics.Ordered

namespace BufferedTrace

variable {lib : JsonLibrary} {clock : Nat → Nat} {profile : SelectedBufferedProfile} {t t' : BufferedTrace}

/-! ## The record -/

/-- The rows up to one were once the whole record, with the terminal allowance unspent. -/
structure Reserved (lib : JsonLibrary) (profile : SelectedBufferedProfile) (t : BufferedTrace) (i : Nat)
    (s : BufferedTrace) : Prop where
  same : s.profile = profile
  points : s.points = t.points.take (i + 1)
  snapshots : s.snapshots = t.snapshots.filter fun saved => saved.1.traceIndex ≤ i
  rows : RowsWithin lib s.points s.traceBytes
  size : s.snapshotBytes = (s.snapshots.map (·.2.length)).sum
  fits : EstimateFits lib s (profile.policy.maxBufferBytes - profile.policy.terminalReserveBytes)

/-- The rows, the snapshots and the stop. -/
structure History (lib : JsonLibrary) (profile : SelectedBufferedProfile) (t : BufferedTrace) : Prop where
  rows : Trajectory profile t.points
  counted : t.points.length ≤ profile.policy.maxTracePoints ∧
    t.snapshots.length ≤ profile.policy.maxObservations
  sorted : ∀ p ∈ t.points, p.provisionalMetrics.Ordered
  saves : Saves profile t.points (t.snapshots.map Prod.fst)
  borne : ∀ reason ∈ t.stopped, ∀ last ∈ t.points.getLast?,
    Substantiated profile (t.manifest 0 reason []) t.points last
  prefixes : ∀ i, i + 1 < t.points.length → ∃ s, Reserved lib profile t i s

/-- What the calls so far have left. -/
structure Recounts (lib : JsonLibrary) (profile : SelectedBufferedProfile) (t : BufferedTrace) : Prop where
  collects : Collects lib profile t
  history : History lib profile t
  ongoing : t.stopped = none → Ongoing profile t.points
  closed : t.finished = true → t.stopped ≠ none ∧ t.total ≤ maxSafeInteger ∧
    ∀ last ∈ t.points.getLast?, last.instrumentedTimeNs ≤ t.total

theorem recounts_opened (accepted : Accepted profile) : Recounts lib profile (opened profile) where
  collects := collects_opened accepted
  history := {
    rows := by
      intro before p after split
      cases before <;> cases split
    counted := ⟨Nat.zero_le _, Nat.zero_le _⟩
    sorted := fun p absent => absurd absent List.not_mem_nil
    saves := by
      refine ⟨?_, ?_, ?_, ?_, fun _ => rfl⟩
      · exact fun s absent => absurd absent List.not_mem_nil
      · exact fun s absent => absurd absent List.not_mem_nil
      · exact fun s absent => absurd absent List.not_mem_nil
      · intro threshold _ i hits
        rcases hits with ⟨p, found, _⟩
        cases found
    borne := fun reason impossible => by cases impossible
    prefixes := fun i short => absurd short (Nat.not_lt_zero _) }
  ongoing := by
    intro _ before p after split
    cases before <;> cases split
  closed := fun impossible => by cases impossible

theorem Reserved.later {i : Nat} {s : BufferedTrace} (held : Reserved lib profile t i s)
    (points : t'.points.take (i + 1) = t.points.take (i + 1))
    (snapshots : (t'.snapshots.filter fun saved => saved.1.traceIndex ≤ i) =
      t.snapshots.filter fun saved => saved.1.traceIndex ≤ i) : Reserved lib profile t' i s :=
  ⟨held.same, held.points.trans points.symm, held.snapshots.trans snapshots.symm, held.rows, held.size, held.fits⟩

theorem SameRecord.recounts (same : SameRecord t t') (recounts : Recounts lib profile t) :
    Recounts lib profile t' := by
  have collects := same.collects recounts.collects
  rw [same.2] at collects ⊢
  rcases recounts with ⟨-, ⟨rows, counted, sorted, saves, borne, prefixes⟩, ongoing, closed⟩
  refine ⟨collects, ⟨rows, counted, sorted, saves, borne, fun i short => ?_⟩, ongoing, closed⟩
  rcases prefixes i short with ⟨s, held⟩
  exact ⟨s, held.later rfl rfl⟩

/-- While the run goes on its rows are the whole record. -/
theorem Recounts.reserved (recounts : Recounts lib profile t) (running : t.stopped = none)
    (some : t.points ≠ []) : Reserved lib profile t (t.points.length - 1) t where
  same := recounts.collects.kept.same
  points := by
    have positive := List.length_pos_iff.mpr some
    rw [Nat.sub_add_cancel positive, List.take_length]
  snapshots := by
    refine (List.filter_eq_self.mpr fun saved member => ?_).symm
    have inside := recounts.collects.kept.recorded.inside saved member
    simpa using (by omega : saved.1.traceIndex ≤ t.points.length - 1)
  rows := recounts.collects.kept.recorded.rows
  size := recounts.collects.kept.recorded.size
  fits := (recounts.collects.running running).fits some

/-! ## Committing a check -/

section Commit

variable {progress : Progress} {measure : Callback} {metrics : Json} {elapsed active : Nat} {snapshot : Callback}
  {terminal : Bool} {entry : Entry} {value : Option UInt64}

theorem measured_ok (read : measured measure = .ok metrics) :
    measure = .ok metrics ∧ metrics.isObject = true := by
  simp only [measured, ok_bind, ok_reject, ok_pure, not_not] at read
  rcases read with ⟨found, read, -, object, -, -, same⟩
  exact ⟨same ▸ read, same ▸ object⟩

/-- The target metric of an admitted row is a finite number. -/
theorem targetValue_finite (target : t.targetValue metrics = .ok value) (metered : t.policy.metric.isSome = true) :
    value.any F64.isFinite = true := by
  unfold targetValue at target
  cases metric : t.policy.metric with
  | none =>
      rw [metric] at metered
      cases metered
  | some name =>
      rw [metric] at target
      obtain ⟨v, read, rfl⟩ := ok_map.mp target
      rw [ok_expect] at read
      exact (Option.filter_eq_some_iff.mp read).2

/-- A row that stops for no reason was given none. -/
theorem unprompted
    (prepared : Prepared lib t progress metrics elapsed active snapshot terminal entry value)
    (runs : entry.row.reason = none) : t.reasonOf value elapsed active terminal = none := by
  have counted : t.countedReason entry.crossed (t.reasonOf value elapsed active terminal) = none := by
    rcases prepared.reason with reason | ⟨open_, -⟩
    · exact reason.symm.trans runs
    · exact open_
  unfold countedReason at counted
  split at counted
  · cases counted
  · exact counted

/-- A row with a new threshold, a stop, or no metric to look at has a snapshot. -/
theorem captured_of
    (prepared : Prepared lib t progress metrics elapsed active snapshot terminal entry value)
    (needed : t.policy.metric = none ∨ entry.crossed ≠ [] ∨ entry.row.reason ≠ none) :
    ∃ data, entry.captured = some data := by
  cases captured : entry.captured with
  | some data => exact ⟨data, rfl⟩
  | none =>
      rcases prepared.plain captured with ⟨runs, idle⟩
      unfold captures at idle
      simp only [Bool.or_eq_false_iff, Bool.not_eq_eq_eq_not, Bool.not_false] at idle
      rcases needed with unmetered | crossed | stops
      · rw [unmetered] at idle
        cases idle.1.1
      · exact absurd (List.isEmpty_iff.mp idle.1.2) crossed
      · exact absurd runs stops

theorem committed_continues (collects : Collects lib profile t) (admitted : t.enter progress = .ok ())
    (read : measured measure = .ok metrics)
    (prepared : Prepared lib t progress metrics elapsed active snapshot terminal entry value) :
    Continues profile t.points entry.row.point := by
  have policy_ : t.policy = profile.policy := congrArg _ collects.kept.same
  rcases enter_ok admitted with ⟨-, -, -, index, work, above, scheduled⟩
  have target := prepared.target
  rw [prepared.point]
  refine ⟨index, prepared.safe, work, (measured_ok read).2, ?_, ?_, ?_⟩
  · intro metered
    have finite := targetValue_finite target (policy_ ▸ metered)
    rw [targetValue_eq target, policy_] at finite
    exact finite
  · intro q last
    exact ⟨(above q last).1, prepared.later q last, (above q last).2⟩
  · unfold expected at scheduled
    rw [collects.kept.same] at scheduled
    exact scheduled

theorem committed_goes (nondecreasing : Monotone clock) (collects : Collects lib profile t)
    (limit : t.policy.activeTimeNs = .ok active)
    (due : t.undue clock progress active terminal = false)
    (prepared : Prepared lib t progress metrics (clock (t.readings + 1)) active snapshot terminal entry value)
    (runs : entry.row.reason = none) : Goes profile t.points entry.row.point := by
  have policy_ : t.policy = profile.policy := congrArg _ collects.kept.same
  have early : ¬(terminal = true ∨ active ≤ clock (t.readings + 1)) :=
    fun late => stops_of_late prepared late runs
  have unexpired : ¬active ≤ clock t.readings := by
    intro late
    exact early (.inr (Nat.le_trans late (nondecreasing (Nat.le_succ _))))
  have first := unprompted prepared runs
  rw [prepared.point]
  refine ⟨by rw [runs]; rfl, ?_, ?_, ?_⟩
  · have open_ : terminal = false := by simpa using fun is => early (.inl is)
    have next : t.expected = some progress.checkIndex := by simpa [undue, open_, unexpired] using due
    unfold expected at next
    rwa [collects.kept.same] at next
  · exact ⟨active, policy_ ▸ limit, Nat.lt_of_not_le fun late => early (.inr late)⟩
  · intro threshold is
    cases reached : reachesAt profile threshold
        ⟨progress.checkIndex, progress.work, metrics, clock (t.readings + 1), entry.row.reason.isSome⟩ with
    | false => rfl
    | true =>
        have hit : value.any fun v => t.policy.threshold.any (t.policy.reaches v ·) := by
          rw [targetValue_eq prepared.target, policy_]
          rw [Option.mem_def] at is
          rw [is]
          exact reached
        unfold reasonOf at first
        rw [if_pos hit] at first
        cases first

theorem committed_reaches (collects : Collects lib profile t)
    (prepared : Prepared lib t progress metrics elapsed active snapshot terminal entry value) (threshold : UInt64) :
    reachesAt profile threshold entry.row.point = value.any (profile.policy.reaches · threshold) := by
  have policy_ : t.policy = profile.policy := congrArg _ collects.kept.same
  rw [prepared.point, targetValue_eq prepared.target, policy_]
  rfl

theorem committed_snapshots : (t.committed entry).snapshots.map Prod.fst =
    t.snapshots.map Prod.fst ++ (match entry.captured with
      | none => []
      | some _ => [⟨t.snapshots.length, t.points.length, entry.crossed, snapshotPath t.snapshots.length⟩]) := by
  unfold committed
  cases entry.captured with
  | none => exact (List.append_nil _).symm
  | some data => simp [settle, save, push, tick]

/-- A threshold is listed with the first row that reaches it. -/
theorem mem_crossed (valid : profile.policy.Valid) (collects : Collects lib profile t)
    (prepared : Prepared lib t progress metrics elapsed active snapshot terminal entry value) {threshold : UInt64} :
    threshold ∈ entry.crossed ↔ threshold ∈ profile.policy.thresholds ∧
      reachesAt profile threshold entry.row.point = true ∧ ∀ i, ¬Hits profile t.points threshold i := by
  have policy_ : t.policy = profile.policy := congrArg _ collects.kept.same
  have unseen : threshold ∈ profile.policy.thresholds →
      (containsF64 t.reached threshold = false ↔ ∀ i, ¬Hits profile t.points threshold i) := by
    intro listed
    rw [← not_exists, exists_hits_iff]
    constructor
    · intro new before
      have seen : containsF64 t.reached threshold = true := by
        have finite := valid.thresholds_finite threshold listed
        refine List.any_eq_true.mpr ⟨threshold, (collects.kept.reached threshold).mpr ⟨listed, before⟩, ?_⟩
        exact Json.SameNumber.eq ⟨finite, finite, rfl⟩
      rw [new] at seen
      cases seen
    · intro before
      refine Bool.eq_false_iff.mpr fun seen => before ?_
      rcases List.any_eq_true.mp seen with ⟨r, member, same⟩
      have known := (collects.kept.reached r).mp member
      rw [valid.threshold_unique known.1 listed same] at known
      exact known.2
  rw [prepared.crossed, committed_reaches collects prepared]
  unfold crossed
  rw [List.mem_filter, policy_, Bool.and_eq_true, Bool.not_eq_true']
  constructor
  · intro given
    rcases given with ⟨listed, new, here⟩
    exact ⟨listed, here, (unseen listed).mp new⟩
  · intro given
    rcases given with ⟨listed, here, new⟩
    exact ⟨listed, (unseen listed).mpr new, here⟩

theorem committed_saves (valid : profile.policy.Valid) (collects : Collects lib profile t)
    (prepared : Prepared lib t progress metrics elapsed active snapshot terminal entry value)
    (saves : Saves profile t.points (t.snapshots.map Prod.fst)) :
    Saves profile (t.committed entry).points ((t.committed entry).snapshots.map Prod.fst) := by
  have policy_ : t.policy = profile.policy := congrArg _ collects.kept.same
  have old : ∀ s ∈ t.snapshots.map Prod.fst, ∀ threshold ∈ s.thresholds,
      Hits profile (t.points ++ [entry.row.point]) threshold s.traceIndex ∧
        ∀ j < s.traceIndex, ¬Hits profile (t.points ++ [entry.row.point]) threshold j := by
    intro s member threshold listed
    rcases saves.first s member threshold listed with ⟨here, before⟩
    refine ⟨hits_concat.mpr (.inl here), fun j less hits => ?_⟩
    have bound := here.bound
    rcases hits_concat.mp hits with earlier | ⟨last, -⟩
    · exact before j less earlier
    · omega
  rw [committed_points, committed_snapshots]
  cases captured : entry.captured with
  | none =>
      have needless : ¬(t.policy.metric = none ∨ entry.crossed ≠ [] ∨ entry.row.reason ≠ none) := by
        intro needed
        rcases captured_of prepared needed with ⟨data, some⟩
        rw [captured] at some
        cases some
      simp only [not_or, not_not] at needless
      rw [List.append_nil]
      refine ⟨saves.named, saves.policy, old, ?_, ?_⟩
      · intro threshold listed i hits
        rcases Classical.em (∃ j, Hits profile t.points threshold j) with ⟨j, earlier⟩ | never
        · exact saves.every threshold listed j earlier
        · have here := reachesAt_of_new hits never
          have new := (mem_crossed valid collects prepared).mpr ⟨listed, here, not_exists.mp never⟩
          rw [needless.2.1] at new
          exact absurd new List.not_mem_nil
      · intro unmetered
        exact absurd (policy_ ▸ unmetered) needless.1
  | some data =>
      have cases_ : ∀ {s : BufferedSnapshot}, s ∈ t.snapshots.map Prod.fst ++
          [⟨t.snapshots.length, t.points.length, entry.crossed, snapshotPath t.snapshots.length⟩] →
          s ∈ t.snapshots.map Prod.fst ∨
            s = ⟨t.snapshots.length, t.points.length, entry.crossed, snapshotPath t.snapshots.length⟩ := by
        intro s member
        rwa [List.mem_append, List.mem_singleton] at member
      refine ⟨?_, ?_, ?_, ?_, ?_⟩
      · intro s member
        rcases cases_ member with before | new
        · exact saves.named s before
        · rw [new]
      · intro s member
        rcases cases_ member with before | new
        · exact saves.policy s before
        · rw [new, prepared.crossed, ← policy_]
          exact List.filter_sublist
      · intro s member threshold listed
        rcases cases_ member with before | new
        · exact old s before threshold listed
        · rw [new] at listed ⊢
          rcases (mem_crossed valid collects prepared).mp listed with ⟨-, here, never⟩
          refine ⟨hits_concat.mpr (.inr ⟨rfl, here⟩), fun j less hits => ?_⟩
          rcases hits_concat.mp hits with earlier | ⟨last, -⟩
          · exact never j earlier
          · exact absurd less (Nat.not_lt.mpr (Nat.le_of_eq last.symm))
      · intro threshold listed i hits
        rcases Classical.em (∃ j, Hits profile t.points threshold j) with ⟨j, earlier⟩ | never
        · rcases saves.every threshold listed j earlier with ⟨s, member, names⟩
          exact ⟨s, List.mem_append_left _ member, names⟩
        · have here := reachesAt_of_new hits never
          exact ⟨_, List.mem_append_right _ (List.mem_singleton_self _),
            (mem_crossed valid collects prepared).mpr ⟨listed, here, not_exists.mp never⟩⟩
      · intro unmetered
        rw [List.map_append, saves.whole unmetered, List.length_append, List.length_singleton, List.range_succ]
        rfl

/-- The rows bear out the cause that stops a check. -/
theorem committed_borne (collects : Collects lib profile t) (running : Running lib profile t)
    (limit : t.policy.activeTimeNs = .ok active)
    (prepared : Prepared lib t progress metrics elapsed active snapshot terminal entry value) :
    ∀ reason ∈ entry.row.reason, Substantiated profile ((t.committed entry).manifest 0 reason [])
      (t.points ++ [entry.row.point]) entry.row.point := by
  have policy_ : t.policy = profile.policy := congrArg _ collects.kept.same
  have saved : entry.row.reason ≠ none → (t.committed entry).snapshots.length = t.snapshots.length + 1 := by
    intro stops
    rcases captured_of prepared (.inr (.inr stops)) with ⟨data, captured⟩
    have whole := congrArg List.length (@committed_snapshots t entry)
    rw [captured] at whole
    simpa using whole
  have counts : ∀ files reason, ((t.committed entry).manifest 0 reason files).snapshots.length =
      (t.committed entry).snapshots.length := fun _ _ => List.length_map _
  intro reason is
  rw [Option.mem_def] at is
  have stops : entry.row.reason ≠ none := by
    rw [is]
    exact Option.some_ne_none _
  rcases prepared.reason with counted | ⟨-, limit_⟩
  · rw [is] at counted
    unfold countedReason at counted
    split at counted
    · rename_i full
      have all : (t.committed entry).snapshots.length = profile.policy.maxObservations := by
        have room := running.snapshots
        have bound := full.2.1
        rw [policy_] at bound
        rw [saved stops]
        omega
      rw [Option.some.injEq] at counted
      rw [counted]
      split
      · rename_i unmetered
        refine ⟨?_, (counts _ _).trans all⟩
        rwa [policy_, Option.isNone_iff_eq_none] at unmetered
      · exact (counts _ _).trans all
    · unfold reasonOf at counted
      split at counted
      · rename_i hit
        cases counted
        rw [targetValue_eq prepared.target, policy_] at hit
        rcases (Option.any_eq_true _ _).mp hit with ⟨v, read, met⟩
        rcases (Option.any_eq_true _ _).mp met with ⟨threshold, target, reaches⟩
        refine ⟨threshold, target, ?_⟩
        rw [committed_reaches collects prepared, targetValue_eq prepared.target, policy_]
        exact (Option.any_eq_true _ _).mpr ⟨v, read, reaches⟩
      split at counted
      · cases counted
        trivial
      split at counted
      · rename_i late
        cases counted
        intro active' same
        rw [policy_] at limit
        cases limit.symm.trans same
        rw [prepared.point]
        exact late
      split at counted
      · rename_i full
        cases counted
        have room := running.rows
        rw [policy_] at full
        show (t.points ++ [entry.row.point]).length = profile.policy.maxTracePoints
        rw [List.length_append, List.length_singleton]
        omega
      · cases counted
  · rw [is] at limit_
    cases limit_
    trivial

/-- The prefixes of a run that goes on are prefixes of what it records next. -/
theorem committed_prefixes (recounts : Recounts lib profile t) (running : t.stopped = none) (i : Nat)
    (short : i + 1 < (t.points ++ [entry.row.point]).length) :
    ∃ s, Reserved lib profile (t.committed entry) i s := by
  rw [List.length_append, List.length_singleton] at short
  have held : ∃ s, Reserved lib profile t i s := by
    rcases Nat.lt_or_ge (i + 1) t.points.length with earlier | last
    · exact recounts.history.prefixes i earlier
    · have here : i = t.points.length - 1 := by omega
      refine ⟨t, here ▸ recounts.reserved running ?_⟩
      exact List.ne_nil_of_length_pos (by omega)
  rcases held with ⟨s, held⟩
  refine ⟨s, held.later ?_ ?_⟩
  · rw [committed_points, List.take_append_of_le_length (by omega)]
  · have apart : ¬t.points.length ≤ i := by omega
    unfold committed
    cases entry.captured with
    | none => rfl
    | some data =>
        have later : ¬(t.points ++ [entry.row.point]).length - 1 ≤ i := by
          rw [List.length_append, List.length_singleton]
          omega
        simp only [settle, save, push, tick, List.filter_append, List.filter_singleton, later, decide_false,
          cond_false, List.append_nil]

theorem commit_recounts (nondecreasing : Monotone clock) (accepted : Accepted profile)
    (recounts : Recounts lib profile t) (admitted : t.enter progress = .ok ())
    (limit : t.policy.activeTimeNs = .ok active) (due : t.undue clock progress active terminal = false)
    (read : measured measure = .ok metrics) (sorted : metrics.Ordered)
    (prepared : Prepared lib t progress metrics (clock (t.readings + 1)) active snapshot terminal entry value) :
    Recounts lib profile (t.committed entry) := by
  have collects := recounts.collects
  have unstopped := (enter_ok admitted).2.1
  have running := collects.running unstopped
  have continues := committed_continues collects admitted read prepared
  refine ⟨(commit_collects accepted collects admitted prepared).2, ?_, ?_, ?_⟩
  · refine ⟨?_, ⟨?_, ?_⟩, ?_, ?_, ?_, ?_⟩
    · rw [committed_points]
      exact (recounts.ongoing unstopped).ends continues
    · rw [committed_points, List.length_append, List.length_singleton]
      exact running.rows
    · have whole := congrArg List.length (@committed_snapshots t entry)
      rw [List.length_map, List.length_append, List.length_map] at whole
      have room := running.snapshots
      rw [whole]
      split
      · simp only [List.length_nil]
        omega
      · simp only [List.length_singleton]
        omega
    · intro p member
      rw [committed_points] at member
      rcases List.mem_append.mp member with before | here
      · exact recounts.history.sorted p before
      · rw [List.mem_singleton.mp here, prepared.point]
        exact sorted
    · exact committed_saves accepted.policy collects prepared recounts.history.saves
    · intro reason is last final
      rw [committed_points, List.getLast?_concat] at final
      rw [committed_points, ← Option.some.inj final]
      exact committed_borne collects running limit prepared reason is
    · intro i short
      rw [committed_points] at short
      exact committed_prefixes recounts unstopped i short
  · intro runs
    rw [committed_points]
    exact (recounts.ongoing unstopped).concat continues
      (committed_goes nondecreasing collects limit due prepared runs)
  · intro finished
    have unfinished := (enter_ok admitted).1
    have same : (t.committed entry).finished = t.finished := by
      unfold committed
      cases entry.captured <;> rfl
    rw [same, unfinished] at finished
    cases finished

end Commit

/-! ## Finishing -/

/-- A stopped run that is about to close. -/
structure Closing (lib : JsonLibrary) (profile : SelectedBufferedProfile) (t : BufferedTrace) : Prop where
  unfinished : t.finished = false
  kept : Kept lib profile t
  ended : Ended lib profile t
  history : History lib profile t

theorem Recounts.closing (recounts : Recounts lib profile t) (unfinished : t.finished = false)
    (stops : t.stopped ≠ none) : Closing lib profile t :=
  ⟨unfinished, recounts.collects.kept, recounts.collects.ended stops, recounts.history⟩

/-- Whether or not the duration is accepted, closing leaves a stop that the rows bear out. -/
theorem Closing.recounts (closing : Closing lib profile t) : Recounts lib profile (t.close clock).2 := by
  rcases closing with ⟨unfinished, ⟨same, own, recorded, reached⟩, ⟨terminal, saved, fits⟩,
    ⟨rows, counted, sorted, saves, borne, prefixes⟩⟩
  have reasons : ∀ reason ∈ some (t.stopped.getD .implementationStopped), ∀ last ∈ t.points.getLast?,
      Substantiated profile (t.manifest 0 reason []) t.points last := by
    intro reason is last final
    rw [Option.mem_def, Option.some.injEq] at is
    rw [← is]
    cases stopped : t.stopped with
    | none => trivial
    | some given => exact borne given stopped last final
  have held : ∀ {after : BufferedTrace}, after.points = t.points → after.snapshots = t.snapshots →
      ∀ i, i + 1 < t.points.length → ∃ s, Reserved lib profile after i s := by
    intro after points snapshots i short
    rcases prefixes i short with ⟨s, held⟩
    exact ⟨s, held.later (by rw [points]) (by rw [snapshots])⟩
  unfold close
  simp only
  split
  · exact {
      collects := ⟨⟨same, own, recorded, reached⟩, fun runs => absurd runs (Option.some_ne_none _), fun _ => ⟨terminal, saved, fits⟩⟩
      history := ⟨rows, counted, sorted, saves, reasons, held rfl rfl⟩
      ongoing := fun runs => absurd runs (Option.some_ne_none _)
      closed := fun finished => absurd finished (by rw [unfinished]; exact Bool.false_ne_true) }
  · rename_i valid
    simp only [not_or, Nat.not_lt, Bool.not_eq_true] at valid
    exact {
      collects := ⟨⟨same, own, recorded, reached⟩, fun runs => absurd runs (Option.some_ne_none _), fun _ => ⟨terminal, saved, fits⟩⟩
      history := ⟨rows, counted, sorted, saves, reasons, held rfl rfl⟩
      ongoing := fun runs => absurd runs (Option.some_ne_none _)
      closed := by
        intro _
        refine ⟨Option.some_ne_none _, valid.1, fun last final => ?_⟩
        have late := (Option.any_eq_false _ _).mp valid.2 last final
        simpa using late }

theorem substantiated_flag {manifest : BufferedManifest} {points points' : List TracePoint} {last : TracePoint}
    (length : points'.length = points.length) (borne : Substantiated profile manifest points last) :
    Substantiated profile manifest points' { last with terminal := true } := by
  unfold Substantiated at borne ⊢
  cases reason : manifest.stopReason with
  | traceLimit =>
      rw [reason] at borne
      exact length.trans borne
  | targetReached | fixedCount | observationLimit | activeTimeLimit | byteLimit | implementationStopped =>
      rw [reason] at borne
      exact borne

theorem History.markTerminal (history : History lib profile t) : History lib profile t.markTerminal := by
  have length : (flagged t.points).length = t.points.length := List.length_modify _ _ _
  rcases history with ⟨rows, counted, sorted, saves, borne, prefixes⟩
  refine ⟨rows.flagged, ?_, ?_, saves.flagged, ?_, ?_⟩
  · show (flagged t.points).length ≤ _ ∧ _
    rw [length]
    exact counted
  · intro p member
    rcases List.eq_nil_or_concat' t.points with none | ⟨init, last, some⟩
    · have absent : p ∈ flagged t.points := member
      rw [none] at absent
      cases absent
    · have inside : p ∈ flagged t.points := member
      rw [some, flagged_concat] at inside
      rcases List.mem_append.mp inside with before | here
      · exact sorted p (by rw [some]; exact List.mem_append_left _ before)
      · rw [List.mem_singleton.mp here]
        exact sorted last (by rw [some]; exact List.mem_append_right _ (List.mem_singleton_self _))
  · intro reason is last final
    cases before : t.points.getLast? with
    | none =>
        rw [List.getLast?_eq_none_iff] at before
        have absent : last ∈ (flagged t.points).getLast? := final
        rw [before] at absent
        cases absent
    | some old =>
        have same := (markTerminal_last before).symm.trans final
        rw [← Option.some.inj same]
        exact substantiated_flag length (borne reason is old before)
  · intro i short
    have small : i + 1 < t.points.length := length ▸ short
    rcases prefixes i small with ⟨s, held⟩
    refine ⟨s, held.later ?_ rfl⟩
    show (flagged t.points).take (i + 1) = _
    rcases List.eq_nil_or_concat' t.points with none | ⟨init, last, some⟩
    · rw [none] at small
      cases small
    · rw [some, List.length_append, List.length_singleton] at small
      rw [some, flagged_concat, List.take_append_of_le_length (by omega),
        List.take_append_of_le_length (by omega)]

/-- A last row that goes on may be saved on its own, without new thresholds. -/
theorem History.save (recounts : Recounts lib profile t) (running : t.stopped = none)
    (unsaved : t.savedLast = false) (some : t.points ≠ []) {data : List UInt8} :
    History lib profile (t.save [] data) := by
  have collects := recounts.collects
  have positive := List.length_pos_iff.mpr some
  rcases recounts.history with ⟨rows, counted, sorted, saves, borne, prefixes⟩
  have listed : (t.save [] data).snapshots.map Prod.fst = t.snapshots.map Prod.fst ++
      [⟨t.snapshots.length, t.points.length - 1, [], snapshotPath t.snapshots.length⟩] := by
    unfold BufferedTrace.save
    rw [List.map_append]
    rfl
  refine ⟨rows, ⟨counted.1, ?_⟩, sorted, ?_, ?_, ?_⟩
  · have room := (collects.running running).snapshots
    have whole := congrArg List.length listed
    rw [List.length_map, List.length_append, List.length_map, List.length_singleton] at whole
    omega
  · rw [listed]
    have cases_ : ∀ {s : BufferedSnapshot}, s ∈ t.snapshots.map Prod.fst ++
        [⟨t.snapshots.length, t.points.length - 1, [], snapshotPath t.snapshots.length⟩] →
        s ∈ t.snapshots.map Prod.fst ∨
          s = ⟨t.snapshots.length, t.points.length - 1, [], snapshotPath t.snapshots.length⟩ := by
      intro s member
      rwa [List.mem_append, List.mem_singleton] at member
    refine ⟨?_, ?_, ?_, ?_, ?_⟩
    · intro s member
      rcases cases_ member with before | new
      · exact saves.named s before
      · rw [new]
    · intro s member
      rcases cases_ member with before | new
      · exact saves.policy s before
      · rw [new]
        exact List.nil_sublist _
    · intro s member threshold names
      rcases cases_ member with before | new
      · exact saves.first s before threshold names
      · rw [new] at names
        cases names
    · intro threshold admitted i hits
      rcases saves.every threshold admitted i hits with ⟨s, member, names⟩
      exact ⟨s, List.mem_append_left _ member, names⟩
    · -- a profile that checks every iterate has a snapshot of the last row
      intro unmetered
      have whole := saves.whole unmetered
      rw [List.map_map] at whole
      have here : t.points.length - 1 ∈ List.range t.points.length := List.mem_range.mpr (by omega)
      rw [← whole] at here
      rcases List.mem_map.mp here with ⟨saved, member, index⟩
      have before := earlier_of_unsaved collects.kept.recorded unsaved saved member
      exact absurd before (Nat.not_lt.mpr (Nat.le_of_eq index.symm))
  · intro reason is
    have none : (none : Option StopReason) = Option.some reason := running.symm.trans is
    cases none
  · intro i short
    rcases prefixes i short with ⟨s, held⟩
    refine ⟨s, held.later rfl ?_⟩
    have later : ¬t.points.length - 1 ≤ i := by
      have small : i + 1 < t.points.length := short
      omega
    simp only [BufferedTrace.save, List.filter_append, List.filter_singleton, later, decide_false, cond_false,
      List.append_nil]

theorem finishLast_recounts (recounts : Recounts lib profile t) (unfinished : t.finished = false)
    {last : TracePoint} (final : t.points.getLast? = some last) (progress : Progress) (snapshot : Callback) :
    Recounts lib profile (t.finishLast lib clock last progress snapshot).2 := by
  unfold finishLast
  split
  · exact recounts
  · cases saved : t.terminalSnapshot lib snapshot with
    | error e => exact recounts
    | ok s =>
        rcases terminalSnapshot_kept recounts.collects final saved with ⟨kept, points, savedLast, fits⟩
        have nonempty : t.points ≠ [] := List.ne_nil_of_mem (List.mem_of_getLast? final)
        have ended : Ended lib profile s.markTerminal := by
          refine ⟨⟨_, markTerminal_last (points ▸ final), rfl⟩, ?_, fits⟩
          rw [markTerminal_savedLast]
          exact savedLast
        have history : History lib profile s ∧ s.finished = false := by
          rcases terminalSnapshot_ok saved with ⟨-, same⟩ | ⟨unsaved, -, data, -, -, -, -, same⟩
          · rw [same]
            exact ⟨recounts.history, unfinished⟩
          · rw [same]
            have running : t.stopped = none := by
              cases stopped : t.stopped with
              | none => rfl
              | some reason =>
                  have stops : t.stopped ≠ none := by
                    rw [stopped]
                    exact Option.some_ne_none _
                  rw [(recounts.collects.ended stops).saved] at unsaved
                  cases unsaved
            exact ⟨.save recounts running unsaved nonempty, unfinished⟩
        exact Closing.recounts ⟨history.2, markTerminal_kept kept, ended, history.1.markTerminal⟩

/-! ## Calls -/

theorem check_recounts (nondecreasing : Monotone clock) (accepted : Accepted profile)
    (recounts : Recounts lib profile t) {progress : Progress} {measure snapshot : Callback} {terminal : Bool}
    (sorted : ∀ metrics, measure = .ok metrics → metrics.Ordered) :
    Recounts lib profile (t.check lib clock progress measure snapshot terminal).2 := by
  rcases check_cases (Prod.eta (t.check lib clock progress measure snapshot terminal)).symm with
    ⟨same, -⟩ | ⟨active, metrics, entry, value, admitted, limit, due, read, prepared, committed⟩
  · exact same.recounts recounts
  · rw [(commit_collects accepted recounts.collects admitted prepared).1] at committed
    rw [(Prod.mk.inj committed).2]
    exact commit_recounts nondecreasing accepted recounts admitted limit due read
      (sorted metrics (measured_ok read).1) prepared

theorem finish_recounts (nondecreasing : Monotone clock) (accepted : Accepted profile)
    (recounts : Recounts lib profile t) {progress : Progress} {measure snapshot : Callback}
    (sorted : ∀ metrics, measure = .ok metrics → metrics.Ordered) :
    Recounts lib profile (t.finish lib clock progress measure snapshot).2 := by
  unfold finish
  split
  · exact recounts
  · rename_i open_
    have unfinished : t.finished = false := Bool.eq_false_iff.mpr fun is => open_ (.inl is)
    split
    · rename_i last found
      exact finishLast_recounts recounts unfinished (Option.filter_eq_some_iff.mp found).1 progress snapshot
    · have kept := @check_recounts _ _ _ _ nondecreasing accepted recounts progress measure snapshot true sorted
      cases checked : t.check lib clock progress measure snapshot true with
      | mk answer after =>
          rw [checked] at kept
          cases answer with
          | error e => exact kept
          | ok d =>
              rcases check_collects accepted recounts.collects checked with
                ⟨-, ⟨-, ⟨e, failed⟩ | ⟨-, active, early⟩⟩ | ⟨active, metrics, entry, value, -, -, stopped, prepared⟩⟩
              · cases failed
              · simp [undue] at early
              · have stops : after.stopped ≠ none := by
                  rw [stopped]
                  exact stops_of_late prepared (.inl rfl)
                have open_ : after.finished = false := by
                  cases finished : after.finished with
                  | false => rfl
                  | true =>
                      rcases check_cases checked with ⟨same, -⟩ |
                        ⟨_, _, entry', _, admitted, -, -, -, prepared', committed⟩
                      · rw [same.2] at finished
                        rw [← unfinished]
                        exact finished.symm
                      · rw [(commit_collects accepted recounts.collects admitted prepared').1] at committed
                        rw [(Prod.mk.inj committed).2] at finished
                        have carried : (t.committed entry').finished = t.finished := by
                          unfold BufferedTrace.committed
                          cases entry'.captured <;> rfl
                        rw [← unfinished, ← carried]
                        exact finished.symm
                exact (kept.closing open_ stops).recounts

theorem call_recounts (nondecreasing : Monotone clock) (accepted : Accepted profile)
    (recounts : Recounts lib profile t) {c : Call} (sorted : c.Sorted) :
    Recounts lib profile (t.call lib clock c).2 := by
  cases c with
  | observe progress measure snapshot => exact check_recounts nondecreasing accepted recounts sorted
  | record progress metrics snapshot => exact check_recounts nondecreasing accepted recounts sorted
  | finish progress measure snapshot => exact finish_recounts nondecreasing accepted recounts sorted

/-- After any calls, failed ones included, the record recounts the run. -/
theorem run_recounts (nondecreasing : Monotone clock) (accepted : Accepted profile) {calls : List Call}
    (sorted : ∀ c ∈ calls, c.Sorted) : Recounts lib profile ((opened profile).run lib clock calls) :=
  run_invariant (Recounts lib profile) Call.Sorted
    (fun _ _ recounts sorted => call_recounts nondecreasing accepted recounts sorted) sorted (recounts_opened accepted)

end BufferedTrace

end Buffered

end Metewand
