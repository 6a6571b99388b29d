import Metewand.Buffered.FixedCount
import Metewand.Buffered.Validate
import Metewand.Core.Spelling
import Mathlib.Order.Monotone.Basic

/-!
# The state of a collector

What holds in every state a collector reaches before a `finish` fails (`collector_invariant`):
the bounds that are still open while it runs, what a stop leaves, the numbering of the
snapshots, the thresholds it has reached and the two byte counts.  The estimate a call makes
bounds whatever is written later (`EstimateFits.written`), and a call that records nothing
leaves every field as it was.
-/

namespace Metewand

open Lib Lib.Check Json

/-! ## Widths of texts -/

theorem isHexDigit_plain {c : Char} (digit : isHexDigit c = true) : escape c = [c] ∧ c.utf8Size = 1 := by
  have range : 48 ≤ c.toNat ∧ c.toNat ≤ 102 ∧ c.toNat ≠ 92 := by
    simp only [isHexDigit, isAsciiDigit, Bool.or_eq_true, Bool.and_eq_true, decide_eq_true_eq] at digit
    omega
  constructor
  · unfold escape
    simp only [if_neg (show ¬ c.toNat = 34 by omega), if_neg (show ¬ c.toNat = 92 by omega),
      if_neg (show ¬ c.toNat = 8 by omega), if_neg (show ¬ c.toNat = 9 by omega),
      if_neg (show ¬ c.toNat = 10 by omega), if_neg (show ¬ c.toNat = 12 by omega),
      if_neg (show ¬ c.toNat = 13 by omega), if_neg (show ¬ c.toNat < 32 by omega)]
  · have small : c.val ≤ 0x7f := by
      rw [UInt32.le_iff_toNat_le]
      change c.toNat ≤ 127
      omega
    exact if_pos small

theorem width_hex (digest : Digest) : width (quote digest.hex) = 66 := by
  obtain ⟨length, digits⟩ := digest.hex_spelled
  rw [width_quote fun c member => isHexDigit_plain (List.all_eq_true.mp digits c member), length]

theorem StopReason.width_name (reason : StopReason) :
    width (quote reason.name) ≤ width (quote StopReason.implementationStopped.name) := by
  cases reason <;> decide

/-! ## Thresholds -/

namespace ProfilePolicy

variable {policy : ProfilePolicy}

/-- How demanding a threshold is. -/
def demand (policy : ProfilePolicy) (threshold : UInt64) : Int :=
  match policy.direction with
  | some .atMost => -F64.magnitude threshold
  | some .atLeast => F64.magnitude threshold
  | none => 0

theorem demand_eq {a b : UInt64} (same : F64.eq a b = true) : policy.demand a = policy.demand b := by
  simp only [F64.eq, Bool.and_eq_true, decide_eq_true_eq] at same
  unfold demand
  rw [same.2]

/-- Adjacent thresholds of an ordered list. -/
theorem demand_lt {a b : UInt64} (apart : F64.eq a b = false) (reaches : policy.reaches b a = true) :
    policy.demand a < policy.demand b := by
  have differ : F64.isNaN a = false → F64.isNaN b = false → F64.magnitude a ≠ F64.magnitude b := by
    intro left right
    simpa [F64.eq, left, right] using apart
  unfold ProfilePolicy.reaches at reaches
  unfold demand
  cases direction : policy.direction with
  | none =>
      rw [direction] at reaches
      cases reaches
  | some way =>
      cases way with
      | atMost =>
          simp only [direction, F64.le, Bool.and_eq_true, Bool.not_eq_true', decide_eq_true_eq] at reaches
          have := differ reaches.1.2 reaches.1.1
          simp only
          omega
      | atLeast =>
          simp only [direction, F64.le, Bool.and_eq_true, Bool.not_eq_true', decide_eq_true_eq] at reaches
          have := differ reaches.1.1 reaches.1.2
          simp only
          omega

theorem pairwise_of_ordered {values : List UInt64} (ordered : policy.ordered values = true) :
    values.Pairwise fun a b => policy.demand a < policy.demand b := by
  have transitive : IsTrans UInt64 fun a b => policy.demand a < policy.demand b :=
    ⟨fun _ _ _ => Int.lt_trans⟩
  rw [← List.isChain_iff_pairwise]
  induction values with
  | nil => exact .nil
  | cons a rest ih =>
      cases rest with
      | nil => exact .singleton a
      | cons b rest =>
          simp only [ProfilePolicy.ordered, Bool.and_eq_true, Bool.not_eq_true'] at ordered
          exact .cons_cons (demand_lt ordered.1.1 ordered.1.2) (ih ordered.2)

/-- No two thresholds of a valid policy are equal numbers. -/
theorem Valid.thresholds_distinct (valid : policy.Valid) :
    policy.thresholds.Pairwise fun a b => F64.eq a b = false := by
  rcases valid.kind with ⟨metric, -⟩ | ⟨_, _, _, -, -, -, -, -, -, -, -, ordered⟩
  · rw [(valid.unmetered metric).2.1]
    exact .nil
  · refine (pairwise_of_ordered ordered).imp fun less => Bool.eq_false_iff.mpr fun same => ?_
    exact absurd (demand_eq same) (Int.ne_of_lt less)

/-- Equal thresholds of a valid policy are one. -/
theorem Valid.threshold_unique (valid : policy.Valid) {a b : UInt64} (left : a ∈ policy.thresholds)
    (right : b ∈ policy.thresholds) (same : F64.eq a b = true) : a = b := by
  have symmetric : Std.Symm fun a b : UInt64 => F64.eq a b = false := by
    refine ⟨fun a b apart => ?_⟩
    rw [← apart]
    unfold F64.eq
    rw [Bool.and_comm (!F64.isNaN b)]
    simp only [eq_comm]
  by_contra other
  have apart := valid.thresholds_distinct.forall left right other
  rw [same] at apart
  cases apart

end ProfilePolicy

namespace Buffered

/-! ## Lighter documents -/

section Lighter

variable {lib : JsonLibrary}

/-- A snapshot of an earlier row with fewer thresholds. -/
theorem snapshot_lighter {ordinal index index' : Nat} {path : String} {fewer thresholds : List UInt64}
    (before : index ≤ index') (sub : fewer.Sublist thresholds) :
    lib.Lighter (BufferedSnapshot.json ⟨ordinal, index, fewer, path⟩)
      (BufferedSnapshot.json ⟨ordinal, index', thresholds, path⟩) := by
  have items : lib.Lighter (.arr (fewer.map F64.json)) (.arr (thresholds.map F64.json)) := by
    refine JsonLibrary.lighter_arr (List.sublistForall₂_iff.mpr ⟨_, ?_, sub.map _⟩)
    exact List.forall₂_same.mpr fun v _ => .refl v
  refine JsonLibrary.lighter_object ?_ ?_
  · show BufferedSnapshot.fields.Nodup
    decide
  · exact .cons ⟨rfl, .refl _⟩ (.cons ⟨rfl, JsonLibrary.lighter_nat before⟩ (.cons ⟨rfl, items⟩
      (.cons ⟨rfl, .refl _⟩ .nil)))

/-- A file of the same name with no more bytes. -/
theorem file_lighter {path hash hash' : String} {size size' : Nat}
    (hashes : width (quote hash) ≤ width (quote hash')) (sizes : size ≤ size') :
    lib.Lighter (BufferFile.json ⟨path, hash, size⟩) (BufferFile.json ⟨path, hash', size'⟩) := by
  refine JsonLibrary.lighter_object ?_ ?_
  · show BufferFile.fields.Nodup
    decide
  · exact .cons ⟨rfl, .refl _⟩ (.cons ⟨rfl, JsonLibrary.lighter_str hashes⟩
      (.cons ⟨rfl, JsonLibrary.lighter_nat sizes⟩ .nil))

theorem manifest_lighter (m : BufferedManifest) {total : Nat} {reason : StopReason}
    {snapshots : List BufferedSnapshot} {files : List BufferFile}
    (earlier : total ≤ m.instrumentedTotalTimeNs)
    (shorter : width (quote reason.name) ≤ width (quote m.stopReason.name))
    (saved : List.Forall₂ (fun a b => lib.Lighter (BufferedSnapshot.json a) (BufferedSnapshot.json b))
      snapshots m.snapshots)
    (listed : List.Forall₂ (fun a b => lib.Lighter (BufferFile.json a) (BufferFile.json b)) files m.files) :
    lib.Lighter (BufferedManifest.json { m with
      instrumentedTotalTimeNs := total, stopReason := reason, snapshots := snapshots, files := files })
      m.json := by
  have arrays : ∀ {vs ws : List Json}, List.Forall₂ lib.Lighter vs ws →
      lib.Lighter (.arr vs) (.arr ws) := fun each =>
    JsonLibrary.lighter_arr (List.sublistForall₂_iff.mpr ⟨_, each, List.Sublist.refl _⟩)
  have saved : lib.Lighter (.arr (snapshots.map BufferedSnapshot.json))
      (.arr (m.snapshots.map BufferedSnapshot.json)) := by
    apply arrays
    rwa [List.forall₂_map_left_iff, List.forall₂_map_right_iff]
  have listed : lib.Lighter (.arr (files.map BufferFile.json)) (.arr (m.files.map BufferFile.json)) := by
    apply arrays
    rwa [List.forall₂_map_left_iff, List.forall₂_map_right_iff]
  refine JsonLibrary.lighter_object ?_ ?_
  · show BufferedManifest.fields.Nodup
    decide
  · exact .cons ⟨rfl, .refl _⟩ (.cons ⟨rfl, .refl _⟩ (.cons ⟨rfl, .refl _⟩ (.cons ⟨rfl, .refl _⟩
      (.cons ⟨rfl, JsonLibrary.lighter_nat earlier⟩ (.cons ⟨rfl, JsonLibrary.lighter_str shorter⟩
        (.cons ⟨rfl, .refl _⟩ (.cons ⟨rfl, saved⟩ (.cons ⟨rfl, listed⟩ .nil))))))))

/-- The last row is written with `true` where an earlier estimate had `false`. -/
theorem point_lighter (p : TracePoint) :
    lib.Lighter (TracePoint.json { p with terminal := true }) p.json := by
  have flag : lib.Lighter (.bool true) (.bool p.terminal) := by
    cases p.terminal with
    | true => exact .refl _
    | false =>
        intro w' normal
        cases normal
        refine ⟨.bool true, rfl, ?_⟩
        unfold JsonLibrary.text
        decide
  refine JsonLibrary.lighter_object ?_ ?_
  · show TracePoint.fields.Nodup
    decide
  · exact .cons ⟨rfl, .refl _⟩ (.cons ⟨rfl, .refl _⟩ (.cons ⟨rfl, .refl _⟩ (.cons ⟨rfl, .refl _⟩
      (.cons ⟨rfl, flag⟩ .nil))))

end Lighter

namespace BufferedTrace

variable {lib : JsonLibrary} {clock : Nat → Nat} {profile : SelectedBufferedProfile} {t t' : BufferedTrace}

/-! ## Rows -/

/-- The rows can be written in `limit` bytes, newlines included. -/
def RowsWithin (lib : JsonLibrary) (points : List TracePoint) (limit : Nat) : Prop :=
  ∃ rows, List.Forall₂ (fun p row => bytes lib p.json = .ok row) points rows ∧
    (rows.map fun row => row.length + 1).sum ≤ limit

theorem RowsWithin.concat {points : List TracePoint} {limit : Nat} (within : RowsWithin lib points limit)
    {p : TracePoint} {row : List UInt8} (written : bytes lib p.json = .ok row) :
    RowsWithin lib (points ++ [p]) (limit + (row.length + 1)) := by
  obtain ⟨rows, each, sum⟩ := within
  refine ⟨rows ++ [row], List.rel_append each (.cons written .nil), ?_⟩
  rw [List.map_append, List.sum_append, List.map_singleton, List.sum_singleton]
  omega

theorem bytes_lighter {v w : Json} (lighter : lib.Lighter v w) {b : List UInt8}
    (written : bytes lib w = .ok b) : ∃ a, bytes lib v = .ok a ∧ a.length ≤ b.length := by
  unfold bytes at written ⊢
  rw [ok_mapError] at written
  obtain ⟨a, encoded, le⟩ := lighter.bytes_length written
  exact ⟨a, ok_mapError.mpr encoded, le⟩

theorem RowsWithin.lighter {points points' : List TracePoint} {limit : Nat}
    (within : RowsWithin lib points limit)
    (each : List.Forall₂ (fun a b => lib.Lighter (TracePoint.json a) (TracePoint.json b)) points' points) :
    RowsWithin lib points' limit := by
  obtain ⟨rows, written, sum⟩ := within
  suffices found : ∃ rows', List.Forall₂ (fun p row => bytes lib p.json = .ok row) points' rows' ∧
      (rows'.map fun row => row.length + 1).sum ≤ (rows.map fun row => row.length + 1).sum by
    obtain ⟨rows', written', le⟩ := found
    exact ⟨rows', written', Nat.le_trans le sum⟩
  clear sum
  induction each generalizing rows with
  | nil => exact ⟨[], .nil, Nat.zero_le _⟩
  | @cons p q ps qs head _ ih =>
      cases written with
      | @cons _ row _ rows first others =>
          obtain ⟨row', written', le⟩ := bytes_lighter head first
          obtain ⟨rows', each', sum⟩ := ih rows others
          refine ⟨row' :: rows', .cons written' each', ?_⟩
          simp only [List.map_cons, List.sum_cons]
          omega

theorem RowsWithin.text {points : List TracePoint} {limit : Nat} (within : RowsWithin lib points limit) :
    ∃ trace, traceText lib points = .ok trace ∧ trace.length ≤ limit := by
  obtain ⟨rows, each, sum⟩ := within
  refine ⟨rows.flatMap (· ++ [10]), ?_, ?_⟩
  · simp only [traceText, ok_bind, ok_pure]
    exact ⟨rows, ok_traverseAll.mpr each, rfl⟩
  · rw [List.length_flatMap]
    simpa using sum

/-- An element changed in place stays related to what it was. -/
theorem forall₂_modify {α : Type} {R : α → α → Prop} {f : α → α} (same : ∀ a, R a a)
    (changed : ∀ a, R (f a) a) (as : List α) (n : Nat) : List.Forall₂ R (as.modify n f) as := by
  induction as generalizing n with
  | nil => simp
  | cons a rest ih =>
      cases n with
      | zero => exact .cons (changed a) (List.forall₂_same.mpr fun b _ => same b)
      | succ n => exact .cons (same a) (ih n)

/-! ## Estimates -/

/-- The trace, the snapshots and the largest manifest they may get fit in `limit` bytes. -/
def EstimateFits (lib : JsonLibrary) (t : BufferedTrace) (limit : Nat) : Prop :=
  ∃ size, t.estimatedBytes lib 0 none = .ok size ∧ size ≤ limit

theorem EstimateFits.mono {limit limit' : Nat} (fits : EstimateFits lib t limit) (le : limit ≤ limit') :
    EstimateFits lib t limit' := by
  obtain ⟨size, estimated, small⟩ := fits
  exact ⟨size, estimated, Nat.le_trans small le⟩

/-- What a call adds to the record. -/
inductive Grows (t t' : BufferedTrace) (extra : Nat) : Option (List UInt8) → Prop where
  | row (profile : t'.profile = t.profile) (trace : t'.traceBytes = t.traceBytes + extra)
      (snapshots : t'.snapshots = t.snapshots) (size : t'.snapshotBytes = t.snapshotBytes) :
      Grows t t' extra none
  | saved (data : List UInt8) (index : Nat) (thresholds : List UInt64) (profile : t'.profile = t.profile)
      (trace : t'.traceBytes = t.traceBytes + extra) (before : index ≤ t.points.length)
      (sub : thresholds.Sublist t.policy.thresholds)
      (snapshots : t'.snapshots = t.snapshots ++
        [(⟨t.snapshots.length, index, thresholds, snapshotPath t.snapshots.length⟩, data)])
      (size : t'.snapshotBytes = t.snapshotBytes + data.length) : Grows t t' extra (some data)

theorem estimatedBytes_eq_ok {extra size : Nat} {captured : Option (List UInt8)} :
    t.estimatedBytes lib extra captured = .ok size ↔ ∃ encoded,
      bytes lib (t.estimate extra captured).json = .ok encoded ∧
        t.traceBytes + extra + t.snapshotBytes + captured.elim 0 List.length + encoded.length = size := by
  simp only [estimatedBytes, ok_bind, ok_pure]

/-- The estimate made before a row and its snapshot were added still holds afterwards. -/
theorem Grows.fits {extra size limit : Nat} {captured : Option (List UInt8)}
    (grows : Grows t t' extra captured) (estimated : t.estimatedBytes lib extra captured = .ok size)
    (small : size ≤ limit) : EstimateFits lib t' limit := by
  obtain ⟨encoded, written, sum⟩ := estimatedBytes_eq_ok.mp estimated
  cases grows with
  | row profile trace snapshots count =>
      have same : t'.estimate 0 none = t.estimate extra none := by
        unfold estimate manifest
        simp only [profile, trace, snapshots, Nat.add_zero]
      refine ⟨size, estimatedBytes_eq_ok.mpr ⟨encoded, same ▸ written, ?_⟩, small⟩
      rw [trace, count, Nat.add_zero]
      exact sum
  | saved data index thresholds profile trace before sub snapshots count =>
      have lighter : lib.Lighter (t'.estimate 0 none).json (t.estimate extra (some data)).json := by
        have shape : t'.estimate 0 none = { t.estimate extra (some data) with
            instrumentedTotalTimeNs := maxSafeInteger, stopReason := .implementationStopped
            snapshots := t.snapshots.map Prod.fst ++
              [⟨t.snapshots.length, index, thresholds, snapshotPath t.snapshots.length⟩]
            files := (t.estimate extra (some data)).files } := by
          unfold estimate manifest
          simp only [profile, trace, snapshots, Nat.add_zero, List.map_append, List.map_singleton,
            List.cons_append]
        rw [shape]
        refine manifest_lighter (t.estimate extra (some data)) (Nat.le_refl _) (Nat.le_refl _) ?_ ?_
        · refine List.rel_append (List.forall₂_same.mpr fun s _ => .refl _) (.cons ?_ .nil)
          exact snapshot_lighter before sub
        · exact List.forall₂_same.mpr fun f _ => .refl _
      obtain ⟨encoded', written', le⟩ := bytes_lighter lighter written
      refine ⟨_, estimatedBytes_eq_ok.mpr ⟨encoded', written', rfl⟩, ?_⟩
      simp only [Option.elim_none, Option.elim_some] at sum ⊢
      omega

/-- The documents that are written fit wherever the estimate does. -/
theorem EstimateFits.written {limit : Nat} (fits : EstimateFits lib t limit)
    (rows : RowsWithin lib t.points t.traceBytes) (sha256 : List UInt8 → Digest) {total : Nat}
    (safe : total ≤ maxSafeInteger) (reason : StopReason) :
    ∃ trace data, traceText lib t.points = .ok trace ∧
      bytes lib (t.manifest total reason (file sha256 "trace.jsonl" trace ::
        t.snapshots.map fun saved => file sha256 saved.1.manifest saved.2)).json = .ok data ∧
      trace.length + t.snapshotBytes + data.length ≤ limit := by
  obtain ⟨size, estimated, small⟩ := fits
  obtain ⟨encoded, written, sum⟩ := estimatedBytes_eq_ok.mp estimated
  obtain ⟨trace, text, length⟩ := rows.text
  have width_zero : width (quote zeroHash) = 66 := by decide
  have hashes : ∀ data, width (quote (sha256 data).hex) ≤ width (quote zeroHash) := fun data =>
    Nat.le_of_eq ((width_hex _).trans width_zero.symm)
  have lighter : lib.Lighter (t.manifest total reason (file sha256 "trace.jsonl" trace ::
      t.snapshots.map fun saved => file sha256 saved.1.manifest saved.2)).json (t.estimate 0 none).json := by
    refine manifest_lighter (t.estimate 0 none) safe reason.width_name
      (List.forall₂_same.mpr fun s _ => .refl _) (.cons (file_lighter (hashes trace) length) ?_)
    rw [List.forall₂_map_left_iff, List.forall₂_map_right_iff]
    exact List.forall₂_same.mpr fun saved _ => file_lighter (hashes saved.2) (Nat.le_refl _)
  obtain ⟨data, written', le⟩ := bytes_lighter lighter written
  refine ⟨trace, data, text, written', ?_⟩
  simp only [Option.elim_none] at sum
  omega

/-! ## The record -/

/-- Rows, snapshots and their byte counts agree. -/
structure Recorded (lib : JsonLibrary) (points : List TracePoint)
    (snapshots : List (BufferedSnapshot × List UInt8)) (traceBytes snapshotBytes : Nat) : Prop where
  ordinals : snapshots.map (·.1.captureOrdinal) = List.range snapshots.length
  increasing : (snapshots.map (·.1.traceIndex)).Pairwise (· < ·)
  inside : ∀ saved ∈ snapshots, saved.1.traceIndex < points.length
  encoded : ∀ saved ∈ snapshots, ∃ data, bytes lib (resultDocument data) = .ok saved.2
  size : snapshotBytes = (snapshots.map (·.2.length)).sum
  rows : RowsWithin lib points traceBytes

section Record

variable {points : List TracePoint} {snapshots : List (BufferedSnapshot × List UInt8)}
  {traceBytes snapshotBytes : Nat}

theorem Recorded.push (recorded : Recorded lib points snapshots traceBytes snapshotBytes) {p : TracePoint}
    {row : List UInt8} (written : bytes lib p.json = .ok row) :
    Recorded lib (points ++ [p]) snapshots (traceBytes + (row.length + 1)) snapshotBytes where
  ordinals := recorded.ordinals
  increasing := recorded.increasing
  inside := fun saved member => by
    have before := recorded.inside saved member
    rw [List.length_append]
    omega
  encoded := recorded.encoded
  size := recorded.size
  rows := recorded.rows.concat written

/-- A snapshot of the last row, which has none yet. -/
theorem Recorded.save (recorded : Recorded lib points snapshots traceBytes snapshotBytes)
    (fresh : ∀ saved ∈ snapshots, saved.1.traceIndex < points.length - 1) (some : 0 < points.length)
    {thresholds : List UInt64} {path : String} {data : Json} {encoded : List UInt8}
    (written : bytes lib (resultDocument data) = .ok encoded) :
    Recorded lib points (snapshots ++ [(⟨snapshots.length, points.length - 1, thresholds, path⟩, encoded)])
      traceBytes (snapshotBytes + encoded.length) where
  ordinals := by
    rw [List.map_append, recorded.ordinals, List.length_append, List.length_singleton, List.range_succ]
    rfl
  increasing := by
    rw [List.map_append, List.map_singleton, List.pairwise_append]
    refine ⟨recorded.increasing, List.pairwise_singleton _ _, fun a before b last => ?_⟩
    obtain ⟨saved, member, rfl⟩ := List.mem_map.mp before
    rw [List.mem_singleton] at last
    rw [last]
    exact fresh saved member
  inside := fun saved member => by
    rcases List.mem_append.mp member with before | last
    · exact recorded.inside saved before
    · rw [List.mem_singleton] at last
      rw [last]
      exact Nat.sub_lt some Nat.one_pos
  encoded := fun saved member => by
    rcases List.mem_append.mp member with before | last
    · exact recorded.encoded saved before
    · rw [List.mem_singleton] at last
      rw [last]
      exact ⟨data, written⟩
  size := by
    rw [List.map_append, List.sum_append, List.map_singleton, List.sum_singleton, ← recorded.size]
  rows := recorded.rows

/-- The flag of a row may change once it is recorded. -/
theorem Recorded.flag (recorded : Recorded lib points snapshots traceBytes snapshotBytes) (n : Nat) :
    Recorded lib (points.modify n fun p => { p with terminal := true }) snapshots traceBytes
      snapshotBytes where
  ordinals := recorded.ordinals
  increasing := recorded.increasing
  inside := fun saved member => by
    rw [List.length_modify]
    exact recorded.inside saved member
  encoded := recorded.encoded
  size := recorded.size
  rows := recorded.rows.lighter (forall₂_modify (fun _ => .refl _) point_lighter points n)

end Record

/-- What holds whether or not the run has stopped. -/
structure Kept (lib : JsonLibrary) (profile : SelectedBufferedProfile) (t : BufferedTrace) : Prop where
  same : t.profile = profile
  own : t.adopted = none
  recorded : Recorded lib t.points t.snapshots t.traceBytes t.snapshotBytes
  reached : ∀ threshold, threshold ∈ t.reached ↔
    threshold ∈ profile.policy.thresholds ∧ t.points.any (reachesAt profile threshold) = true

/-- What a stop leaves. -/
structure Ended (lib : JsonLibrary) (profile : SelectedBufferedProfile) (t : BufferedTrace) : Prop where
  terminal : ∃ last ∈ t.points.getLast?, last.terminal = true
  saved : t.savedLast = true
  fits : EstimateFits lib t profile.policy.maxBufferBytes

/-- What is still open while the run goes on. -/
structure Running (lib : JsonLibrary) (profile : SelectedBufferedProfile) (t : BufferedTrace) : Prop where
  snapshots : t.snapshots.length < profile.policy.maxObservations
  rows : t.points.length < profile.policy.maxTracePoints
  fits : t.points ≠ [] →
    EstimateFits lib t (profile.policy.maxBufferBytes - profile.policy.terminalReserveBytes)

/-- The invariant of a collector. -/
structure Collects (lib : JsonLibrary) (profile : SelectedBufferedProfile) (t : BufferedTrace) : Prop where
  kept : Kept lib profile t
  running : t.stopped = none → Running lib profile t
  ended : t.stopped ≠ none → Ended lib profile t

theorem collects_opened (accepted : Accepted profile) : Collects lib profile (opened profile) where
  kept := {
    same := rfl
    own := rfl
    recorded := ⟨rfl, .nil, fun _ absent => absurd absent List.not_mem_nil,
      fun _ absent => absurd absent List.not_mem_nil, rfl, ⟨[], .nil, Nat.le_refl _⟩⟩
    reached := fun threshold => by simp [opened] }
  running := fun _ =>
    ⟨accepted.policy.positive, accepted.bounds.tracePoints.1, fun some => absurd rfl some⟩
  ended := fun stops => absurd rfl stops

theorem SameRecord.collects (same : SameRecord t t') (collects : Collects lib profile t) :
    Collects lib profile t' := by
  rw [same.2]
  obtain ⟨⟨profile_, own, recorded, reached⟩, running, ended⟩ := collects
  refine ⟨⟨profile_, own, recorded, reached⟩, fun runs => ?_, fun stops => ?_⟩
  · obtain ⟨snapshots, rows, fits⟩ := running runs
    exact ⟨snapshots, rows, fits⟩
  · obtain ⟨terminal, saved, fits⟩ := ended stops
    exact ⟨terminal, saved, fits⟩

/-! ## Committing a check -/

section Commit

variable {progress : Progress} {metrics : Json} {elapsed active : Nat} {snapshot : Callback}
  {terminal : Bool} {entry : Entry} {value : Option UInt64}

theorem targetValue_eq (target : t.targetValue metrics = .ok value) :
    value = metricOf t.policy metrics := by
  unfold targetValue at target
  unfold metricOf
  cases metric : t.policy.metric with
  | none =>
      rw [metric] at target
      cases target
      rfl
  | some name =>
      rw [metric] at target
      obtain ⟨v, read, rfl⟩ := ok_map.mp target
      rw [ok_expect] at read
      obtain ⟨number, finite⟩ := Option.filter_eq_some_iff.mp read
      exact number.symm

/-- Every threshold is added at the first row that reaches it. -/
theorem crossed_reached (valid : profile.policy.Valid) (kept : Kept lib profile t) {p : TracePoint}
    (target : t.targetValue p.provisionalMetrics = .ok value) (threshold : UInt64) :
    threshold ∈ t.reached ++ t.crossed value ↔ threshold ∈ profile.policy.thresholds ∧
      (t.points ++ [p]).any (reachesAt profile threshold) = true := by
  have policy_ : t.policy = profile.policy := congrArg _ kept.same
  have now : (value.any fun v => profile.policy.reaches v threshold) = reachesAt profile threshold p := by
    rw [targetValue_eq target, policy_]
    rfl
  rw [List.mem_append, kept.reached, List.any_append, Bool.or_eq_true, List.any_cons, List.any_nil,
    Bool.or_false]
  unfold crossed
  rw [List.mem_filter, policy_, now, Bool.and_eq_true, Bool.not_eq_true']
  constructor
  · rintro (⟨listed, before⟩ | ⟨listed, -, here⟩)
    · exact ⟨listed, .inl before⟩
    · exact ⟨listed, .inr here⟩
  · rintro ⟨listed, before | here⟩
    · exact .inl ⟨listed, before⟩
    · cases found : containsF64 t.reached threshold with
      | false => exact .inr ⟨listed, rfl, here⟩
      | true =>
          obtain ⟨r, member, same⟩ := List.any_eq_true.mp found
          have before := (kept.reached r).mp member
          rw [valid.threshold_unique before.1 listed same] at before
          exact .inl before

/-- The state a committed entry leaves. -/
def committed (t : BufferedTrace) (entry : Entry) : BufferedTrace :=
  (match entry.captured with
    | none => t.tick.tick.push entry.row
    | some data => (t.tick.tick.push entry.row).save entry.crossed data).settle entry

theorem committed_grows (prepared : Prepared lib t progress metrics elapsed active snapshot terminal entry
    value) : Grows t (t.committed entry) (entry.row.encoded.length + 1) entry.captured := by
  unfold committed
  cases entry.captured with
  | none => exact .row rfl rfl rfl rfl
  | some data =>
      refine .saved data t.points.length entry.crossed rfl rfl (Nat.le_refl _) ?_ ?_ rfl
      · rw [prepared.crossed]
        exact List.filter_sublist
      · simp [settle, save, push, tick]

theorem committed_points : (t.committed entry).points = t.points ++ [entry.row.point] := by
  unfold committed
  cases entry.captured <;> rfl

theorem committed_stopped : (t.committed entry).stopped = entry.row.reason := rfl

theorem committed_recorded
    (prepared : Prepared lib t progress metrics elapsed active snapshot terminal entry value)
    (recorded : Recorded lib t.points t.snapshots t.traceBytes t.snapshotBytes) :
    Recorded lib (t.committed entry).points (t.committed entry).snapshots (t.committed entry).traceBytes
      (t.committed entry).snapshotBytes := by
  have pushed := recorded.push prepared.encoded
  have frozen := prepared.frozen
  unfold committed
  cases captured : entry.captured with
  | none => exact pushed
  | some data =>
      obtain ⟨json, -, written, -⟩ := frozen data captured
      refine pushed.save (fun saved member => ?_) ?_ written
      · rw [List.length_append, List.length_singleton, Nat.add_sub_cancel]
        exact recorded.inside saved member
      · rw [List.length_append, List.length_singleton]
        exact Nat.succ_pos _

theorem committed_kept (valid : profile.policy.Valid) (kept : Kept lib profile t)
    (prepared : Prepared lib t progress metrics elapsed active snapshot terminal entry value) :
    Kept lib profile (t.committed entry) where
  same := by
    unfold committed
    cases entry.captured <;> exact kept.same
  own := by
    unfold committed
    cases entry.captured <;> exact kept.own
  recorded := committed_recorded prepared kept.recorded
  reached := fun threshold => by
    have grown : (t.committed entry).reached = t.reached ++ t.crossed value := by
      rw [← prepared.crossed]
      unfold committed
      cases entry.captured <;> rfl
    have target : t.targetValue entry.row.point.provisionalMetrics = .ok value := by
      rw [prepared.point]
      exact prepared.target
    rw [grown, committed_points]
    exact crossed_reached valid kept target threshold

/-- The stop reasons that count come before the last admitted row and snapshot. -/
theorem room_of_running (prepared : Prepared lib t progress metrics elapsed active snapshot terminal entry
    value) (runs : entry.row.reason = none) :
    t.points.length + 1 < t.policy.maxTracePoints ∧
      (entry.captured.isSome → t.snapshots.length + 1 < t.policy.maxObservations) := by
  have counted : t.countedReason entry.crossed (t.reasonOf value elapsed active terminal) = none := by
    rcases prepared.reason with reason | ⟨open_, -⟩
    · exact reason.symm.trans runs
    · exact open_
  have first : t.reasonOf value elapsed active terminal = none := by
    unfold countedReason at counted
    split at counted
    · cases counted
    · exact counted
  constructor
  · unfold reasonOf at first
    split at first
    · cases first
    split at first
    · cases first
    split at first
    · cases first
    split at first
    · cases first
    · rename_i bound
      exact Nat.lt_of_not_le bound
  · intro some
    have captures := prepared.wanted some runs
    refine Nat.lt_of_not_le fun full => ?_
    unfold countedReason at counted
    rw [if_pos ⟨captures, full, by rw [first]; rfl⟩] at counted
    cases counted

theorem commit_eq (room : t.snapshots.length < t.policy.maxObservations) :
    t.tick.tick.commit entry = (.ok (decision entry.row.reason), t.committed entry) := by
  unfold commit committed
  cases entry.captured with
  | none => rfl
  | some data => exact if_neg (Nat.not_le.mpr room)

/-- A stop has a snapshot of its row, and the row says that it ends the run. -/
theorem committed_ended
    (prepared : Prepared lib t progress metrics elapsed active snapshot terminal entry value)
    (stops : entry.row.reason ≠ none) :
    (∃ last ∈ (t.committed entry).points.getLast?, last.terminal = true) ∧
      (t.committed entry).savedLast = true := by
  constructor
  · refine ⟨entry.row.point, ?_, ?_⟩
    · rw [committed_points, List.getLast?_concat]
      rfl
    · rw [prepared.point]
      exact Option.isSome_iff_ne_none.mpr stops
  · have plain := prepared.plain
    unfold committed
    cases captured : entry.captured with
    | none => exact absurd (plain captured).1 stops
    | some data => simp [savedLast, settle, save]

/-- A check that starts where the collector is running commits its entry. -/
theorem commit_collects (accepted : Accepted profile) (collects : Collects lib profile t)
    (admitted : t.enter progress = .ok ())
    (prepared : Prepared lib t progress metrics elapsed active snapshot terminal entry value) :
    t.tick.tick.commit entry = (.ok (decision entry.row.reason), t.committed entry) ∧
      Collects lib profile (t.committed entry) := by
  have policy_ : t.policy = profile.policy := congrArg _ collects.kept.same
  obtain ⟨snapshots, -, -⟩ := collects.running (enter_ok admitted).2.1
  refine ⟨commit_eq (policy_ ▸ snapshots), committed_kept accepted.policy collects.kept prepared, ?_, ?_⟩
  · intro runs
    rw [committed_stopped] at runs
    obtain ⟨rows, room⟩ := room_of_running prepared runs
    obtain ⟨size, estimated, small⟩ := prepared.regular runs
    rw [policy_] at rows room small
    refine ⟨?_, ?_, fun _ => (committed_grows prepared).fits estimated small⟩
    · unfold committed
      cases captured : entry.captured with
      | none => exact snapshots
      | some data =>
          have saved := room (by rw [captured]; rfl)
          simpa [settle, save, push, tick] using saved
    · rw [committed_points, List.length_append, List.length_singleton]
      exact rows
  · intro stops
    rw [committed_stopped] at stops
    obtain ⟨terminal, saved⟩ := committed_ended prepared stops
    obtain ⟨size, estimated, small⟩ := prepared.fits
    rw [policy_] at small
    exact ⟨terminal, saved, (committed_grows prepared).fits estimated small⟩

end Commit

/-! ## Checks and finishing -/

/-- A check keeps the invariant; only a committed one changes the record. -/
theorem check_collects (accepted : Accepted profile) (collects : Collects lib profile t)
    {progress : Progress} {measure snapshot : Callback} {terminal : Bool}
    {answer : Except Failure Decision}
    (checked : t.check lib clock progress measure snapshot terminal = (answer, t')) :
    Collects lib profile t' ∧
      (SameRecord t t' ∧ ((∃ e, answer = .error e) ∨
          answer = .ok .continues ∧ ∃ active, t.undue clock progress active terminal = true) ∨
        ∃ active metrics entry value, answer = .ok (decision entry.row.reason) ∧
          t.undue clock progress active terminal = false ∧ t'.stopped = entry.row.reason ∧
          Prepared lib t progress metrics (clock (t.readings + 1)) active snapshot terminal entry value) := by
  rcases check_cases checked with
    ⟨same, unrecorded⟩ | ⟨active, metrics, entry, value, admitted, -, due, -, prepared, committed⟩
  · exact ⟨same.collects collects, .inl ⟨same, unrecorded⟩⟩
  · obtain ⟨whole, after⟩ := commit_collects accepted collects admitted prepared
    rw [whole] at committed
    cases committed
    exact ⟨after, .inr ⟨active, metrics, entry, value, rfl, due, rfl, prepared⟩⟩

/-- A check past the limit stops the run. -/
theorem stops_of_late {progress : Progress} {metrics : Json} {elapsed active : Nat} {snapshot : Callback}
    {terminal : Bool} {entry : Entry} {value : Option UInt64}
    (prepared : Prepared lib t progress metrics elapsed active snapshot terminal entry value)
    (late : terminal = true ∨ active ≤ elapsed) : entry.row.reason ≠ none := by
  have first : t.reasonOf value elapsed active terminal ≠ none := by
    unfold reasonOf
    split
    · simp
    · split
      · simp
      · rename_i running
        rw [if_pos (late.resolve_left running)]
        simp
  have counted : t.countedReason entry.crossed (t.reasonOf value elapsed active terminal) ≠ none := by
    unfold countedReason
    split
    · simp
    · exact first
  intro runs
  rcases prepared.reason with reason | ⟨open_, -⟩
  · exact counted (reason.symm.trans runs)
  · exact counted open_

/-- Closing changes nothing that the invariant of a stopped run is about. -/
theorem close_collects {u : Unit} (kept : Kept lib profile t) (ended : Ended lib profile t)
    (closed : t.close clock = (.ok u, t')) : Collects lib profile t' := by
  obtain ⟨same, own, recorded, reached⟩ := kept
  obtain ⟨terminal, saved, fits⟩ := ended
  unfold close at closed
  simp only at closed
  split at closed
  · cases closed
  · cases closed
    exact ⟨⟨same, own, recorded, reached⟩, fun runs => (nomatch runs), fun _ => ⟨terminal, saved, fits⟩⟩

theorem terminalSnapshot_ok {snapshot : Callback}
    (saved : t.terminalSnapshot lib snapshot = .ok t') : t.savedLast = true ∧ t' = t ∨
      t.savedLast = false ∧ ∃ json data size, bytes lib (resultDocument json) = .ok data ∧
        t.estimatedBytes lib 0 (some data) = .ok size ∧ size ≤ t.policy.maxBufferBytes ∧
        t' = t.save [] data := by
  unfold terminalSnapshot at saved
  split at saved
  · rename_i last
    cases saved
    exact .inl ⟨last, rfl⟩
  · rename_i none
    simp only [ok_bind, ok_pure, ok_reject, capture] at saved
    obtain ⟨data, ⟨json, -, written⟩, size, estimated, _, small, _, -, rfl⟩ := saved
    exact .inr ⟨by simpa using none, json, data, size, written, estimated, Nat.le_of_not_lt small, rfl⟩

/-- With no snapshot of the last row every snapshot is of an earlier one. -/
theorem earlier_of_unsaved (recorded : Recorded lib t.points t.snapshots t.traceBytes t.snapshotBytes)
    (unsaved : t.savedLast = false) : ∀ saved ∈ t.snapshots, saved.1.traceIndex < t.points.length - 1 := by
  intro saved member
  obtain ⟨last, final⟩ := Option.isSome_iff_exists.mp (List.getLast?_isSome.mpr (List.ne_nil_of_mem member))
  have apart : last.1.traceIndex ≠ t.points.length - 1 := by
    unfold savedLast at unsaved
    rw [final] at unsaved
    simpa using unsaved
  have below := recorded.inside last (List.mem_of_getLast? final)
  obtain ⟨init, split⟩ := List.getLast?_eq_some_iff.mp final
  have order := recorded.increasing
  rw [split] at member order
  rcases List.mem_append.mp member with before | here
  · rw [List.map_append, List.pairwise_append] at order
    have less := order.2.2 _ (List.mem_map_of_mem before) last.1.traceIndex (by simp)
    omega
  · rw [List.mem_singleton] at here
    rw [here]
    omega

theorem markTerminal_kept (kept : Kept lib profile t) : Kept lib profile t.markTerminal where
  same := kept.same
  own := kept.own
  recorded := kept.recorded.flag _
  reached := fun threshold => by
    have same : ∀ {ps qs : List TracePoint},
        List.Forall₂ (fun p q => reachesAt profile threshold p = reachesAt profile threshold q) ps qs →
        ps.any (reachesAt profile threshold) = qs.any (reachesAt profile threshold) := by
      intro ps qs each
      induction each with
      | nil => rfl
      | cons head _ ih => rw [List.any_cons, List.any_cons, head, ih]
    have alike : ∀ p : TracePoint,
        reachesAt profile threshold { p with terminal := true } = reachesAt profile threshold p :=
      fun _ => rfl
    have flagged : t.markTerminal.points.any (reachesAt profile threshold) =
        t.points.any (reachesAt profile threshold) :=
      same (@forall₂_modify _ (fun p q => reachesAt profile threshold p = reachesAt profile threshold q)
        (fun p => { p with terminal := true }) (fun _ => rfl) alike _ _)
    rw [flagged]
    exact kept.reached threshold

theorem markTerminal_last {last : TracePoint} (final : t.points.getLast? = some last) :
    t.markTerminal.points.getLast? = some { last with terminal := true } := by
  rw [List.getLast?_eq_getElem?] at final
  have length : t.markTerminal.points.length = t.points.length := List.length_modify _ _ _
  rw [List.getLast?_eq_getElem?, length]
  unfold markTerminal
  rw [List.getElem?_modify, final]
  simp

theorem markTerminal_savedLast : t.markTerminal.savedLast = t.savedLast := by
  have length : t.markTerminal.points.length = t.points.length := List.length_modify _ _ _
  unfold savedLast
  rw [length]
  rfl

/-- A stopped run, or one that has just saved its last row, fits the buffer. -/
theorem terminalSnapshot_kept (collects : Collects lib profile t) {last : TracePoint}
    (final : t.points.getLast? = some last) {snapshot : Callback}
    (saved : t.terminalSnapshot lib snapshot = .ok t') : Kept lib profile t' ∧
      t'.points = t.points ∧ t'.savedLast = true ∧ EstimateFits lib t' profile.policy.maxBufferBytes := by
  obtain ⟨same, own, recorded, reached⟩ := collects.kept
  have policy_ : t.policy = profile.policy := congrArg _ same
  have nonempty : t.points ≠ [] := List.ne_nil_of_mem (List.mem_of_getLast? final)
  rcases terminalSnapshot_ok saved with ⟨already, same_⟩ | ⟨unsaved, json, data, size, written, estimated, small, rfl⟩
  · rw [same_]
    refine ⟨⟨same, own, recorded, reached⟩, rfl, already, ?_⟩
    cases stopped : t.stopped with
    | none => exact ((collects.running stopped).fits nonempty).mono (Nat.sub_le _ _)
    | some reason => exact (collects.ended (by rw [stopped]; simp)).fits
  · have whole := @Recorded.save lib _ _ _ _ recorded (earlier_of_unsaved recorded unsaved)
      (List.length_pos_iff.mpr nonempty) [] (snapshotPath t.snapshots.length) _ _ written
    have grows : Grows t (t.save [] data) 0 (some data) :=
      .saved data (t.points.length - 1) [] rfl rfl (Nat.sub_le _ _) (List.nil_sublist _) rfl rfl
    refine ⟨⟨same, own, whole, reached⟩, rfl, ?_, grows.fits estimated (policy_ ▸ small)⟩
    simp [savedLast, save]

theorem finishLast_collects (collects : Collects lib profile t) {last : TracePoint}
    (final : t.points.getLast? = some last) {progress : Progress} {snapshot : Callback} {u : Unit}
    (finished : t.finishLast lib clock last progress snapshot = (.ok u, t')) : Collects lib profile t' := by
  unfold finishLast at finished
  split at finished
  · cases finished
  · cases saved : t.terminalSnapshot lib snapshot with
    | error e =>
        rw [saved] at finished
        cases finished
    | ok s =>
        rw [saved] at finished
        obtain ⟨kept, points, savedLast, fits⟩ := terminalSnapshot_kept collects final saved
        refine close_collects (markTerminal_kept kept) ⟨⟨_, markTerminal_last (points ▸ final), rfl⟩, ?_, fits⟩
          finished
        rw [markTerminal_savedLast]
        exact savedLast

/-- A `finish` that succeeds keeps the invariant. -/
theorem finish_collects (accepted : Accepted profile) (collects : Collects lib profile t)
    {progress : Progress} {measure snapshot : Callback} {u : Unit}
    (finished : t.finish lib clock progress measure snapshot = (.ok u, t')) : Collects lib profile t' := by
  unfold finish at finished
  split at finished
  · cases finished
  · split at finished
    · rename_i last found
      obtain ⟨final, -⟩ := Option.filter_eq_some_iff.mp found
      exact finishLast_collects collects final finished
    · cases checked : t.check lib clock progress measure snapshot true with
      | mk answer after =>
          rw [checked] at finished
          cases answer with
          | error e => cases finished
          | ok d =>
              obtain ⟨kept, ⟨-, ⟨e, failed⟩ | ⟨-, active, early⟩⟩ |
                ⟨active, metrics, entry, value, -, -, stopped, prepared⟩⟩ := check_collects accepted collects checked
              · cases failed
              · simp [undue] at early
              · have stops : after.stopped ≠ none := by
                  rw [stopped]
                  exact stops_of_late prepared (.inl rfl)
                exact close_collects kept.kept (kept.ended stops) finished

/-! ## Runs up to a failing `finish` -/

/-- A call that checks, or a `finish` that succeeds. -/
def Proceeds (lib : JsonLibrary) (clock : Nat → Nat) (t : BufferedTrace) (c : Call) : Prop :=
  c.check?.isSome ∨ ∃ d, (t.call lib clock c).1 = .ok d

/-- The states calls lead to before a `finish` fails. -/
inductive Reaches (lib : JsonLibrary) (clock : Nat → Nat) (t₀ : BufferedTrace) : BufferedTrace → Prop where
  | opened : Reaches lib clock t₀ t₀
  | call {t : BufferedTrace} {c : Call} (before : Reaches lib clock t₀ t)
      (proceeds : Proceeds lib clock t c) : Reaches lib clock t₀ (t.call lib clock c).2

theorem call_collects (accepted : Accepted profile) (collects : Collects lib profile t) {c : Call}
    (proceeds : Proceeds lib clock t c) : Collects lib profile (t.call lib clock c).2 := by
  cases c with
  | observe progress measure snapshot => exact (check_collects accepted collects rfl).1
  | record progress metrics snapshot => exact (check_collects accepted collects rfl).1
  | finish progress measure snapshot =>
      obtain checks | ⟨d, answered⟩ := proceeds
      · cases checks
      · obtain ⟨u, finished, -⟩ := ok_map.mp answered
        exact finish_collects accepted collects (Prod.ext finished rfl)

theorem reaches_collects (accepted : Accepted profile) (reaches : Reaches lib clock (opened profile) t) :
    Collects lib profile t := by
  induction reaches with
  | opened => exact collects_opened accepted
  | call _ proceeds ih => exact call_collects accepted ih proceeds

/-! ## What a reached state satisfies -/

/-- The documents that would be written fit, and so does the estimate they were admitted with. -/
structure Fits (lib : JsonLibrary) (t : BufferedTrace) (limit : Nat) : Prop where
  estimated : EstimateFits lib t limit
  written : ∀ (sha256 : List UInt8 → Digest) (total : Nat) (reason : StopReason), total ≤ maxSafeInteger →
    ∃ trace data, traceText lib t.points = .ok trace ∧
      bytes lib (t.manifest total reason (file sha256 "trace.jsonl" trace ::
        t.snapshots.map fun saved => file sha256 saved.1.manifest saved.2)).json = .ok data ∧
      trace.length + t.snapshotBytes + data.length ≤ limit

/-- The state of a collector between calls. -/
structure StateInvariant (lib : JsonLibrary) (profile : SelectedBufferedProfile) (t : BufferedTrace) :
    Prop where
  running : t.stopped = none →
    t.snapshots.length < profile.policy.maxObservations ∧ t.points.length < profile.policy.maxTracePoints ∧
      (t.points ≠ [] → Fits lib t (profile.policy.maxBufferBytes - profile.policy.terminalReserveBytes))
  stopped : t.stopped ≠ none →
    (∃ last ∈ t.points.getLast?, last.terminal = true) ∧
      (∃ saved ∈ t.snapshots.getLast?, saved.1.traceIndex + 1 = t.points.length) ∧
      Fits lib t profile.policy.maxBufferBytes
  ordinals : t.snapshots.map (·.1.captureOrdinal) = List.range t.snapshots.length
  increasing : (t.snapshots.map (·.1.traceIndex)).Pairwise (· < ·)
  reached : ∀ threshold, threshold ∈ t.reached ↔
    threshold ∈ profile.policy.thresholds ∧ ∃ p ∈ t.points, reachesAt profile threshold p = true
  /-- A snapshot is kept as the result document it will be. -/
  encoded : ∀ saved ∈ t.snapshots, ∃ data, bytes lib (resultDocument data) = .ok saved.2
  snapshotBytes : t.snapshotBytes = (t.snapshots.map (·.2.length)).sum
  traceBytes : ∃ trace, traceText lib t.points = .ok trace ∧ trace.length ≤ t.traceBytes
  /-- The last row may still be marked as the terminal one. -/
  marked : ∃ trace, traceText lib t.markTerminal.points = .ok trace ∧ trace.length ≤ t.traceBytes

theorem Collects.stateInvariant (collects : Collects lib profile t) : StateInvariant lib profile t := by
  obtain ⟨⟨same, own, recorded, reached⟩, running, ended⟩ := collects
  have fits : ∀ {limit}, EstimateFits lib t limit → Fits lib t limit := fun estimated =>
    ⟨estimated, fun sha256 _ reason safe => estimated.written recorded.rows sha256 safe reason⟩
  refine {
    running := fun runs => ?_
    stopped := fun stops => ?_
    ordinals := recorded.ordinals
    increasing := recorded.increasing
    reached := fun threshold => ?_
    encoded := recorded.encoded
    snapshotBytes := recorded.size
    traceBytes := recorded.rows.text
    marked := (recorded.flag _).rows.text }
  · obtain ⟨snapshots, rows, estimated⟩ := running runs
    exact ⟨snapshots, rows, fun some => fits (estimated some)⟩
  · obtain ⟨terminal, saved, estimated⟩ := ended stops
    obtain ⟨last, final, index⟩ := (Option.any_eq_true _ _).mp saved
    have below := recorded.inside last (List.mem_of_getLast? final)
    rw [decide_eq_true_eq] at index
    exact ⟨terminal, ⟨last, final, by omega⟩, fits estimated⟩
  · rw [reached, List.any_eq_true]

/-- A call that records nothing: it answers with an error, or goes on at an index the schedule
does not ask for. -/
def RecordsNothing (lib : JsonLibrary) (clock : Nat → Nat) (t : BufferedTrace) (c : Call)
    (progress : Progress) : Prop :=
  (∃ e, (t.call lib clock c).1 = .error e) ∨
    (t.call lib clock c).1 = .ok (some .continues) ∧ t.expected ≠ some progress.checkIndex

theorem unchanged_of_recordsNothing (accepted : Accepted profile) (collects : Collects lib profile t)
    (nondecreasing : Monotone clock) {c : Call} {progress : Progress} {measure snapshot : Callback}
    (checks : c.check? = some (progress, measure, snapshot))
    (nothing : RecordsNothing lib clock t c progress) : SameRecord t (t.call lib clock c).2 := by
  unfold RecordsNothing at nothing
  rw [call_check checks] at nothing ⊢
  cases checked : t.check lib clock progress measure snapshot false with
  | mk answer after =>
  rw [checked] at nothing
  obtain ⟨-, ⟨same, -⟩ | ⟨active, metrics, entry, value, rfl, due, -, prepared⟩⟩ :=
    check_collects accepted collects checked
  · exact same
  · exfalso
    rcases nothing with ⟨e, failed⟩ | ⟨goes, unscheduled⟩
    · cases failed
    · have runs : entry.row.reason = none := by
        cases reason : entry.row.reason with
        | none => rfl
        | some reason_ =>
            rw [reason] at goes
            cases goes
      have late : active ≤ clock t.readings := by
        simpa [undue, unscheduled] using due
      exact stops_of_late prepared (.inr (Nat.le_trans late (nondecreasing (Nat.le_succ _)))) runs

/-- In every state reached before a `finish` fails the invariant holds, and the calls that
record nothing leave every field as it was. -/
theorem collector_invariant (nondecreasing : Monotone clock) {t₀ : BufferedTrace}
    (opens : withClock profile = .ok t₀) (reaches : Reaches lib clock t₀ t) :
    StateInvariant lib profile t ∧
      ∀ c progress measure snapshot, Call.check? c = some (progress, measure, snapshot) →
        RecordsNothing lib clock t c progress → SameRecord t (t.call lib clock c).2 := by
  obtain ⟨accepted, rfl⟩ := withClock_ok opens
  have collects := reaches_collects accepted reaches
  exact ⟨collects.stateInvariant, fun c progress measure snapshot checks nothing =>
    unchanged_of_recordsNothing accepted collects nondecreasing checks nothing⟩

/-! A profile that checks every iterate, after its first record. -/

theorem collector_invariant_sample :
    StateInvariant emptyResultLibrary (countingProfile 1 2) (recorded 1 2) ∧
      SameRecord (recorded 1 2) ((recorded 1 2).call emptyResultLibrary (fun _ => 0) firstRecord).2 := by
  have opens : withClock (countingProfile 1 2) = .ok (opened (countingProfile 1 2)) :=
    withClock_opened (by decide +kernel) (by decide +kernel) (by decide +kernel)
  obtain ⟨-, -, points⟩ := @firstRecord_stops 1 2 .fixedCount (by omega) (by decide +kernel)
  have reaches : Reaches emptyResultLibrary (fun _ => 0) (opened (countingProfile 1 2)) (recorded 1 2) :=
    .call .opened (.inl rfl)
  obtain ⟨invariant, atomic⟩ := collector_invariant (fun _ _ _ => Nat.le_refl 0) opens reaches
  refine ⟨invariant, atomic firstRecord _ _ _ rfl (.inl ?_)⟩
  cases admitted : (recorded 1 2).enter ⟨0, ∅⟩ with
  | ok u =>
      have later := (enter_ok admitted).2.2.2.2.2.1 firstPoint (by rw [points]; rfl)
      exact absurd later.1 (Nat.lt_irrefl 0)
  | error e =>
      refine ⟨e, ?_⟩
      simp only [call, firstRecord, record, check, admitted]
      rfl

end BufferedTrace

end Buffered

end Metewand
