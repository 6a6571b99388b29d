import Metewand.Worker.Redaction
import Mathlib.Data.List.Infix

/-!
# Worker logs

`runtime/worker_process.rs`: a thread drains a worker's pipe into a bounded log, redacts it at
the end, and shares what it has read with snapshots that withhold the last bytes.

The counters are unbounded: a log of `u64::MAX` bytes is not reached.
-/

namespace Metewand.Worker

open Lib Protocol

structure CapturedWorkerLog where
  bytes : Bytes
  totalBytes : Nat
  truncated : Bool
  deriving DecidableEq

structure LiveLog where
  bytes : Bytes := []
  totalBytes : Nat := 0

def LiveLog.snapshot (log : LiveLog) (limit : Nat) (redactor : Redactor) : CapturedWorkerLog :=
  let visible := log.bytes.length - redactor.lookahead
  {
    bytes := (redactor.leading log.bytes (min visible limit)).take limit
    totalBytes := log.totalBytes
    truncated := decide (min visible limit < log.totalBytes)
  }

/-- The locals of `drain_log_shared`, with what the shared log holds. -/
structure Drain where
  bytes : Bytes := []
  totalBytes : Nat := 0
  truncated : Bool := false
  live : Option LiveLog

/-- One read. -/
def Drain.receive (retainedLimit : Nat) (drain : Drain) (buffer : Bytes) : Drain :=
  let totalBytes := drain.totalBytes + buffer.length
  let retained := min buffer.length (retainedLimit - drain.bytes.length)
  let bytes := drain.bytes ++ buffer.take retained
  {
    bytes
    totalBytes
    truncated := drain.truncated || decide (retained < buffer.length)
    live := drain.live.map fun _ => { bytes, totalBytes }
  }

/-- The loop over the results of the reads, the last of which is followed by the end of the stream. -/
def drainLoop {ε : Type} (retainedLimit : Nat) : List (Except ε Bytes) → Drain → Except ε Drain
  | [], drain => .ok drain
  | .error e :: _, _ => .error e
  | .ok buffer :: reads, drain =>
      if buffer.length = 0 then .ok drain
      else drainLoop retainedLimit reads (drain.receive retainedLimit buffer)

def drainLogShared {ε : Type} (reader : List (Except ε Bytes)) (limit : Nat) (redactor : Redactor)
    (live : Option LiveLog) : Except ε CapturedWorkerLog :=
  let retainedLimit := limit + redactor.lookahead
  match drainLoop retainedLimit reader { live } with
  | .error e => .error e
  | .ok drain =>
      let bytes := redactor.leading drain.bytes limit
      .ok {
        bytes := bytes.take limit
        totalBytes := drain.totalBytes
        truncated := drain.truncated || decide (limit < bytes.length) || decide (limit < drain.totalBytes)
      }

/-! ## Reading -/

/-- A stream delivered in pieces. -/
def pieces {ε : Type} (stream : List Bytes) : List (Except ε Bytes) := stream.map .ok

/-- What the drain has after some pieces. -/
structure Drained (retainedLimit : Nat) (stream : Bytes) (drain : Drain) : Prop where
  bytes : drain.bytes = stream.take retainedLimit
  totalBytes : drain.totalBytes = stream.length
  truncated : drain.truncated = true → retainedLimit < stream.length

theorem drained_start (retainedLimit : Nat) (live : Option LiveLog) : Drained retainedLimit [] { live } where
  bytes := List.take_nil.symm
  totalBytes := rfl
  truncated := by
    intro impossible
    cases impossible

theorem drained_receive {retainedLimit : Nat} {stream : Bytes} {drain : Drain}
    (drained : Drained retainedLimit stream drain) (buffer : Bytes) :
    Drained retainedLimit (stream ++ buffer) (drain.receive retainedLimit buffer) where
  bytes := by
    have least : (buffer.take (min buffer.length (retainedLimit - drain.bytes.length))) =
        buffer.take (retainedLimit - stream.length) := by
      rw [drained.bytes, List.length_take]
      rcases Nat.le_total retainedLimit stream.length with full | room
      · rw [Nat.min_eq_left full, Nat.sub_self, Nat.min_zero, Nat.sub_eq_zero_of_le full]
      · rw [Nat.min_eq_right room, ← List.take_take]
        exact List.take_of_length_le (List.length_take_le' _ _)
    rw [Drain.receive, least, drained.bytes, List.take_append]
  totalBytes := by
    rw [Drain.receive, drained.totalBytes, List.length_append]
  truncated := by
    intro cut
    rw [List.length_append]
    rcases (Bool.or_eq_true _ _).mp cut with earlier | now
    · have beyond := drained.truncated earlier
      omega
    · have short := of_decide_eq_true now
      rw [drained.bytes, List.length_take] at short
      omega

/-- The drain after some reads. -/
def Drain.after (retainedLimit : Nat) (live : Option LiveLog) (read : List Bytes) : Drain :=
  read.foldl (Drain.receive retainedLimit) { live }

theorem drained_after (retainedLimit : Nat) (live : Option LiveLog) (read : List Bytes) :
    Drained retainedLimit read.flatten (Drain.after retainedLimit live read) := by
  have run : ∀ stream drain, Drained retainedLimit stream drain →
      Drained retainedLimit (stream ++ read.flatten) (read.foldl (Drain.receive retainedLimit) drain) := by
    induction read with
    | nil =>
        intro stream drain drained
        rw [List.flatten_nil, List.append_nil]
        exact drained
    | cons buffer read ih =>
        intro stream drain drained
        rw [List.flatten_cons, ← List.append_assoc]
        exact ih _ _ (drained_receive drained buffer)
  exact run [] _ (drained_start retainedLimit live)

/-- The shared log holds what has been read. -/
theorem live_after (retainedLimit : Nat) (read : List Bytes) :
    (Drain.after retainedLimit (some {}) read).live =
      some ⟨read.flatten.take retainedLimit, read.flatten.length⟩ := by
  have run : ∀ drain : Drain, drain.live = some ⟨drain.bytes, drain.totalBytes⟩ →
      (read.foldl (Drain.receive retainedLimit) drain).live =
        some ⟨(read.foldl (Drain.receive retainedLimit) drain).bytes,
          (read.foldl (Drain.receive retainedLimit) drain).totalBytes⟩ := by
    induction read with
    | nil =>
        intro drain shared
        exact shared
    | cons buffer read ih =>
        intro drain shared
        apply ih
        rw [Drain.receive, shared]
        rfl
  have drained := drained_after retainedLimit (some {}) read
  unfold Drain.after at drained ⊢
  rw [run _ rfl, drained.bytes, drained.totalBytes]

theorem drainLoop_pieces {ε : Type} (retainedLimit : Nat) {stream : List Bytes}
    (nonempty : ∀ piece ∈ stream, piece ≠ []) (drain : Drain) :
    drainLoop retainedLimit (pieces (ε := ε) stream) drain =
      .ok (stream.foldl (Drain.receive retainedLimit) drain) := by
  induction stream generalizing drain with
  | nil => rfl
  | cons piece stream ih =>
      have some := nonempty piece List.mem_cons_self
      rw [pieces, List.map_cons, drainLoop, if_neg (by simpa using some), List.foldl_cons]
      exact ih (fun other member => nonempty other (List.mem_cons_of_mem _ member)) _

/-! ## Redaction -/

/-- The first bytes of a stream with one marker for each run of secret bytes, not yet cut. -/
def redacted (redactor : Redactor) (stream : Bytes) (limit : Nat) : Bytes :=
  replaceRuns marker ((redactor.masked stream).take limit)

/-- The log of a stream. -/
structure Captured (redactor : Redactor) (limit : Nat) (stream : Bytes) (log : CapturedWorkerLog) : Prop where
  bytes : log.bytes = (redacted redactor stream limit).take limit
  totalBytes : log.totalBytes = stream.length
  truncated : log.truncated = true ↔
    limit < stream.length ∨ limit < (redacted redactor stream limit).length

theorem Captured.determined {redactor redactor' : Redactor} {limit : Nat} {stream stream' : Bytes}
    {log log' : CapturedWorkerLog} (captured : Captured redactor limit stream log)
    (captured' : Captured redactor' limit stream' log')
    (same : redactor.masked stream = redactor'.masked stream') : log = log' := by
  have lengths := congrArg List.length same
  rw [Redactor.masked, Redactor.masked, length_mask, length_mask] at lengths
  have texts : redacted redactor stream limit = redacted redactor' stream' limit := by
    rw [redacted, redacted, same]
  obtain ⟨bytes, totalBytes, truncated⟩ := captured
  obtain ⟨bytes', totalBytes', truncated'⟩ := captured'
  rw [texts] at bytes truncated
  rw [lengths] at totalBytes truncated
  cases log
  cases log'
  simp only [CapturedWorkerLog.mk.injEq]
  refine ⟨bytes.trans bytes'.symm, totalBytes.trans totalBytes'.symm, ?_⟩
  rw [Bool.eq_iff_iff]
  exact truncated.trans truncated'.symm

/-- What is retained decides the text. -/
theorem leading_retained (redactor : Redactor) (stream : Bytes) (limit : Nat) :
    redactor.leading (stream.take (limit + redactor.lookahead)) limit = redacted redactor stream limit := by
  rw [Redactor.leading_eq, redactor.masked_take stream (Nat.le_refl _)]
  rfl

theorem drainLogShared_captured {ε : Type} (redactor : Redactor) (limit : Nat) {stream : List Bytes}
    (nonempty : ∀ piece ∈ stream, piece ≠ []) (live : Option LiveLog) :
    ∃ log, drainLogShared (pieces (ε := ε) stream) limit redactor live = .ok log ∧
      Captured redactor limit stream.flatten log := by
  have drained := drained_after (limit + redactor.lookahead) live stream
  have loop : drainLoop (limit + redactor.lookahead) (pieces stream) { live } =
      (.ok (Drain.after (limit + redactor.lookahead) live stream) : Except ε Drain) :=
    drainLoop_pieces _ nonempty _
  unfold drainLogShared
  dsimp only
  rw [loop]
  generalize Drain.after (limit + redactor.lookahead) live stream = drain at drained
  refine ⟨_, rfl, ?_, drained.totalBytes, ?_⟩
  · simp only [drained.bytes, leading_retained]
  · simp only [drained.bytes, leading_retained, drained.totalBytes, Bool.or_eq_true, decide_eq_true_eq]
    constructor
    · rintro ((cut | long) | beyond)
      · have longer := drained.truncated cut
        left
        omega
      · exact .inr long
      · exact .inl beyond
    · rintro (beyond | long)
      · exact .inr beyond
      · exact .inl (.inr long)

/-- What a snapshot shows is decided by what has been read. -/
theorem snapshot_prefix (redactor : Redactor) (limit : Nat) (read rest : Bytes) :
    (LiveLog.snapshot ⟨read.take (limit + redactor.lookahead), read.length⟩ limit redactor).bytes <+:
      (redacted redactor (read ++ rest) limit).take limit := by
  unfold LiveLog.snapshot
  dsimp only
  rw [Redactor.leading_eq, redacted]
  generalize visible :
    min ((read.take (limit + redactor.lookahead)).length - redactor.lookahead) limit = n
  have begins : (redactor.masked (read.take (limit + redactor.lookahead))).take n <+:
      (redactor.masked (read ++ rest)).take limit := by
    rw [List.length_take] at visible
    rcases Nat.eq_zero_or_pos n with none | some
    · rw [none]
      exact List.nil_prefix
    · have same : read.take (limit + redactor.lookahead) =
          (read ++ rest).take (min (limit + redactor.lookahead) read.length) := by
        rw [← List.take_take, List.take_left]
      rw [same, redactor.masked_take _ (by omega)]
      exact List.take_prefix_take_left (by omega)
  obtain ⟨more, is⟩ := begins
  rw [← is]
  exact (replaceRuns_grows marker _ _).take limit

/-- A drained log is the stream's first bytes with one marker for each run of secret bytes, however
the stream arrives; snapshots run ahead of nothing in it, and streams that differ in secret bytes
only have the same log.  Replacing secrets in a text leaves a text. -/
theorem drainLogShared_conceals {ε : Type} (redactor : Redactor) (limit : Nat) (stream : List Bytes)
    (nonempty : ∀ piece ∈ stream, piece ≠ []) :
    (∃ log, (∀ live, drainLogShared (pieces (ε := ε) stream) limit redactor live = .ok log) ∧
      Captured redactor limit stream.flatten log ∧
      (∀ read rest, stream = read ++ rest →
        ∃ shared, (Drain.after (limit + redactor.lookahead) (some {}) read).live = some shared ∧
          (shared.snapshot limit redactor).bytes <+: log.bytes) ∧
      ∀ (redactor' : Redactor) (stream' : List Bytes), (∀ piece ∈ stream', piece ≠ []) →
        redactor'.masked stream'.flatten = redactor.masked stream.flatten →
        ∀ live, drainLogShared (pieces (ε := ε) stream') limit redactor' live = .ok log) ∧
    ((∀ secret ∈ redactor.secrets, ∃ name, secret = utf8 name) →
      ∀ text, ∃ shown, redactor.text text = some shown) := by
  refine ⟨?_, Redactor.text_eq_some⟩
  obtain ⟨log, drains, captured⟩ := drainLogShared_captured (ε := ε) redactor limit nonempty none
  have determined : ∀ (redactor' : Redactor) (stream' : List Bytes), (∀ piece ∈ stream', piece ≠ []) →
      redactor'.masked stream'.flatten = redactor.masked stream.flatten →
      ∀ live, drainLogShared (pieces (ε := ε) stream') limit redactor' live = .ok log := by
    intro redactor' stream' nonempty' same live
    obtain ⟨log', drains', captured'⟩ := drainLogShared_captured (ε := ε) redactor' limit nonempty' live
    rw [drains', captured'.determined captured same]
  refine ⟨log, determined redactor stream nonempty rfl, captured, ?_, determined⟩
  intro read rest is
  refine ⟨_, live_after _ read, ?_⟩
  rw [captured.bytes, is, List.flatten_append]
  exact snapshot_prefix redactor limit read.flatten rest.flatten

/-- `abcd` with the secrets `ab` and `bc`, in two pieces: the marker is cut at three bytes. -/
theorem drainLogShared_conceals_sample :
    ∃ log, drainLogShared (pieces (ε := Unit) [[97, 98], [99, 100]]) 3
        ⟨[[97, 98], [98, 99]], by decide⟩ (some {}) = .ok log ∧
      log = ⟨[91, 82, 69], 4, true⟩ := by
  obtain ⟨⟨log, drains, captured, -⟩, -⟩ := @drainLogShared_conceals Unit
    ⟨[[97, 98], [98, 99]], by decide⟩ 3 [[97, 98], [99, 100]] (by decide)
  refine ⟨log, drains _, ?_⟩
  have text : redacted ⟨[[97, 98], [98, 99]], by decide⟩ [97, 98, 99, 100] 3 = marker := by
    have hides : (Redactor.masked ⟨[[97, 98], [98, 99]], by decide⟩ [97, 98, 99, 100]).take 3 =
        [none, none, none] := by decide
    rw [redacted, hides]
    simp [marker]
  obtain ⟨bytes, totalBytes, truncated⟩ := captured
  have cut := truncated.mpr (.inl (by decide))
  rw [show [[97, 98], [99, 100]].flatten = ([97, 98, 99, 100] : Bytes) from rfl, text] at bytes
  cases log
  simp only [CapturedWorkerLog.mk.injEq]
  exact ⟨bytes, totalBytes, cut⟩

end Metewand.Worker
