import Metewand.Execution.Streaming

/-!
# What a stream publishes

Whatever an implementation sends and the world answers, `run_streaming` publishes the checkpoints
it was sent in their order, along the schedule, with work that never decreases, and nothing after
a reason to stop.

The messages, the store and the file system are arbitrary.  `Calm` worlds only answer with errors
that are none of the panics of the code.
-/

namespace Metewand.Execution

open Lib Lib.Check Effect Buffered

/-! ## Thresholds -/

theorem F64.le_congr_left {a b c : UInt64} (same : F64.eq a b = true) : F64.le a c = F64.le b c := by
  simp only [F64.eq, Bool.and_eq_true, decide_eq_true_eq] at same
  obtain ⟨⟨first, second⟩, magnitude⟩ := same
  unfold F64.le
  rw [magnitude, first, second]

theorem F64.le_congr_right {a b c : UInt64} (same : F64.eq a b = true) : F64.le c a = F64.le c b := by
  simp only [F64.eq, Bool.and_eq_true, decide_eq_true_eq] at same
  obtain ⟨⟨first, second⟩, magnitude⟩ := same
  unfold F64.le
  rw [magnitude, first, second]

theorem reaches_congr (policy : ProfilePolicy) (value : UInt64) {a b : UInt64} (same : F64.eq a b = true) :
    policy.reaches value a = policy.reaches value b := by
  unfold ProfilePolicy.reaches
  cases policy.direction with
  | none => rfl
  | some direction =>
      cases direction with
      | atMost => exact F64.le_congr_right same
      | atLeast => exact F64.le_congr_left same

theorem F64.eq_self {a : UInt64} (number : F64.isNaN a = false) : F64.eq a a = true := by
  simp [F64.eq, number]

/-- What is reached is a number. -/
theorem eq_self_of_reaches {policy : ProfilePolicy} {value threshold : UInt64}
    (reached : policy.reaches value threshold = true) : F64.eq threshold threshold = true := by
  apply F64.eq_self
  unfold ProfilePolicy.reaches at reached
  cases direction : policy.direction with
  | none => simp [direction] at reached
  | some way =>
      cases way with
      | atMost =>
          simp only [direction, F64.le, Bool.and_eq_true, Bool.not_eq_true', decide_eq_true_eq] at reached
          exact reached.1.2
      | atLeast =>
          simp only [direction, F64.le, Bool.and_eq_true, Bool.not_eq_true', decide_eq_true_eq] at reached
          exact reached.1.1

theorem containsF64_append (values others : List UInt64) (value : UInt64) :
    containsF64 (values ++ others) value = (containsF64 values value || containsF64 others value) :=
  List.any_append

/-- The target metric of independently evaluated metrics. -/
def independentMetric (policy : ProfilePolicy) (metrics : Json) : Option UInt64 :=
  policy.metric.bind fun name => (metrics.get name).asF64?.filter F64.isFinite

/-- An observation reaches a threshold. -/
def Attains (policy : ProfilePolicy) (threshold : UInt64) (result : ProfileResult) : Bool :=
  (independentMetric policy result.metrics).any (policy.reaches · threshold)

/-- The thresholds that no earlier observation reaches. -/
def firstAttained (policy : ProfilePolicy) (earlier : List ProfileResult) (result : ProfileResult) :
    List UInt64 :=
  policy.thresholds.filter fun threshold =>
    !earlier.any (Attains policy threshold) && Attains policy threshold result

/-! ## Messages -/

/-- The message an exchange brings is the one the worker sent; a draft is finalized. -/
def Exchange.Brings (exchange : Exchange) : StreamMessage → Prop
  | .checkpoint checkpoint => ∃ sent manifest, exchange.received = .ok (.event (some sent)) ∧
      checkpoint = { sent with manifest := some manifest, draft := none }
  | .finished count => ∃ id, exchange.received = .ok (.response (some (id, .success count)))

namespace StreamingRun

variable (run : StreamingRun)

/-- The request, and a decision for each turn. -/
def exchanges : List Exchange := run.first :: run.turns.map Turn.exchange

/-- The exchange of a position brings a message. -/
def Sent (position : Nat) (message : StreamMessage) : Prop :=
  ∃ exchange, run.exchanges[position]? = some exchange ∧ exchange.Brings message

end StreamingRun

/-! ## Published observations -/

/-- The stream goes on after an observation. -/
def Continues (result : ProfileResult) : Prop :=
  ∀ record, result.profile = .streaming record → record.stopReason = none

/-- An observation beside the checkpoint it was published for and the ones before it. -/
structure Point (run : StreamingRun) (earlier : List ProfileResult) (checkpoint : StreamCheckpoint)
    (result : ProfileResult) (record : StreamingObservationRecord) : Prop where
  profile : result.profile = .streaming record
  sequence : checkpoint.sequence = earlier.length
  bounded : earlier.length < run.profile.policy.maxObservations
  scheduled : checkpoint.terminal = true ∨
    run.profile.checkSchedule.includes checkpoint.checkIndex = true
  increases : ∀ before ∈ earlier, ∀ last, before.profile = .streaming last →
    last.checkIndex < checkpoint.checkIndex
  grows : ∀ before ∈ earlier, ∀ last, before.profile = .streaming last →
    ∀ entry ∈ last.work, ∀ n ∈ checkpoint.work.get entry.1, entry.2 ≤ n
  continues : ∀ before ∈ earlier, Continues before
  coordinates : record.checkpointSequence = checkpoint.sequence ∧
    record.checkIndex = checkpoint.checkIndex ∧ record.work = checkpoint.work.entries ∧
    record.terminal = checkpoint.terminal
  thresholds : record.thresholds = firstAttained run.profile.policy earlier result
  stops : ∃ limit, run.limit = .ok limit ∧ record.stopReason =
    run.reason (independentMetric run.profile.policy result.metrics) checkpoint record.activeTimeNs limit
  decision : record.decision = if record.stopReason.isSome then "stop" else "continue"
  completion : result.completion =
    run.completion (independentMetric run.profile.policy result.metrics)

/-- Each observation is a point after those before it, for the checkpoint sent at its position. -/
def StreamingRun.Trajectory (run : StreamingRun) (observations : List ProfileResult) : Prop :=
  ∀ earlier result later, observations = earlier ++ result :: later →
    ∃ checkpoint record, run.Sent earlier.length (.checkpoint checkpoint) ∧
      Point run earlier checkpoint result record

/-- What a successful stream published: the worker declared the count where the next checkpoint
would have been. -/
def StreamingRun.Completed (run : StreamingRun) (observations : List ProfileResult) : Prop :=
  run.Trajectory observations ∧ run.Sent observations.length (.finished observations.length)

section Trajectory

variable {run : StreamingRun} {observations : List ProfileResult} {result : ProfileResult}

theorem trajectory_nil : run.Trajectory [] := by
  intro earlier result later split
  simp at split

theorem StreamingRun.Trajectory.extend (trajectory : run.Trajectory observations)
    {checkpoint : StreamCheckpoint} {record : StreamingObservationRecord}
    (sent : run.Sent observations.length (.checkpoint checkpoint))
    (point : Point run observations checkpoint result record) :
    run.Trajectory (observations ++ [result]) := by
  intro earlier other later split
  rcases List.eq_nil_or_concat later with rfl | ⟨before, last, rfl⟩
  · obtain ⟨rfl, same⟩ := List.append_inj' split rfl
    cases same
    exact ⟨checkpoint, record, sent, point⟩
  · have split' : observations ++ [result] = (earlier ++ other :: before) ++ [last] := by
      rw [split]
      simp
    obtain ⟨same, -⟩ := List.append_inj' split' rfl
    exact trajectory earlier other before same

/-- A trajectory fits the observation bound. -/
theorem StreamingRun.Trajectory.length_le (trajectory : run.Trajectory observations) :
    observations.length ≤ run.profile.policy.maxObservations := by
  rcases List.eq_nil_or_concat observations with rfl | ⟨earlier, last, rfl⟩
  · exact Nat.zero_le _
  · obtain ⟨checkpoint, record, -, point⟩ := trajectory earlier last [] (by simp)
    have bounded := point.bounded
    rw [List.concat_eq_append, List.length_append, List.length_singleton]
    omega

end Trajectory

/-! ## Calm worlds -/

/-- A failure that stands for a panic of the code. -/
def Failure.panics : Failure → Bool
  | .panicked | .implementation .panicked => true
  | _ => false

def Calm {α : Type} (x : Except Failure α) : Prop := ∀ e, x = .error e → e.panics = false

def SessionCalm {α : Type} (x : Except WorkerSessionError α) : Prop := ∀ e, x = .error e → e ≠ .panicked

structure Exchange.Calm (exchange : Exchange) : Prop where
  sent : SessionCalm exchange.sent
  received : SessionCalm exchange.received
  verified : SessionCalm exchange.verified
  finalized : SessionCalm exchange.finalized
  late : exchange.late ≠ some .panicked

structure Evaluation.Calm (evaluation : Evaluation) : Prop where
  frozen : Execution.Calm evaluation.frozen
  result : Execution.Calm evaluation.result
  launched : Execution.Calm evaluation.launched
  bound : Execution.Calm evaluation.bound
  evaluated : Execution.Calm evaluation.evaluated
  unchanged : Execution.Calm evaluation.unchanged
  metrics : Execution.Calm evaluation.metrics
  times : Execution.Calm evaluation.times
  written : Execution.Calm evaluation.written
  deadline : Execution.Calm evaluation.deadline

/-- As many observation slots are planned as the policy admits, and no answer is a panic. -/
structure StreamingRun.Calm (run : StreamingRun) : Prop where
  planned : run.profile.policy.maxObservations ≤ run.slots
  advance : ∀ states target, Execution.Calm (run.store.advance states target)
  publish : ∀ ordinal, Execution.Calm (run.store.publishObservation ordinal)
  limit : Execution.Calm run.limit
  started : Execution.Calm run.started
  prepared : Execution.Calm run.prepared
  deadline : Execution.Calm run.deadline
  exchanges : ∀ exchange ∈ run.exchanges, exchange.Calm
  evaluations : ∀ turn ∈ run.turns, turn.evaluation.Calm
  verified : Execution.Calm run.verified
  shutdown : Execution.Calm run.shutdown

/-! ## The session -/

/-- A stream that has so many checkpoints and awaits a decision or not. -/
def Streams (bound count : Nat) (awaiting stopped : Bool) (session : Session) : Prop :=
  ∃ state, session.stream = some state ∧ session.pending.isSome = true ∧ state.bound ≤ bound ∧
    state.count = count ∧ state.awaiting = awaiting ∧ state.stopped = stopped

/-- What a message says about the stream that was listened to. -/
def Heard (exchange : Exchange) (bound count : Nat) (stopped : Bool) : StreamMessage → Session → Prop
  | .checkpoint checkpoint, session => exchange.Brings (.checkpoint checkpoint) ∧ stopped = false ∧
      checkpoint.sequence = count ∧ count < bound ∧ Streams bound (count + 1) true false session
  | .finished n, _ => exchange.Brings (.finished n) ∧ n = count

section Session

variable (exchange : Exchange) {bound count : Nat} {stopped : Bool}

/-- A failure of the session that is no panic unless the world answered one. -/
def Composed (e : WorkerSessionError) : Prop := exchange.Calm → e ≠ .panicked

theorem composed_of_ne {e : WorkerSessionError} (other : e ≠ .panicked) : Composed exchange e :=
  fun _ => other

theorem require_composed {pre : Session → Prop} {p : Prop} [Decidable p] {e : WorkerSessionError}
    (other : e ≠ .panicked) : Holds pre (require p e : SessionStep Unit) (fun _ => pre)
      (fun e _ => Composed exchange e) :=
  passes_require fun _ _ => composed_of_ne exchange other

theorem receiveResponse_heard {id : RequestId} {response : Response}
    (received : exchange.received = .ok (.response (some (id, response)))) :
    Holds (Streams bound count false stopped) (receiveResponse exchange (some (id, response)))
      (Heard exchange bound count stopped) (fun e _ => Composed exchange e) := by
  unfold receiveResponse
  refine holds_via (fun found session => found = (id, response) ∧ Streams bound count false stopped session)
    (holds_answer ?_ ?_) fun found => ?_
  · intro found session same start
    cases same
    exact ⟨rfl, start⟩
  · intro e session same
    cases same
  rcases found with ⟨other, answer⟩
  refine holds_via (fun _ session => (other, answer) = (id, response) ∧
    Streams bound count false stopped session) (holds_get fun _ start => start) fun session => ?_
  refine (require_composed exchange (by simp)).bind fun _ => ?_
  refine holds_via (fun _ s => (other, answer) = (id, response) ∧
    ∃ state, s.stream = some state ∧ state.count = count) (holds_modify ?_) fun _ => ?_
  · intro s start
    obtain ⟨same, state, stream, -, -, counted, -⟩ := start
    exact ⟨same, state, stream, counted⟩
  cases answer with
  | malformed =>
      exact holds_fail fun _ _ => composed_of_ne exchange (by simp)
  | failure =>
      exact holds_fail fun _ _ => composed_of_ne exchange (by simp)
  | success declared =>
      refine holds_via (fun state s => (other, Response.success declared) = (id, response) ∧
        state.count = count) ?_ fun state => ?_
      · unfold streamState
        refine holds_via (fun session s => s = session ∧ (other, Response.success declared) = (id, response) ∧
          ∃ state, s.stream = some state ∧ state.count = count)
          (holds_get fun s start => ⟨rfl, start⟩) fun session => holds_answer ?_ ?_
        · intro state s found start
          obtain ⟨rfl, same, known, stream, counted⟩ := start
          rw [stream] at found
          cases found
          exact ⟨same, counted⟩
        · intro e s found start
          obtain ⟨rfl, same, known, stream, counted⟩ := start
          rw [stream] at found
          cases found
      · split
        · rename_i agrees
          refine (passes_answer fun e s failed start calm => calm.verified e failed).bind fun _ => ?_
          refine holds_via (fun _ s => (other, Response.success declared) = (id, response) ∧ state.count = count)
            (holds_modify fun _ start => start) fun _ => ?_
          apply holds_pure
          intro s start
          obtain ⟨same, counted⟩ := start
          cases same
          exact ⟨⟨id, received⟩, agrees.trans counted⟩
        · exact holds_fail fun _ _ => composed_of_ne exchange (by simp)

/-- The reference of a checkpoint exists once its members are checked. -/
theorem finalizeDraft_spares (checkpoint : StreamCheckpoint) (bytes : Nat)
    (one : checkpoint.manifest.isSome ≠ checkpoint.draft.isSome) :
    Spares id (Composed exchange) (finalizeDraft exchange checkpoint bytes) := by
  unfold finalizeDraft
  cases draft : checkpoint.draft with
  | none =>
      apply spares_answer
      intro e failed calm
      cases manifest : checkpoint.manifest with
      | none => simp [manifest, draft] at one
      | some reference => simp [manifest, expect] at failed
  | some reference =>
      refine spares_get.bind fun session => ?_
      refine (spares_require (composed_of_ne exchange (by simp))).bind fun _ => ?_
      refine (spares_answer fun e failed => composed_of_ne exchange ?_).bind fun prepared => ?_
      · rcases snapshot : snapshotDirectory exchange.inspect reference (min (bytes + 16) (2 ^ 64 - 1))
          with message | found
        · rw [snapshot] at failed
          cases failed
          simp
        · rw [snapshot] at failed
          cases failed
      rcases prepared with ⟨directory, name⟩
      refine (spares_answer ?_).bind fun _ => spares_pure _
      intro e failed calm
      exact calm.finalized e failed

theorem receiveCheckpoint_heard {sent : StreamCheckpoint}
    (received : exchange.received = .ok (.event (some sent))) :
    Holds (Streams bound count false stopped) (receiveCheckpoint exchange (some sent))
      (Heard exchange bound count stopped) (fun e _ => Composed exchange e) := by
  unfold receiveCheckpoint
  refine holds_via (fun checkpoint session => checkpoint = sent ∧ Streams bound count false stopped session)
    (holds_answer ?_ ?_) fun checkpoint => ?_
  · intro found session same start
    cases same
    exact ⟨rfl, start⟩
  · intro e session same
    cases same
  refine holds_via (fun state s => checkpoint = sent ∧ s.stream = some state ∧ s.pending.isSome = true ∧
    state.bound ≤ bound ∧ state.count = count ∧ state.stopped = stopped) ?_ fun state => ?_
  · unfold streamState
    refine holds_via (fun session s => s = session ∧ checkpoint = sent ∧
      Streams bound count false stopped s) (holds_get fun s start => ⟨rfl, start⟩)
      fun session => holds_answer ?_ ?_
    · intro state s found start
      obtain ⟨rfl, same, known, stream, pending, within, counted, -, halted⟩ := start
      rw [stream] at found
      cases found
      exact ⟨same, stream, pending, within, counted, halted⟩
    · intro e s found start
      obtain ⟨rfl, same, known, stream, -⟩ := start
      rw [stream] at found
      cases found
  refine holds_via (fun session s => s = session ∧ checkpoint = sent ∧ s.stream = some state ∧
    s.pending.isSome = true ∧ state.bound ≤ bound ∧ state.count = count ∧ state.stopped = stopped)
    (holds_get fun s start => ⟨rfl, start⟩) fun session => ?_
  refine holds_via (fun _ s => s = session ∧ checkpoint = sent ∧ s.stream = some state ∧
    s.pending.isSome = true ∧ state.bound ≤ bound ∧ state.count = count ∧ state.stopped = stopped)
    (holds_answer (fun _ _ _ start => start) ?_) fun id => ?_
  · intro e s found start
    obtain ⟨rfl, -, -, pending, -⟩ := start
    obtain ⟨known, is⟩ := Option.isSome_iff_exists.mp pending
    rw [is] at found
    cases found
  refine holds_via (fun _ s => checkpoint = sent ∧ s.stream = some state ∧ s.pending.isSome = true ∧
    state.bound ≤ bound ∧ stopped = false ∧ checkpoint.sequence = count ∧ count < bound ∧
    state.count = count ∧ state.stopped = false ∧ checkpoint.manifest.isSome ≠ checkpoint.draft.isSome)
    (holds_require ?_ ?_) fun _ => ?_
  · intro accepted s start
    obtain ⟨rfl, same, stream, pending, within, counted, halted⟩ := start
    rw [not_or, not_or, not_or, not_or, not_or] at accepted
    obtain ⟨open', -, sequence, room, -, one⟩ := accepted
    have unstopped : state.stopped = false := by
      cases state' : state.stopped with
      | false => rfl
      | true => exact absurd state' open'
    refine ⟨same, stream, pending, within, ?_, ?_, ?_, counted, unstopped, one⟩
    · rw [← halted, unstopped]
    · omega
    · omega
  · exact fun _ _ _ => composed_of_ne exchange (by simp)
  by_cases one : checkpoint.manifest.isSome ≠ checkpoint.draft.isSome
  · refine holds_via (fun _ s => checkpoint = sent ∧ s.stream = some state ∧ s.pending.isSome = true ∧
      state.bound ≤ bound ∧ stopped = false ∧ checkpoint.sequence = count ∧ count < bound ∧
      state.count = count ∧ state.stopped = false)
      ((finalizeDraft_spares exchange checkpoint state.bytes one).holds
        (fun s => checkpoint = sent ∧ s.stream = some state ∧ s.pending.isSome = true ∧
          state.bound ≤ bound ∧ stopped = false ∧ checkpoint.sequence = count ∧ count < bound ∧
          state.count = count ∧ state.stopped = false) ?_ ?_ ?_) fun manifest => ?_
    · intro s start
      obtain ⟨same, stream, pending, within, halted, sequence, room, counted, unstopped, -⟩ := start
      exact ⟨same, stream, pending, within, halted, sequence, room, counted, unstopped⟩
    · intro _ s start
      exact start
    · intro e s _ failed
      exact failed
    refine (require_composed exchange (by simp)).bind fun _ => ?_
    cases late : exchange.late with
    | some error =>
        apply holds_fail
        intro s start calm impossible
        subst impossible
        exact calm.late late
    | none =>
        refine holds_via (fun _ s => checkpoint = sent ∧ stopped = false ∧ checkpoint.sequence = count ∧
          count < bound ∧ Streams bound (count + 1) true false s) (holds_modify ?_) fun _ => ?_
        · intro s start
          obtain ⟨same, stream, pending, within, halted, sequence, room, counted, unstopped⟩ := start
          refine ⟨same, halted, sequence, room, { state with count := state.count + 1, awaiting := true },
            ?_, pending, within, ?_, rfl, unstopped⟩
          · rw [stream]
            rfl
          · show state.count + 1 = count + 1
            omega
        apply holds_pure
        intro s start
        obtain ⟨rfl, halted, sequence, room, streams⟩ := start
        exact ⟨⟨checkpoint, manifest, received, rfl⟩, halted, sequence, room, streams⟩
  · refine holds_via (fun _ _ => False) ?_ fun _ _ impossible => impossible.elim
    intro s start
    exact absurd start.2.2.2.2.2.2.2.2.2 one

/-- What the session hears is what the worker sent, and nothing but the response after a stop. -/
theorem streamFrame_heard :
    Holds (Streams bound count false stopped) (streamFrame exchange)
      (Heard exchange bound count stopped) (fun e _ => Composed exchange e) := by
  unfold streamFrame
  refine holds_via (fun _ => Streams bound count false stopped) (holds_answer (fun _ _ _ start => start) ?_)
    fun _ => ?_
  · intro e s failed start calm
    exact calm.sent e failed
  refine holds_via (fun frame s => exchange.received = .ok frame ∧ Streams bound count false stopped s)
    (holds_answer (fun _ _ same start => ⟨same, start⟩) ?_) fun frame => ?_
  · intro e s failed start calm
    exact calm.received e failed
  intro s start
  obtain ⟨received, streams⟩ := start
  cases frame with
  | response envelope =>
      cases envelope with
      | none =>
          exact composed_of_ne exchange (by simp)
      | some envelope =>
          rcases envelope with ⟨id, response⟩
          exact receiveResponse_heard exchange received s streams
  | event decoded =>
      cases decoded with
      | none =>
          exact composed_of_ne exchange (by simp)
      | some sent => exact receiveCheckpoint_heard exchange received s streams

/-- A decision is due, so it can be sent. -/
theorem decision_streams (action : StreamAction) (reason : Option String) :
    Holds (Streams bound count true false) (decision action reason)
      (fun _ => Streams bound count false (decide (action = .stop))) (fun e _ => Composed exchange e) := by
  unfold decision
  refine holds_via (fun session s => s = session ∧ Streams bound count true false s)
    (holds_get fun s start => ⟨rfl, start⟩) fun session => ?_
  refine holds_via (fun state s => s = session ∧ s.stream = some state ∧ s.pending.isSome = true ∧
    state.bound ≤ bound ∧ state.count = count) (holds_answer ?_ ?_) fun state => ?_
  · intro state s found start
    obtain ⟨rfl, known, stream, pending, within, counted, -⟩ := start
    rw [stream] at found
    cases found
    exact ⟨rfl, stream, pending, within, counted⟩
  · intro e s found start
    obtain ⟨rfl, known, stream, -⟩ := start
    rw [stream] at found
    cases found
  refine (require_composed exchange (by simp)).bind fun _ => ?_
  refine (passes_answer ?_).bind fun id => ?_
  · intro e s found start
    obtain ⟨rfl, -, pending, -⟩ := start
    obtain ⟨known, is⟩ := Option.isSome_iff_exists.mp pending
    rw [is] at found
    cases found
  refine holds_via (fun _ => Streams bound count false (decide (action = .stop))) (holds_modify ?_)
    fun _ => holds_pure fun _ start => start
  intro s start
  obtain ⟨-, -, pending, within, counted⟩ := start
  exact ⟨_, rfl, pending, within, counted, rfl, rfl⟩

theorem decideStream_heard (action : StreamAction) (reason : Option String) :
    Holds (Streams bound count true false) (decideStream action reason exchange)
      (Heard exchange bound count (decide (action = .stop))) (fun e _ => Composed exchange e) := by
  unfold decideStream
  refine holds_via (fun _ => Streams bound count false (decide (action = .stop)))
    (decision_streams exchange action reason) fun _ => ?_
  exact streamFrame_heard exchange

/-- The bound a session reads back from the profile is at most the bound of the policy. -/
theorem bound_le (profile : SelectedStreamingProfile) :
    (((profile.json.get "policy").get "max-observations").asUnsigned? 64).getD 0 ≤
      profile.policy.maxObservations := by
  have policy : profile.json.get "policy" = profile.policy.json := by
    simp [SelectedStreamingProfile.json]
  rw [policy, ProfilePolicy.json_maxObservations]
  simp only [Json.nat, Json.asUnsigned?]
  split
  · simp
  · exact Nat.zero_le _

theorem startStream_heard (profile : SelectedStreamingProfile) :
    Holds (fun _ => True) (startStream profile exchange)
      (Heard exchange profile.policy.maxObservations 0 false) (fun e _ => Composed exchange e) := by
  unfold startStream
  refine keeps_get.bind fun session => ?_
  refine (require_composed exchange (by simp)).bind fun _ => ?_
  refine (require_composed exchange (by simp)).bind fun _ => ?_
  refine holds_via (fun _ s => s.pending.isSome = true) ?_ fun _ => ?_
  · unfold beginRequest
    refine keeps_get.bind fun session => ?_
    refine (require_composed exchange (by simp)).bind fun _ => ?_
    refine holds_via (fun _ s => s.pending.isSome = true) (holds_modify fun _ _ => rfl) fun _ => ?_
    exact holds_pure fun _ start => start
  refine holds_via (fun _ => Streams profile.policy.maxObservations 0 false false) (holds_modify ?_)
    fun _ => streamFrame_heard exchange
  intro s pending
  exact ⟨_, rfl, pending, bound_le profile, rfl, rfl, rfl⟩

end Session

/-! ## The loop -/

/-- The state of the loop that the observations depend on. -/
structure Ledger where
  session : Session
  observations : List ProfileResult
  previousIndex : Option Nat
  previousWork : Work
  crossed : List UInt64

def Runner.ledger (runner : Runner) : Ledger where
  session := runner.session
  observations := runner.driver.observations
  previousIndex := runner.previousIndex
  previousWork := runner.previousWork
  crossed := runner.crossed

/-- The loop remembers of the published observations what the checks need. -/
structure Follows (run : StreamingRun) (ledger : Ledger) : Prop where
  trajectory : run.Trajectory ledger.observations
  index : ∀ before ∈ ledger.observations, ∀ last, before.profile = .streaming last →
    ∃ n ∈ ledger.previousIndex, last.checkIndex ≤ n
  work : ∀ before ∈ ledger.observations, ∀ last, before.profile = .streaming last →
    ∀ entry ∈ last.work, ∃ n ∈ ledger.previousWork.get entry.1, entry.2 ≤ n
  crossed : ∀ threshold ∈ run.profile.policy.thresholds,
    containsF64 ledger.crossed threshold = ledger.observations.any (Attains run.profile.policy threshold)

/-- A checkpoint is the next one to be observed. -/
structure Ready (run : StreamingRun) (checkpoint : StreamCheckpoint) (ledger : Ledger) : Prop where
  follows : Follows run ledger
  continues : ∀ before ∈ ledger.observations, Continues before
  sent : run.Sent ledger.observations.length (.checkpoint checkpoint)
  sequence : checkpoint.sequence = ledger.observations.length
  bounded : ledger.observations.length < run.profile.policy.maxObservations
  session : Streams run.profile.policy.maxObservations (ledger.observations.length + 1) true false
    ledger.session

/-- Where a message finds the loop. -/
def Arrived (run : StreamingRun) : StreamMessage → Ledger → Prop
  | .checkpoint checkpoint, ledger => Ready run checkpoint ledger
  | .finished _, ledger => run.Completed ledger.observations

/-- A failure that is no panic in a calm world. -/
def Untroubled (run : StreamingRun) (e : Failure) : Prop := run.Calm → e.panics = false

/-- How a run fails: what was published stays a trajectory. -/
def Broken (run : StreamingRun) (e : Failure) (runner : Runner) : Prop :=
  run.Trajectory runner.ledger.observations ∧ Untroubled run e

theorem untroubled_of {run : StreamingRun} {e : Failure} (other : e.panics = false) : Untroubled run e :=
  fun _ => other

theorem untroubled_session {run : StreamingRun} {exchange : Exchange} (member : exchange ∈ run.exchanges)
    {e : WorkerSessionError} (composed : Composed exchange e) : Untroubled run (.implementation e) := by
  intro calm
  have other := composed (calm.exchanges exchange member)
  cases e <;> first | rfl | exact absurd rfl other

namespace StreamingRun

variable (run : StreamingRun)

theorem phase_spares (phase : RunStore.AttemptPhase) :
    Spares Runner.ledger (Untroubled run) (run.event (.phase phase)) := by
  have inner : Spares Driver.observations (Untroubled run) (onEvent run.store run.slots (.phase phase)) := by
    show Spares Driver.observations _ (transition run.store phase.state)
    unfold transition
    refine spares_get.bind fun driver => ?_
    refine Spares.bind (spares_modify fun _ => rfl) fun _ => ?_
    refine (spares_answer fun e failed => ?_).bind fun _ => ?_
    · intro calm
      exact calm.advance _ _ e failed
    refine (spares_require (untroubled_of rfl)).bind fun _ => ?_
    exact spares_modify fun _ => rfl
  unfold event
  apply inner.within
  intro runner driver same
  unfold Runner.ledger
  rw [same]

theorem stopped_spares (reason : StopReason) :
    Spares Runner.ledger (Untroubled run) (run.event (.stopped reason)) := by
  have inner : Spares Driver.observations (Untroubled run) (onEvent run.store run.slots (.stopped reason)) :=
    spares_modify fun _ => rfl
  unfold event
  apply inner.within
  intro runner driver same
  unfold Runner.ledger
  rw [same]

theorem snapshot_spares {checkpoint : StreamCheckpoint} (manifest : checkpoint.manifest.isSome = true)
    (evaluation : Evaluation) :
    Spares Runner.ledger (Untroubled run) (run.snapshot checkpoint evaluation) := by
  unfold snapshot
  refine (spares_answer fun e failed => ?_).bind fun reference => ?_
  · obtain ⟨reference, is⟩ := Option.isSome_iff_exists.mp manifest
    rw [is] at failed
    cases failed
  refine (spares_answer fun e failed => untroubled_of ?_).bind fun prepared => ?_
  · rcases found : snapshotDirectory evaluation.inspect reference run.profile.policy.maxCheckpointBytes
      with message | directory
    · rw [found] at failed
      cases failed
      rfl
    · rw [found] at failed
      cases failed
  rcases prepared with ⟨directory, name⟩
  refine spares_get.bind fun runner => ?_
  refine (spares_require (untroubled_of rfl)).bind fun _ => ?_
  exact spares_modify fun _ => rfl

theorem evaluate_spares {evaluation : Evaluation} (calm : run.Calm → evaluation.Calm) :
    Spares Runner.ledger (Untroubled run) (run.evaluate evaluation) := by
  have launch : Spares Runner.ledger (Untroubled run) (launchEvaluator evaluation) := by
    unfold launchEvaluator
    refine spares_get.bind fun runner => ?_
    split
    · exact spares_pure ()
    · refine (spares_answer fun e failed => ?_).bind fun _ => spares_modify fun _ => rfl
      exact fun still => (calm still).launched e failed
  unfold evaluate
  refine launch.bind fun _ => ?_
  refine (spares_answer fun e failed => ?_).bind fun _ => ?_
  · exact fun still => (calm still).bound e failed
  refine (run.phase_spares _).bind fun _ => ?_
  refine (spares_answer fun e failed => ?_).bind fun valid => ?_
  · exact fun still => (calm still).evaluated e failed
  refine (spares_answer fun e failed => ?_).bind fun _ => ?_
  · exact fun still => (calm still).unchanged e failed
  refine (spares_require (untroubled_of rfl)).bind fun _ => ?_
  refine spares_answer fun e failed => ?_
  exact fun still => (calm still).metrics e failed

/-- The metric of the decision is the one the observation can be asked for. -/
theorem targetMetric_publishes {pre : Runner → Prop} (metrics : Json) :
    Holds pre (run.targetMetric metrics)
      (fun metric runner => metric = independentMetric run.profile.policy metrics ∧ pre runner)
      (fun e runner => pre runner ∧ Untroubled run e) := by
  unfold targetMetric independentMetric
  cases run.profile.policy.metric with
  | none => exact holds_pure fun _ start => ⟨rfl, start⟩
  | some name =>
      refine holds_via (fun value runner =>
        some value = ((metrics.get name).asF64?.filter F64.isFinite) ∧ pre runner)
        (holds_answer ?_ ?_) fun value => holds_pure fun _ start => start
      · intro value runner found start
        rcases is : (metrics.get name).asF64?.filter F64.isFinite with _ | known
        · rw [is] at found
          cases found
        · rw [is] at found
          cases found
          exact ⟨rfl, start⟩
      · intro e runner found start
        rcases is : (metrics.get name).asF64?.filter F64.isFinite with _ | known
        · rw [is] at found
          cases found
          exact ⟨start, untroubled_of rfl⟩
        · rw [is] at found
          cases found

/-- A streaming observation is published next to the others, or nothing is. -/
theorem observation_holds (ledger : Ledger) {result : ProfileResult}
    (bounded : ledger.observations.length < run.profile.policy.maxObservations) :
    Holds (fun runner => runner.ledger = ledger) (run.event (.observation result))
      (fun _ runner => runner.ledger = { ledger with observations := ledger.observations ++ [result] })
      (fun e runner => runner.ledger = ledger ∧ Untroubled run e) := by
  have inner : Holds (fun driver => driver.observations = ledger.observations)
      (onEvent run.store run.slots (.observation result))
      (fun _ driver => driver.observations = ledger.observations ++ [result])
      (fun e driver => driver.observations = ledger.observations ∧ Untroubled run e) := by
    refine holds_via (fun driver d => driver.observations = ledger.observations ∧
      d.observations = ledger.observations) (holds_get fun _ start => ⟨start, start⟩) fun driver => ?_
    refine holds_via (fun _ d => d.observations = ledger.observations) (holds_require ?_ ?_) fun _ => ?_
    · exact fun _ d start => start.2
    · intro full d start
      refine ⟨start.2, fun calm => absurd ?_ full⟩
      rw [start.1]
      exact Nat.lt_of_lt_of_le bounded calm.planned
    refine (passes_answer ?_).bind fun _ => ?_
    · exact fun e d failed start => ⟨start, fun calm => calm.publish _ e failed⟩
    refine holds_via (fun _ d => d.observations = ledger.observations) ?_ fun _ => ?_
    · unfold register
      cases result.profile with
      | streaming record => exact passes_require fun d start => ⟨start, untroubled_of rfl⟩
      | buffered record => exact holds_pure fun _ start => start
      | fresh record => exact holds_pure fun _ start => start
    apply holds_modify
    intro d start
    rw [start]
  unfold event
  refine inner.within ?_ ?_ ?_
  · intro runner start
    rw [← start]
    rfl
  · intro _ runner driver start published
    rw [← start]
    unfold Runner.ledger
    rw [published, ← start]
    rfl
  · intro e runner driver start failed
    refine ⟨?_, failed.2⟩
    rw [← start]
    unfold Runner.ledger
    rw [failed.1, ← start]
    rfl

/-! ## One checkpoint -/

variable {run} {checkpoint : StreamCheckpoint} {ledger : Ledger} {runner : Runner}

/-- Whether a threshold was crossed is what the observations say. -/
theorem crossings_eq (follows : Follows run ledger) (result : ProfileResult) :
    run.crossings ledger.crossed (independentMetric run.profile.policy result.metrics) =
      firstAttained run.profile.policy ledger.observations result := by
  apply List.filter_congr
  intro threshold member
  rw [follows.crossed threshold member]
  rfl

theorem crossed_extend (follows : Follows run ledger) (result : ProfileResult) {threshold : UInt64}
    (member : threshold ∈ run.profile.policy.thresholds) :
    containsF64 (ledger.crossed ++ firstAttained run.profile.policy ledger.observations result) threshold =
      (ledger.observations ++ [result]).any (Attains run.profile.policy threshold) := by
  rw [containsF64_append, List.any_append, follows.crossed threshold member]
  rcases before : ledger.observations.any (Attains run.profile.policy threshold) with _ | _
  · rw [Bool.false_or, Bool.false_or, List.any_cons, List.any_nil, Bool.or_false, Bool.eq_iff_iff]
    constructor
    · intro contained
      obtain ⟨other, found, same⟩ := List.any_eq_true.mp contained
      have attained := (List.mem_filter.mp found).2
      rw [Bool.and_eq_true] at attained
      have reached := attained.2
      unfold Attains at reached ⊢
      obtain ⟨value, is, reached⟩ := (Option.any_eq_true _ _).mp reached
      refine (Option.any_eq_true _ _).mpr ⟨value, is, ?_⟩
      rw [← reaches_congr run.profile.policy value same]
      exact reached
    · intro attained
      obtain ⟨value, is, reached⟩ := (Option.any_eq_true _ _).mp attained
      refine List.any_eq_true.mpr ⟨threshold, List.mem_filter.mpr ⟨member, ?_⟩, eq_self_of_reaches reached⟩
      rw [before, attained]
      rfl
  · rw [Bool.true_or, Bool.true_or]

/-- A checkpoint the loop accepts continues the trajectory. -/
theorem accepts_increases (follows : Follows run runner.ledger) (accepted : run.accepts runner checkpoint) :
    ∀ before ∈ runner.ledger.observations, ∀ last, before.profile = .streaming last →
      last.checkIndex < checkpoint.checkIndex := by
  intro before member last profile
  obtain ⟨n, is, above⟩ := follows.index before member last profile
  unfold accepts at accepted
  rw [not_or] at accepted
  by_contra behind
  apply accepted.1
  exact ⟨n, is, by omega⟩

theorem accepts_grows (follows : Follows run runner.ledger) (accepted : run.accepts runner checkpoint) :
    ∀ before ∈ runner.ledger.observations, ∀ last, before.profile = .streaming last →
      ∀ entry ∈ last.work, ∀ n ∈ checkpoint.work.get entry.1, entry.2 ≤ n := by
  intro before member last profile entry counted n found
  obtain ⟨known, is, above⟩ := follows.work before member last profile entry counted
  unfold accepts at accepted
  rw [not_or, not_or] at accepted
  by_contra behind
  apply accepted.2.2
  exact ⟨(entry.1, n), OrderedMap.get_eq_some.mp found, known, is, by
    show n < known
    omega⟩

theorem accepts_scheduled (accepted : run.accepts runner checkpoint) :
    checkpoint.terminal = true ∨ run.profile.checkSchedule.includes checkpoint.checkIndex = true := by
  unfold accepts at accepted
  rw [not_or, not_or] at accepted
  cases terminal : checkpoint.terminal with
  | true => exact .inl rfl
  | false =>
      right
      by_contra outside
      apply accepted.2.1
      exact ⟨terminal, by simpa using outside⟩

end StreamingRun

/-- The loop after a checkpoint was published. -/
def Ledger.publish (ledger : Ledger) (run : StreamingRun) (checkpoint : StreamCheckpoint)
    (result : ProfileResult) : Ledger where
  session := ledger.session
  observations := ledger.observations ++ [result]
  previousIndex := some checkpoint.checkIndex
  previousWork := ledger.previousWork.extend checkpoint.work
  crossed := ledger.crossed ++ firstAttained run.profile.policy ledger.observations result

section Checkpoint

variable {run : StreamingRun} {checkpoint : StreamCheckpoint} {ledger : Ledger}

theorem follows_publish (follows : Follows run ledger) {result : ProfileResult}
    {record : StreamingObservationRecord} (sent : run.Sent ledger.observations.length (.checkpoint checkpoint))
    (point : Point run ledger.observations checkpoint result record) :
    Follows run (ledger.publish run checkpoint result) where
  trajectory := follows.trajectory.extend sent point
  index := by
    intro before member last profile
    refine ⟨checkpoint.checkIndex, rfl, ?_⟩
    rcases List.mem_append.mp member with earlier | same
    · exact Nat.le_of_lt (point.increases before earlier last profile)
    · cases List.mem_singleton.mp same
      rw [point.profile] at profile
      cases profile
      exact Nat.le_of_eq point.coordinates.2.1
  work := by
    intro before member last profile entry counted
    show ∃ n ∈ (ledger.previousWork.extend checkpoint.work).get entry.1, entry.2 ≤ n
    rw [OrderedMap.get_extend]
    rcases List.mem_append.mp member with earlier | same
    · rcases found : checkpoint.work.get entry.1 with _ | n
      · exact follows.work before earlier last profile entry counted
      · exact ⟨n, rfl, point.grows before earlier last profile entry counted n found⟩
    · cases List.mem_singleton.mp same
      rw [point.profile] at profile
      cases profile
      rw [point.coordinates.2.2.1] at counted
      rw [OrderedMap.get_eq_some.mpr counted]
      exact ⟨entry.2, rfl, Nat.le_refl _⟩
  crossed := fun threshold member => StreamingRun.crossed_extend follows result member

/-- What `observe` leaves: one more point, after which the stream goes on when no reason is given. -/
def Observed (run : StreamingRun) (ledger : Ledger) (reason : Option StopReason) (runner : Runner) : Prop :=
  ∃ result, Follows run runner.ledger ∧ runner.ledger.session = ledger.session ∧
    runner.ledger.observations = ledger.observations ++ [result] ∧ (reason = none → Continues result)

theorem Ready.broken (ready : Ready run checkpoint ledger) {e : Failure} {runner : Runner}
    (same : runner.ledger.observations = ledger.observations) (untroubled : Untroubled run e) :
    Broken run e runner := by
  refine ⟨?_, untroubled⟩
  rw [same]
  exact ready.follows.trajectory

theorem Ready.manifest (ready : Ready run checkpoint ledger) : checkpoint.manifest.isSome = true := by
  obtain ⟨exchange, -, sent, manifest, -, rfl⟩ := ready.sent
  rfl

namespace StreamingRun

/-- A checkpoint is published as the next point, whatever the evaluation answers. -/
theorem observe_publishes {limit : Nat} (limited : run.limit = .ok limit) {evaluation : Evaluation}
    (calm : run.Calm → evaluation.Calm) (ready : Ready run checkpoint ledger) :
    Holds (fun runner => runner.ledger = ledger) (run.observe limit checkpoint evaluation)
      (Observed run ledger) (Broken run) := by
  unfold observe
  refine holds_via (fun runner r => runner.ledger = ledger ∧ r = runner)
    (holds_get fun _ start => ⟨start, rfl⟩) fun runner => ?_
  refine holds_via (fun _ r => runner.ledger = ledger ∧ run.accepts runner checkpoint ∧ r = runner)
    (holds_require ?_ ?_) fun _ => ?_
  · exact fun accepted r start => ⟨start.1, accepted, start.2⟩
  · intro _ r start
    obtain ⟨same, rfl⟩ := start
    exact ready.broken (by rw [same]) (untroubled_of rfl)
  by_cases accepted : runner.ledger = ledger ∧ run.accepts runner checkpoint
  swap
  · intro r start
    exact absurd ⟨start.1, start.2.1⟩ accepted
  obtain ⟨rfl, accepted⟩ := accepted
  have follows := ready.follows
  -- the ledger is fixed from here to the publication
  obtain ⟨kept, keeps⟩ : ∃ kept : Ledger, kept = { runner.ledger with
      previousIndex := some checkpoint.checkIndex
      previousWork := runner.ledger.previousWork.extend checkpoint.work } := ⟨_, rfl⟩
  have broken : ∀ (e : Failure) (r : Runner), r.ledger = kept → Untroubled run e → Broken run e r := by
    intro e r same untroubled
    apply ready.broken _ untroubled
    rw [same, keeps]
  refine holds_via (fun _ r => r.ledger = kept) (holds_modify ?_) fun _ => ?_
  · intro r start
    obtain ⟨-, -, rfl⟩ := start
    rw [keeps]
    rfl
  have quiet : ∀ {α : Type} {step : RunnerStep α}, Spares Runner.ledger (Untroubled run) step →
      Holds (fun r => r.ledger = kept) step (fun _ r => r.ledger = kept) (Broken run) :=
    fun spares => spares.holds (· = kept) (fun _ start => start) (fun _ _ same => same) broken
  refine (quiet (run.phase_spares _)).bind fun _ => ?_
  refine (quiet (run.snapshot_spares ready.manifest evaluation)).bind fun _ => ?_
  refine (quiet (spares_answer fun e failed still => (calm still).frozen e failed)).bind fun _ => ?_
  refine (quiet (run.phase_spares _)).bind fun _ => ?_
  refine (quiet (spares_answer fun e failed still => (calm still).result e failed)).bind fun _ => ?_
  refine (quiet (run.evaluate_spares calm)).bind fun metrics => ?_
  refine holds_via (fun metric r => metric = independentMetric run.profile.policy metrics ∧ r.ledger = kept)
    ((run.targetMetric_publishes metrics).weaken (fun _ start => start) (fun _ _ found => found)
      fun e r failed => broken e r failed.1 failed.2) fun metric => ?_
  by_cases independent : metric = independentMetric run.profile.policy metrics
  swap
  · intro r start
    exact absurd start.1 independent
  subst independent
  refine holds_via (fun r' r => r.ledger = kept ∧ r'.crossed = kept.crossed) (holds_get ?_) fun r' => ?_
  · intro r start
    refine ⟨start.2, ?_⟩
    rw [← start.2]
    rfl
  by_cases memory : r'.crossed = kept.crossed
  swap
  · intro r start
    exact absurd start.2 memory
  obtain ⟨crossings, crosses⟩ : ∃ crossings, crossings =
      run.crossings r'.crossed (independentMetric run.profile.policy metrics) := ⟨_, rfl⟩
  rw [← crosses]
  refine holds_via (fun _ r => r.ledger = { kept with crossed := kept.crossed ++ crossings })
    (holds_modify ?_) fun _ => ?_
  · intro r start
    rw [← start.1]
    rfl
  have stays : ∀ {α : Type} {step : RunnerStep α}, Spares Runner.ledger (Untroubled run) step →
      Holds (fun r => r.ledger = { kept with crossed := kept.crossed ++ crossings }) step
        (fun _ r => r.ledger = { kept with crossed := kept.crossed ++ crossings }) (Broken run) := by
    intro α step spares
    refine spares.holds (· = { kept with crossed := kept.crossed ++ crossings }) (fun _ start => start)
      (fun _ _ same => same) fun e r same untroubled => ?_
    apply ready.broken _ untroubled
    rw [same, keeps]
  refine (stays (spares_answer fun e failed still => (calm still).times e failed)).bind fun times => ?_
  rcases times with ⟨elapsed, evaluationTime⟩
  refine (stays (spares_answer fun e failed still => (calm still).written e failed)).bind fun _ => ?_
  refine holds_via (fun _ r => ∃ result record, r.ledger = runner.ledger.publish run checkpoint result ∧
      Point run runner.ledger.observations checkpoint result record ∧ record.stopReason =
        run.reason (independentMetric run.profile.policy metrics) checkpoint evaluation.used limit)
    ((run.observation_holds _ ?_).weaken (fun _ start => start) ?_ ?_) fun _ => ?_
  · rw [keeps]
    exact ready.bounded
  · intro _ r published
    have known : ∀ completion profile, crossings = firstAttained run.profile.policy
        runner.ledger.observations { metrics, completion, profile } := by
      intro completion profile
      rw [crosses, memory, keeps]
      exact crossings_eq follows { metrics, completion, profile }
    obtain ⟨reason, reasons⟩ : ∃ reason, reason =
        run.reason (independentMetric run.profile.policy metrics) checkpoint evaluation.used limit := ⟨_, rfl⟩
    rw [← reasons] at published ⊢
    refine ⟨{
      metrics
      completion := run.completion (independentMetric run.profile.policy metrics)
      profile := .streaming _ }, {
      checkpointSequence := checkpoint.sequence
      checkIndex := checkpoint.checkIndex
      work := checkpoint.work.entries
      terminal := checkpoint.terminal
      thresholds := crossings
      activeTimeNs := evaluation.used
      elapsedWallTimeNs := elapsed
      evaluationTimeNs := evaluationTime
      decision := if reason.isSome then "stop" else "continue"
      stopReason := reason }, published.trans ?_, ⟨rfl, ready.sequence, ready.bounded,
        accepts_scheduled accepted, accepts_increases follows accepted, accepts_grows follows accepted,
        ready.continues, ⟨rfl, rfl, rfl, rfl⟩, known _ _, ⟨limit, limited, reasons⟩, rfl, rfl⟩, rfl⟩
    rw [keeps]
    unfold Ledger.publish
    rw [← known]
  · intro e r failed
    refine ready.broken ?_ failed.2
    rw [failed.1, keeps]
  apply holds_pure
  intro r published
  obtain ⟨result, record, same, point, stop⟩ := published
  refine ⟨result, ?_, ?_, ?_, ?_⟩
  · rw [same]
    exact follows_publish follows ready.sent point
  · rw [same]
    rfl
  · rw [same]
    rfl
  · intro none other profile
    rw [point.profile] at profile
    cases profile
    rw [stop, none]

end StreamingRun

end Checkpoint

/-! ## A whole run -/

namespace StreamingRun

variable (run : StreamingRun)

theorem arrived_trajectory {run : StreamingRun} {message : StreamMessage} {ledger : Ledger}
    (arrived : Arrived run message ledger) : run.Trajectory ledger.observations := by
  cases message with
  | checkpoint checkpoint => exact arrived.follows.trajectory
  | finished count => exact arrived.1

/-- What is heard of a session that has published everything finds the loop. -/
theorem arrived_of_heard {run : StreamingRun} {exchange : Exchange} {ledger : Ledger} {stopped : Bool}
    (follows : Follows run ledger) (next : run.exchanges[ledger.observations.length]? = some exchange)
    (continues : stopped = false → ∀ before ∈ ledger.observations, Continues before) {message : StreamMessage}
    {session : Session} (heard : Heard exchange run.profile.policy.maxObservations
      ledger.observations.length stopped message session) :
    Arrived run message { ledger with session } := by
  cases message with
  | checkpoint checkpoint =>
      obtain ⟨brings, unstopped, sequence, bounded, streams⟩ := heard
      exact ⟨⟨follows.trajectory, follows.index, follows.work, follows.crossed⟩, continues unstopped,
        ⟨exchange, next, brings⟩, sequence, bounded, streams⟩
  | finished count =>
      obtain ⟨brings, rfl⟩ := heard
      exact ⟨follows.trajectory, exchange, next, brings⟩

/-- A step of the session between two observations. -/
theorem listen_holds {exchange : Exchange} {ledger : Ledger} {stopped : Bool} {inner : Session → Prop}
    {step : SessionStep StreamMessage} (follows : Follows run ledger)
    (next : run.exchanges[ledger.observations.length]? = some exchange)
    (continues : stopped = false → ∀ before ∈ ledger.observations, Continues before)
    (enter : inner ledger.session)
    (hears : Holds inner step (Heard exchange run.profile.policy.maxObservations
      ledger.observations.length stopped) (fun e _ => Composed exchange e)) :
    Holds (fun runner => runner.ledger = ledger) (onSession step)
      (fun message runner => Arrived run message runner.ledger ∧
        runner.ledger.observations = ledger.observations) (Broken run) := by
  refine onSession_holds hears ?_ ?_ ?_
  · intro runner start
    rw [← start] at enter
    exact enter
  · intro message runner session start heard
    have moved : Runner.ledger { runner with session } = { ledger with session } := by
      rw [← start]
      rfl
    rw [moved]
    exact ⟨arrived_of_heard follows next continues heard, rfl⟩
  · intro e runner session start composed
    refine ⟨?_, untroubled_session (List.mem_of_getElem? next) composed⟩
    show run.Trajectory runner.ledger.observations
    rw [start]
    exact follows.trajectory

/-- The decision about a point brings the next message. -/
theorem proceed_publishes {turn : Turn} {ledger : Ledger} {reason : Option StopReason} (follows : Follows run ledger)
    (next : run.exchanges[ledger.observations.length]? = some turn.exchange)
    (calm : run.Calm → turn.evaluation.Calm)
    (continues : reason = none → ∀ before ∈ ledger.observations, Continues before)
    (streams : Streams run.profile.policy.maxObservations ledger.observations.length true false ledger.session) :
    Holds (fun runner => runner.ledger = ledger) (run.proceed reason turn)
      (fun message runner => Arrived run message runner.ledger ∧
        runner.ledger.observations = ledger.observations) (Broken run) := by
  unfold proceed
  cases reason with
  | some stop =>
      refine holds_via (fun _ runner => runner.ledger = ledger) (holds_modify fun _ start => start) fun _ => ?_
      apply run.listen_holds follows next (fun impossible => ?_) streams
        (decideStream_heard turn.exchange .stop (some stop.name))
      simp at impossible
  | none =>
      have broken : ∀ (e : Failure) (runner : Runner), runner.ledger = ledger → Untroubled run e →
          Broken run e runner := by
        intro e runner start untroubled
        refine ⟨?_, untroubled⟩
        rw [start]
        exact follows.trajectory
      refine holds_via (fun _ runner => runner.ledger = ledger)
        ((run.phase_spares _).holds (· = ledger) (fun _ start => start) (fun _ _ same => same) broken) fun _ => ?_
      refine (passes_answer fun e runner failed start => broken e runner start fun still =>
        (calm still).deadline e failed).bind fun _ => ?_
      exact run.listen_holds follows next (fun _ => continues rfl) streams
        (decideStream_heard turn.exchange .continues none)

/-- Every message is met by a turn until the worker finishes. -/
theorem loop_publishes {limit : Nat} (limited : run.limit = .ok limit) (turns : List Turn) :
    ∀ (taken : List Turn) (message : StreamMessage), run.turns = taken ++ turns →
      Holds (fun runner => Arrived run message runner.ledger ∧
          runner.ledger.observations.length = taken.length)
        (run.loop limit message turns) (fun _ runner => run.Completed runner.ledger.observations)
        (Broken run) := by
  induction turns with
  | nil =>
      intro taken message split
      cases message with
      | checkpoint checkpoint =>
          apply holds_fail
          intro runner start
          exact ⟨arrived_trajectory start.1, untroubled_of rfl⟩
      | finished count => exact holds_pure fun _ start => start.1
  | cons turn turns ih =>
      intro taken message split
      cases message with
      | finished count => exact holds_pure fun _ start => start.1
      | checkpoint checkpoint =>
          intro runner start
          obtain ⟨arrived, position⟩ := start
          have member : turn ∈ run.turns := by
            rw [split]
            simp
          have next : run.exchanges[taken.length + 1]? = some turn.exchange := by
            unfold exchanges
            rw [List.getElem?_cons_succ, List.getElem?_map, split, List.getElem?_append_right (Nat.le_refl _)]
            simp
          have rest : Holds (fun r => r.ledger = runner.ledger)
              (run.loop limit (.checkpoint checkpoint) (turn :: turns))
              (fun _ r => run.Completed r.ledger.observations) (Broken run) := by
            refine holds_via (Observed run runner.ledger)
              (run.observe_publishes limited (fun calm => calm.evaluations turn member) arrived) fun reason => ?_
            refine holds_via (fun message r => Arrived run message r.ledger ∧
              r.ledger.observations.length = (taken ++ [turn]).length) ?_ fun message =>
                ih (taken ++ [turn]) message (by rw [split, List.append_assoc]; rfl)
            intro observed seen
            obtain ⟨result, follows, session, observations, continues⟩ := seen
            have count : observed.ledger.observations.length = taken.length + 1 := by
              rw [observations, List.length_append, position]
              rfl
            refine ((run.proceed_publishes follows ?_ (fun calm => calm.evaluations turn member) ?_ ?_).weaken
              (fun _ start => start) ?_ fun _ _ failed => failed) observed rfl
            · rw [count]
              exact next
            · intro none before earlier
              rw [observations] at earlier
              rcases List.mem_append.mp earlier with old | new
              · exact arrived.continues before old
              · cases List.mem_singleton.mp new
                exact continues none
            · rw [session, count, ← position]
              exact arrived.session
            · intro message r found
              refine ⟨found.1, ?_⟩
              rw [found.2, count, List.length_append]
              rfl
          exact rest runner rfl

/-- Nothing is published before the loop. -/
theorem stream_publishes {limit : Nat} (limited : run.limit = .ok limit) {session : Session} :
    Holds (fun runner => runner.ledger = ⟨session, [], none, ∅, []⟩) (run.stream limit)
      (fun _ runner => run.Completed runner.ledger.observations) (Broken run) := by
  have follows : ∀ session, Follows run ⟨session, [], none, ∅, []⟩ := by
    intro session
    refine ⟨trajectory_nil, ?_, ?_, fun _ _ => rfl⟩
    · intro before member
      cases member
    · intro before member
      cases member
  have broken : ∀ (e : Failure) (runner : Runner), runner.ledger = ⟨session, [], none, ∅, []⟩ →
      Untroubled run e → Broken run e runner := by
    intro e runner start untroubled
    refine ⟨?_, untroubled⟩
    rw [start]
    exact trajectory_nil
  have quiet : ∀ {α : Type} {step : RunnerStep α}, Spares Runner.ledger (Untroubled run) step →
      Holds (fun r => r.ledger = ⟨session, [], none, ∅, []⟩) step
        (fun _ r => r.ledger = ⟨session, [], none, ∅, []⟩) (Broken run) :=
    fun spares => spares.holds (· = ⟨session, [], none, ∅, []⟩) (fun _ start => start) (fun _ _ same => same) broken
  unfold stream
  refine (quiet (spares_answer fun e failed still => still.started e failed)).bind fun _ => ?_
  refine (quiet (run.phase_spares _)).bind fun _ => ?_
  refine (quiet (spares_answer fun e failed still => still.prepared e failed)).bind fun _ => ?_
  refine (quiet (run.phase_spares _)).bind fun _ => ?_
  refine (quiet (spares_answer fun e failed still => still.deadline e failed)).bind fun _ => ?_
  refine holds_via (fun message runner => Arrived run message runner.ledger ∧
    runner.ledger.observations = []) ?_ fun message => ?_
  · refine run.listen_holds (follows session) rfl (fun _ before member => ?_) trivial
      (startStream_heard run.first run.profile)
    cases member
  refine holds_via (fun _ runner => run.Completed runner.ledger.observations) ?_ fun _ => ?_
  · refine (run.loop_publishes limited run.turns [] message rfl).weaken ?_ (fun _ _ done => done)
      fun _ _ failed => failed
    intro runner start
    exact ⟨start.1, by rw [start.2]; rfl⟩
  refine keeps_get.bind fun runner => ?_
  exact (run.stopped_spares _).holds (fun ledger => run.Completed ledger.observations) (fun _ done => done)
    (fun _ _ done => done) fun e r done untroubled => ⟨done.1, untroubled⟩

/-- Whatever the implementation sends and the world answers, a run publishes a trajectory within the
bound; it succeeds only when the worker declared the count of the published observations in place of
a further checkpoint; and in a calm world no message makes it panic. -/
theorem runStreaming_publishes (session : Session) (driver : Driver) :
    let (runner, outcome) := run.runStreaming { session, driver := { driver with observations := [] } }
    run.Trajectory runner.driver.observations ∧
      runner.driver.observations.length ≤ run.profile.policy.maxObservations ∧
      (outcome = .ok () → run.Completed runner.driver.observations) ∧
      (run.Calm → ∀ e, outcome = .error e → e.panics = false) := by
  have holds : Holds (fun runner => runner.ledger = ⟨session, [], none, ∅, []⟩) run.runStreaming
      (fun _ runner => run.Completed runner.ledger.observations) (Broken run) := by
    unfold runStreaming
    refine holds_via (fun limit runner => run.limit = .ok limit ∧
      runner.ledger = ⟨session, [], none, ∅, []⟩) (holds_answer (fun _ _ is start => ⟨is, start⟩) ?_)
      fun limit => ?_
    · intro e runner failed start
      refine ⟨?_, fun still => still.limit e failed⟩
      rw [start]
      exact trajectory_nil
    by_cases limited : run.limit = .ok limit
    swap
    · intro runner start
      exact absurd start.1 limited
    refine holds_via (fun result runner => run.Trajectory runner.ledger.observations ∧
      (result = .ok () → run.Completed runner.ledger.observations) ∧
      ∀ e, result = .error e → Untroubled run e) ?_ fun result => ?_
    · refine ((run.stream_publishes limited).weaken (fun _ start => start.2) (fun _ _ done => done)
        fun _ _ failed => failed).capture ?_ ?_
      · intro _ runner done
        refine ⟨done.1, fun _ => done, ?_⟩
        intro e impossible
        cases impossible
      · intro e runner failed
        refine ⟨failed.1, ?_, ?_⟩
        · intro impossible
          cases impossible
        · intro e' same
          cases same
          exact failed.2
    refine (passes_answer fun e runner failed start => ⟨start.1, fun still => still.verified e failed⟩).bind
      fun _ => ?_
    refine holds_via (fun _ runner => run.Completed runner.ledger.observations) (holds_answer ?_ ?_) fun _ => ?_
    · exact fun _ runner done start => start.2.1 done
    · exact fun e runner failed start => ⟨start.1, start.2.2 e failed⟩
    exact passes_answer fun e runner failed done => ⟨done.1, fun still => still.shutdown e failed⟩
  have outcome := holds { session, driver := { driver with observations := [] } } rfl
  rcases ran : run.runStreaming { session, driver := { driver with observations := [] } }
    with ⟨runner, result⟩
  rw [ran] at outcome
  cases result with
  | ok _ =>
      refine ⟨outcome.1, outcome.1.length_le, fun _ => outcome, ?_⟩
      intro _ e impossible
      cases impossible
  | error e =>
      refine ⟨outcome.1, outcome.1.length_le, ?_, ?_⟩
      · intro impossible
        cases impossible
      · intro calm e' same
        cases same
        exact outcome.2 calm

end StreamingRun

end Metewand.Execution
