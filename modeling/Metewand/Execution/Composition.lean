import Metewand.Core.Policies
import Metewand.Core.Text
import Metewand.Execution.Context
import Metewand.Execution.Published
import Metewand.Lib.Uri

/-!
# A stream and its context

The context of the worker, the session and the runner keep their own counts, bounds and schedules.
Connected by a transport that loses nothing, in a world where every evaluation is valid and no time
runs out, they agree: every checkpoint the context sends is accepted and decided, and the run ends
with the worker's count.

The native code is any list of calls, whose answers it may ignore.
-/

namespace Metewand.Execution

open Lib Lib.Check Effect Buffered

/-! ## The transport -/

/-- An exchange in which a frame arrives in time. -/
def carries (files : Inspection) (frame : Frame) : Exchange where
  sent := .ok ()
  received := .ok frame
  verified := .ok ()
  inspect := files
  finalized := .ok ()
  late := none

def actionOf (reason : Option StopReason) : StreamAction := if reason.isSome then .stop else .continues

/-- The decision that the session sends. -/
def sends (reason : Option StopReason) (session : Session) : Option StreamDecision :=
  (decision (actionOf reason) (reason.map StopReason.name) session).2.toOption

/-- The turns of a run whose decisions reach the worker and whose worker's frames reach the session. -/
def StreamingRun.turnsOf (run : StreamingRun) (files : Inspection) (limit : Nat) :
    List Evaluation → StreamMessage → Peer → Runner → List Turn × Peer
  | evaluation :: evaluations, .checkpoint checkpoint, peer, runner =>
      match run.observe limit checkpoint evaluation runner with
      | (runner, .ok reason) =>
          match (sends reason runner.session).bind (peer.hear files) with
          | some (frame, peer) =>
              let turn := ⟨evaluation, carries files frame⟩
              match run.proceed reason turn runner with
              | (runner, .ok message) =>
                  let (turns, peer) := run.turnsOf files limit evaluations message peer runner
                  (turn :: turns, peer)
              | (_, .error _) => ([turn], peer)
          | none => ([], peer)
      | (_, .error _) => ([], peer)
  | _, _, peer, _ => ([], peer)

/-- `stream` up to the first message. -/
def StreamingRun.opening (run : StreamingRun) : RunnerStep StreamMessage := do
  answer run.started
  run.event (.phase .preparing)
  answer run.prepared
  run.event (.phase .executing)
  answer run.deadline
  onSession (startStream run.profile run.first)

/-- A run connected to a worker, and what becomes of the worker. -/
def StreamingRun.connect (run : StreamingRun) (files : Inspection) (limit : Nat)
    (evaluations : List Evaluation) (start : Frame × Peer) (runner : Runner) : StreamingRun × Peer :=
  let run := { run with first := carries files start.1 }
  match run.opening runner with
  | (runner, .ok message) =>
      let (turns, peer) := run.turnsOf files limit evaluations message start.2 runner
      ({ run with turns }, peer)
  | (_, .error _) => (run, start.2)

/-! ## Worlds without trouble -/

structure Evaluation.Valid (evaluation : Evaluation) (policy : ProfilePolicy) (files : Inspection) : Prop where
  inspect : evaluation.inspect = files
  frozen : evaluation.frozen = .ok ()
  result : evaluation.result = .ok ()
  launched : evaluation.launched = .ok ()
  bound : evaluation.bound = .ok ()
  evaluated : evaluation.evaluated = .ok true
  unchanged : evaluation.unchanged = .ok ()
  /-- The metrics hold the target metric, where the policy names one. -/
  metrics : ∃ metrics, evaluation.metrics = .ok metrics ∧
    (policy.metric.isSome = true → (independentMetric policy metrics).isSome = true)
  times : ∃ times, evaluation.times = .ok times
  written : evaluation.written = .ok ()
  deadline : evaluation.deadline = .ok ()

structure StreamingRun.Undisturbed (run : StreamingRun) : Prop where
  planned : run.profile.policy.maxObservations ≤ run.slots
  advance : ∀ states target, run.store.advance states target = .ok ()
  publish : ∀ ordinal, run.store.publishObservation ordinal = .ok ()
  started : run.started = .ok ()
  prepared : run.prepared = .ok ()
  deadline : run.deadline = .ok ()
  verified : run.verified = .ok ()
  shutdown : run.shutdown = .ok ()

/-- A session that can start a stream. -/
structure Session.Idle (session : Session) : Prop where
  role : session.role = .implementation
  capable : .streamingProfile ∈ session.selectedCapabilities
  pending : session.pending = none
  room : session.nextId + 1 < 2 ^ 64

/-- A later call does not count less work of any kind. -/
def Grows (earlier later : Call) : Prop :=
  ∀ key n m, earlier.progress.work.get key = some n → later.progress.work.get key = some m → n ≤ m

/-! ## Agreement -/

/-- The checkpoints a worker sent, with what their decisions were settled to. -/
def exchanged (log : List (Call × Answer)) : List (StreamCheckpoint × Except Buffered.Failure Decision) :=
  log.filterMap fun entry =>
    match entry.2 with
    | .decided checkpoint answer => some (checkpoint, answer)
    | _ => none

/-- What the worker is told for the reason of an observation. -/
def decisionOf : Option StopReason → Decision
  | none => .continues
  | some reason => .stop reason

/-- An observation was published for the checkpoint, and its decision is what the call returned. -/
def Matches (sent : StreamCheckpoint × Except Buffered.Failure Decision) (result : ProfileResult) : Prop :=
  ∃ record, result.profile = .streaming record ∧ record.checkpointSequence = sent.1.sequence ∧
    record.checkIndex = sent.1.checkIndex ∧ record.work = sent.1.work.entries ∧
    record.terminal = sent.1.terminal ∧ sent.2 = .ok (decisionOf record.stopReason) ∧
    (sent.1.terminal = true → record.stopReason.isSome = true)

/-- What a context may refuse a call for: the count is no reason. -/
def Refused (profile : SelectedStreamingProfile) (files : Inspection) (call : Call)
    (failure : Buffered.Failure) : Prop :=
  failure = .operationFailed "checkpoint after stop" ∨
    failure = .operationFailed "checkpoint progress must increase and use safe integers" ∨
    ∃ context : StreamingContext, context.profile = profile ∧ context.snapshot files call = .error failure

/-- The reason of the last observation. -/
def lastReason (observations : List ProfileResult) : Option StopReason :=
  observations.getLast?.bind fun result =>
    match result.profile with
    | .streaming record => record.stopReason
    | _ => none

/-- The context and the runner hold the same, and every exchange was settled. -/
structure Agreement (files : Inspection) (peer : Peer) (ledger : Ledger) : Prop where
  count : peer.context.count = ledger.observations.length
  last : peer.context.last = ledger.previousIndex
  stopped : peer.context.stopped = lastReason ledger.observations
  exchanges : List.Forall₂ Matches (exchanged peer.log) ledger.observations
  refused : ∀ call failure, (call, Answer.refused failure) ∈ peer.log →
    Refused peer.context.profile files call failure

/-! ## The session -/

section Session

variable {session : Session} {state : StreamState} {id : RequestId} {files : Inspection}

theorem decision_sends (stream : session.stream = some state) (pending : session.pending = some id)
    (awaiting : state.awaiting = true) (unstopped : state.stopped = false) (action : StreamAction)
    (reason : Option String) :
    decision action reason session =
      ({ session with stream := some { state with awaiting := false, stopped := decide (action = .stop) } },
        .ok { id, sequence := state.count - 1, action, reason }) := by
  simp [decision, bind_apply, Effect.get, answer, require_apply, Effect.modify, pure_apply, expect, stream,
    pending, awaiting, unstopped]

theorem streamFrame_response (stream : session.stream = some state) (pending : session.pending = some id) :
    streamFrame (carries files (.response (some (id, .success state.count)))) session =
      ({ session with pending := none, stream := none }, .ok (.finished state.count)) := by
  simp [streamFrame, receiveResponse, carries, bind_apply, Effect.get, answer, require_apply, Effect.modify,
    pure_apply, expect, streamState, stream, pending]

theorem streamFrame_event {checkpoint : StreamCheckpoint} (stream : session.stream = some state)
    (pending : session.pending = some id) (unstopped : state.stopped = false) (named : checkpoint.id = id)
    (sequence : checkpoint.sequence = state.count) (room : state.count < state.bound)
    (safe : ∀ entry ∈ checkpoint.work.entries, entry.2 ≤ maxSafeInteger) {reference : String}
    (manifest : checkpoint.manifest = some reference) (draft : checkpoint.draft = none)
    (valid : (validateRelativePath reference).isSome = true) :
    streamFrame (carries files (.event (some checkpoint))) session =
      ({ session with stream := some { state with count := state.count + 1, awaiting := true } },
        .ok (.checkpoint checkpoint)) := by
  have bounded : (checkpoint.work.entries.any fun entry => maxSafeInteger < entry.2) = false := by
    apply List.any_eq_false.mpr
    intro entry member
    have := safe entry member
    simp only [decide_eq_true_eq]
    omega
  have same : { checkpoint with manifest := some reference, draft := none } = checkpoint := by
    rw [← manifest, ← draft]
  simp [streamFrame, receiveCheckpoint, finalizeDraft, carries, bind_apply, Effect.get, answer, require_apply,
    Effect.modify, pure_apply, expect, streamState, stream, pending, unstopped, named, sequence, room, bounded,
    manifest, draft, valid]
  rw [← named, ← sequence]
  exact same

end Session

/-! ## The context -/

namespace StreamingContext

variable {context : StreamingContext} {files : Inspection} {call : Call} {checkpoint : StreamCheckpoint}

/-- The components of a reference below the directory of the count. -/
theorem reference_parts {path : Components} (plain : ∀ part ∈ path, '/' ∉ part) :
    (referenceText (context.relative ++ path)).toList.splitOn '/' = context.relative ++ path := by
  unfold referenceText
  rw [String.toList_ofList]
  apply List.splitOn_intercalate
  · intro part member
    rcases List.mem_append.mp member with own | given
    · rcases List.mem_cons.mp own with rfl | counted
      · decide
      · cases List.mem_singleton.mp counted
        exact JsonLibrary.not_mem_digits (by decide)
    · exact plain part given
  · simp [relative]

theorem validate_parts {value : String} {path : Components} (valid : validateRelativePath value = some path) :
    path = value.toList.splitOn '/' := by
  unfold validateRelativePath at valid
  simp only at valid
  split at valid
  · cases valid
  · cases valid
    rfl

/-- A snapshot lies in a directory below the count of its checkpoint. -/
theorem snapshot_directory {reference : String} (taken : context.snapshot files call = .ok reference) :
    ∃ directory name, snapshotDirectory files reference context.profile.policy.maxCheckpointBytes =
        .ok (directory, name) ∧ directory[1]? = some (toString context.count).toList ∧
      (validateRelativePath reference).isSome = true := by
  simp only [snapshot, ok_bind, ok_expect] at taken
  obtain ⟨manifest, -, path, valid, found, inspected, same⟩ := taken
  cases same
  rcases found with ⟨directory, name⟩
  rw [ok_mapError] at inspected
  refine ⟨directory, name, inspected, ?_⟩
  simp only [snapshotDirectory, ok_bind, ok_expect, ok_reject] at inspected
  obtain ⟨parts, parsed, -, -, -, -, last, -, same⟩ := inspected
  have split : parts = context.relative ++ path := by
    rw [validate_parts parsed]
    apply reference_parts
    intro part member
    rw [validate_parts valid] at member
    exact Uri.not_slash_mem_splitOn member
  have nonempty : path ≠ [] := by
    rw [validate_parts valid]
    exact List.splitOn_ne_nil _ _
  cases same
  refine ⟨?_, by rw [parsed]; rfl⟩
  rw [split, List.dropLast_append_of_ne_nil nonempty]
  rfl

/-- What holds of a checkpoint that is sent. -/
structure Captured (context : StreamingContext) (files : Inspection) (call : Call)
    (checkpoint : StreamCheckpoint) : Prop where
  unstopped : context.stopped = none
  safe : ∀ entry ∈ call.progress.work.entries, entry.2 ≤ maxSafeInteger
  increases : ∀ last ∈ context.last, last < call.progress.checkIndex
  scheduled : call.terminal = true ∨ context.profile.checkSchedule.includes call.progress.checkIndex = true
  room : context.count < context.profile.policy.maxObservations
  sent : ∃ reference, context.snapshot files call = .ok reference ∧ checkpoint = {
    id := context.id
    sequence := context.count
    checkIndex := call.progress.checkIndex
    work := call.progress.work
    terminal := call.terminal
    manifest := some reference
    draft := none }

theorem request_sends (sends : context.request files call = .ok (some checkpoint)) :
    Captured context files call checkpoint := by
  unfold request at sends
  split at sends
  · cases sends
  unfold capture at sends
  simp only [ok_bind, ok_reject] at sends
  obtain ⟨-, unstopped, -, admitted, sends⟩ := sends
  split at sends
  · cases sends
  · rename_i due
    simp only [ok_bind, ok_reject] at sends
    obtain ⟨-, room, reference, taken, same⟩ := sends
    cases same
    rw [not_or, not_or] at admitted
    obtain ⟨-, safe, increases⟩ := admitted
    refine ⟨?_, ?_, ?_, ?_, by omega, reference, taken, rfl⟩
    · cases stopped : context.stopped with
      | none => rfl
      | some reason => simp [stopped] at unstopped
    · intro entry member
      by_contra large
      apply safe
      exact List.any_eq_true.mpr ⟨entry, member, by simpa using large⟩
    · intro last is
      by_contra behind
      exact increases ⟨last, is, by omega⟩
    · cases terminal : call.terminal with
      | true => exact .inl rfl
      | false =>
          right
          cases included : context.profile.checkSchedule.includes call.progress.checkIndex with
          | true => rfl
          | false => exact absurd ⟨terminal, included⟩ due

/-- Below the bound the count is no reason to refuse a call. -/
theorem request_refused {failure : Buffered.Failure} (refuses : context.request files call = .error failure)
    (room : context.stopped = none → context.count < context.profile.policy.maxObservations) :
    Refused context.profile files call failure := by
  unfold request at refuses
  split at refuses
  · cases refuses
  unfold capture at refuses
  simp only [error_bind, error_reject, ok_reject] at refuses
  rcases refuses with ⟨-, rfl⟩ | ⟨-, unstopped, ⟨-, rfl⟩ | ⟨-, -, refuses⟩⟩
  · exact .inl rfl
  · exact .inr (.inl rfl)
  · split at refuses
    · cases refuses
    · simp only [error_bind, error_reject, ok_reject] at refuses
      rcases refuses with ⟨full, -⟩ | ⟨-, -, refuses | ⟨reference, -, impossible⟩⟩
      · have none : context.stopped = none := by
          cases stopped : context.stopped with
          | none => rfl
          | some reason => simp [stopped] at unstopped
        have := room none
        omega
      · exact .inr (.inr ⟨context, rfl, refuses⟩)
      · cases impossible

/-- The context when the decision about a checkpoint is settled. -/
def decided (context : StreamingContext) (checkpoint : StreamCheckpoint) (reason : Option StopReason) :
    StreamingContext :=
  { context with count := context.count + 1, last := some checkpoint.checkIndex, stopped := reason }

/-- A decision of the session settles its checkpoint. -/
theorem settle_decision (unstopped : context.stopped = none) {reason : Option StopReason}
    (ends : checkpoint.terminal = true → reason.isSome = true) :
    context.settle checkpoint ⟨context.id, context.count, actionOf reason, reason.map StopReason.name⟩ =
      (context.decided checkpoint reason, .ok (decisionOf reason)) := by
  have accepted : ¬(context.id ≠ context.id ∨ context.count ≠ context.count ∨
      (checkpoint.terminal = true ∧ actionOf reason ≠ .stop)) := by
    rintro (other | other | ⟨terminal, other⟩)
    · exact other rfl
    · exact other rfl
    · rw [actionOf, if_pos (ends terminal)] at other
      exact other rfl
  unfold settle
  rw [if_neg accepted]
  cases reason with
  | none => simp [actionOf, decisionOf, decided, unstopped]
  | some reason => simp [actionOf, decisionOf, decided, Json.ofOption, StopReason.fromJson_name]

end StreamingContext

/-- The calls up to the next checkpoint. -/
structure Advanced (files : Inspection) (context : StreamingContext) (calls : List Call)
    (log : List (Call × Answer)) (frame : Frame) (peer : Peer) : Prop where
  kept : peer.context = context
  log : ∃ spot, peer.log = log ++ spot ∧ ∀ entry ∈ spot, entry.2 = .skipped ∨
    ∃ failure, entry.2 = .refused failure ∧ context.request files entry.1 = .error failure
  frame : (frame = .response (some (context.id, .success context.count)) ∧ peer.pending = none) ∨
    ∃ call checkpoint before, frame = .event (some checkpoint) ∧ peer.pending = some (call, checkpoint) ∧
      context.request files call = .ok (some checkpoint) ∧ calls = before ++ call :: peer.calls

theorem Peer.advance_advanced (files : Inspection) (context : StreamingContext) (calls : List Call) :
    ∀ log, Advanced files context calls log (Peer.advance files context calls log).1
      (Peer.advance files context calls log).2 := by
  induction calls with
  | nil =>
      intro log
      refine ⟨rfl, ⟨[], ?_, ?_⟩, .inl ⟨rfl, rfl⟩⟩
      · rw [List.append_nil]
        rfl
      · intro entry member
        cases member
  | cons call calls ih =>
      intro log
      unfold Peer.advance
      have extend : ∀ answer, (answer = .skipped ∨ ∃ failure, answer = Answer.refused failure ∧
          context.request files call = .error failure) →
          Advanced files context (call :: calls) log
            (Peer.advance files context calls (log ++ [(call, answer)])).1
            (Peer.advance files context calls (log ++ [(call, answer)])).2 := by
        intro answer spotted
        obtain ⟨same, ⟨spot, logged, local'⟩, frame⟩ := ih (log ++ [(call, answer)])
        refine ⟨same, ⟨(call, answer) :: spot, ?_, ?_⟩, ?_⟩
        · rw [logged, List.append_assoc]
          rfl
        · intro entry member
          rcases List.mem_cons.mp member with rfl | later
          · exact spotted
          · exact local' entry later
        · rcases frame with done | ⟨next, checkpoint, before, event, pending, sends, split⟩
          · exact .inl done
          · exact .inr ⟨next, checkpoint, call :: before, event, pending, sends, congrArg (call :: ·) split⟩
      rcases requested : context.request files call with failure | _ | checkpoint
      · exact extend _ (.inr ⟨failure, rfl, requested⟩)
      · exact extend _ (.inl rfl)
      · refine ⟨rfl, ⟨[], ?_, ?_⟩, .inr ⟨call, checkpoint, [], rfl, rfl, requested, rfl⟩⟩
        · rw [List.append_nil]
        · intro entry member
          cases member

/-! ## The runner -/

/-- Where the runner is, and what it holds. -/
def Going (source : RunStore.AttemptState) (ledger : Ledger) (directories : List Components)
    (reason : StopReason) (runner : Runner) : Prop :=
  runner.driver.state = source ∧ runner.ledger = ledger ∧ runner.directories = directories ∧
    runner.stopReason = reason

namespace StreamingRun

variable {run : StreamingRun} {files : Inspection} {source : RunStore.AttemptState} {ledger : Ledger}
  {directories : List Components} {stop : StopReason}

/-- What no step of an undisturbed run does. -/
def Never : Failure → Runner → Prop := fun _ _ => False

theorem phase_goes (world : run.Undisturbed) {phase : RunStore.AttemptPhase}
    (allowed : RunStore.allowedTransition source phase.state = true) :
    Holds (Going source ledger directories stop) (run.event (.phase phase))
      (fun _ => Going phase.state ledger directories stop) Never := by
  intro runner going
  obtain ⟨rfl, rfl, rfl, rfl⟩ := going
  have moves : (onEvent run.store run.slots (.phase phase)) runner.driver =
      ({ runner.driver with
        states := phase.state :: runner.driver.states
        asked := (runner.driver.state, phase.state) :: runner.driver.asked }, .ok ()) := by
    show transition run.store phase.state runner.driver = _
    simp [transition, bind_apply, Effect.get, answer, require_apply, Effect.modify, world.advance, allowed]
  unfold event Effect.within
  rw [moves]
  exact ⟨rfl, rfl, rfl, rfl⟩

theorem observation_goes (world : run.Undisturbed) {result : ProfileResult}
    (sequence : ∀ record, result.profile = .streaming record →
      record.checkpointSequence = ledger.observations.length)
    (room : ledger.observations.length < run.profile.policy.maxObservations) :
    Holds (Going source ledger directories stop) (run.event (.observation result))
      (fun _ => Going source { ledger with observations := ledger.observations ++ [result] } directories stop)
      Never := by
  intro runner going
  obtain ⟨rfl, rfl, rfl, rfl⟩ := going
  have slot : runner.driver.observations.length < run.slots := Nat.lt_of_lt_of_le room world.planned
  have moves : (onEvent run.store run.slots (.observation result)) runner.driver =
      ({ runner.driver with
        targetReached := runner.driver.targetReached || decide (result.completion = .reached)
        observations := runner.driver.observations ++ [result] }, .ok ()) := by
    have registered : register result runner.driver.observations.length runner.driver =
        (runner.driver, .ok ()) := by
      unfold register
      rcases profile : result.profile with record | record | record
      · rfl
      · rfl
      · show (require _ _ : DriverStep Unit) _ = _
        rw [require_apply]
        exact if_pos (sequence record profile)
    simp [onEvent, registered, bind_apply, Effect.get, answer, require_apply, Effect.modify, world.publish, slot]
  unfold event Effect.within
  rw [moves]
  exact ⟨rfl, rfl, rfl, rfl⟩

theorem snapshot_goes {checkpoint : StreamCheckpoint} {evaluation : Evaluation} {reference : String}
    {directory : Components} {name : List Char} (inspect : evaluation.inspect = files)
    (manifest : checkpoint.manifest = some reference)
    (found : snapshotDirectory files reference run.profile.policy.maxCheckpointBytes = .ok (directory, name))
    (new : directory ∉ directories) :
    Holds (Going source ledger directories stop) (run.snapshot checkpoint evaluation)
      (fun _ => Going source ledger (directory :: directories) stop) Never := by
  intro runner going
  obtain ⟨rfl, rfl, rfl, rfl⟩ := going
  have moves : run.snapshot checkpoint evaluation runner =
      ({ runner with directories := directory :: runner.directories }, .ok ()) := by
    simp [snapshot, bind_apply, Effect.get, answer, require_apply, Effect.modify, inspect, manifest, found, new,
      expect, Except.mapError]
  rw [moves]
  exact ⟨rfl, rfl, rfl, rfl⟩

theorem evaluate_goes (world : run.Undisturbed) {evaluation : Evaluation}
    (valid : evaluation.Valid run.profile.policy files) {metrics : Json} (is : evaluation.metrics = .ok metrics) :
    Holds (Going .validating ledger directories stop) (run.evaluate evaluation)
      (fun found runner => found = metrics ∧ Going .evaluating ledger directories stop runner) Never := by
  unfold evaluate
  refine holds_via (fun _ => Going .validating ledger directories stop) ?_ fun _ => ?_
  · intro runner going
    unfold launchEvaluator
    rw [bind_apply]
    show Outcome _ _ ((if runner.evaluator = true then pure () else _ : RunnerStep Unit) runner)
    split
    · exact going
    · rw [bind_apply]
      unfold answer
      rw [valid.launched]
      exact going
  refine holds_via (fun _ => Going .validating ledger directories stop)
    ((holds_answered valid.bound).weaken (fun _ start => start) (fun _ _ start => start.2) fun _ _ no => no)
    fun _ => ?_
  refine (phase_goes world rfl).bind fun _ => ?_
  refine (holds_answered valid.evaluated).bind fun good => ?_
  refine holds_via (fun _ runner => good = true ∧ Going .evaluating ledger directories stop runner)
    ((holds_answered valid.unchanged).weaken (fun _ start => start) (fun _ _ start => start.2) fun _ _ no => no)
    fun _ => ?_
  refine holds_via (fun _ => Going .evaluating ledger directories stop)
    ((holds_required fun _ start => start.1).weaken (fun _ start => start) (fun _ _ start => start.2)
      fun _ _ no => no) fun _ => ?_
  exact holds_answered is

theorem targetMetric_goes {metrics : Json} {pre : Runner → Prop}
    (named : run.profile.policy.metric.isSome = true → (independentMetric run.profile.policy metrics).isSome = true) :
    Holds pre (run.targetMetric metrics)
      (fun metric runner => metric = independentMetric run.profile.policy metrics ∧ pre runner) Never := by
  unfold targetMetric independentMetric at *
  cases metric : run.profile.policy.metric with
  | none => exact holds_pure fun _ start => ⟨rfl, start⟩
  | some name =>
      rw [metric] at named
      obtain ⟨value, is⟩ := Option.isSome_iff_exists.mp (named rfl)
      refine holds_via (fun found runner => found = value ∧ pre runner)
        (holds_answered (ok_expect.mpr is)) fun found => ?_
      apply holds_pure
      intro runner start
      exact ⟨by rw [start.1]; exact is.symm, start.2⟩

/-- A checkpoint that the runner accepts is published, and a reason is found or not. -/
theorem observe_goes (world : run.Undisturbed) {checkpoint : StreamCheckpoint} {evaluation : Evaluation}
    (valid : evaluation.Valid run.profile.policy files) (limit : Nat) {reference : String}
    {directory : Components} {name : List Char} (manifest : checkpoint.manifest = some reference)
    (found : snapshotDirectory files reference run.profile.policy.maxCheckpointBytes = .ok (directory, name))
    (new : directory ∉ directories) (sequence : checkpoint.sequence = ledger.observations.length)
    (room : ledger.observations.length < run.profile.policy.maxObservations)
    (accepted : ∀ runner : Runner, runner.ledger = ledger → run.accepts runner checkpoint) :
    Holds (Going .executing ledger directories stop) (run.observe limit checkpoint evaluation)
      (fun reason runner => ∃ result record crossed metric,
        Going .evaluating ⟨ledger.session, ledger.observations ++ [result], some checkpoint.checkIndex,
          ledger.previousWork.extend checkpoint.work, crossed⟩ (directory :: directories) stop runner ∧
        result.profile = .streaming record ∧ record.checkpointSequence = checkpoint.sequence ∧
        record.checkIndex = checkpoint.checkIndex ∧ record.work = checkpoint.work.entries ∧
        record.terminal = checkpoint.terminal ∧ record.stopReason = reason ∧
        reason = run.reason metric checkpoint evaluation.used limit) Never := by
  obtain ⟨metrics, evaluates, named⟩ := valid.metrics
  obtain ⟨times, timed⟩ := valid.times
  have answered : ∀ {α : Type} {x : Except Failure α} {a : α} {pre : Runner → Prop}, x = .ok a →
      Holds pre (answer x : RunnerStep α) (fun _ => pre) Never := fun is =>
    (holds_answered is).weaken (fun _ start => start) (fun _ _ start => start.2) fun _ _ no => no
  unfold observe
  refine holds_via (fun seen runner => seen = runner ∧ Going .executing ledger directories stop runner)
    (holds_get fun _ start => ⟨rfl, start⟩) fun seen => ?_
  refine (holds_required ?_).bind fun _ => ?_
  · intro runner start
    obtain ⟨rfl, going⟩ := start
    exact accepted _ going.2.1
  refine holds_via (fun _ => Going .executing { ledger with
      previousIndex := some checkpoint.checkIndex
      previousWork := ledger.previousWork.extend checkpoint.work } directories stop) (holds_modify ?_) fun _ => ?_
  · intro runner start
    obtain ⟨-, here, rfl, rfl, rfl⟩ := start
    exact ⟨here, rfl, rfl, rfl⟩
  refine (phase_goes world rfl).bind fun _ => ?_
  refine (snapshot_goes valid.inspect manifest found new).bind fun _ => ?_
  refine (answered valid.frozen).bind fun _ => ?_
  refine (phase_goes world rfl).bind fun _ => ?_
  refine (answered valid.result).bind fun _ => ?_
  refine (evaluate_goes world valid evaluates).bind fun seen => ?_
  by_cases same : seen = metrics
  swap
  · intro runner start
    exact absurd start.1 same
  subst same
  refine (targetMetric_goes named).bind fun metric => ?_
  dsimp only
  obtain ⟨reason, reasons⟩ : ∃ reason, reason = run.reason metric checkpoint evaluation.used limit := ⟨_, rfl⟩
  rw [← reasons]
  refine keeps_get.bind fun memory => ?_
  obtain ⟨crossings, crosses⟩ : ∃ crossings, crossings = run.crossings memory.crossed metric := ⟨_, rfl⟩
  rw [← crosses]
  refine holds_via (fun _ => Going .evaluating ⟨ledger.session, ledger.observations, some checkpoint.checkIndex,
    ledger.previousWork.extend checkpoint.work, ledger.crossed ++ crossings⟩ (directory :: directories) stop)
    (holds_modify ?_) fun _ => ?_
  · intro runner start
    obtain ⟨-, -, here, same, known, ended⟩ := start
    unfold Runner.ledger at same
    injection same with session observations index work crossed
    refine ⟨here, ?_, known, ended⟩
    unfold Runner.ledger
    rw [session, observations, index, work, crossed]
  refine (answered timed).bind fun now => ?_
  rcases now with ⟨elapsed, evaluationTime⟩
  refine (answered valid.written).bind fun _ => ?_
  refine (observation_goes world ?_ ?_).bind fun _ => ?_
  · intro record profile
    cases profile
    exact sequence
  · exact room
  apply holds_pure
  intro runner going
  exact ⟨_, _, _, metric, going, rfl, rfl, rfl, rfl, rfl, rfl, reasons⟩

end StreamingRun

/-! ## Both sides -/

/-- A stream as the session keeps it, for the request of an id. -/
structure Serving (session : Session) (id : RequestId) (bound count : Nat) (awaiting stopped : Bool) : Prop where
  stream : ∃ state, session.stream = some state ∧ state.bound = bound ∧ state.count = count ∧
    state.awaiting = awaiting ∧ state.stopped = stopped
  pending : session.pending = some id

/-- What the calls to come and the runner's memory of work have to do with each other. -/
structure Growing (work : Work) (calls : List Call) : Prop where
  above : ∀ key n, work.get key = some n → ∀ call ∈ calls, ∀ m, call.progress.work.get key = some m → n ≤ m
  grows : calls.Pairwise Grows

/-- The worker waits for the decision about a checkpoint that the runner is about to observe. -/
structure Met (run : StreamingRun) (files : Inspection) (call : Call) (checkpoint : StreamCheckpoint)
    (peer : Peer) (runner : Runner) : Prop where
  pending : peer.pending = some (call, checkpoint)
  profile : peer.context.profile = run.profile
  captured : peer.context.Captured files call checkpoint
  agreement : Agreement files peer runner.ledger
  session : Serving runner.session peer.context.id run.profile.policy.maxObservations
    (runner.ledger.observations.length + 1) true false
  executing : runner.driver.state = .executing
  growing : Growing runner.ledger.previousWork (call :: peer.calls)
  directories : ∀ directory ∈ runner.directories, ∃ i < runner.ledger.observations.length,
    directory[1]? = some (toString i).toList
  unstopped : runner.stopReason = .implementationStopped

/-- The worker returned and its count was accepted. -/
structure Settled (files : Inspection) (peer : Peer) (runner : Runner) : Prop where
  agreement : Agreement files peer runner.ledger
  stopReason : runner.stopReason = peer.context.stopped.getD .implementationStopped

/-- Where a message finds both sides. -/
def Connected (run : StreamingRun) (files : Inspection) (peer : Peer) (runner : Runner) : StreamMessage → Prop
  | .checkpoint checkpoint => ∃ call, Met run files call checkpoint peer runner
  | .finished _ => Settled files peer runner

section Both

variable {run : StreamingRun} {files : Inspection} {call : Call} {checkpoint : StreamCheckpoint} {peer : Peer}
  {runner : Runner}

theorem exchanged_append (log others : List (Call × Answer)) :
    exchanged (log ++ others) = exchanged log ++ exchanged others := List.filterMap_append

theorem exchanged_spot {spot : List (Call × Answer)} (local' : ∀ entry ∈ spot, entry.2 = .skipped ∨
    ∃ failure, entry.2 = Answer.refused failure) : exchanged spot = [] := by
  apply List.filterMap_eq_nil_iff.mpr
  intro entry member
  rcases local' entry member with skipped | ⟨failure, refused⟩
  · rw [skipped]
  · rw [refused]

theorem Growing.extend {work : Work} {calls : List Call} (growing : Growing work (call :: calls))
    (same : checkpoint.work = call.progress.work) : Growing (work.extend checkpoint.work) calls where
  above := by
    intro key n found later member m counted
    rw [OrderedMap.get_extend] at found
    rw [same] at found
    rcases own : call.progress.work.get key with _ | k
    · rw [own] at found
      exact growing.above key n found later (List.mem_cons_of_mem _ member) m counted
    · rw [own] at found
      cases found
      exact (List.pairwise_cons.mp growing.grows).1 later member key n m own counted
  grows := (List.pairwise_cons.mp growing.grows).2

theorem Growing.suffix {work : Work} {before calls : List Call} (growing : Growing work (before ++ calls)) :
    Growing work calls where
  above := fun key n found later member => growing.above key n found later (List.mem_append_right _ member)
  grows := (List.pairwise_append.mp growing.grows).2.1

/-- The runner accepts what the context sends. -/
theorem Met.accepts (met : Met run files call checkpoint peer runner) {other : Runner}
    (same : other.ledger = runner.ledger) : run.accepts other checkpoint := by
  obtain ⟨reference, -, sent⟩ := met.captured.sent
  have index : other.previousIndex = peer.context.last := by
    rw [met.agreement.last, ← same]
    rfl
  have work : other.previousWork = runner.ledger.previousWork := by
    rw [← same]
    rfl
  unfold StreamingRun.accepts
  rw [sent, index, work, not_or, not_or]
  refine ⟨?_, ?_, ?_⟩
  · intro behind
    obtain ⟨last, is, behind⟩ := behind
    have := met.captured.increases last is
    simp only at behind
    omega
  · intro outside
    have scheduled := met.captured.scheduled
    rw [met.profile] at scheduled
    rcases scheduled with terminal | included
    · simp [terminal] at outside
    · simp [included] at outside
  · intro shrinks
    obtain ⟨entry, member, last, found, less⟩ := shrinks
    have := met.growing.above entry.1 last found call List.mem_cons_self entry.2
      (OrderedMap.get_eq_some.mpr member)
    omega

/-- Every checkpoint has a directory of its own. -/
theorem Met.fresh (met : Met run files call checkpoint peer runner) {directory : Components}
    (counted : directory[1]? = some (toString peer.context.count).toList) : directory ∉ runner.directories := by
  intro used
  obtain ⟨i, before, known⟩ := met.directories directory used
  rw [counted] at known
  have same := JsonLibrary.decimal_injective (Option.some.inj known)
  rw [met.agreement.count] at same
  omega

/-- The next frame of a worker whose context has settled a decision. -/
theorem Advanced.connected {context : StreamingContext} {calls : List Call} {log : List (Call × Answer)}
    {frame : Frame} (advanced : Advanced files context calls log frame peer) (run : StreamingRun)
    (runner : Runner) (profile : context.profile = run.profile)
    (room : context.stopped = none → context.count < run.profile.policy.maxObservations)
    (agreement : Agreement files ⟨context, calls, none, log⟩ runner.ledger) {stopped : Bool}
    (halted : stopped = context.stopped.isSome)
    (session : Serving runner.session context.id run.profile.policy.maxObservations
      runner.ledger.observations.length false stopped)
    (executing : context.stopped = none → runner.driver.state = .executing)
    (growing : Growing runner.ledger.previousWork calls)
    (directories : ∀ directory ∈ runner.directories, ∃ i < runner.ledger.observations.length,
      directory[1]? = some (toString i).toList)
    (reason : runner.stopReason = context.stopped.getD .implementationStopped) :
    ∃ session' message, streamFrame (carries files frame) runner.session = (session', .ok message) ∧
      Connected run files peer { runner with session := session' } message := by
  obtain ⟨kept, ⟨spot, logged, local'⟩, next⟩ := advanced
  obtain ⟨⟨state, stream, bound, count, awaiting, unstopped⟩, pending⟩ := session
  -- the new entries of the log are not exchanges, and none of them is refused for the count
  have agreed : ∀ session', Agreement files peer (Runner.ledger { runner with session := session' }) := by
    intro session'
    refine ⟨?_, ?_, ?_, ?_, ?_⟩
    · rw [kept]
      exact agreement.count
    · rw [kept]
      exact agreement.last
    · rw [kept]
      exact agreement.stopped
    · have none : exchanged spot = [] := by
        apply exchanged_spot
        intro entry member
        rcases local' entry member with skipped | ⟨failure, refused, -⟩
        · exact .inl skipped
        · exact .inr ⟨failure, refused⟩
      rw [logged, exchanged_append, none, List.append_nil]
      exact agreement.exchanges
    · intro call failure member
      rw [logged] at member
      rw [kept]
      rcases List.mem_append.mp member with old | new
      · exact agreement.refused call failure old
      · rcases local' _ new with skipped | ⟨other, refused, refuses⟩
        · cases skipped
        · cases refused
          apply StreamingContext.request_refused refuses
          rw [profile]
          exact room
  rcases next with ⟨rfl, -⟩ | ⟨call, checkpoint, before, rfl, waits, sends, split⟩
  · have counted : context.count = state.count := by
      rw [count]
      exact agreement.count
    rw [counted]
    refine ⟨_, _, streamFrame_response stream pending, agreed _, ?_⟩
    rw [kept]
    exact reason
  · have captured := StreamingContext.request_sends sends
    obtain ⟨reference, taken, sent⟩ := captured.sent
    obtain ⟨directory, name, -, -, valid⟩ := StreamingContext.snapshot_directory taken
    have below := room captured.unstopped
    have open' : state.stopped = false := by
      rw [unstopped, halted, captured.unstopped]
      rfl
    have counted : context.count = state.count := by
      rw [count]
      exact agreement.count
    refine ⟨_, _, streamFrame_event stream pending open' (by rw [sent]) (by rw [sent]; exact counted)
      (by rw [bound, ← counted]; exact below) (by rw [sent]; exact captured.safe) (by rw [sent])
      (by rw [sent]) valid, call, ?_⟩
    refine ⟨waits, by rw [kept]; exact profile, by rw [kept]; exact captured, agreed _, ?_,
      executing captured.unstopped, ?_, directories, ?_⟩
    · rw [kept]
      refine ⟨⟨_, rfl, bound, ?_, rfl, open'⟩, pending⟩
      show state.count + 1 = runner.ledger.observations.length + 1
      rw [count]
    · rw [split] at growing
      exact growing.suffix
    · show runner.stopReason = _
      rw [reason, captured.unstopped]
      rfl

/-- Why a stream goes on: there is room, and the checkpoint was not the last. -/
theorem reason_none {metric : Option UInt64} {used limit : Nat}
    (goes : run.reason metric checkpoint used limit = none) :
    checkpoint.sequence + 1 ≠ run.profile.policy.maxObservations ∧ checkpoint.terminal = false := by
  unfold StreamingRun.reason at goes
  split at goes
  · cases goes
  split at goes
  · cases goes
  rename_i other
  split at goes
  · cases goes
  split at goes
  · cases goes
  · rename_i open'
    exact ⟨other, by simpa using open'⟩

theorem decideStream_decides {session : Session} {state : StreamState} {id : RequestId}
    (stream : session.stream = some state) (pending : session.pending = some id)
    (awaiting : state.awaiting = true) (unstopped : state.stopped = false) (action : StreamAction)
    (reason : Option String) (exchange : Exchange) :
    decideStream action reason exchange session = streamFrame exchange
      { session with stream := some { state with awaiting := false, stopped := decide (action = .stop) } } := by
  unfold decideStream
  rw [bind_ok (decision_sends stream pending awaiting unstopped action reason)]

theorem onSession_ok {α : Type} {step : SessionStep α} {runner : Runner} {session : Session} {a : α}
    (steps : step runner.session = (session, .ok a)) :
    onSession step runner = ({ runner with session }, .ok a) := by
  unfold onSession
  rw [steps]
  rfl

theorem actionOf_stop (reason : Option StopReason) : decide (actionOf reason = .stop) = reason.isSome := by
  cases reason <;> rfl

theorem proceed_some (stop : StopReason) (turn : Turn) : run.proceed (some stop) turn = (do
    modify fun r => { r with stopReason := stop }
    onSession (decideStream .stop (some stop.name) turn.exchange)) := rfl

theorem proceed_none (turn : Turn) : run.proceed none turn = (do
    run.event (.phase .executing)
    answer turn.evaluation.deadline
    onSession (decideStream .continues none turn.exchange)) := rfl

/-- A decision is sent, and what the worker answers is heard. -/
theorem proceed_hears (world : run.Undisturbed) {evaluation : Evaluation}
    (valid : evaluation.Valid run.profile.policy files) {ledger : Ledger} {directories : List Components}
    {reason : Option StopReason} {frame : Frame} {state : StreamState} {id : RequestId}
    (going : Going .evaluating ledger directories .implementationStopped runner)
    (stream : runner.session.stream = some state) (pending : runner.session.pending = some id)
    (awaiting : state.awaiting = true) (unstopped : state.stopped = false) {session : Session}
    {message : StreamMessage} (heard : streamFrame (carries files frame)
      { runner.session with stream := some { state with awaiting := false, stopped := reason.isSome } } =
        (session, .ok message)) :
    ∃ runner' : Runner, run.proceed reason ⟨evaluation, carries files frame⟩ runner =
        ({ runner' with session := session }, .ok message) ∧ runner'.ledger = ledger ∧ runner'.directories = directories ∧
      runner'.stopReason = reason.getD .implementationStopped ∧
      (reason = none → runner'.driver.state = .executing) := by
  cases reason with
  | some stop =>
      have sent : decideStream .stop (some stop.name) (carries files frame) runner.session =
          (session, .ok message) := by
        rw [decideStream_decides stream pending awaiting unstopped]
        exact heard
      refine ⟨{ runner with stopReason := stop }, ?_, going.2.1, going.2.2.1, rfl, ?_⟩
      · have moves : (Effect.modify fun r => { r with stopReason := stop } : RunnerStep Unit) runner =
            ({ runner with stopReason := stop }, .ok ()) := rfl
        rw [proceed_some, bind_ok moves]
        exact onSession_ok sent
      · intro impossible
        cases impossible
  | none =>
      have sent : decideStream .continues none (carries files frame) runner.session =
          (session, .ok message) := by
        rw [decideStream_decides stream pending awaiting unstopped]
        exact heard
      have goes : Holds (Going .evaluating ledger directories .implementationStopped)
          (run.event (.phase .executing)) (fun _ => Going .executing ledger directories .implementationStopped)
          StreamingRun.Never := StreamingRun.phase_goes world rfl
      obtain ⟨runner', _, moves, going'⟩ := goes.success going
      have same : runner'.session = runner.session := by
        have := congrArg Ledger.session (going'.2.1.trans going.2.1.symm)
        exact this
      refine ⟨runner', ?_, going'.2.1, going'.2.2.1, going'.2.2.2, fun _ => going'.1⟩
      have timely : (answer evaluation.deadline : RunnerStep Unit) runner' = (runner', .ok ()) := by
        unfold answer
        rw [valid.deadline]
      rw [proceed_none, bind_ok moves, bind_ok timely]
      rw [← same] at sent
      exact onSession_ok sent

/-- A checkpoint is observed and decided on one side and settled on the other. -/
theorem Met.turn (met : Met run files call checkpoint peer runner) (world : run.Undisturbed)
    {evaluation : Evaluation} (valid : evaluation.Valid run.profile.policy files) (limit : Nat) :
    ∃ observed reason frame peer' runner' message,
      run.observe limit checkpoint evaluation runner = (observed, .ok reason) ∧
      (sends reason observed.session).bind (peer.hear files) = some (frame, peer') ∧
      run.proceed reason ⟨evaluation, carries files frame⟩ observed = (runner', .ok message) ∧
      Connected run files peer' runner' message ∧
      runner'.ledger.observations.length = runner.ledger.observations.length + 1 := by
  obtain ⟨reference, taken, sent⟩ := met.captured.sent
  obtain ⟨directory, name, found, counted, -⟩ := StreamingContext.snapshot_directory taken
  have room := met.captured.room
  rw [met.profile] at found room
  rw [met.agreement.count] at room
  have sequence : checkpoint.sequence = runner.ledger.observations.length := by
    rw [sent]
    exact met.agreement.count
  obtain ⟨observed, reason, observes, result, record, crossed, metric, going, profile, numbered, index, work,
    terminal, stops, reasons⟩ := (StreamingRun.observe_goes world valid limit (by rw [sent]) found
      (met.fresh counted) sequence room fun _ same => met.accepts same).success
        ⟨met.executing, rfl, rfl, met.unstopped⟩
  obtain ⟨⟨state, stream, bound, count, awaiting, unstopped⟩, pending⟩ := met.session
  have session : observed.session = runner.session := congrArg Ledger.session going.2.1
  have ends : checkpoint.terminal = true → reason.isSome = true := by
    intro last
    cases is : reason with
    | some _ => rfl
    | none =>
        rw [is] at reasons
        have := (reason_none reasons.symm).2
        rw [last] at this
        cases this
  have decides : sends reason observed.session = some ⟨peer.context.id, peer.context.count, actionOf reason,
      reason.map StopReason.name⟩ := by
    unfold sends
    rw [session, decision_sends stream pending awaiting unstopped]
    show some (StreamDecision.mk _ (state.count - 1) _ _) = _
    rw [count, met.agreement.count]
    rfl
  have heard : peer.hear files ⟨peer.context.id, peer.context.count, actionOf reason,
      reason.map StopReason.name⟩ = some (Peer.advance files (peer.context.decided checkpoint reason)
        peer.calls (peer.log ++ [(call, .decided checkpoint (.ok (decisionOf reason)))])) := by
    unfold Peer.hear
    rw [met.pending, Option.map_some]
    dsimp only
    rw [StreamingContext.settle_decision met.captured.unstopped ends]
  obtain ⟨frame, peer', advances⟩ : ∃ frame peer', Peer.advance files
      (peer.context.decided checkpoint reason) peer.calls
      (peer.log ++ [(call, .decided checkpoint (.ok (decisionOf reason)))]) = (frame, peer') := ⟨_, _, rfl⟩
  have advanced := Peer.advance_advanced files (peer.context.decided checkpoint reason) peer.calls
    (peer.log ++ [(call, .decided checkpoint (.ok (decisionOf reason)))])
  rw [advances] at advanced
  have agreement : ∀ other : Runner, other.ledger.observations = runner.ledger.observations ++ [result] →
      other.ledger.previousIndex = some checkpoint.checkIndex →
      Agreement files ⟨peer.context.decided checkpoint reason, peer.calls, none,
        peer.log ++ [(call, .decided checkpoint (.ok (decisionOf reason)))]⟩ other.ledger := by
    intro other observations previous
    refine ⟨?_, previous.symm, ?_, ?_, ?_⟩
    · rw [observations, List.length_append]
      exact congrArg (· + 1) met.agreement.count
    · rw [observations, lastReason, List.getLast?_concat, Option.bind_some, profile]
      exact stops.symm
    · rw [observations, exchanged_append]
      refine List.rel_append met.agreement.exchanges (.cons ?_ .nil)
      refine ⟨record, profile, numbered, index, work, terminal, ?_, ?_⟩
      · rw [stops]
      · rw [stops]
        exact ends
    · intro other' failure member
      rcases List.mem_append.mp member with old | new
      · exact met.agreement.refused other' failure old
      · cases List.mem_singleton.mp new
  have length : observed.ledger.observations.length = runner.ledger.observations.length + 1 := by
    rw [going.2.1, List.length_append]
    rfl
  -- the runner as the next frame finds it, up to what sending the decision changes
  obtain ⟨listening, listens⟩ : ∃ listening : Session, listening = { observed.session with
      stream := some { state with awaiting := false, stopped := reason.isSome } } := ⟨_, rfl⟩
  have next : ∀ other : Runner, other.ledger = { observed.ledger with session := listening } →
      other.directories = observed.directories → other.stopReason = reason.getD .implementationStopped →
      (reason = none → other.driver.state = .executing) →
      ∃ session' message, streamFrame (carries files frame) listening = (session', .ok message) ∧
        Connected run files peer' { other with session := session' } message := by
    intro other ledger directories stopped executing
    have own : other.session = listening := congrArg Ledger.session ledger
    have := advanced.connected run other met.profile ?_ (agreement other ?_ ?_) rfl ?_ executing ?_ ?_ stopped
    · rw [own] at this
      exact this
    · intro none
      show peer.context.count + 1 < _
      have apart := (reason_none (reasons.symm.trans none)).1
      rw [met.agreement.count]
      omega
    · rw [ledger, going.2.1]
    · rw [ledger, going.2.1]
    · refine ⟨⟨{ state with awaiting := false, stopped := reason.isSome }, ?_, bound, ?_, rfl, rfl⟩, ?_⟩
      · rw [own, listens]
      · rw [ledger]
        exact count.trans length.symm
      · rw [own, listens, session]
        exact pending
    · rw [ledger, going.2.1]
      exact met.growing.extend (by rw [sent])
    · rw [directories, ledger, going.2.2.1]
      intro used member
      rcases List.mem_cons.mp member with rfl | old
      · refine ⟨runner.ledger.observations.length, ?_, ?_⟩
        · show _ < observed.ledger.observations.length
          omega
        · rw [← met.agreement.count]
          exact counted
      · obtain ⟨i, below, known⟩ := met.directories used old
        refine ⟨i, ?_, known⟩
        show i < observed.ledger.observations.length
        omega
  obtain ⟨session', message, heard', -⟩ := next { observed with
    session := listening
    driver := { observed.driver with states := [.executing] }
    stopReason := reason.getD .implementationStopped } rfl rfl rfl fun _ => rfl
  rw [← session] at stream pending
  have hears := heard'
  rw [listens] at hears
  obtain ⟨runner', proceeds, ledger, directories, stopped, executing⟩ :=
    proceed_hears world valid going stream pending awaiting unstopped hears
  obtain ⟨session'', message', heard'', connected⟩ := next { runner' with session := listening } (by
    show { runner'.ledger with session := listening } = _
    rw [ledger, going.2.1]) (by
      show runner'.directories = _
      rw [directories, going.2.2.1]) stopped executing
  rw [heard'] at heard''
  cases heard''
  refine ⟨observed, reason, frame, peer', _, message, observes, ?_, proceeds, connected, ?_⟩
  · rw [decides, Option.bind_some, heard, advances]
  · show runner'.ledger.observations.length = _
    rw [ledger, List.length_append]
    rfl

/-- The turns of a connected run let its loop end with the worker's count. -/
theorem loop_settles (world : run.Undisturbed) (limit : Nat) (evaluations : List Evaluation) :
    ∀ (message : StreamMessage) (peer : Peer) (runner : Runner), Connected run files peer runner message →
      (∀ evaluation ∈ evaluations, evaluation.Valid run.profile.policy files) →
      run.profile.policy.maxObservations ≤ runner.ledger.observations.length + evaluations.length →
      ∃ runner', run.loop limit message (run.turnsOf files limit evaluations message peer runner).1 runner =
          (runner', .ok ()) ∧
        Settled files (run.turnsOf files limit evaluations message peer runner).2 runner' := by
  induction evaluations with
  | nil =>
      intro message peer runner connected valid enough
      cases message with
      | finished count => exact ⟨runner, rfl, connected⟩
      | checkpoint checkpoint =>
          obtain ⟨call, met⟩ := connected
          have room := met.captured.room
          rw [met.profile, met.agreement.count] at room
          rw [List.length_nil] at enough
          omega
  | cons evaluation evaluations ih =>
      intro message peer runner connected valid enough
      cases message with
      | finished count => exact ⟨runner, rfl, connected⟩
      | checkpoint checkpoint =>
          obtain ⟨call, met⟩ := connected
          obtain ⟨observed, reason, frame, peer', runner', message, observes, hears, proceeds, connected, length⟩ :=
            met.turn world (valid evaluation List.mem_cons_self) limit
          rw [List.length_cons] at enough
          obtain ⟨last, loops, settled⟩ := ih message peer' runner' connected
            (fun other member => valid other (List.mem_cons_of_mem _ member)) (by omega)
          have turns : run.turnsOf files limit (evaluation :: evaluations) (.checkpoint checkpoint) peer runner =
              (⟨evaluation, carries files frame⟩ ::
                (run.turnsOf files limit evaluations message peer' runner').1,
                (run.turnsOf files limit evaluations message peer' runner').2) := by
            rw [StreamingRun.turnsOf, observes]
            dsimp only
            rw [hears]
            dsimp only
            rw [proceeds]
          rw [turns]
          refine ⟨last, ?_, settled⟩
          rw [StreamingRun.loop, bind_ok observes, bind_ok proceeds]
          exact loops

/-- A stream starts with the bound of its policy, and the first frame is heard. -/
theorem startStream_starts {session : Session} (idle : session.Idle) {profile : SelectedStreamingProfile}
    (bounded : profile.policy.maxObservations ≤ maxSafeInteger) (exchange : Exchange) :
    ∃ bytes, startStream profile exchange session = streamFrame exchange { session with
      nextId := session.nextId + 1
      pending := some (toString session.nextId)
      stream := some { bound := profile.policy.maxObservations, bytes } } := by
  have policy : profile.json.get "policy" = profile.policy.json := by
    simp [SelectedStreamingProfile.json]
  have bound : ((profile.policy.json.get "max-observations").asUnsigned? 64).getD 0 =
      profile.policy.maxObservations := by
    have small : profile.policy.maxObservations < 2 ^ 64 := by
      unfold maxSafeInteger at bounded
      omega
    rw [ProfilePolicy.json_maxObservations]
    simp only [Json.nat, Json.asUnsigned?]
    rw [if_pos ⟨by omega, by exact_mod_cast small⟩]
    simp
  have room : session.nextId + 1 < 18446744073709551616 := idle.room
  refine ⟨((profile.policy.json.get "max-checkpoint-bytes").asUnsigned? 64).getD 0, ?_⟩
  simp [startStream, beginRequest, bind_apply, Effect.get, require_apply, Effect.modify, pure_apply, idle.role,
    idle.capable, idle.pending, room, policy, bound]

/-- What `new` checks, and the context it makes. -/
theorem new_ok {profile : SelectedStreamingProfile} {id : RequestId} {context : StreamingContext}
    (made : StreamingContext.new profile id = .ok context) :
    context = { profile, id } ∧ profile.policy.Valid := by
  simp only [StreamingContext.new, ok_bind, ok_mapError, ok_reject] at made
  obtain ⟨_, valid, _, -, _, -, same⟩ := made
  cases same
  exact ⟨rfl, ProfilePolicy.validate_ok valid⟩

theorem agreement_start (context : StreamingContext) (calls : List Call) (ledger : Ledger)
    (fresh : context.count = 0 ∧ context.last = none ∧ context.stopped = none)
    (empty : ledger.observations = [] ∧ ledger.previousIndex = none) :
    Agreement files ⟨context, calls, none, []⟩ ledger := by
  obtain ⟨count, last, stopped⟩ := fresh
  obtain ⟨observations, index⟩ := empty
  refine ⟨?_, ?_, ?_, ?_, ?_⟩
  · rw [observations]
    exact count
  · rw [index]
    exact last
  · rw [observations]
    exact stopped
  · rw [observations]
    exact .nil
  · intro call failure member
    cases member

/-- The first message finds both sides. -/
theorem opening_connects (world : run.Undisturbed) {session : Session} (idle : session.Idle) {driver : Driver}
    (starting : driver.state = .starting) (fresh : driver.observations = []) {context : StreamingContext}
    (made : StreamingContext.new run.profile (toString session.nextId) = .ok context) {calls : List Call}
    (grows : calls.Pairwise Grows)
    (first : run.first = carries files (Peer.advance files context calls []).1) :
    ∃ runner message, run.opening { session, driver } = (runner, .ok message) ∧
      Connected run files (Peer.advance files context calls []).2 runner message ∧
      runner.ledger.observations = [] := by
  obtain ⟨rfl, policy⟩ := new_ok made
  obtain ⟨bytes, starts⟩ := startStream_starts idle policy.safe run.first
  have empty : Going .starting ⟨session, [], none, ∅, []⟩ [] .implementationStopped { session, driver } :=
    ⟨starting, by rw [Runner.ledger, fresh], rfl, rfl⟩
  have prepares : Holds (Going .starting ⟨session, [], none, ∅, []⟩ [] .implementationStopped)
      (run.event (.phase .preparing)) (fun _ => Going .preparing ⟨session, [], none, ∅, []⟩ []
        .implementationStopped) StreamingRun.Never := StreamingRun.phase_goes world rfl
  obtain ⟨preparing, _, prepared, going⟩ := prepares.success empty
  have executes : Holds (Going .preparing ⟨session, [], none, ∅, []⟩ [] .implementationStopped)
      (run.event (.phase .executing)) (fun _ => Going .executing ⟨session, [], none, ∅, []⟩ []
        .implementationStopped) StreamingRun.Never := StreamingRun.phase_goes world rfl
  obtain ⟨executing, _, executed, going⟩ := executes.success going
  have own : executing.session = session := congrArg Ledger.session going.2.1
  obtain ⟨listening, listens⟩ : ∃ listening : Session, listening = { session with
      nextId := session.nextId + 1
      pending := some (toString session.nextId)
      stream := some { bound := run.profile.policy.maxObservations, bytes } } := ⟨_, rfl⟩
  have connects := (Peer.advance_advanced files
    { profile := run.profile, id := toString session.nextId } calls []).connected run
    { executing with session := listening } rfl (fun _ => policy.positive)
    (agreement_start _ _ _ ⟨rfl, rfl, rfl⟩ ⟨congrArg Ledger.observations going.2.1,
      congrArg Ledger.previousIndex going.2.1⟩) rfl ?_ (fun _ => going.1) ?_ ?_ going.2.2.2
  · obtain ⟨session', message, heard, connected⟩ := connects
    rw [← first] at heard
    rw [← listens] at starts
    refine ⟨{ executing with session := session' }, message, ?_, connected, ?_⟩
    · unfold StreamingRun.opening
      have answered : ∀ {x : Except Failure Unit} {r : Runner}, x = .ok () →
          (answer x : RunnerStep Unit) r = (r, .ok ()) := by
        intro x r is
        rw [is]
        rfl
      rw [bind_ok (answered world.started), bind_ok prepared, bind_ok (answered world.prepared),
        bind_ok executed, bind_ok (answered world.deadline)]
      apply onSession_ok
      rw [own, starts]
      exact heard
    · exact congrArg Ledger.observations going.2.1
  · refine ⟨⟨{ bound := run.profile.policy.maxObservations, bytes }, ?_, rfl, ?_, rfl, rfl⟩, ?_⟩
    · show listening.stream = _
      rw [listens]
    · exact (congrArg List.length (congrArg Ledger.observations going.2.1)).symm
    · show listening.pending = _
      rw [listens]
  · refine ⟨?_, grows⟩
    intro key n found
    have none : Runner.ledger executing = _ := going.2.1
    rw [show (Runner.ledger { executing with session := listening }).previousWork =
      (∅ : Work) from congrArg Ledger.previousWork none] at found
    cases found
  · intro directory member
    rw [show (Runner.directories { executing with session := listening }) = [] from going.2.2.1] at member
    cases member

end Both

namespace StreamingRun

variable (run : StreamingRun)

/-- The loop takes its turns as they are given. -/
theorem loop_turns (turns : List Turn) (limit : Nat) (rest : List Turn) : ∀ message,
    { run with turns }.loop limit message rest = run.loop limit message rest := by
  induction rest with
  | nil =>
      intro message
      cases message <;> rfl
  | cons turn rest ih =>
      intro message
      cases message with
      | finished count => rfl
      | checkpoint checkpoint =>
          show (run.observe limit checkpoint turn.evaluation >>= fun reason =>
            run.proceed reason turn >>= fun message => { run with turns }.loop limit message rest) = _
          simp only [ih]
          rfl

theorem stream_opening (limit : Nat) : run.stream limit = (run.opening >>= fun message => do
    run.loop limit message run.turns
    let runner ← get
    run.event (.stopped runner.stopReason)) := by
  unfold stream opening
  simp only [bind_assoc]

/-- A worker and a runner that are connected settle every exchange: the run succeeds, both sides end with
the same count, check and stopping state, every decision was settled as the reason published with its
observation, a terminal checkpoint as a stop, and no call is refused for the count. -/
theorem runStreaming_composes (files : Inspection) {limit : Nat} (limited : run.limit = .ok limit)
    (world : run.Undisturbed) {evaluations : List Evaluation}
    (valid : ∀ evaluation ∈ evaluations, evaluation.Valid run.profile.policy files)
    (enough : run.profile.policy.maxObservations ≤ evaluations.length) {session : Session} (idle : session.Idle)
    {driver : Driver} (starting : driver.state = .starting) (fresh : driver.observations = [])
    {context : StreamingContext}
    (made : StreamingContext.new run.profile (toString session.nextId) = .ok context) {calls : List Call}
    (grows : calls.Pairwise Grows) :
    let joined := run.connect files limit evaluations (Peer.advance files context calls []) { session, driver }
    ∃ runner, joined.1.runStreaming { session, driver } = (runner, .ok ()) ∧ Settled files joined.2 runner ∧
      runner.driver.stopReason = (joined.2.context.stopped.getD .implementationStopped).name := by
  obtain ⟨frame, peer, start⟩ : ∃ frame peer, Peer.advance files context calls [] = (frame, peer) := ⟨_, _, rfl⟩
  have world' : { run with first := carries files frame }.Undisturbed := ⟨world.planned, world.advance,
    world.publish, world.started, world.prepared, world.deadline, world.verified, world.shutdown⟩
  obtain ⟨opened, message, opens, connected, none⟩ := opening_connects world' idle starting fresh made grows
    (by rw [start])
  rw [start] at connected
  obtain ⟨last, loops, settled⟩ := loop_settles world' limit evaluations message peer opened connected valid (by
    rw [none, List.length_nil, Nat.zero_add]
    exact enough)
  obtain ⟨turns, peer', turned⟩ : ∃ turns peer', { run with first := carries files frame }.turnsOf files limit
      evaluations message peer opened = (turns, peer') := ⟨_, _, rfl⟩
  rw [turned] at loops settled
  obtain ⟨whole, is⟩ : ∃ whole : StreamingRun, whole =
      { { run with first := carries files frame } with turns := turns } := ⟨_, rfl⟩
  have connects : run.connect files limit evaluations (frame, peer) { session, driver } = (whole, peer') := by
    unfold connect
    dsimp only
    rw [opens]
    dsimp only
    rw [turned, is]
  have looped : whole.loop limit message whole.turns opened = (last, .ok ()) := by
    rw [is, loop_turns]
    exact loops
  have opens' : whole.opening { session, driver } = (opened, .ok message) := by
    rw [is]
    exact opens
  have stopped : whole.event (.stopped last.stopReason) last =
      ({ last with driver := { last.driver with stopReason := last.stopReason.name } }, .ok ()) := rfl
  have streams : whole.stream limit { session, driver } =
      ({ last with driver := { last.driver with stopReason := last.stopReason.name } }, .ok ()) := by
    rw [stream_opening, bind_ok opens', bind_ok looped, bind_ok (show (get : RunnerStep Runner) last =
      (last, .ok last) from rfl)]
    exact stopped
  have verified : whole.verified = .ok () := by
    rw [is]
    exact world.verified
  have shutdown : whole.shutdown = .ok () := by
    rw [is]
    exact world.shutdown
  have limited' : whole.limit = .ok limit := by
    rw [is]
    exact limited
  dsimp only
  rw [start, connects]
  refine ⟨{ last with driver := { last.driver with stopReason := last.stopReason.name } }, ?_,
    ⟨settled.agreement, settled.stopReason⟩, ?_⟩
  · unfold runStreaming
    have limits : (answer whole.limit : RunnerStep Nat) { session, driver } = ({ session, driver }, .ok limit) := by
      rw [limited']
      rfl
    have captures : (capture (whole.stream limit) : RunnerStep (Except Failure Unit)) { session, driver } =
        ({ last with driver := { last.driver with stopReason := last.stopReason.name } }, .ok (.ok ())) := by
      unfold capture
      rw [streams]
    rw [bind_ok limits, bind_ok captures, verified, shutdown]
    rfl
  · show last.stopReason.name = _
    rw [settled.stopReason]

/-- A fixed count of two checkpoints at any check. -/
def samplePolicy : ProfilePolicy where
  metric := none
  direction := none
  threshold := none
  recordThresholds := []
  maxObservations := 2
  maxCheckpointBytes := 1000
  maxTracePoints := 0
  maxBufferBytes := 0
  terminalReserveBytes := 0
  maxActiveTime := "1 s"

def sampleRun : StreamingRun where
  profile := ⟨samplePolicy, .periodic 1 0⟩
  store := ⟨fun _ _ => .ok (), .ok (), fun _ => .ok ()⟩
  slots := 2
  limit := .ok 1000000000
  started := .ok ()
  prepared := .ok ()
  deadline := .ok ()
  first := carries (fun _ _ => .ok ()) (.response none)
  turns := []
  verified := .ok ()
  shutdown := .ok ()

def sampleEvaluation : Evaluation where
  inspect := fun _ _ => .ok ()
  frozen := .ok ()
  result := .ok ()
  launched := .ok ()
  bound := .ok ()
  evaluated := .ok true
  unchanged := .ok ()
  metrics := .ok (.obj [])
  used := 0
  times := .ok (0, 0)
  written := .ok ()
  deadline := .ok ()

def sampleSession : Session where
  role := .implementation
  selectedCapabilities := [.streamingProfile]
  nextId := 7
  pending := none
  stream := none

def sampleCalls : List Call :=
  [⟨⟨0, ∅⟩, false, .ok "result.json"⟩, ⟨⟨0, ∅⟩, false, .ok "result.json"⟩, ⟨⟨3, ∅⟩, true, .ok "result.json"⟩]

/-- A started attempt. -/
def sampleDriver : Driver := { Driver.reserved with states := [.starting] }

theorem sample_made : StreamingContext.new sampleRun.profile (toString sampleSession.nextId) =
    .ok { profile := sampleRun.profile, id := "7" } := by
  have valid : samplePolicy.validate = .ok () := by decide +kernel
  simp only [StreamingContext.new, ok_bind, ok_mapError, ok_reject]
  exact ⟨(), valid, (), rfl, (), by decide, rfl⟩

theorem runStreaming_composes_sample :
    let joined := sampleRun.connect (fun _ _ => .ok ()) 1000000000 [sampleEvaluation, sampleEvaluation]
      (Peer.advance (fun _ _ => .ok ()) { profile := sampleRun.profile, id := "7" } sampleCalls [])
      { session := sampleSession, driver := sampleDriver }
    ∃ runner, joined.1.runStreaming { session := sampleSession, driver := sampleDriver } = (runner, .ok ()) ∧
      Settled (fun _ _ => .ok ()) joined.2 runner ∧
      runner.driver.stopReason = (joined.2.context.stopped.getD .implementationStopped).name := by
  have world : sampleRun.Undisturbed :=
    ⟨by decide, fun _ _ => rfl, fun _ => rfl, rfl, rfl, rfl, rfl, rfl⟩
  have valid : ∀ evaluation ∈ [sampleEvaluation, sampleEvaluation],
      evaluation.Valid sampleRun.profile.policy fun _ _ => .ok () := by
    intro evaluation member
    have same : evaluation = sampleEvaluation := by simpa using member
    rw [same]
    exact ⟨rfl, rfl, rfl, rfl, rfl, rfl, rfl, ⟨.obj [], rfl, fun named => by cases named⟩, ⟨(0, 0), rfl⟩, rfl, rfl⟩
  have idle : sampleSession.Idle := ⟨rfl, by decide, rfl, by decide⟩
  have grows : sampleCalls.Pairwise Grows := by
    have idle : ∀ earlier ∈ sampleCalls, ∀ later ∈ sampleCalls, Grows earlier later := by
      intro earlier member later _ key n m found
      simp only [sampleCalls, List.mem_cons, List.not_mem_nil, or_false] at member
      rcases member with rfl | rfl | rfl <;> cases found
    exact List.pairwise_of_forall_mem_list idle
  have limited : sampleRun.limit = .ok 1000000000 := rfl
  have starting : sampleDriver.state = .starting := rfl
  have fresh : sampleDriver.observations = [] := rfl
  have enough : sampleRun.profile.policy.maxObservations ≤ [sampleEvaluation, sampleEvaluation].length := by decide
  exact sampleRun.runStreaming_composes (fun _ _ => .ok ()) limited world valid enough idle starting fresh
    sample_made grows

end StreamingRun

end Metewand.Execution
