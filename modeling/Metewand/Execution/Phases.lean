import Metewand.Execution.Attempt
import Mathlib.Data.List.Chain

/-!
# Phases

Whatever the worker, the store and the file system answer, the transitions an attempt asks for
are edges of the run store and of the archive, and from wherever an execution ends the attempt
can be finalized.
-/

namespace Metewand.Execution

open Lib Effect RunStore

/-- An edge of both graphs. -/
def Edge (source target : AttemptState) : Prop :=
  RunStore.allowedTransition source target = true ∧
    Archive.allowedTransition source.name target.name = true

theorem edge_of_allowed {source target : AttemptState}
    (allowed : RunStore.allowedTransition source target = true) : Edge source target := by
  refine ⟨allowed, ?_⟩
  cases source <;> cases target <;> first | decide | cases allowed

/-- What the transitions of an attempt are. -/
structure Legal (driver : Driver) : Prop where
  /-- The states follow each other along edges, the current one first. -/
  path : driver.states.IsChain fun later earlier => Edge earlier later
  begins : driver.states.getLast? = some .reserved
  asked : ∀ edge ∈ driver.asked, Edge edge.1 edge.2

/-- A legal attempt in a state. -/
def At (state : AttemptState) (driver : Driver) : Prop :=
  Legal driver ∧ driver.states.head? = some state

/-- A legal attempt that can be finalized. -/
def Unfinished (driver : Driver) : Prop :=
  ∃ state, At state driver ∧ RunStore.allowedTransition state .finalizing = true

theorem At.legal {state : AttemptState} {driver : Driver} (at' : At state driver) : Legal driver := at'.1

theorem at_reserved : At .reserved .reserved := by
  refine ⟨⟨.singleton _, rfl, ?_⟩, rfl⟩
  intro edge member
  cases member

theorem At.state_eq {state : AttemptState} {driver : Driver} (at' : At state driver) :
    driver.state = state := by
  unfold Driver.state
  rw [List.headD_eq_head?_getD, at'.2]
  rfl

theorem asked_cons {driver : Driver} {source target : AttemptState} (legal : Legal driver)
    (edge : Edge source target) : ∀ asked ∈ (source, target) :: driver.asked, Edge asked.1 asked.2 := by
  intro asked member
  rcases List.mem_cons.mp member with rfl | earlier
  · exact edge
  · exact legal.asked asked earlier

/-- A transition along an edge moves the attempt or leaves it. -/
theorem transition_holds (store : Store) {source target : AttemptState}
    (allowed : RunStore.allowedTransition source target = true) :
    Holds (At source) (transition store target) (fun _ => At target) (fun _ => At source) := by
  have edge := edge_of_allowed allowed
  unfold transition
  refine holds_via (fun d s => d = s ∧ At source s) (holds_get fun s start => ⟨rfl, start⟩) ?_
  intro driver
  refine holds_via (fun _ s => At source s ∧ At source driver ∧ s.states = driver.states)
    (holds_modify ?_) ?_
  · rintro s ⟨rfl, start⟩
    refine ⟨⟨⟨start.1.path, start.1.begins, ?_⟩, start.2⟩, start, rfl⟩
    rw [start.state_eq]
    exact asked_cons start.1 edge
  intro _
  refine holds_via (fun _ s => At source s ∧ At source driver) (holds_answer ?_ ?_) ?_
  · intro _ s _ start
    exact ⟨start.1, start.2.1⟩
  · intro _ s _ start
    exact start.1
  intro _
  refine holds_via (fun _ s => At source s) (holds_require ?_ ?_) ?_
  · intro _ s start
    exact start.1
  · intro _ s start
    exact start.1
  intro _
  refine holds_modify ?_
  rintro s ⟨legal, current⟩
  obtain ⟨states, asked, observations, targetReached, stopReason, expectedSnapshots⟩ := s
  cases states with
  | nil => cases current
  | cons state states =>
      cases current
      refine ⟨⟨?_, ?_, legal.asked⟩, rfl⟩
      · exact .cons_cons edge legal.path
      · have begins := legal.begins
        rw [List.getLast?_cons_cons]
        exact begins

theorem At.unfinished {state : AttemptState} {driver : Driver}
    (open' : RunStore.allowedTransition state .finalizing = true) (at' : At state driver) :
    Unfinished driver :=
  ⟨state, at', open'⟩

/-- What is no transition keeps the state. -/
theorem At.of_states {state : AttemptState} {driver driver' : Driver} (at' : At state driver)
    (states : driver'.states = driver.states) (asked : driver'.asked = driver.asked) : At state driver' := by
  obtain ⟨⟨path, begins, edges⟩, current⟩ := at'
  rw [← states] at path begins current
  rw [← asked] at edges
  exact ⟨⟨path, begins, edges⟩, current⟩

section Events

variable (store : Store) (slots : Nat) {source : AttemptState}

theorem phase_holds {phase : AttemptPhase}
    (allowed : RunStore.allowedTransition source phase.state = true)
    (open' : RunStore.allowedTransition source .finalizing = true) :
    Holds (At source) (onEvent store slots (.phase phase)) (fun _ => At phase.state) (fun _ => Unfinished) :=
  (transition_holds store allowed).weaken (fun _ start => start) (fun _ _ moved => moved)
    fun _ _ left => left.unfinished open'

theorem stopped_holds (reason : StopReason)
    (open' : RunStore.allowedTransition source .finalizing = true) :
    Holds (At source) (onEvent store slots (.stopped reason)) (fun _ => At source) (fun _ => Unfinished) :=
  keeps_modify fun _ start => start.of_states rfl rfl

theorem buffer_holds (snapshots : Nat) (reason : StopReason)
    (open' : RunStore.allowedTransition source .finalizing = true) :
    Holds (At source) (onEvent store slots (.buffer snapshots reason)) (fun _ => At source)
      (fun _ => Unfinished) :=
  (keeps_answer fun _ start => start.unfinished open').bind fun _ =>
    keeps_modify fun _ start => start.of_states rfl rfl

theorem register_holds (result : ProfileResult) (ordinal : Nat)
    (open' : RunStore.allowedTransition source .finalizing = true) :
    Holds (At source) (register result ordinal) (fun _ => At source) (fun _ => Unfinished) := by
  unfold register
  cases result.profile with
  | streaming record => exact keeps_require fun _ start => start.unfinished open'
  | buffered record => exact keeps_pure
  | fresh record => exact keeps_pure

theorem observation_holds (result : ProfileResult)
    (open' : RunStore.allowedTransition source .finalizing = true) :
    Holds (At source) (onEvent store slots (.observation result)) (fun _ => At source)
      (fun _ => Unfinished) := by
  refine keeps_get.bind fun driver => ?_
  refine (keeps_require fun _ start => start.unfinished open').bind fun _ => ?_
  refine (keeps_answer fun _ start => start.unfinished open').bind fun _ => ?_
  refine (register_holds result _ open').bind fun _ => ?_
  exact keeps_modify fun _ start => start.of_states rfl rfl

end Events

/-! ## The buffered executor -/

namespace BufferedRun

variable (run : BufferedRun)

theorem completion_holds (metrics : Json) :
    Holds (At .evaluating) (run.completion metrics) (fun _ => At .evaluating) (fun _ => Unfinished) := by
  unfold completion
  cases run.policy.metric with
  | none => exact keeps_pure
  | some metric =>
      cases run.policy.threshold with
      | none => exact keeps_pure
      | some target => exact (keeps_answer fun _ start => start.unfinished rfl).bind fun _ => keeps_pure

theorem observe_holds (snapshot : SnapshotEvaluation) :
    Holds (At .evaluating) (run.observe snapshot) (fun _ => At .evaluating) (fun _ => Unfinished) := by
  have failing : ∀ driver, At .evaluating driver → Unfinished driver := fun _ start => start.unfinished rfl
  unfold observe
  refine (keeps_answer failing).bind fun _ => ?_
  refine (keeps_answer failing).bind fun _ => ?_
  refine (keeps_answer failing).bind fun _ => ?_
  refine (keeps_require failing).bind fun _ => ?_
  refine (keeps_answer failing).bind fun metrics => ?_
  refine (run.completion_holds metrics).bind fun _ => ?_
  refine (keeps_answer failing).bind fun _ => ?_
  refine (observation_holds run.store run.slots _ rfl).bind fun _ => ?_
  exact keeps_answer failing

/-- A buffered execution leaves a started attempt where it can be finalized. -/
theorem runBuffered_holds :
    Holds (At .starting) run.runBuffered (fun _ => At .evaluating) (fun _ => Unfinished) := by
  unfold runBuffered
  refine (keeps_answer fun _ start => start.unfinished rfl).bind fun _ => ?_
  refine (phase_holds run.store run.slots rfl rfl).bind fun _ => ?_
  refine (keeps_answer fun _ start => start.unfinished rfl).bind fun _ => ?_
  refine (phase_holds run.store run.slots rfl rfl).bind fun _ => ?_
  refine (keeps_answer fun _ start => start.unfinished rfl).bind fun _ => ?_
  refine (phase_holds run.store run.slots rfl rfl).bind fun _ => ?_
  refine (keeps_answer fun _ start => start.unfinished rfl).bind fun stopReason => ?_
  refine (buffer_holds run.store run.slots _ stopReason rfl).bind fun _ => ?_
  refine (keeps_answer fun _ start => start.unfinished rfl).bind fun _ => ?_
  refine (phase_holds run.store run.slots rfl rfl).bind fun _ => ?_
  refine (Holds.forEach (At .evaluating) run.observe_holds run.snapshots).bind fun _ => ?_
  exact keeps_answer fun _ start => start.unfinished rfl

end BufferedRun

/-! ## The streaming executor -/

/-- The driver of a run is at a state. -/
def RunnerAt (state : AttemptState) (runner : Runner) : Prop := At state runner.driver

def RunnerUnfinished (runner : Runner) : Prop := Unfinished runner.driver

/-- Where a message finds the attempt. -/
def Awaiting : StreamMessage → Runner → Prop
  | .checkpoint _, runner => RunnerAt .executing runner
  | .finished _, runner => RunnerAt .executing runner ∨ RunnerAt .evaluating runner

theorem Awaiting.unfinished {message : StreamMessage} {runner : Runner} (awaiting : Awaiting message runner) :
    RunnerUnfinished runner := by
  cases message with
  | checkpoint checkpoint => exact At.unfinished rfl awaiting
  | finished count =>
      rcases awaiting with executing | evaluating
      · exact executing.unfinished rfl
      · exact evaluating.unfinished rfl

theorem onSession_keeps {α : Type} (step : SessionStep α) {state : AttemptState}
    (open' : RunStore.allowedTransition state .finalizing = true) :
    Holds (RunnerAt state) (onSession step) (fun _ => RunnerAt state) (fun _ => RunnerUnfinished) := by
  intro runner start
  unfold onSession
  rcases step runner.session with ⟨session, result⟩
  cases result with
  | ok a => exact start
  | error e => exact At.unfinished open' start

namespace StreamingRun

variable (run : StreamingRun) {source : AttemptState}

theorem event_holds {event : ProfileEvent} {target : AttemptState}
    (holds : Holds (At source) (onEvent run.store run.slots event) (fun _ => At target) (fun _ => Unfinished)) :
    Holds (RunnerAt source) (run.event event) (fun _ => RunnerAt target) (fun _ => RunnerUnfinished) :=
  holds.within (fun _ start => start) (fun _ _ _ _ moved => moved) fun _ _ _ _ left => left

theorem event_phase {phase : AttemptPhase}
    (allowed : RunStore.allowedTransition source phase.state = true)
    (open' : RunStore.allowedTransition source .finalizing = true) :
    Holds (RunnerAt source) (run.event (.phase phase)) (fun _ => RunnerAt phase.state)
      (fun _ => RunnerUnfinished) :=
  run.event_holds (phase_holds run.store run.slots allowed open')

theorem snapshot_holds (checkpoint : StreamCheckpoint) (evaluation : Evaluation) :
    Holds (RunnerAt .checkpointing) (run.snapshot checkpoint evaluation) (fun _ => RunnerAt .checkpointing)
      (fun _ => RunnerUnfinished) := by
  have failing : ∀ runner, RunnerAt .checkpointing runner → RunnerUnfinished runner :=
    fun _ start => At.unfinished rfl start
  unfold snapshot
  refine (keeps_answer failing).bind fun manifest => ?_
  refine (keeps_answer failing).bind fun prepared => ?_
  rcases prepared with ⟨directory, _⟩
  refine keeps_get.bind fun runner => ?_
  refine (keeps_require failing).bind fun _ => ?_
  exact keeps_modify fun _ start => start

theorem evaluate_holds (evaluation : Evaluation) :
    Holds (RunnerAt .validating) (run.evaluate evaluation) (fun _ => RunnerAt .evaluating)
      (fun _ => RunnerUnfinished) := by
  have failing : ∀ runner, RunnerAt .validating runner → RunnerUnfinished runner :=
    fun _ start => At.unfinished rfl start
  have failing' : ∀ runner, RunnerAt .evaluating runner → RunnerUnfinished runner :=
    fun _ start => At.unfinished rfl start
  unfold evaluate
  refine holds_via (fun _ => RunnerAt .validating) ?_ fun _ => ?_
  · unfold launchEvaluator
    refine keeps_get.bind fun runner => ?_
    split
    · exact keeps_pure
    · exact (keeps_answer failing).bind fun _ => keeps_modify fun _ start => start
  refine (keeps_answer failing).bind fun _ => ?_
  refine (run.event_phase rfl rfl).bind fun _ => ?_
  refine (keeps_answer failing').bind fun valid => ?_
  refine (keeps_answer failing').bind fun _ => ?_
  refine (keeps_require failing').bind fun _ => ?_
  exact keeps_answer failing'

theorem targetMetric_holds (metrics : Json) :
    Holds (RunnerAt .evaluating) (run.targetMetric metrics) (fun _ => RunnerAt .evaluating)
      (fun _ => RunnerUnfinished) := by
  unfold targetMetric
  cases run.profile.policy.metric with
  | none => exact keeps_pure
  | some name => exact (keeps_answer fun _ start => At.unfinished rfl start).bind fun _ => keeps_pure

/-- A checkpoint is published while the attempt evaluates. -/
theorem observe_holds (limit : Nat) (checkpoint : StreamCheckpoint) (evaluation : Evaluation) :
    Holds (RunnerAt .executing) (run.observe limit checkpoint evaluation) (fun _ => RunnerAt .evaluating)
      (fun _ => RunnerUnfinished) := by
  have failing : ∀ {state : AttemptState}, RunStore.allowedTransition state .finalizing = true →
      ∀ runner, RunnerAt state runner → RunnerUnfinished runner :=
    fun open' _ start => At.unfinished open' start
  unfold observe
  refine keeps_get.bind fun runner => ?_
  refine (keeps_require (failing rfl)).bind fun _ => ?_
  refine holds_via (fun _ => RunnerAt .executing) (keeps_modify fun _ start => start) fun _ => ?_
  refine (run.event_phase rfl rfl).bind fun _ => ?_
  refine (run.snapshot_holds checkpoint evaluation).bind fun _ => ?_
  refine (keeps_answer (failing rfl)).bind fun _ => ?_
  refine (run.event_phase rfl rfl).bind fun _ => ?_
  refine (keeps_answer (failing rfl)).bind fun _ => ?_
  refine (run.evaluate_holds evaluation).bind fun metrics => ?_
  refine (run.targetMetric_holds metrics).bind fun metric => ?_
  refine keeps_get.bind fun runner => ?_
  refine holds_via (fun _ => RunnerAt .evaluating) (keeps_modify fun _ start => start) fun _ => ?_
  refine (keeps_answer (failing rfl)).bind fun times => ?_
  rcases times with ⟨elapsed, evaluationTime⟩
  refine (keeps_answer (failing rfl)).bind fun _ => ?_
  refine (run.event_holds (observation_holds run.store run.slots _ rfl)).bind fun _ => ?_
  exact keeps_pure

/-- A stop is answered by a response; without one the attempt executes again. -/
theorem proceed_holds (reason : Option StopReason) (turn : Turn) :
    Holds (RunnerAt .evaluating) (run.proceed reason turn) Awaiting (fun _ => RunnerUnfinished) := by
  unfold proceed
  cases reason with
  | some stop =>
      refine holds_via (fun _ => RunnerAt .evaluating) (keeps_modify fun _ start => start) fun _ => ?_
      refine onSession_holds (decideStream_stop (some stop.name) turn.exchange) (fun _ _ => trivial) ?_ ?_
      · rintro message runner session start ⟨count, rfl⟩
        exact .inr start
      · intro e runner session start _
        exact At.unfinished rfl start
  | none =>
      refine (run.event_phase rfl rfl).bind fun _ => ?_
      refine (keeps_answer fun _ start => At.unfinished rfl start).bind fun _ => ?_
      refine (onSession_keeps _ rfl).weaken (fun _ start => start) ?_ fun _ _ left => left
      intro message runner start
      cases message with
      | checkpoint checkpoint => exact start
      | finished count => exact .inl start

theorem loop_holds (limit : Nat) (turns : List Turn) : ∀ message,
    Holds (Awaiting message) (run.loop limit message turns)
      (fun _ runner => RunnerAt .executing runner ∨ RunnerAt .evaluating runner)
      (fun _ => RunnerUnfinished) := by
  induction turns with
  | nil =>
      intro message
      cases message with
      | checkpoint checkpoint => exact holds_fail fun _ start => start.unfinished
      | finished count => exact holds_pure fun _ start => start
  | cons turn turns ih =>
      intro message
      cases message with
      | checkpoint checkpoint =>
          refine (run.observe_holds limit checkpoint turn.evaluation).bind fun reason => ?_
          exact (run.proceed_holds reason turn).bind fun message => ih message
      | finished count => exact holds_pure fun _ start => start

theorem stream_holds (limit : Nat) :
    Holds (RunnerAt .starting) (run.stream limit) (fun _ => RunnerUnfinished) (fun _ => RunnerUnfinished) := by
  unfold stream
  refine (keeps_answer fun _ start => At.unfinished rfl start).bind fun _ => ?_
  refine (run.event_phase rfl rfl).bind fun _ => ?_
  refine (keeps_answer fun _ start => At.unfinished rfl start).bind fun _ => ?_
  refine (run.event_phase rfl rfl).bind fun _ => ?_
  refine (keeps_answer fun _ start => At.unfinished rfl start).bind fun _ => ?_
  refine holds_via Awaiting ?_ fun message => ?_
  · refine (onSession_keeps _ rfl).weaken (fun _ start => start) ?_ fun _ _ left => left
    intro message runner start
    cases message with
    | checkpoint checkpoint => exact start
    | finished count => exact .inl start
  refine holds_via (fun _ => RunnerUnfinished) ?_ fun _ => ?_
  · refine (run.loop_holds limit run.turns message).weaken (fun _ start => start) ?_ fun _ _ left => left
    rintro _ runner (executing | evaluating)
    · exact At.unfinished rfl executing
    · exact At.unfinished rfl evaluating
  refine keeps_get.bind fun runner => ?_
  refine @Holds.within _ _ _ _ _ _ _ _ _ _ Unfinished _ _ ?_ (fun _ start => start)
    (fun _ _ _ _ moved => moved) fun _ _ _ _ left => left
  apply keeps_modify
  rintro _ ⟨state, start, open'⟩
  exact ⟨state, start.of_states rfl rfl, open'⟩

/-- A streaming execution leaves a started attempt where it can be finalized. -/
theorem runStreaming_holds :
    Holds (RunnerAt .starting) run.runStreaming (fun _ => RunnerUnfinished) (fun _ => RunnerUnfinished) := by
  unfold runStreaming
  refine (keeps_answer fun _ start => At.unfinished rfl start).bind fun limit => ?_
  refine holds_via (fun _ => RunnerUnfinished) ?_ fun result => ?_
  · exact (run.stream_holds limit).capture (fun _ _ left => left) fun _ _ left => left
  refine (keeps_answer fun _ left => left).bind fun _ => ?_
  refine (keeps_answer fun _ left => left).bind fun _ => ?_
  exact keeps_answer fun _ left => left

end StreamingRun

/-! ## The attempt -/

theorem runProfile_holds (executor : Executor) :
    Holds (At .starting) executor.runProfile (fun _ => Unfinished) (fun _ => Unfinished) := by
  cases executor with
  | buffered run =>
      exact run.runBuffered_holds.weaken (fun _ start => start) (fun _ _ left => left.unfinished rfl)
        fun _ _ left => left
  | streaming session run =>
      intro driver start
      have outcome := run.runStreaming_holds { session, driver } start
      unfold Executor.runProfile
      dsimp only
      rcases h : run.runStreaming { session, driver } with ⟨runner, result⟩
      rw [h] at outcome
      cases result with
      | ok _ => exact outcome
      | error e => exact outcome

namespace AttemptRun

variable (run : AttemptRun)

/-- The driver that the measured execution leaves. -/
theorem measured_unfinished {reuse : Reuse} {driver : Driver} (start : At .starting driver) {session : Worker.SessionState} :
    (∀ driver' state, run.measured reuse driver session = .ok (driver', state) → Unfinished driver') ∧
    ∀ failure driver', run.measured reuse driver session = .error (failure, driver') → Unfinished driver' := by
  have ran := runProfile_holds run.executor driver start
  unfold measured
  rcases h : run.executor.runProfile driver with ⟨left, result⟩
  rw [h] at ran
  cases result with
  | ok _ =>
      constructor
      · intro driver' state same
        cases same
        exact ran
      · intro failure driver' impossible
        cases impossible
  | error failure =>
      constructor
      · intro driver' state impossible
        cases impossible
      · intro failure driver' same
        cases same
        exact ran

/-- Warm-ups emit nothing, so the attempt is where the measured execution left it. -/
theorem reused_holds (reuse : Reuse) :
    Holds (At .starting) (run.reused reuse) (fun _ => Unfinished) (fun _ => Unfinished) := by
  intro driver start
  obtain ⟨served, failed⟩ := Worker.runSlotScoped_outcome (run.slotCall reuse driver) reuse.worker
  unfold reused
  rcases outcome : (Worker.runSlotScoped (run.slotCall reuse driver) reuse.worker).2 with error | driver'
  · cases error with
    | slot source =>
        obtain ⟨failure, driver'⟩ := source
        obtain ⟨session, measured⟩ := failed _ outcome
        exact (run.measured_unfinished start).2 failure driver' measured
    | invalidPolicy => exact start.unfinished rfl
    | missingPrivateDirectory => exact start.unfinished rfl
    | cleanup kind => exact start.unfinished rfl
    | session error => exact start.unfinished rfl
    | warmup index source => exact start.unfinished rfl
    | launch source => exact start.unfinished rfl
  · obtain ⟨session, state, measured⟩ := served driver' outcome
    exact (run.measured_unfinished start).1 driver' state measured

/-- Successful or failed at any point, an execution can be finalized. -/
theorem executed_holds :
    Holds (At .starting) run.executed (fun _ => Unfinished) (fun _ => Unfinished) := by
  unfold executed
  cases run.reuse with
  | none => exact runProfile_holds run.executor
  | some reuse => exact run.reused_holds reuse

theorem finalize_holds (status : ProfileAttemptStatus) :
    Holds Unfinished (run.finalize status) (fun _ => Legal) (fun _ => Legal) := by
  intro driver ⟨state, start, open'⟩
  have steps : Holds (At state) (run.finalize status) (fun _ => Legal) (fun _ => Legal) := by
    unfold finalize
    refine holds_via (fun _ => At .finalizing) ?_ fun _ => ?_
    · exact (transition_holds run.executor.store open').weaken (fun _ start => start) (fun _ _ moved => moved)
        fun _ _ left => left.legal
    · generalize (if status = .accepted ∧ run.superseded then .superseded else status) = final
      have closes : RunStore.allowedTransition .finalizing final.state = true := by
        cases final <;> rfl
      exact (transition_holds run.executor.store closes).weaken (fun _ start => start)
        (fun _ _ moved => moved.legal) fun _ _ left => left.legal
  exact steps driver start

theorem execute_holds :
    Holds (At .reserved) run.execute (fun _ => Legal) (fun _ => Legal) := by
  unfold execute
  refine holds_via (fun _ => At .materializing) ?_ fun _ => ?_
  · exact (transition_holds run.executor.store rfl).weaken (fun _ start => start) (fun _ _ moved => moved)
      fun _ _ left => left.legal
  refine holds_via (fun _ => At .starting) ?_ fun _ => ?_
  · exact (transition_holds run.executor.store rfl).weaken (fun _ start => start) (fun _ _ moved => moved)
      fun _ _ left => left.legal
  cases run.checked with
  | error failure =>
      exact (run.finalize_holds .failed).weaken (fun _ start => start.unfinished rfl)
        (fun _ _ legal => legal) fun _ _ legal => legal
  | ok _ =>
      refine holds_via (fun _ => Unfinished) ?_ fun result => ?_
      · exact run.executed_holds.capture (fun _ _ left => left) fun _ _ left => left
      refine keeps_get.bind fun driver => ?_
      exact run.finalize_holds _

/-- Whatever is answered along the way, the transitions an attempt asks for are edges of the run
store and of the archive, its states are a path of both graphs, and from wherever its execution
ends, on a worker of its own or on a reused one, the attempt can be finalized. -/
theorem execute_legal :
    Legal (run.execute .reserved).1 ∧
      ∀ driver, At .starting driver →
        ∃ state, At state (run.executed driver).1 ∧ Edge state .finalizing := by
  constructor
  · have outcome := run.execute_holds .reserved at_reserved
    rcases h : run.execute .reserved with ⟨driver, result⟩
    rw [h] at outcome
    cases result with
    | ok _ => exact outcome
    | error failure => exact outcome
  · intro driver start
    have outcome := run.executed_holds driver start
    rcases h : run.executed driver with ⟨driver', result⟩
    rw [h] at outcome
    have left : Unfinished driver' := by
      cases result with
      | ok _ => exact outcome
      | error failure => exact outcome
    obtain ⟨state, at', open'⟩ := left
    exact ⟨state, at', edge_of_allowed open'⟩

end AttemptRun

end Metewand.Execution
