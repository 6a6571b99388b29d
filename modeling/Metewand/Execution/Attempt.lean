import Metewand.Execution.Buffered
import Metewand.Execution.Streaming

/-!
# A profile attempt

`execute` of `runtime/run/profile.rs`: a reserved attempt is materialized and started, its
executor runs on a worker of its own or on a reused one after silent warm-ups, and the attempt is
finalized with what came of it.
-/

namespace Metewand.Execution

open Lib Effect RunStore Worker

/-- The executor of a candidate. -/
inductive Executor where
  | streaming (session : Session) (run : StreamingRun)
  | buffered (run : BufferedRun)

namespace Executor

def store : Executor → Store
  | .streaming _ run => run.store
  | .buffered run => run.store

def policy : Executor → ProfilePolicy
  | .streaming _ run => run.profile.policy
  | .buffered run => run.policy

def isStreaming : Executor → Bool
  | .streaming _ _ => true
  | .buffered _ => false

/-- `run_profile` with the events of the measured execution. -/
def runProfile : Executor → DriverStep Unit
  | .streaming session run => fun driver =>
      match run.runStreaming { session, driver } with
      | (runner, outcome) => (runner.driver, outcome)
  | .buffered run => run.runBuffered

end Executor

/-- The reused worker of an attempt, with what its calls answer. -/
structure Reuse where
  worker : ReusableWorker
  key : WorkerReuseKey
  specification : SpecificationId
  launch : Except Failure SessionState
  /-- `run_profile` on a warm-up, whose events are dropped. -/
  warmup : SessionState → Nat → Except Failure SessionState
  /-- The session after a successful measured execution. -/
  served : SessionState → SessionState
  cleaning : Nat → Cleaning

structure AttemptRun where
  executor : Executor
  /-- `preflight_policy`, `verify` and the private views. -/
  checked : Except Failure Unit
  /-- The worker kept for later attempts, unless the policy launches one for each. -/
  reuse : Option Reuse
  /-- The candidate is verified again. -/
  verified : Except Failure Unit
  /-- Whether another attempt holds the claim of the slot. -/
  superseded : Bool

/-- How an attempt ended. -/
inductive ProfileAttemptStatus where
  | accepted | censored | superseded | failed
  deriving DecidableEq

def ProfileAttemptStatus.state : ProfileAttemptStatus → AttemptState
  | .accepted => .accepted
  | .censored => .censored
  | .superseded => .superseded
  | .failed => .failed

/-- The failure of a call to the reused worker, as `execute` maps it. -/
def slotFailure : WorkerReuseError (Failure × Driver) → Failure
  | .launch source => source.1
  | .slot source => source.1
  | .warmup _ source => source.1
  | .session error => .implementation (.process error)
  | .cleanup kind => .external kind
  | .missingPrivateDirectory => .external "private directory"
  | .invalidPolicy => .external "policy"

namespace AttemptRun

variable (run : AttemptRun)

/-- The measured execution of a reused worker, beside the driver that it leaves. -/
def measured (reuse : Reuse) (driver : Driver) (session : SessionState) :
    Except (Failure × Driver) (Driver × SessionState) :=
  match run.executor.runProfile driver with
  | (driver, .ok _) => .ok (driver, reuse.served session)
  | (driver, .error failure) => .error (failure, driver)

def slotCall (reuse : Reuse) (driver : Driver) : SlotCall Driver (Failure × Driver) where
  key := reuse.key
  specification := some reuse.specification
  launch := reuse.launch.mapError (·, driver)
  warmup := fun session index => (reuse.warmup session index).mapError (·, driver)
  measured := run.measured reuse driver
  cleaning := reuse.cleaning

def reused (reuse : Reuse) : DriverStep Unit := fun driver =>
  match (runSlotScoped (run.slotCall reuse driver) reuse.worker).2 with
  | .ok driver => (driver, .ok ())
  | .error (.slot (failure, driver)) => (driver, .error failure)
  | .error error => (driver, .error (slotFailure error))

def executed : DriverStep Unit :=
  match run.reuse with
  | some reuse => run.reused reuse
  | none => run.executor.runProfile

def status (driver : Driver) (result : Except Failure Unit) : ProfileAttemptStatus :=
  match result with
  | .error failure => if run.executor.isStreaming ∧ failure.timedOut then .censored else .failed
  | .ok _ =>
      if (run.executor.isStreaming ∨ driver.observations.length = driver.expectedSnapshots) ∧
          (driver.targetReached ∨ (run.executor.policy.metric = none ∧
            driver.observations.length = run.executor.policy.maxObservations)) then .accepted
      else .censored

/-- `publish_profile`: acceptance may find the claim taken. -/
def finalize (status : ProfileAttemptStatus) : DriverStep Unit := do
  advance run.executor.store .finalizing
  let status := if status = .accepted ∧ run.superseded then .superseded else status
  transition run.executor.store status.state

def execute : DriverStep Unit := do
  advance run.executor.store .materializing
  advance run.executor.store .starting
  match run.checked with
  | .error _ => run.finalize .failed
  | .ok _ => do
      let result ← capture run.executed
      let result := match run.verified with
        | .ok _ => result
        | .error _ => .error (.invalidBuffer "input changed")
      let driver ← get
      run.finalize (run.status driver result)

end AttemptRun

end Metewand.Execution
