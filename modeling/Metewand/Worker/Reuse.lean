import Metewand.Core.Logical
import Metewand.Lib.Check
import Metewand.Lib.Transition

/-!
# Reused workers

`runtime/worker_reuse.rs`: one worker process may serve several slots.  A slot takes the
retained session out, resets and clears it, repeats the warm-ups when they belong to another
specification, and gives the session back only after success.

Callbacks, the worker's reset and the file system answer as they like.  What happens to each
process is written to a trace, which the code itself does not keep.
-/

namespace Metewand.Worker

open Lib Lib.Check

abbrev Path : Type := List String

abbrev SpecificationId : Type := RecordId .resolvedSpecification

inductive WorkerRole where
  | datasetMaterializer | problemPreparer | implementation | problemEvaluator
  deriving DecidableEq

inductive Capability where
  | problemPreparation | oneShot | applicability | freshSequence | streamingProfile
  | bufferedProfile | managedOutputs | problemSemantics
  deriving DecidableEq

structure WorkerReuseKey where
  selectedCapabilities : List Capability
  role : WorkerRole
  definition : RecordId .implementationDefinition
  resolved : ResolvedWorkerRecord
  policy : ExecutionPolicyRecord
  deriving DecidableEq

/-! ## Sessions -/

structure Entry where
  name : String
  directory : Bool

/-- What a session knows of its process, and the private directory of that process. -/
structure SessionState where
  usable : Bool
  scientificDeadline : Option Nat
  privateWorkingDirectory : Option Path
  /-- The realized environment, its values read as paths. -/
  environment : Option (List (String × Path))
  contents : List Entry

/-- A session owns one process, numbered by its launch. -/
structure WorkerSession where
  process : Nat
  state : SessionState

inductive WorkerReuseError (E : Type) where
  | invalidPolicy
  | missingPrivateDirectory
  | cleanup (kind : String)
  | session (error : String)
  | warmup (index : Nat) (source : E)
  | launch (source : E)
  | slot (source : E)

/-- What the worker and the file system do during one reset. -/
structure Cleaning where
  reset : SessionState → Except String SessionState
  setPrivateDirectory : Path → Except String Unit
  readDirectory : Path → Except String Unit
  remove : Path → Entry → Except String Unit
  createDirectories : Path → Except String Unit

/-- The private path below a root, unless it is the root itself. -/
def below (root path : Path) : Option Path :=
  if root.isPrefixOf path ∧ root.length < path.length then some (path.drop root.length) else none

/-- The entry a created path leaves in its root. -/
def created (root path : Path) : Option Entry :=
  (below root path).bind fun relative => relative.head?.map fun name => ⟨name, true⟩

def recreate {E : Type} (cleaning : Cleaning) (root : Path) (settings : List (String × Path)) :
    Except (WorkerReuseError E) Unit :=
  each (fun setting =>
    if (below root setting.2).isSome then do
      (cleaning.createDirectories setting.2).mapError .cleanup
      (cleaning.setPrivateDirectory setting.2).mapError .cleanup
    else .ok ()) settings

/-- `reset_and_clear`. -/
def resetAndClear {E : Type} (cleaning : Cleaning) (session : SessionState) :
    Except (WorkerReuseError E) SessionState := do
  let session ← (cleaning.reset { session with scientificDeadline := none }).mapError .session
  let root ← expect session.privateWorkingDirectory .missingPrivateDirectory
  (cleaning.setPrivateDirectory root).mapError .cleanup
  (cleaning.readDirectory root).mapError .cleanup
  each (fun entry => (cleaning.remove root entry).mapError .cleanup) session.contents
  let settings ← expect session.environment .missingPrivateDirectory
  recreate cleaning root settings
  return { session with contents := settings.filterMap fun setting => created root setting.2 }

/-- A cleared private directory holds the directories of the environment only. -/
theorem resetAndClear_contents {E : Type} {cleaning : Cleaning} {session cleared : SessionState}
    (done : resetAndClear (E := E) cleaning session = .ok cleared) :
    ∃ root settings, cleared.privateWorkingDirectory = some root ∧
      cleared.environment = some settings ∧
      cleared.contents = settings.filterMap fun setting => created root setting.2 := by
  simp only [resetAndClear, ok_bind, ok_expect, ok_pure] at done
  obtain ⟨session', -, root, hasRoot, _, -, _, -, _, -, settings, hasSettings, _, -, rfl⟩ := done
  exact ⟨root, settings, hasRoot, hasSettings, rfl⟩

/-! ## Calls -/

/-- What happens to a process. -/
inductive Event where
  | launched (process : Nat)
  /-- A warm-up returned success. -/
  | warmedUp (process : Nat) (specification : Option SpecificationId) (index : Nat)
  /-- `reset_and_clear` returned success. -/
  | cleared (process : Nat)
  /-- The measured callback starts. -/
  | measuring (process : Nat) (key : WorkerReuseKey) (specification : Option SpecificationId)
  /-- The measured callback returned success. -/
  | served (process : Nat) (key : WorkerReuseKey) (specification : Option SpecificationId)
  /-- A callback, a reset or a cleanup failed. -/
  | failed (process : Nat)
  deriving DecidableEq

def Event.process : Event → Nat
  | .launched process => process
  | .warmedUp process _ _ => process
  | .cleared process => process
  | .measuring process _ _ => process
  | .served process _ _ => process
  | .failed process => process

structure ReusableWorker where
  retained : Option (WorkerReuseKey × Option SpecificationId × WorkerSession)
  /-- How many processes were launched. -/
  launches : Nat
  trace : List Event

def ReusableWorker.default : ReusableWorker := ⟨none, 0, []⟩

def ReusableWorker.record (worker : ReusableWorker) (event : Event) : ReusableWorker :=
  { worker with trace := worker.trace ++ [event] }

variable {T E : Type}

/-- The arguments of `run_slot_scoped`, with what every reset of the call does. -/
structure SlotCall (T E : Type) where
  key : WorkerReuseKey
  specification : Option SpecificationId
  launch : Except E SessionState
  warmup : SessionState → Nat → Except E SessionState
  measured : SessionState → Except E (T × SessionState)
  cleaning : Nat → Cleaning

def InvalidPolicy (key : WorkerReuseKey) : Prop :=
  key.role ≠ .implementation ∨ (0 < key.policy.warmupRuns ∧ ¬key.policy.workerReuse) ∨
    (key.policy.timingScope = .coldEndToEnd ∧ (key.policy.workerReuse ∨ 0 < key.policy.warmupRuns))

instance (key : WorkerReuseKey) : Decidable (InvalidPolicy key) := by
  unfold InvalidPolicy
  infer_instance

/-- `reset_and_clear` of a session. -/
def clear (cleaning : Cleaning) (session : WorkerSession) (worker : ReusableWorker) :
    ReusableWorker × Except (WorkerReuseError E) WorkerSession :=
  match resetAndClear cleaning session.state with
  | .error e => (worker.record (.failed session.process), .error e)
  | .ok state => (worker.record (.cleared session.process), .ok ⟨session.process, state⟩)

/-- A new process, which always needs its warm-ups. -/
def launch (call : SlotCall T E) (worker : ReusableWorker) :
    ReusableWorker × Except (WorkerReuseError E) (WorkerSession × Bool) :=
  match call.launch with
  | .error source => (worker, .error (.launch source))
  | .ok state =>
      ({ worker with launches := worker.launches + 1 }.record (.launched worker.launches),
        .ok (⟨worker.launches, state⟩, true))

/-- The session of a slot, and whether it needs warm-ups. -/
def acquire (call : SlotCall T E) (previous : Option (WorkerReuseKey × Option SpecificationId × WorkerSession))
    (worker : ReusableWorker) : ReusableWorker × Except (WorkerReuseError E) (WorkerSession × Bool) :=
  match previous with
  | none => launch call worker
  | some (previousKey, previousSpecification, session) =>
      if call.key.policy.workerReuse ∧ previousKey = call.key ∧ session.state.usable then
        match clear (call.cleaning 0) session worker with
        | (worker, .error e) => (worker, .error e)
        | (worker, .ok session) => (worker, .ok (session, decide (previousSpecification ≠ call.specification)))
      else launch call worker

/-- The warm-ups from an index on. -/
def warmUps (call : SlotCall T E) : Nat → Nat → WorkerSession → ReusableWorker →
    ReusableWorker × Except (WorkerReuseError E) WorkerSession
  | 0, _, session, worker => (worker, .ok session)
  | count + 1, index, session, worker =>
      match call.warmup session.state index with
      | .error source => (worker.record (.failed session.process), .error (.warmup index source))
      | .ok state =>
          match clear (call.cleaning (index + 1)) ⟨session.process, state⟩
              (worker.record (.warmedUp session.process call.specification index)) with
          | (worker, .error e) => (worker, .error e)
          | (worker, .ok session) => warmUps call count (index + 1) session worker

/-- The measured slot; its session is kept when it may serve another. -/
def measure (call : SlotCall T E) (session : WorkerSession) (worker : ReusableWorker) :
    ReusableWorker × Except (WorkerReuseError E) T :=
  let worker := worker.record (.measuring session.process call.key call.specification)
  match call.measured session.state with
  | .error source => (worker.record (.failed session.process), .error (.slot source))
  | .ok (output, state) =>
      let worker := worker.record (.served session.process call.key call.specification)
      if call.key.policy.workerReuse ∧ state.usable then
        ({ worker with retained := some (call.key, call.specification, ⟨session.process, state⟩) },
          .ok output)
      else (worker, .ok output)

/-- `run_slot_scoped`. -/
def runSlotScoped (call : SlotCall T E) (worker : ReusableWorker) :
    ReusableWorker × Except (WorkerReuseError E) T :=
  if InvalidPolicy call.key then (worker, .error .invalidPolicy)
  else
    match acquire call worker.retained { worker with retained := none } with
    | (worker, .error e) => (worker, .error e)
    | (worker, .ok (session, needsWarmups)) =>
        match warmUps call (if needsWarmups then call.key.policy.warmupRuns else 0) 0 session worker with
        | (worker, .error e) => (worker, .error e)
        | (worker, .ok session) => measure call session worker

theorem recreate_ne_slot {cleaning : Cleaning} {root : Path} {settings : List (String × Path)} {source : E} :
    recreate cleaning root settings ≠ .error (.slot source) := by
  intro failed
  obtain ⟨setting, -, here⟩ := error_each failed
  split at here
  · rcases error_bind.mp here with first | ⟨_, -, second⟩
    · obtain ⟨_, -, impossible⟩ := error_mapError.mp first
      cases impossible
    · obtain ⟨_, -, impossible⟩ := error_mapError.mp second
      cases impossible
  · cases here

/-- Clearing a session fails for reasons of its own. -/
theorem resetAndClear_ne_slot {cleaning : Cleaning} {session : SessionState} {source : E} :
    resetAndClear cleaning session ≠ .error (.slot source) := by
  intro failed
  simp only [resetAndClear, error_bind, error_mapError, error_expect, reduceCtorEq, and_false,
    exists_false, false_or] at failed
  obtain ⟨_, -, root, -, _, -, _, -, removal | ⟨_, -, settings, -, recreation | ⟨_, -, impossible⟩⟩⟩ := failed
  · obtain ⟨entry, -, here⟩ := error_each removal
    obtain ⟨_, -, impossible⟩ := error_mapError.mp here
    cases impossible
  · exact recreate_ne_slot recreation
  · cases impossible

theorem clear_ne_slot {cleaning : Cleaning} {session : WorkerSession} {worker : ReusableWorker} {source : E} :
    (clear cleaning session worker).2 ≠ .error (.slot source) := by
  unfold clear
  cases cleared : resetAndClear (E := E) cleaning session.state with
  | ok state =>
      intro impossible
      cases impossible
  | error e =>
      intro same
      cases same
      exact resetAndClear_ne_slot cleared

theorem acquire_ne_slot {call : SlotCall T E}
    {previous : Option (WorkerReuseKey × Option SpecificationId × WorkerSession)} {worker : ReusableWorker}
    {source : E} : (acquire call previous worker).2 ≠ .error (.slot source) := by
  have launches : (launch call worker).2 ≠ .error (.slot source) := by
    unfold launch
    cases call.launch with
    | ok state =>
        intro impossible
        cases impossible
    | error e =>
        intro impossible
        cases impossible
  unfold acquire
  rcases previous with - | ⟨key, specification, session⟩
  · exact launches
  · dsimp only
    split
    · rcases h : clear (E := E) (call.cleaning 0) session worker with ⟨worker', result⟩
      have clears : result ≠ .error (.slot source) := by
        rw [show result = (worker', result).2 from rfl, ← h]
        exact clear_ne_slot
      cases result with
      | ok session =>
          intro impossible
          cases impossible
      | error e =>
          intro same
          exact clears (congrArg Except.error (Except.error.inj same))
    · exact launches

theorem warmUps_ne_slot {call : SlotCall T E} {source : E} (count : Nat) :
    ∀ (index : Nat) (session : WorkerSession) (worker : ReusableWorker),
      (warmUps call count index session worker).2 ≠ .error (.slot source) := by
  induction count with
  | zero =>
      intro index session worker impossible
      cases impossible
  | succ count ih =>
      intro index session worker
      unfold warmUps
      cases call.warmup session.state index with
      | error e =>
          intro impossible
          cases impossible
      | ok state =>
          dsimp only
          rcases h : clear (E := E) (call.cleaning (index + 1)) ⟨session.process, state⟩
              (worker.record (.warmedUp session.process call.specification index)) with ⟨worker', result⟩
          have clears : result ≠ .error (.slot source) := by
            rw [show result = (worker', result).2 from rfl, ← h]
            exact clear_ne_slot
          cases result with
          | ok session => exact ih (index + 1) session worker'
          | error e => exact clears ∘ fun same => same

/-- What a slot returns is what its measured callback returned. -/
theorem runSlotScoped_outcome (call : SlotCall T E) (worker : ReusableWorker) :
    (∀ output, (runSlotScoped call worker).2 = .ok output →
      ∃ session state, call.measured session = .ok (output, state)) ∧
    ∀ source, (runSlotScoped call worker).2 = .error (.slot source) →
      ∃ session, call.measured session = .error source := by
  unfold runSlotScoped
  split
  · constructor
    · intro output impossible
      cases impossible
    · intro source impossible
      cases impossible
  rcases h : acquire call worker.retained { worker with retained := none } with ⟨worker', acquired⟩
  cases acquired with
  | error e =>
      constructor
      · intro output impossible
        cases impossible
      · intro source same
        have never := @acquire_ne_slot T E call worker.retained { worker with retained := none } source
        rw [h] at never
        exact (never (congrArg Except.error (Except.error.inj same))).elim
  | ok acquired =>
      obtain ⟨session, needsWarmups⟩ := acquired
      dsimp only
      rcases h' : warmUps call (if needsWarmups then call.key.policy.warmupRuns else 0) 0 session worker' with
        ⟨worker'', warmed⟩
      cases warmed with
      | error e =>
          constructor
          · intro output impossible
            cases impossible
          · intro source same
            have never := @warmUps_ne_slot T E call source
              (if needsWarmups then call.key.policy.warmupRuns else 0) 0 session worker'
            rw [h'] at never
            exact (never (congrArg Except.error (Except.error.inj same))).elim
      | ok session =>
          dsimp only
          unfold measure
          dsimp only
          cases ran : call.measured session.state with
          | error e =>
              constructor
              · intro output impossible
                cases impossible
              · intro source same
                cases same
                exact ⟨session.state, ran⟩
          | ok result =>
              obtain ⟨output, state⟩ := result
              constructor
              · intro other same
                dsimp only at same
                split at same <;> cases same <;> exact ⟨session.state, state, ran⟩
              · intro source impossible
                dsimp only at impossible
                split at impossible <;> cases impossible

inductive Call (T E : Type) where
  /-- `run_slot` without a specification, `run_slot_for_specification` with one. -/
  | slot (call : SlotCall T E)
  | discard

def ReusableWorker.perform (worker : ReusableWorker) : Call T E → ReusableWorker
  | .slot call => (runSlotScoped call worker).1
  | .discard => { worker with retained := none }

end Metewand.Worker
