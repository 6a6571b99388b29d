import Metewand.Archive.Validation
import Metewand.Execution.Session
import Metewand.RunStore.Fencing

/-!
# The attempt driver

`runtime/run/profile.rs` and `runtime/run/attempt.rs`: the events of a profile execution become
transitions of its attempt and published observations.  The lease, the fence and the file system
admit what they like; the edge itself is checked by the store.
-/

namespace Metewand.Execution

open Lib Lib.Check Effect RunStore

/-- `FixedDatasetRunError`, by what later decisions look at. -/
inductive Failure where
  | invalidStream (message : String)
  | invalidBuffer (message : String)
  | metricDisagreement (name : String)
  | scientificInvalidResult
  | invalidScientificTimeout
  | scientificTimeout
  | implementation (source : WorkerSessionError)
  | coordination (message : String)
  /-- Launches, evaluations, trees and outputs. -/
  | external (kind : String)
  /-- An index outside the planned slots. -/
  | panicked
  deriving DecidableEq

/-- `failure_kind` is a scientific timeout. -/
def Failure.timedOut : Failure → Bool
  | .scientificTimeout | .implementation .scientificTimeout => true
  | _ => false

/-- An observation to publish. -/
structure ProfileResult where
  metrics : Json
  completion : CompletionStatus
  profile : ProfileObservationRecord

inductive ProfileEvent where
  | phase (phase : AttemptPhase)
  | buffer (snapshots : Nat) (stopReason : StopReason)
  | observation (result : ProfileResult)
  | stopped (reason : StopReason)

/-- What the store answers beyond the edges. -/
structure Store where
  advance : List AttemptState → AttemptState → Except Failure Unit
  publishBuffer : Except Failure Unit
  publishObservation : Nat → Except Failure Unit

structure Driver where
  /-- The states of the attempt, the current one first. -/
  states : List AttemptState
  /-- The edges the store was asked for. -/
  asked : List (AttemptState × AttemptState)
  observations : List ProfileResult
  targetReached : Bool
  stopReason : String
  expectedSnapshots : Nat

/-- A reserved attempt. -/
def Driver.reserved : Driver where
  states := [.reserved]
  asked := []
  observations := []
  targetReached := false
  stopReason := "unreturned_buffer"
  expectedSnapshots := 0

def Driver.state (driver : Driver) : AttemptState := driver.states.headD .reserved

abbrev DriverStep : Type → Type := Effect Driver Failure

/-- A transition of the attempt. -/
def transition (store : Store) (target : AttemptState) : DriverStep Unit := do
  let driver ← get
  modify fun d => { d with asked := (driver.state, target) :: d.asked }
  answer (store.advance driver.states target)
  require (allowedTransition driver.state target = true) (.coordination "constraint")
  modify fun d => { d with states := target :: d.states }

def advance (store : Store) (phase : AttemptPhase) : DriverStep Unit := transition store phase.state

/-- The store admits a streaming checkpoint in sequence only. -/
def register (result : ProfileResult) (ordinal : Nat) : DriverStep Unit :=
  match result.profile with
  | .streaming record =>
      require (record.checkpointSequence = ordinal)
        (.coordination "streaming checkpoint must commit once, in sequence, without selection")
  | _ => pure ()

/-- The event closure of `execute`, over the planned observation slots. -/
def onEvent (store : Store) (slots : Nat) : ProfileEvent → DriverStep Unit
  | .phase phase => advance store phase
  | .stopped reason => modify fun d => { d with stopReason := reason.name }
  | .buffer snapshots stopReason => do
      answer store.publishBuffer
      modify fun d => { d with expectedSnapshots := snapshots, stopReason := stopReason.name }
  | .observation result => do
      let driver ← get
      require (driver.observations.length < slots) .panicked
      answer (store.publishObservation driver.observations.length)
      register result driver.observations.length
      modify fun d => { d with
        targetReached := d.targetReached || decide (result.completion = .reached)
        observations := d.observations ++ [result] }

end Metewand.Execution
