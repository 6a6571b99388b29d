import Metewand.Buffered.Documents
import Metewand.Lib.Check
import Metewand.Lib.Effect
import Metewand.Worker.Reuse

/-!
# Stream sessions

`runtime/worker_session/streaming.rs`: one execution request stays pending while the worker sends
checkpoints, each answered by a decision, until its response.

A frame is taken as what it decodes to.  The transport, the clock and the file system answer as
they like.
-/

namespace Metewand.Execution

open Lib Lib.Check Buffered Worker

abbrev RequestId : Type := String

/-! ## Paths -/

abbrev Components : Type := List (List Char)

def isWindowsDrivePath (value : List Char) : Bool :=
  match value with
  | letter :: ':' :: '/' :: _ => letter.isAlpha
  | _ => false

/-- `validate_relative_path`, with the components of the path. -/
def validateRelativePath (value : String) : Option Components :=
  let parts := value.toList.splitOn '/'
  if value = "" ∨ value.toList.contains '\\' ∨ isWindowsDrivePath value.toList ∨
      (parts.any fun part => part = [] ∨ part = ['.'] ∨ part = ['.', '.']) then none
  else some parts

/-- The reference spelled by components. -/
def referenceText (path : Components) : String := String.ofList (List.intercalate ['/'] path)

/-- What the file system says of a directory below the result root: its ancestors and entries are
real directories and regular files, of at most so many bytes. -/
abbrev Inspection : Type := Components → Nat → Except String Unit

/-- `snapshot_directory`. -/
def snapshotDirectory (inspect : Inspection) (reference : String) (limit : Nat) :
    Except String (Components × List Char) := do
  let path ← expect (validateRelativePath reference) "invalid relative path"
  reject (path.dropLast = []) "checkpoint requires its own directory"
  inspect path.dropLast limit
  let name ← expect path.getLast? "invalid checkpoint filename"
  return (path.dropLast, name)

/-! ## Messages -/

structure StreamCheckpoint where
  id : RequestId
  sequence : Nat
  checkIndex : Nat
  work : Work
  terminal : Bool
  manifest : Option String
  draft : Option String

inductive StreamAction where
  | continues
  | stop
  deriving DecidableEq

structure StreamDecision where
  id : RequestId
  sequence : Nat
  action : StreamAction
  reason : Option String

inductive StreamMessage where
  | checkpoint (checkpoint : StreamCheckpoint)
  | finished (checkpointCount : Nat)

/-- What the value of a response says. -/
inductive Response where
  | success (checkpointCount : Nat)
  | failure
  | malformed

/-- What a frame decodes to: without an `event` member it is a response. -/
inductive Frame where
  | response (envelope : Option (RequestId × Response))
  | event (checkpoint : Option StreamCheckpoint)

inductive WorkerSessionError where
  | invalidRole
  | capabilityNotSelected
  | request
  | streamProtocol (message : String)
  | response
  | workerFailure
  | timeout
  | scientificTimeout
  /-- Closed or broken pipes, lost controls and the like. -/
  | process (kind : String)
  /-- The pending request is gone. -/
  | panicked
  deriving DecidableEq

/-- What happens around one frame. -/
structure Exchange where
  /-- The session is usable, its controls hold, and the request is sent. -/
  sent : Except WorkerSessionError Unit
  received : Except WorkerSessionError Frame
  /-- The controls still hold at a response. -/
  verified : Except WorkerSessionError Unit
  inspect : Inspection
  /-- `managed_output::finalize` of a draft. -/
  finalized : Except WorkerSessionError Unit
  /-- Whether the limit has passed once the checkpoint is complete. -/
  late : Option WorkerSessionError

/-! ## Sessions -/

structure SelectedStreamingProfile where
  policy : ProfilePolicy
  checkSchedule : CheckSchedule

def SelectedStreamingProfile.json (profile : SelectedStreamingProfile) : Json :=
  .object [("policy", profile.policy.json), ("check_schedule", profile.checkSchedule.json)]

structure StreamState where
  bound : Nat
  bytes : Nat
  count : Nat := 0
  awaiting : Bool := false
  stopped : Bool := false

structure Session where
  role : WorkerRole
  selectedCapabilities : List Capability
  nextId : Nat
  pending : Option RequestId
  stream : Option StreamState

abbrev SessionStep : Type → Type := Effect Session WorkerSessionError

open Effect

/-- `RequestTracker::begin_request`. -/
def beginRequest : SessionStep RequestId := do
  let session ← get
  require (session.pending = none ∧ session.nextId + 1 < 2 ^ 64) .request
  let id := toString session.nextId
  modify fun s => { s with nextId := s.nextId + 1, pending := some id }
  return id

def streamError {α : Type} (message : String) : SessionStep α := fail (.streamProtocol message)

def streamState : SessionStep StreamState := do
  let session ← get
  answer (expect session.stream .panicked)

/-- The count a terminal response declares is the count of the checkpoints. -/
def receiveResponse (exchange : Exchange) (envelope : Option (RequestId × Response)) :
    SessionStep StreamMessage := do
  let (id, response) ← answer (expect envelope .response)
  let session ← get
  require (session.pending = some id) .response
  modify fun s => { s with pending := none }
  match response with
  | .malformed => fail .response
  | .failure => fail .workerFailure
  | .success count =>
      let state ← streamState
      if count = state.count then do
        answer exchange.verified
        modify fun s => { s with stream := none }
        return .finished count
      else streamError "terminal checkpoint count does not match received checkpoints"

/-- The reference of a finalized draft, or of the checkpoint itself. -/
def finalizeDraft (exchange : Exchange) (checkpoint : StreamCheckpoint) (bytes : Nat) : SessionStep String :=
  match checkpoint.draft with
  | none => answer (expect checkpoint.manifest .panicked)
  | some draft => do
      let session ← get
      require (.managedOutputs ∈ session.selectedCapabilities)
        (.streamProtocol "checkpoint draft requires managed_outputs")
      -- the draft's kind field, which finalization removes, may exceed the bound
      let (directory, _) ← answer ((snapshotDirectory exchange.inspect draft (min (bytes + 16) (2 ^ 64 - 1))).mapError
        .streamProtocol)
      answer exchange.finalized
      return referenceText (directory ++ ["result.json".toList])

def receiveCheckpoint (exchange : Exchange) (decoded : Option StreamCheckpoint) : SessionStep StreamMessage := do
  let checkpoint ← answer (expect decoded (.streamProtocol "malformed checkpoint"))
  let state ← streamState
  let session ← get
  let id ← answer (expect session.pending .panicked)
  require (¬(state.stopped ∨ checkpoint.id ≠ id ∨ checkpoint.sequence ≠ state.count ∨
      state.bound ≤ state.count ∨ (checkpoint.work.entries.any fun entry => maxSafeInteger < entry.2) ∨
      checkpoint.manifest.isSome = checkpoint.draft.isSome))
    (.streamProtocol "checkpoint ID, sequence, count, or state is invalid")
  let manifest ← finalizeDraft exchange checkpoint state.bytes
  require (validateRelativePath manifest).isSome (.streamProtocol "invalid relative path")
  match exchange.late with
  | some error => fail error
  | none => do
      modify fun s => { s with stream := s.stream.map fun state =>
        { state with count := state.count + 1, awaiting := true } }
      return .checkpoint { checkpoint with manifest := some manifest, draft := none }

def streamFrame (exchange : Exchange) : SessionStep StreamMessage := do
  answer exchange.sent
  let frame ← answer exchange.received
  match frame with
  | .response envelope => receiveResponse exchange envelope
  | .event decoded => receiveCheckpoint exchange decoded

def startStream (profile : SelectedStreamingProfile) (exchange : Exchange) : SessionStep StreamMessage := do
  let session ← get
  require (session.role = .implementation) .invalidRole
  require (.streamingProfile ∈ session.selectedCapabilities) .capabilityNotSelected
  let _ ← beginRequest
  let policy := profile.json.get "policy"
  modify fun s => { s with stream := some {
    bound := ((policy.get "max-observations").asUnsigned? 64).getD 0
    bytes := ((policy.get "max-checkpoint-bytes").asUnsigned? 64).getD 0 } }
  streamFrame exchange

/-- The first part of `decide_stream`: the decision that is sent. -/
def decision (action : StreamAction) (reason : Option String) : SessionStep StreamDecision := do
  let session ← get
  let state ← answer (expect session.stream (.streamProtocol "no stream is active"))
  require (state.awaiting = true ∧ state.stopped = false)
    (.streamProtocol "no checkpoint is awaiting a decision")
  let id ← answer (expect session.pending .panicked)
  modify fun s => { s with stream := some { state with awaiting := false, stopped := action = .stop } }
  return { id, sequence := state.count - 1, action, reason }

def decideStream (action : StreamAction) (reason : Option String) (exchange : Exchange) :
    SessionStep StreamMessage := do
  let _ ← decision action reason
  streamFrame exchange

/-! ## Stopping -/

/-- The stream is stopped. -/
def Stopped (session : Session) : Prop := ∃ state, session.stream = some state ∧ state.stopped = true

theorem receiveResponse_finished (exchange : Exchange) (envelope : Option (RequestId × Response)) :
    Holds (fun _ => True) (receiveResponse exchange envelope)
      (fun message _ => ∃ count, message = .finished count) (fun _ _ => True) := by
  unfold receiveResponse
  refine (keeps_answer fun _ _ => trivial).bind fun received => ?_
  rcases received with ⟨id, response⟩
  refine keeps_get.bind fun session => ?_
  refine (keeps_require fun _ _ => trivial).bind fun _ => ?_
  refine (keeps_modify fun _ _ => trivial).bind fun _ => ?_
  cases response with
  | malformed => exact holds_fail fun _ _ => trivial
  | failure => exact holds_fail fun _ _ => trivial
  | success count =>
      refine holds_via (fun _ _ => True) (keeps_get.bind fun _ => keeps_answer fun _ _ => trivial) fun state => ?_
      split
      · refine (keeps_answer fun _ _ => trivial).bind fun _ => ?_
        refine (keeps_modify fun _ _ => trivial).bind fun _ => ?_
        exact holds_pure fun _ _ => ⟨count, rfl⟩
      · exact holds_fail fun _ _ => trivial

theorem receiveCheckpoint_stopped (exchange : Exchange) (decoded : Option StreamCheckpoint) :
    Holds Stopped (receiveCheckpoint exchange decoded) (fun _ _ => False) (fun _ _ => True) := by
  unfold receiveCheckpoint
  refine (keeps_answer fun _ _ => trivial).bind fun checkpoint => ?_
  refine holds_via (fun state _ => state.stopped = true) ?_ fun state => ?_
  · refine holds_via (fun session s => s = session ∧ Stopped session) (holds_get fun _ start => ⟨rfl, start⟩)
      fun session => holds_answer ?_ fun _ _ _ _ => trivial
    rintro state _ found ⟨rfl, known, is, stopped⟩
    rw [is] at found
    cases found
    exact stopped
  refine keeps_get.bind fun session => ?_
  refine (keeps_answer fun _ _ => trivial).bind fun id => ?_
  refine holds_via (fun _ _ => False) (holds_require ?_ fun _ _ _ => trivial) fun _ _ impossible => impossible.elim
  rintro accepted _ stopped
  exact accepted (.inl stopped)

/-- After a stop only a response is accepted. -/
theorem decideStream_stop (reason : Option String) (exchange : Exchange) :
    Holds (fun _ => True) (decideStream .stop reason exchange)
      (fun message _ => ∃ count, message = .finished count) (fun _ _ => True) := by
  unfold decideStream
  refine holds_via (fun _ => Stopped) ?_ fun _ => ?_
  · unfold decision
    refine keeps_get.bind fun session => ?_
    refine (keeps_answer fun _ _ => trivial).bind fun state => ?_
    refine (keeps_require fun _ _ => trivial).bind fun _ => ?_
    refine (keeps_answer fun _ _ => trivial).bind fun id => ?_
    refine holds_via (fun _ => Stopped) (holds_modify fun _ _ => ⟨_, rfl, rfl⟩) fun _ => ?_
    exact holds_pure fun _ stopped => stopped
  · unfold streamFrame
    refine (keeps_answer fun _ _ => trivial).bind fun _ => ?_
    refine (keeps_answer fun _ _ => trivial).bind fun frame => ?_
    cases frame with
    | response envelope =>
        exact (receiveResponse_finished exchange envelope).weaken (fun _ _ => trivial)
          (fun _ _ finished => finished) fun _ _ _ => trivial
    | event decoded =>
        exact (receiveCheckpoint_stopped exchange decoded).weaken (fun _ stopped => stopped)
          (fun _ _ impossible => impossible.elim) fun _ _ _ => trivial

end Metewand.Execution
