import Metewand.RunStore.Publisher

/-!
# Recovery

`run_store/recovery.rs`.  A pass reads the artifact directory, imports completed
artifacts, and then settles each expired attempt: it moves the attempt to
finalizing, checks every published orphan against the authoritative rows, and
commits either the one verified outcome or an `interrupted_attempt` failure.
Stages are quarantined last.

Each function here is one transaction of the pass.  `Pass` holds what the pass
carries from one transaction to the next, so other owners and other passes may
act in between; the directory contents and the state of the stage locks are
inputs of the transactions that look at them.
-/

namespace Metewand.RunStore

open Lib

/-! ## Evidence on disk -/

/-- A published outcome directory without a registration. -/
structure Orphan where
  artifact : ArtifactRegistration
  document : Json

/-- A published object the pass leaves alone, with the error it met. -/
structure RejectedArtifact where
  relativePath : String
  reason : RunStoreError

structure RecoveryReport where
  terminals : List TerminalAttempt
  importedArtifacts : List ArtifactRegistration
  quarantinedStages : List String
  busyStages : List String
  rejectedArtifacts : List RejectedArtifact

def RecoveryReport.empty : RecoveryReport := ⟨[], [], [], [], []⟩

def RecoveryReport.reject (report : RecoveryReport) (relativePath : String)
    (reason : RunStoreError) : RecoveryReport :=
  { report with rejectedArtifacts := report.rejectedArtifacts ++ [⟨relativePath, reason⟩] }

/-- What `validate_orphan` extracts from a document it accepts. -/
structure Evidence where
  outcome : TerminalOutcome
  references : List (String × String)
  finished : Nat
  roots : List ArtifactRow

/-- What the filesystem shows of one directory: the content and manifest digests of a
finalized tree, and its canonical outcome document. -/
structure Directory where
  tree : Except RunStoreError (Digest × Digest)
  outcome : Except RunStoreError Json

/-- Every kind an artifact address can name. -/
def artifactKinds : List ArtifactKind :=
  [.attempt, .observation, .result, .metrics, .dataset, .source, .environment, .other]

/-- The kind and registration of a directory whose name is its content address. -/
def completedMetadata (name : String) (tree : Except RunStoreError (Digest × Digest))
    (now : Nat) : Except RunStoreError (ArtifactKind × ArtifactRegistration) :=
  match tree with
  | .error e => .error e
  | .ok (content, manifest) =>
      match artifactKinds.find? fun kind => name = kind.name ++ "-" ++ content.hex with
      | some kind => .ok (kind, publishStage kind content manifest now)
      | none => .error (invalid "completed artifact address disagrees with its contents")

/-! ## Expired attempts -/

/-- The attempt's reservation or claim lease is released or past its expiration. -/
def Lapsed (db : Db) (a : AttemptRow) (l : LeaseRow) (now : Nat) : Prop :=
  l.releasedAtNs ≠ none ∨ l.expiresAtNs ≤ max now a.updatedAtNs ∨
    ∃ c ∈ db.finalizationClaims, ∃ f ∈ db.leases, f.id = c.leaseId ∧ c.attemptId = a.id ∧
      (f.releasedAtNs ≠ none ∨ f.expiresAtNs ≤ max now a.updatedAtNs)

instance (db : Db) (a : AttemptRow) (l : LeaseRow) (now : Nat) : Decidable (Lapsed db a l now) := by
  unfold Lapsed
  infer_instance

/-- The first unfinished attempt row with this identity and a lapsed lease. -/
def expiredRow (db : Db) (id : RecordId .attempt) (now : Nat) : Option (AttemptRow × LeaseRow) :=
  (db.attempts.flatMap fun a =>
    (db.leases.filter fun l => a.id = id ∧ l.attemptId = a.id ∧ l.purpose = .reservation ∧
      a.finishedAtNs = none ∧ Lapsed db a l now).map fun l => (a, l)).head?

/-- The guard recovery takes over an expired attempt with, and the attempt's state. -/
def expiredAttempt (hash : Hasher) (id : RecordId .attempt) (now : Nat) :
    StoreTx (Option (OwnedAttempt × AttemptState)) := do
  let db ← get
  match expiredRow db id now with
  | none => pure none
  | some (a, l) => do
      let expected ← Tx.check (identityResult (runAttemptId hash a.slotId a.retryIndex))
      Tx.require (expected = id) (invalid "attempt identity disagrees with its reservation")
      pure (some (⟨expected, a.slotId, a.retryIndex, a.revision, a.updatedAtNs, l.id,
        l.ownerToken⟩, a.state))

/-- The attempt is still expired and has not moved since recovery took it over. -/
def requireExpired (hash : Hasher) (attempt : OwnedAttempt) (now : Nat) : StoreTx Unit := do
  let current ← expiredAttempt hash attempt.id now
  match current with
  | none => throw .staleAttempt
  | some (a, state) =>
      Tx.require (a.revision = attempt.revision ∧ state = .finalizing ∧
        a.leaseId = attempt.leaseId ∧ a.ownerToken = attempt.ownerToken) .staleAttempt

/-! ## Orphans -/

/-- `str::parse::<u64>`: ASCII digits with an optional plus sign. -/
def parseUnsigned (text : List Char) : Option Nat :=
  match text with
  | '+' :: digits => parseU64 digits
  | digits => parseU64 digits

def stringField (value : Json) (key : String) : Except RunStoreError String :=
  match (value.get key).asStr? with
  | some text => .ok text
  | none => .error (invalid "missing coordination string field")

def documentFinish (document : Json) : Except RunStoreError Nat :=
  match (document.get "finished_at_ns").asStr?.bind fun text => parseUnsigned text.toList with
  | some finished => .ok finished
  | none => .error (invalid "invalid immutable finish time")

def documentOutcome (document : Json) : Except RunStoreError TerminalOutcome :=
  let details := document.get "details"
  match (document.get "state").asStr? with
  | some state =>
      if state = "accepted" then .ok .accepted
      else if state = "superseded" then .ok .superseded
      else if state = "censored" then (stringField details "reason").map .censored
      else if state = "failed" then do
        let code ← stringField details "failure_code"
        let diagnostic ← canonicalPayload (details.get "diagnostic")
        pure (.failed code diagnostic)
      else .error (invalid "unknown coordination outcome")
  | none => .error (invalid "unknown coordination outcome")

def documentReferences (document : Json) : Except RunStoreError (List (String × String)) :=
  match (document.get "references").asArray? with
  | none => .error (invalid "missing dependency metadata")
  | some items => items.mapM fun item => do
      let role ← stringField item "role"
      let id ← stringField item "id"
      pure (role, id)

/-- The claim of an accepted document was held, unexpired and by one owner, at its
finish time. -/
def AuthorizedClaim (db : Db) (attempt : OwnedAttempt) (finished : Nat) : Prop :=
  ∃ c ∈ db.finalizationClaims, ∃ f ∈ db.leases, ∃ r ∈ db.leases,
    f.id = c.leaseId ∧ r.attemptId = c.attemptId ∧ r.purpose = .reservation ∧
    c.attemptId = attempt.id ∧ c.slotId = attempt.slot ∧
    f.ownerToken = attempt.ownerToken ∧ r.ownerToken = attempt.ownerToken ∧
    f.releasedAtNs = none ∧ r.releasedAtNs = none ∧ f.acquiredAtNs ≤ finished ∧
    finished < f.expiresAtNs ∧ finished < r.expiresAtNs

instance (db : Db) (attempt : OwnedAttempt) (finished : Nat) :
    Decidable (AuthorizedClaim db attempt finished) := by
  unfold AuthorizedClaim
  infer_instance

/-- The artifacts of the attempt's observations and of the slot's selections. -/
def observedArtifacts (db : Db) (attempt : OwnedAttempt) : List String :=
  ((observationEntries db).filter fun e => e.row.producingAttemptId = attempt.id ∨
    (e.selectedAtNs.isSome = true ∧ ∃ m ∈ db.attemptObservationSlots,
      m.attemptSlotId = attempt.slot ∧ m.observationSlotId = e.row.slotId)).map
    fun e => e.row.artifactId

/-- The registered rows of the artifacts. -/
def registeredMetadata (db : Db) : List String → Except RunStoreError (List ArtifactRow)
  | [] => .ok []
  | id :: rest =>
      match db.artifacts.find? (fun a => a.id = id), registeredMetadata db rest with
      | some a, .ok rest => .ok (a :: rest)
      | some _, .error e => .error e
      | none, _ => .error (.sqlite .queryReturnedNoRows)

/-- An accepted outcome needs the claim it was authorized by and complete evidence. -/
def validateClaim (attempt : OwnedAttempt) (outcome : TerminalOutcome) (finished : Nat) :
    StoreTx Unit := do
  if outcome = .accepted then do
    let finished ← timestamp finished
    let db ← get
    Tx.require (AuthorizedClaim db attempt finished)
      (invalid "completed acceptance lacks its original authorized claim")
    validateAcceptance attempt
  else pure ()

/-- Check a published outcome against the authoritative rows at `now`. -/
def validateOrphan (hash : Hasher) (attempt : OwnedAttempt) (orphan : Orphan) (nowNs : Nat) :
    StoreTx Evidence := do
  let now ← timestamp nowNs
  requireExpired hash attempt now
  let finished ← Tx.check (documentFinish orphan.document)
  Tx.require (attempt.updatedAtNs ≤ finished ∧ finished ≤ nowNs)
    (invalid "immutable finish time is outside the attempt history")
  let outcome ← Tx.check (documentOutcome orphan.document)
  let references ← Tx.check (documentReferences orphan.document)
  let document ← buildOutcomeDocument attempt outcome references finished
  Tx.require (document = orphan.document)
    (invalid "completed outcome disagrees with authoritative coordination records")
  validateClaim attempt outcome finished
  let db ← get
  let roots ← Tx.check (registeredMetadata db
    ((references.map Prod.snd ++ observedArtifacts db attempt).dedup.insertionSort (· ≤ ·)))
  pure ⟨outcome, references, finished, roots⟩

/-- Validate an orphan and verify the bytes of everything it rests on. -/
def checkOrphan (hash : Hasher) (attempt : OwnedAttempt) (orphan : Orphan) (now : Nat)
    (intact : ArtifactRow → Except RunStoreError Unit) : StoreTx Evidence := do
  let evidence ← validateOrphan hash attempt orphan now
  Tx.each (fun root => Tx.check (intact root)) evidence.roots
  commit
  pure evidence

/-! ## Settling one attempt -/

/-- Take over an expired attempt, in finalizing. -/
def takeOver (hash : Hasher) (id : RecordId .attempt) (checked : Nat) :
    StoreTx (Option OwnedAttempt) := do
  let expired ← expiredAttempt hash id checked
  match expired with
  | none => pure none
  | some (attempt, state) =>
      if state = .finalizing then do
        commit
        pure (some attempt)
      else do
        let moved ← transition attempt state .finalizing checked
          (.object [("recovery", .bool true)]) none
        commit
        pure (some moved)

/-- Commit the one verified outcome. -/
def importOutcome (hash : Hasher) (attempt : OwnedAttempt) (orphan : Orphan)
    (evidence : Evidence) (checkedNs : Nat) : StoreTx TerminalAttempt := do
  let checked ← timestamp checkedNs
  requireExpired hash attempt checked
  let _ ← validateOrphan hash attempt orphan checked
  let terminal ← commitTerminalIn attempt evidence.outcome
    { orphan.artifact with verifiedAtNs := checked } evidence.references evidence.finished checked
  commit
  pure terminal

/-- The outcome of an attempt without unambiguous evidence. -/
def interruptedOutcome : TerminalOutcome :=
  .failed "interrupted_attempt" (.object [("reason",
    .str "owner lease expired without an unambiguous verified published outcome")])

/-- The artifacts leased for the attempt, as references of its failure. -/
def retainedReferences (db : Db) (id : RecordId .attempt) : List (String × String) :=
  (((db.leasedArtifacts.filter fun la => ∃ l ∈ db.leases, l.id = la.leaseId ∧
    l.attemptId = id).map LeasedArtifactRow.artifactId).dedup.insertionSort (· ≤ ·)).map
      fun artifact => ("retained", artifact)

/-- The document of an interrupted attempt, before it is published. -/
structure Interrupted where
  references : List (String × String)
  finished : Nat
  document : Json

/-- The first transaction of `fail_interrupted`. -/
def documentInterrupted (hash : Hasher) (attempt : OwnedAttempt) (finished : Nat) :
    StoreTx Interrupted := do
  let now ← timestamp finished
  requireExpired hash attempt now
  let db ← get
  let references := retainedReferences db attempt.id
  let document ← buildOutcomeDocument attempt interruptedOutcome references finished
  commit
  pure ⟨references, finished, document⟩

/-- The second transaction of `fail_interrupted`. -/
def failInterrupted (hash : Hasher) (attempt : OwnedAttempt) (failure : Interrupted)
    (content manifest : Digest) (checked : Nat) : StoreTx TerminalAttempt := do
  let now ← timestamp checked
  requireExpired hash attempt now
  let document ← buildOutcomeDocument attempt interruptedOutcome failure.references
    failure.finished
  Tx.require (document = failure.document)
    (invalid "coordination records changed during recovery publication")
  let terminal ← commitTerminalIn attempt interruptedOutcome
    (publishStage .attempt content manifest checked) failure.references failure.finished checked
  commit
  pure terminal

/-! ## Stages -/

/-- What a pass finds at a stage's path. -/
inductive StageLock where
  | free | held | absent | unsafeEntry | unreadable
  deriving DecidableEq, Repr

structure RecoveredStage where
  relativePath : String
  leaseId : Option String

/-- A direct child of `artifacts` with a staging name. -/
def isStagingPath (path : String) : Bool :=
  match segments path.toList with
  | [parent, name] => parent = "artifacts".toList && ".staging-".toList.isPrefixOf name
  | _ => false

/-- The stage directories on disk and in the leases, in path order. -/
def stagePaths (db : Db) (names : List String) : Except RunStoreError (List String) :=
  let leased := (db.leases.filter fun l => l.purpose = .staging).filterMap LeaseRow.stagingPath
  match leased.find? fun path => !isStagingPath path with
  | some path => .error (.unsafePath path)
  | none => .ok ((((names.filter fun name => ".staging-".toList.isPrefixOf name.toList).map
      ("artifacts/" ++ ·)) ++ leased).dedup.insertionSort (· ≤ ·))

/-- The stages whose locks the pass holds, the paths and attempts it must leave alone. -/
def lockStages (db : Db) (lock : String → StageLock) :
    List String → Except RunStoreError (List RecoveredStage × List String × List (RecordId .attempt))
  | [] => .ok ([], [], [])
  | path :: rest =>
      let lease := db.leases.find? fun l => l.stagingPath = some path
      match lock path, lockStages db lock rest with
      | .unsafeEntry, _ => .error (.unsafePath path)
      | .unreadable, _ => .error .io
      | _, .error e => .error e
      | .held, .ok (stages, paths, busy) =>
          .ok (stages, path :: paths, (lease.map LeaseRow.attemptId).toList ++ busy)
      | _, .ok (stages, paths, busy) =>
          .ok (⟨path, lease.map LeaseRow.id⟩ :: stages, paths, busy)

/-- Release the lease of a stage no live owner needs; whether the stage was settled. -/
def settleStage (stage : RecoveredStage) (checkedNs : Nat) : StoreTx Bool := do
  let checked ← timestamp checkedNs
  match stage.leaseId with
  | none => do
      commit
      pure true
  | some id => do
      let db ← get
      let lease ← Tx.expect (db.leases.find? fun l => l.id = id) (.sqlite .queryReturnedNoRows)
      if lease.releasedAtNs ≠ none ∨ lease.expiresAtNs ≤ checked ∨
          ∃ a ∈ db.attempts, a.id = lease.attemptId ∧ a.finishedAtNs ≠ none then do
        releaseLeases (fun l => l.id = id) fun l => max checked l.acquiredAtNs
        commit
        pure true
      else pure false

/-! ## One pass -/

/-- Where a pass stands between two transactions. -/
inductive Phase where
  | scanning (names : List String)
  | choosing (attempts : List (RecordId .attempt))
  | checking (attempt : OwnedAttempt) (checked : Nat) (orphans : List Orphan)
      (valid : List (Orphan × Evidence)) (attempts : List (RecordId .attempt))
  | publishing (attempt : OwnedAttempt) (failure : Interrupted)
      (attempts : List (RecordId .attempt))
  | quarantining (stages : List RecoveredStage)

/-- The local state of one `recover` call. -/
structure Pass where
  now : Nat
  stages : List RecoveredStage
  busy : List (RecordId .attempt)
  orphans : List Orphan
  report : RecoveryReport
  phase : Phase

/-- What lies outside the database between two transactions of a call. -/
structure Reading where
  clock : Nat
  /-- A filesystem operation that fails before the next transaction. -/
  failure : Option RunStoreError
  content : Digest
  manifest : Digest
  directory : Directory
  intact : ArtifactRow → Except RunStoreError Unit
  /-- The stage's directory is still in place. -/
  present : Bool

/-- Start a pass: read the stages and the names in the artifact directory. -/
def beginRecovery (clock : Nat) (staged : List String) (lock : String → StageLock)
    (names : List String) : StoreTx Pass := do
  let now ← timestamp clock
  let db ← get
  let paths ← Tx.check (stagePaths db staged)
  let (stages, paths, busy) ← Tx.check (lockStages db lock paths)
  pure ⟨now, stages, busy, [], { RecoveryReport.empty with busyStages := paths },
    .scanning (names.insertionSort (· ≤ ·))⟩

namespace Pass

variable (hash : Hasher) (pass : Pass)

/-- Note an object the pass leaves alone. -/
def reject (path : String) (reason : RunStoreError) : Pass :=
  { pass with report := pass.report.reject path reason }

/-- Look at one name of the artifact directory: import a completed artifact, keep an
orphaned outcome of an unfinished attempt, reject the rest. -/
def findOrphan (name : String) (names : List String) (directory : Directory) :
    StoreTx Pass := do
  let next := { pass with phase := .scanning names }
  let path := "artifacts/" ++ name
  let db ← get
  if name.toList.head? = some '.' ∨ ∃ a ∈ db.artifacts, a.relativePath = path then pure next
  else
    match completedMetadata name directory.tree pass.now with
    | .error e => pure (next.reject path e)
    | .ok (kind, artifact) =>
        if kind = .attempt then
          match directory.outcome with
          | .error e => pure (next.reject path e)
          | .ok document =>
              match db.attempts.find? fun a => a.id.json = document.get "attempt_id" with
              | some a =>
                  if a.finishedAtNs = none then
                    pure { next with orphans := pass.orphans ++ [⟨artifact, document⟩] }
                  else pure (next.reject path
                    (invalid "completed attempt has no nonterminal reservation"))
              | none => pure (next.reject path
                  (invalid "completed attempt has no nonterminal reservation"))
        else do
          registerArtifact artifact kind
          commit
          pure { next with
            report := { pass.report with
              importedArtifacts := pass.report.importedArtifacts ++ [artifact] } }

/-- The unfinished attempts, in identity order. -/
def unfinished (db : Db) : List (RecordId .attempt) :=
  ((db.attempts.filter fun a => a.finishedAtNs = none).map AttemptRow.id).insertionSort RecordId.le

/-- The orphans whose document names the attempt. -/
def candidates (id : RecordId .attempt) : List Orphan :=
  pass.orphans.filter fun o => o.document.get "attempt_id" = id.json

/-- Take the next attempt of the pass; an attempt whose stage is locked is skipped. -/
def choose (id : RecordId .attempt) (attempts : List (RecordId .attempt)) (clock : Nat) :
    StoreTx Pass := do
  if id ∈ pass.busy then pure { pass with phase := .choosing attempts }
  else do
    let checked ← timestamp (max clock pass.now)
    let taken ← takeOver hash id checked
    match taken with
    | none => pure { pass with phase := .choosing attempts }
    | some attempt => pure { pass with
        phase := .checking attempt checked (pass.candidates id) [] attempts }

/-- Check one orphan of the attempt; database errors and a stale guard end the pass. -/
def checkNext (attempt : OwnedAttempt) (checked : Nat) (orphan : Orphan) (orphans : List Orphan)
    (valid : List (Orphan × Evidence)) (attempts : List (RecordId .attempt))
    (intact : ArtifactRow → Except RunStoreError Unit) : StoreTx Pass := do
  let db ← get
  match checkOrphan hash attempt orphan checked intact db with
  | .ok (evidence, _) =>
      pure { pass with
        phase := .checking attempt checked orphans (valid ++ [(orphan, evidence)]) attempts }
  | .error (.sqlite e) => throw (.sqlite e)
  | .error .staleAttempt => throw .staleAttempt
  | .error e =>
      let next := { pass with phase := .checking attempt checked orphans valid attempts }
      pure (next.reject orphan.artifact.relativePath e)

/-- The pass after it settled one attempt. -/
def settled (terminal : TerminalAttempt) (attempts : List (RecordId .attempt)) : Pass :=
  { pass with
    report := { pass.report with terminals := pass.report.terminals ++ [terminal] }
    phase := .choosing attempts }

/-- Settle the attempt: one valid orphan is imported, any other number is no evidence. -/
def conclude (attempt : OwnedAttempt) (checked : Nat) (valid : List (Orphan × Evidence))
    (attempts : List (RecordId .attempt)) (reading : Reading) : StoreTx Pass :=
  match valid with
  | [(orphan, evidence)] => do
      Tx.each (fun root => Tx.check (reading.intact root)) evidence.roots
      let terminal ← importOutcome hash attempt orphan evidence
        (max (max reading.clock pass.now) checked)
      pure (pass.settled terminal attempts)
  | _ => do
      let failure ← documentInterrupted hash attempt
        (max (max reading.clock checked) attempt.updatedAtNs)
      let next := { pass with phase := .publishing attempt failure attempts }
      pure (valid.foldl (fun next found => next.reject found.1.artifact.relativePath
        (invalid "ambiguous completed outcomes for one attempt")) next)

/-- Move an abandoned stage aside. -/
def quarantine (stage : RecoveredStage) (stages : List RecoveredStage) (reading : Reading) :
    StoreTx Pass := do
  let settled ← settleStage stage (max reading.clock pass.now)
  pure { pass with
    report :=
      if settled = true ∧ reading.present = true then { pass.report with
        quarantinedStages := pass.report.quarantinedStages ++
          ["artifacts/.quarantine/" ++ String.ofList (stage.relativePath.toList.drop 10)] }
      else pass.report
    phase := .quarantining stages }

/-- The report of a finished pass, in path order. -/
def finalReport : RecoveryReport :=
  { pass.report with
    rejectedArtifacts := pass.report.rejectedArtifacts.insertionSort fun a b =>
      a.relativePath ≤ b.relativePath }

/-- The next transaction of the pass, or its report once it has ended. -/
def advance (reading : Reading) : StoreTx (Pass ⊕ RecoveryReport) :=
  match pass.phase with
  | .scanning (name :: names) => do
      let next ← pass.findOrphan name names reading.directory
      pure (.inl next)
  | .scanning [] => do
      let db ← get
      pure (.inl { pass with phase := .choosing (unfinished db) })
  | .choosing (id :: attempts) => do
      let next ← pass.choose hash id attempts reading.clock
      pure (.inl next)
  | .choosing [] => pure (.inl { pass with phase := .quarantining pass.stages })
  | .checking attempt checked (orphan :: orphans) valid attempts => do
      let next ← pass.checkNext hash attempt checked orphan orphans valid attempts reading.intact
      pure (.inl next)
  | .checking attempt checked [] valid attempts => do
      let next ← pass.conclude hash attempt checked valid attempts reading
      pure (.inl next)
  | .publishing attempt failure attempts => do
      let terminal ← failInterrupted hash attempt failure reading.content reading.manifest
        (max reading.clock failure.finished)
      pure (.inl (pass.settled terminal attempts))
  | .quarantining (stage :: stages) => do
      let next ← pass.quarantine stage stages reading
      pure (.inl next)
  | .quarantining [] => pure (.inr pass.finalReport)

end Pass

end Metewand.RunStore
