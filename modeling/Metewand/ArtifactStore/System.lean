import Metewand.ArtifactStore.Store
import Metewand.Lib.Transition

/-!
# The artifact cache as a system

Any number of processes use one cache directory.  An operation works under the cache
lock: `World.holder` is the process that has it and the `Job` that is left of its
operation, and `advance` takes the holder's next file-system or catalog step.  An
operation that needs a lease takes the lock twice: the first hold makes the lease, and
until the second hold the operation waits in `World.calls`.  `StoredArtifact` and
`DatasetView` values are `World.handles`; each owns one lease.

A label that needs the lock does nothing while another operation has it.  `fail` is an
I/O error of the holder, `crash` the death of a process between any two steps: its
kernel locks are released, whatever it has written stays.  Contents below `objects` and
`garbage` change through these steps only.
-/

namespace Metewand.ArtifactStore

open Lib.Check

/-- What an operation does under its second hold of the lock. -/
inductive Task (Tree : Type) where
  /-- `import_tree`: move the staged object into place. -/
  | publish (stage : Object Tree)
  /-- `get`. -/
  | read
  /-- `private_view`. -/
  | view
  /-- The mapping `publish_dataset` writes after its import. -/
  | map (derivation : String)
  /-- `Lease::drop`. -/
  | drop

/-- An operation with a lease of its own. -/
structure Call (Tree : Type) where
  process : Nat
  lease : Nat
  digest : Digest
  task : Task Tree

inductive HandleKind where
  | artifact | view
  deriving DecidableEq, Repr

/-- A `StoredArtifact` or a `DatasetView`. -/
structure Handle where
  process : Nat
  lease : Nat
  digest : Digest
  kind : HandleKind
  deriving DecidableEq

/-- Where `collect` stands with the first of its remaining targets. -/
inductive Position where
  /-- At the head of the loop. -/
  | start
  /-- Old garbage has been claimed and is being removed. -/
  | claimed
  /-- No garbage is in the way. -/
  | cleaned
  /-- The move of the live object has been announced. -/
  | intended
  /-- The live object has been moved. -/
  | moved
  /-- The move has been recorded and the garbage is being removed. -/
  | recorded
  /-- Nothing is left but the rows. -/
  | removed
  deriving DecidableEq, Repr

/-- A collection that deletes. -/
structure Collecting where
  report : List (CacheTargetReport × Digest)
  remaining : List Digest
  position : Position
  deriving DecidableEq

/-- What is left of the operation that has the lock. -/
inductive Job (Tree : Type) where
  /-- The lease directory has been made. -/
  | lease (call : Call Tree)
  | call (call : Call Tree)
  /-- The object is in place and verified. -/
  | register (call : Call Tree)
  /-- The lease is unlocked. -/
  | remove (lease : Nat)
  /-- `update_root` that adds, before it registers the object. -/
  | addRoot (digest : Digest) (name : String)
  | writeRoot (digest : Digest) (name : String) (add : Bool)
  /-- `quarantine_abandoned_leases` before the directories still to be looked at. -/
  | sweep (names : List Nat)
  | collect (collecting : Collecting)

/-- The result of a collection. -/
abbrev CollectResult : Type := Except ArtifactStoreError (List CacheTargetReport)

structure World (Tree : Type) where
  store : Store Tree
  holder : Option (Nat × Job Tree)
  calls : List (Call Tree)
  handles : List Handle
  /-- The collections that have returned, the last one first. -/
  returned : List (Nat × CollectResult)

inductive Label (Tree : Type) where
  | importTree (process lease : Nat) (source copy : Tree) (expected : Digest)
  | get (process lease : Nat) (digest : Digest)
  | privateView (handle : Handle) (lease : Nat)
  /-- `publish_dataset` after its `import_tree` has returned the handle. -/
  | publishDataset (handle : Handle) (lease : Nat) (derivation : String)
  /-- `StoredArtifact::verify` and `DatasetView::verify`. -/
  | verify (handle : Handle)
  | drop (handle : Handle)
  | updateRoot (process : Nat) (id root : String) (add dryRun : Bool)
  | quarantineAbandonedLeases (process : Nat)
  | collect (process : Nat) (ids : List String) (dryRun : Bool)
  /-- A waiting operation takes the lock. -/
  | resume (lease : Nat)
  /-- A waiting operation fails before it takes the lock. -/
  | abandon (lease : Nat)
  /-- The holder's next step; a removal may get no further than to the given contents. -/
  | advance (leftover : Option (Object Tree))
  | fail
  | crash (process : Nat)

section Steps

variable {Tree : Type} (trees : Trees Tree)

/-- The first element with the property, and the others. -/
def extract {α : Type} (p : α → Bool) : List α → Option (α × List α)
  | [] => none
  | a :: rest =>
      if p a then some (a, rest)
      else (extract p rest).map fun (found, others) => (found, a :: others)

namespace Store

/-- `verify_or_quarantine`: a bad object leaves `objects`. -/
def verifyOrQuarantine (s : Store Tree) (digest : Digest) :
    Store Tree × Except ArtifactStoreError Unit :=
  match s.objects digest with
  | none => (s, .error .changedContent)
  | some object =>
      match verifyObject trees object digest with
      | .ok () => (s, .ok ())
      | .error _ => (s.setObject digest none, .error (.quarantined digest))

/-- `register_object`. -/
def registerObject (s : Store Tree) (digest : Digest) :
    Except ArtifactStoreError (Store Tree) := do
  let object ← expect (s.objects digest) .io
  let marker ← markerHash trees object
  let catalog ← s.catalog.register digest marker
  return { s with catalog }

/-- The lease directory with this name, changed. -/
def updateLease (s : Store Tree) (name : Nat) (f : Lease → Lease) : Store Tree :=
  { s with leases := s.leases.map fun lease => if lease.name = name then f lease else lease }

end Store

namespace World

/-- No operation has the lock. -/
def release (w : World Tree) (store : Store Tree) : World Tree :=
  { w with store, holder := none }

/-- The holder goes on with the job. -/
def goOn (w : World Tree) (store : Store Tree) (process : Nat) (job : Job Tree) :
    World Tree :=
  { w with store, holder := some (process, job) }

/-- The operation ends without a handle; its lease is still to be dropped. -/
def giveUp (w : World Tree) (store : Store Tree) (call : Call Tree) : World Tree :=
  { w with store, holder := none, calls := { call with task := .drop } :: w.calls }

/-- The operation returns a handle that owns its lease. -/
def hand (w : World Tree) (store : Store Tree) (call : Call Tree) (kind : HandleKind) :
    World Tree :=
  { w with
    store, holder := none
    handles := ⟨call.process, call.lease, call.digest, kind⟩ :: w.handles }

/-- The collection returns. -/
def report (w : World Tree) (store : Store Tree) (process : Nat) (result : CollectResult) :
    World Tree :=
  { w with store, holder := none, returned := (process, result) :: w.returned }

/-- The first hold of an operation with a lease: a new directory below `leases`. -/
def beginLease (w : World Tree) (purpose : Purpose) (call : Call Tree) : World Tree :=
  if w.holder.isSome ∨ call.lease ∈ w.store.leases.map Lease.name then w
  else
    w.goOn
      { w.store with
        leases := ⟨call.lease, call.process, purpose, call.digest, false, true⟩ :: w.store.leases }
      call.process (.lease call)

end World

/-- The second hold of an operation with a lease. -/
def advanceCall (w : World Tree) (call : Call Tree) : World Tree :=
  match call.task with
  | .publish stage =>
      match w.store.objects call.digest with
      | none => w.goOn (w.store.setObject call.digest stage) call.process (.register call)
      | some object =>
          match w.store.verifyOrQuarantine trees call.digest with
          | (store, .error _) => w.giveUp store call
          | (store, .ok ()) =>
              match sameBytes trees stage.data object.data with
              | .ok true => w.goOn store call.process (.register call)
              | _ => w.giveUp store call
  | .read =>
      match w.store.objects call.digest with
      | none => w.giveUp w.store call
      | some _ =>
          match w.store.verifyOrQuarantine trees call.digest with
          | (store, .error _) => w.giveUp store call
          | (store, .ok ()) => w.goOn store call.process (.register call)
  | .view =>
      match w.store.verifyOrQuarantine trees call.digest with
      | (store, .error _) => w.giveUp store call
      | (store, .ok ()) => w.hand store call .view
  | .map derivation =>
      match w.store.verifyOrQuarantine trees call.digest with
      | (store, .error _) => w.giveUp store call
      | (store, .ok ()) =>
          match store.derivations.lookup derivation with
          -- The same output or `DerivationConflict`: nothing is written either way.
          | some _ => w.giveUp store call
          | none =>
              w.giveUp
                { store with derivations := (derivation, call.digest) :: store.derivations } call
  | .drop =>
      w.goOn (w.store.updateLease call.lease fun lease => { lease with held := false })
        call.process (.remove call.lease)

/-- Write one pending row and go on. -/
def collectPending (w : World Tree) (process : Nat) (c : Collecting) (digest : Digest)
    (detached : Bool) (position : Position) : World Tree :=
  match w.store.catalog.setPending digest detached with
  | .ok catalog => w.goOn { w.store with catalog } process (.collect { c with position })
  | .error e => w.report w.store process (.error e)

/-- `remove_dir_all` on a garbage directory, which may get only part of the way. -/
def collectRemove (w : World Tree) (process : Nat) (c : Collecting) (digest : Digest)
    (leftover : Option (Object Tree)) (position : Position) : World Tree :=
  match leftover with
  | some object => w.goOn (w.store.setGarbage digest (some object)) process (.collect c)
  | none =>
      w.goOn (w.store.setGarbage digest none) process (.collect { c with position })

/-- The deletion loop of `collect`, one step at a time. -/
def advanceCollect (w : World Tree) (process : Nat) (c : Collecting)
    (leftover : Option (Object Tree)) : World Tree :=
  match c.remaining with
  | [] => w.report w.store process (.ok (c.report.map Prod.fst))
  | digest :: rest =>
      match c.position with
      | .start =>
          match w.store.garbage digest with
          | some _ => collectPending w process c digest true .claimed
          | none => w.goOn w.store process (.collect { c with position := .cleaned })
      | .claimed => collectRemove w process c digest leftover .cleaned
      | .cleaned =>
          match w.store.objects digest with
          | some _ => collectPending w process c digest false .intended
          | none => w.goOn w.store process (.collect { c with position := .removed })
      | .intended =>
          match w.store.objects digest, w.store.garbage digest with
          | some object, none =>
              w.goOn ((w.store.setObject digest none).setGarbage digest (some object)) process
                (.collect { c with position := .moved })
          | _, _ => w.report w.store process (.error .io)
      | .moved => collectPending w process c digest true .recorded
      | .recorded => collectRemove w process c digest leftover .removed
      | .removed =>
          match w.store.catalog.forget digest with
          | .ok catalog =>
              w.goOn { w.store with catalog } process
                (.collect { c with remaining := rest, position := .start })
          | .error e => w.report w.store process (.error e)

/-- The holder's next step. -/
def advance (w : World Tree) (leftover : Option (Object Tree)) : World Tree :=
  match w.holder with
  | none => w
  | some (_, .lease call) =>
      { w.release (w.store.updateLease call.lease fun lease => { lease with written := true }) with
        calls := call :: w.calls }
  | some (_, .call call) => advanceCall trees w call
  | some (_, .register call) =>
      match w.store.registerObject trees call.digest with
      | .ok store => w.hand store call .artifact
      | .error _ => w.giveUp w.store call
  | some (_, .remove name) =>
      w.release { w.store with leases := w.store.leases.filter fun lease => lease.name ≠ name }
  | some (process, .addRoot digest name) =>
      match w.store.registerObject trees digest with
      | .ok store => w.goOn store process (.writeRoot digest name true)
      | .error _ => w.release w.store
  | some (_, .writeRoot digest name add) =>
      match w.store.catalog.root digest name add with
      | .ok catalog => w.release { w.store with catalog }
      | .error _ => w.release w.store
  | some (_, .sweep []) => w.release w.store
  | some (process, .sweep (name :: names)) =>
      if ∃ lease ∈ w.store.leases, lease.name = name ∧ lease.held = true then
        w.goOn w.store process (.sweep names)
      else if name ∈ w.store.quarantine then w.release w.store
      else
        w.goOn
          { w.store with
            leases := w.store.leases.filter fun lease => lease.name ≠ name
            quarantine := name :: w.store.quarantine }
          process (.sweep names)
  | some (process, .collect c) => advanceCollect w process c leftover

/-- The holder's operation returns an I/O error. -/
def fail (w : World Tree) : World Tree :=
  match w.holder with
  | none => w
  | some (_, .lease call) =>
      w.release
        { w.store with leases := w.store.leases.filter fun lease => lease.name ≠ call.lease }
  | some (_, .call call) | some (_, .register call) =>
      match call.task with
      | .drop =>
          w.goOn (w.store.updateLease call.lease fun lease => { lease with held := false })
            call.process (.remove call.lease)
      | _ => w.giveUp w.store call
  | some (process, .collect _) => w.report w.store process (.error .io)
  | some (_, .remove _) | some (_, .addRoot _ _) | some (_, .writeRoot _ _ _)
  | some (_, .sweep _) => w.release w.store

/-- `char::is_control`. -/
def isControl (c : Char) : Bool := c.toNat < 32 || (127 ≤ c.toNat && c.toNat < 160)

/-- `update_root` up to its first write. -/
def updateRoot (w : World Tree) (process : Nat) (id root : String) (add dryRun : Bool) :
    World Tree :=
  let checked : Except ArtifactStoreError Digest := do
    let digest ← parseTarget id
    reject (root = "" ∨ root.toList.any fun c => isControl c) .invalidRootName
    let snapshot ← w.store.catalog.read
    if add then do
      let object ← expect (w.store.objects digest) .io
      verifyRegistered trees object digest snapshot
      return digest
    else do
      reject (root ∉ snapshot.rootNames digest) (.unknownRoot root)
      return digest
  match checked with
  | .error _ => w
  | .ok digest =>
      if dryRun then w
      else if add then w.goOn w.store process (.addRoot digest root)
      else w.goOn w.store process (.writeRoot digest root false)

/-- `collect` up to its first write. -/
def beginCollect (w : World Tree) (process : Nat) (ids : List String) (dryRun : Bool) :
    World Tree :=
  match collectReport trees w.store ids dryRun with
  | .error e => w.report w.store process (.error e)
  | .ok report =>
      if dryRun ∨ deletions report = [] then
        w.report w.store process (.ok (report.map Prod.fst))
      else w.goOn w.store process (.collect ⟨report, deletions report, .start⟩)

def crash (w : World Tree) (process : Nat) : World Tree :=
  { w with
    store := { w.store with
      leases := w.store.leases.map fun lease =>
        if lease.owner = process then { lease with held := false } else lease }
    holder := w.holder.filter fun (owner, _) => owner ≠ process
    calls := w.calls.filter fun call => call.process ≠ process
    handles := w.handles.filter fun handle => handle.process ≠ process }

/-- One step of the cache. -/
def next (w : World Tree) : Label Tree → World Tree
  | .importTree process lease source copy expected =>
      match stageObject trees source copy expected with
      | .ok stage => w.beginLease .publication ⟨process, lease, expected, .publish stage⟩
      | .error _ => w.beginLease .publication ⟨process, lease, expected, .drop⟩
  | .get process lease digest => w.beginLease .read ⟨process, lease, digest, .read⟩
  | .privateView handle lease =>
      if handle ∈ w.handles ∧ handle.kind = .artifact then
        w.beginLease .view ⟨handle.process, lease, handle.digest, .view⟩
      else w
  | .publishDataset handle lease derivation =>
      if handle ∈ w.handles ∧ handle.kind = .artifact then
        w.beginLease .mapping ⟨handle.process, lease, handle.digest, .map derivation⟩
      else w
  | .verify handle =>
      if handle ∈ w.handles ∧ w.holder.isNone then
        w.release (w.store.verifyOrQuarantine trees handle.digest).1
      else w
  | .drop handle =>
      match extract (fun h => h = handle) w.handles with
      | none => w
      | some (_, handles) =>
          { w with
            handles
            calls := ⟨handle.process, handle.lease, handle.digest, .drop⟩ :: w.calls }
  | .updateRoot process id root add dryRun =>
      if w.holder.isSome then w else updateRoot trees w process id root add dryRun
  | .quarantineAbandonedLeases process =>
      if w.holder.isSome then w
      else w.goOn w.store process (.sweep (w.store.leases.map Lease.name))
  | .collect process ids dryRun =>
      if w.holder.isSome then w else beginCollect trees w process ids dryRun
  | .resume lease =>
      if w.holder.isSome then w
      else
        match extract (fun call => call.lease = lease) w.calls with
        | none => w
        | some (call, calls) => { w with holder := some (call.process, .call call), calls }
  | .abandon lease =>
      match extract (fun call => call.lease = lease) w.calls with
      | none => w
      | some (call, calls) => { w with calls := { call with task := .drop } :: calls }
  | .advance leftover => advance trees w leftover
  | .fail => fail w
  | .crash process => crash w process

/-- An initialized cache nobody uses yet. -/
def Initial (w : World Tree) : Prop :=
  w = ⟨.empty, none, [], [], []⟩

end Steps

end Metewand.ArtifactStore
