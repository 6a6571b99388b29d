import Metewand.ArtifactStore.Invariant

/-!
# Collection spares protected content

`Sound` is kept by every step of the system, so it holds in every reachable state
(`sound_of_reachable`).  A digest that a root names or an active lease carries keeps its
directories through every step; the object of a live handle is in place and verifies;
and garbage is always claimed, so no collection fails on an unclaimed path.
-/

namespace Metewand.ArtifactStore

open Lib.Check

variable {Tree : Type}

/-! ## Who relies on which lease -/

/-- An operation or a handle and the lease it owns. -/
structure Reference where
  process : Nat
  lease : Nat
  digest : Digest
  /-- The receipt must have been written. -/
  written : Bool

def Call.reference (call : Call Tree) : Reference := ⟨call.process, call.lease, call.digest, true⟩

def Handle.reference (handle : Handle) : Reference :=
  ⟨handle.process, handle.lease, handle.digest, true⟩

def Job.references : Job Tree → List Reference
  | .lease c => [⟨c.process, c.lease, c.digest, false⟩]
  | .call c | .register c => [c.reference]
  | _ => []

def World.waiting (w : World Tree) : List Reference :=
  w.calls.map Call.reference ++ w.handles.map Handle.reference

def World.active (w : World Tree) : List Reference :=
  w.holder.elim [] fun holder => holder.2.references

def World.references (w : World Tree) : List Reference := w.active ++ w.waiting

/-- The lease is held by the process that relies on it. -/
def Reference.Leased (s : Store Tree) (r : Reference) : Prop :=
  ∃ lease ∈ s.leases, lease.name = r.lease ∧ lease.owner = r.process ∧
    lease.digest = r.digest ∧ lease.held = true ∧ (r.written = true → lease.written = true)

namespace Reference.Leased

variable {s s' : Store Tree} {r : Reference}

theorem of_leases (same : s'.leases = s.leases) (leased : r.Leased s) : r.Leased s' := by
  obtain ⟨lease, member, facts⟩ := leased
  exact ⟨lease, same ▸ member, facts⟩

theorem guards (leased : r.Leased s) (written : r.written = true) : s.Protected r.digest := by
  obtain ⟨lease, member, -, -, digest, held, receipt⟩ := leased
  exact .inr ⟨lease, member, ⟨receipt written, held⟩, digest⟩

theorem updateLease {name : Nat} {f : Lease → Lease} (leased : r.Leased s)
    (other : r.lease ≠ name) : r.Leased (s.updateLease name f) := by
  obtain ⟨lease, member, named, facts⟩ := leased
  refine ⟨lease, List.mem_map.mpr ⟨lease, member, ?_⟩, named, facts⟩
  rw [if_neg (by rw [named]; exact other)]

theorem removeLease {name : Nat} {quarantine : List Nat} (leased : r.Leased s)
    (other : r.lease ≠ name) :
    r.Leased { s with leases := s.leases.filter fun lease => lease.name ≠ name, quarantine } := by
  obtain ⟨lease, member, named, facts⟩ := leased
  refine ⟨lease, List.mem_filter.mpr ⟨member, ?_⟩, named, facts⟩
  rw [named]
  exact decide_eq_true other

/-- A lease that is not held is nobody's. -/
theorem ne_of_not_held {name : Nat} (leased : r.Leased s)
    (free : ¬∃ lease ∈ s.leases, lease.name = name ∧ lease.held = true) : r.lease ≠ name := by
  rintro rfl
  obtain ⟨lease, member, named, -, -, held, -⟩ := leased
  exact free ⟨lease, member, named, held⟩

end Reference.Leased

theorem Store.protected_of_shrunk {s s' : Store Tree} {digest : Digest}
    (roots : s'.catalog.roots = s.catalog.roots)
    (leases : ∀ lease ∈ s'.leases, lease.Active →
      ∃ old ∈ s.leases, old.Active ∧ old.digest = lease.digest)
    (guarded : s'.Protected digest) : s.Protected digest := by
  rcases guarded with ⟨row, member, named⟩ | ⟨lease, member, active, carried⟩
  · exact .inl ⟨row, roots ▸ member, named⟩
  · obtain ⟨old, inside, before, same⟩ := leases lease member active
    exact .inr ⟨old, inside, before, same.trans carried⟩

/-! ## The invariant of the system -/

/-- An import has a verified object to move. -/
def Call.Staged (trees : Trees Tree) (call : Call Tree) : Prop :=
  match call.task with
  | .publish stage => verifyObject trees stage call.digest = .ok ()
  | _ => True

/-- What the store looks like where the collection stands. -/
def Position.At (s : Store Tree) (digest : Digest) : Position → Prop
  | .start => True
  | .claimed => s.catalog.detached digest = some true
  | .cleaned => s.garbage digest = none
  | .intended => s.garbage digest = none ∧ s.catalog.detached digest = some false
  | .moved => s.objects digest = none
  | .recorded => s.objects digest = none ∧ s.catalog.detached digest = some true
  | .removed => s.objects digest = none ∧ s.garbage digest = none

def Collecting.Sound (s : Store Tree) (c : Collecting) : Prop :=
  (∀ digest ∈ c.remaining, ¬s.Protected digest) ∧
    ∀ digest ∈ c.remaining.head?, c.position.At s digest

def Job.Sound (trees : Trees Tree) (s : Store Tree) : Job Tree → Prop
  | .lease c | .call c => c.Staged trees
  | .register c => (s.objects c.digest).isSome
  | .remove name => ¬∃ lease ∈ s.leases, lease.name = name ∧ lease.held = true
  | .collect c => c.Sound s
  | _ => True

structure Sound (trees : Trees Tree) (w : World Tree) : Prop where
  store : w.store.Sound trees
  unique : (w.references.map Reference.lease).Nodup
  leased : ∀ r ∈ w.references, r.Leased w.store
  owner : ∀ process job, w.holder = some (process, job) →
    ∀ r ∈ job.references, r.process = process
  staged : ∀ call ∈ w.calls, call.Staged trees
  job : ∀ process job, w.holder = some (process, job) → job.Sound trees w.store
  live : ∀ handle ∈ w.handles, (w.store.objects handle.digest).isSome
  returned : ∀ entry ∈ w.returned, entry.2 ≠ .error (.catalog "unclaimed garbage path")

section Preservation

variable {trees : Trees Tree} {w : World Tree}

/-- A new store that those who wait can live with. -/
structure Steady (trees : Trees Tree) (w : World Tree) (s : Store Tree) : Prop where
  sound : s.Sound trees
  leased : ∀ r ∈ w.waiting, r.Leased s
  spares : Spares w.store s

theorem Sound.waiting (sound : Sound trees w) {r : Reference} (member : r ∈ w.waiting) :
    r.Leased w.store :=
  sound.leased r (List.mem_append_right _ member)

theorem Sound.guarded (sound : Sound trees w) {handle : Handle} (member : handle ∈ w.handles) :
    w.store.Protected handle.digest :=
  (sound.waiting (List.mem_append_right _ (List.mem_map_of_mem member))).guards rfl

/-- The objects of the handles stay in place. -/
theorem Steady.live {s : Store Tree} (steady : Steady trees w s) (sound : Sound trees w)
    {handle : Handle} (member : handle ∈ w.handles) : (s.objects handle.digest).isSome := by
  obtain ⟨object, found⟩ := Option.isSome_iff_exists.mp (sound.live handle member)
  rw [(steady.spares _ (sound.guarded member)).1 object found]
  rfl

/-- The leases stay as they are. -/
theorem Steady.of_leases (sound : Sound trees w) {s : Store Tree} (durable : s.Sound trees)
    (leases : s.leases = w.store.leases) (spares : Spares w.store s) : Steady trees w s :=
  ⟨durable, fun _ member => (sound.waiting member).of_leases leases, spares⟩

theorem Steady.refl (sound : Sound trees w) : Steady trees w w.store :=
  .of_leases sound sound.store rfl (.of_same rfl rfl)

theorem World.references_of_free (free : w.holder = none) : w.references = w.waiting := by
  simp [World.references, World.active, free]

theorem World.references_of_holder {process : Nat} {job : Job Tree}
    (holds : w.holder = some (process, job)) : w.references = job.references ++ w.waiting := by
  simp [World.references, World.active, holds]

theorem Sound.waiting_unique (sound : Sound trees w) :
    (w.waiting.map Reference.lease).Nodup := by
  have unique := sound.unique
  rw [World.references, List.map_append] at unique
  exact (List.nodup_append.mp unique).2.1

/-- The lease of the holder is no one else's. -/
theorem Sound.apart (sound : Sound trees w) {process : Nat} {job : Job Tree}
    (holds : w.holder = some (process, job)) {r other : Reference} (mine : r ∈ job.references)
    (waits : other ∈ w.waiting) : other.lease ≠ r.lease := by
  have unique := sound.unique
  rw [World.references_of_holder holds, List.map_append] at unique
  exact fun same => (List.nodup_append.mp unique).2.2 r.lease (List.mem_map_of_mem mine)
    other.lease (List.mem_map_of_mem waits) same.symm

theorem Sound.release (sound : Sound trees w) {s : Store Tree} (steady : Steady trees w s) :
    Sound trees (w.release s) where
  store := steady.sound
  unique := sound.waiting_unique
  leased := fun r member => steady.leased r member
  owner := by
    intro process job holds
    cases holds
  staged := sound.staged
  job := by
    intro process job holds
    cases holds
  live := fun handle member => steady.live sound member
  returned := sound.returned

theorem Sound.report (sound : Sound trees w) {s : Store Tree} (steady : Steady trees w s)
    (process : Nat) {result : CollectResult}
    (claimed : result ≠ .error (.catalog "unclaimed garbage path")) :
    Sound trees (w.report s process result) := by
  have free := sound.release steady
  refine ⟨free.store, free.unique, free.leased, free.owner, free.staged, free.job, free.live, ?_⟩
  intro entry member
  rcases List.mem_cons.mp member with rfl | old
  · exact claimed
  · exact sound.returned entry old

/-- The holder goes on with a job that relies on no lease. -/
theorem Sound.goOn_free (sound : Sound trees w) {s : Store Tree} (steady : Steady trees w s)
    {process : Nat} {job : Job Tree} (bare : job.references = []) (ready : job.Sound trees s) :
    Sound trees (w.goOn s process job) where
  store := steady.sound
  unique := by
    rw [World.references_of_holder (w := w.goOn s process job) rfl, bare]
    exact sound.waiting_unique
  leased := by
    rw [World.references_of_holder (w := w.goOn s process job) rfl, bare]
    exact fun r member => steady.leased r member
  owner := by
    intro _ _ holds r member
    cases holds
    rw [bare] at member
    exact absurd member List.not_mem_nil
  staged := sound.staged
  job := by
    intro _ _ holds
    cases holds
    exact ready
  live := fun handle member => steady.live sound member
  returned := sound.returned

/-- The call under way, which has the lock and owns its lease. -/
structure Holds (w : World Tree) (call : Call Tree) : Prop where
  holder : ∃ job : Job Tree, w.holder = some (call.process, job) ∧
    job.references = [call.reference]

variable {call : Call Tree}

theorem Sound.unique_of_holds (sound : Sound trees w) (holds : Holds w call) :
    (call.lease :: w.waiting.map Reference.lease).Nodup := by
  obtain ⟨job, held, mine⟩ := holds.holder
  have unique := sound.unique
  rw [World.references_of_holder held, mine] at unique
  exact unique

theorem Sound.leased_of_holds (sound : Sound trees w) (holds : Holds w call) :
    call.reference.Leased w.store := by
  obtain ⟨job, held, mine⟩ := holds.holder
  refine sound.leased _ ?_
  rw [World.references_of_holder held, mine]
  exact List.mem_cons_self

/-- The call goes on under the same hold. -/
theorem Sound.goOn (sound : Sound trees w) (holds : Holds w call) {s : Store Tree}
    (steady : Steady trees w s) (leases : s.leases = w.store.leases) {job : Job Tree}
    (mine : job.references = [call.reference]) (ready : job.Sound trees s) :
    Sound trees (w.goOn s call.process job) where
  store := steady.sound
  unique := by
    rw [World.references_of_holder (w := w.goOn s call.process job) rfl, mine]
    exact sound.unique_of_holds holds
  leased := by
    rw [World.references_of_holder (w := w.goOn s call.process job) rfl, mine]
    intro r member
    rcases List.mem_cons.mp member with rfl | waits
    · exact (sound.leased_of_holds holds).of_leases leases
    · exact steady.leased r waits
  owner := by
    intro _ _ running r member
    cases running
    rw [mine, List.mem_singleton] at member
    subst member
    rfl
  staged := sound.staged
  job := by
    intro _ _ running
    cases running
    exact ready
  live := fun handle member => steady.live sound member
  returned := sound.returned

/-- The call leaves the lock and waits on, as another call that owns the same lease. -/
theorem Sound.wait (sound : Sound trees w) {s : Store Tree} (steady : Steady trees w s)
    {later : Call Tree} (unique : (later.lease :: w.waiting.map Reference.lease).Nodup)
    (leased : later.reference.Leased s) (staged : later.Staged trees) :
    Sound trees { w.release s with calls := later :: w.calls } where
  store := steady.sound
  unique := unique
  leased := by
    intro r member
    rcases List.mem_cons.mp member with rfl | waits
    · exact leased
    · exact steady.leased r waits
  owner := by
    intro _ _ running
    cases running
  staged := by
    intro other member
    rcases List.mem_cons.mp member with rfl | old
    · exact staged
    · exact sound.staged other old
  job := by
    intro _ _ running
    cases running
  live := fun handle member => steady.live sound member
  returned := sound.returned

theorem Sound.giveUp (sound : Sound trees w) (holds : Holds w call) {s : Store Tree}
    (steady : Steady trees w s) (leases : s.leases = w.store.leases) :
    Sound trees (w.giveUp s call) := by
  have unique : (call.lease :: w.waiting.map Reference.lease).Nodup := sound.unique_of_holds holds
  have leased : call.reference.Leased s := (sound.leased_of_holds holds).of_leases leases
  exact @Sound.wait _ _ _ sound _ steady { call with task := .drop } unique leased trivial

theorem Sound.hand (sound : Sound trees w) (holds : Holds w call) {s : Store Tree}
    (steady : Steady trees w s) (leases : s.leases = w.store.leases)
    (present : (s.objects call.digest).isSome) (kind : HandleKind) :
    Sound trees (w.hand s call kind) := by
  have references : (w.hand s call kind).references.Perm (call.reference :: w.waiting) :=
    List.perm_middle
  refine ⟨steady.sound, ?_, ?_, ?_, sound.staged, ?_, ?_, sound.returned⟩
  · exact (references.map Reference.lease).nodup_iff.mpr (sound.unique_of_holds holds)
  · intro r member
    rcases List.mem_cons.mp (references.mem_iff.mp member) with rfl | waits
    · exact (sound.leased_of_holds holds).of_leases leases
    · exact steady.leased r waits
  · intro _ _ running
    cases running
  · intro _ _ running
    cases running
  · intro handle member
    rcases List.mem_cons.mp member with rfl | old
    · exact present
    · exact steady.live sound old

/-! ## Steps of an operation with a lease -/

/-- The next state is sound and the step has spared what is protected. -/
def Good (trees : Trees Tree) (w w' : World Tree) : Prop :=
  Sound trees w' ∧ Spares w.store w'.store

theorem Good.refl (sound : Sound trees w) : Good trees w w := ⟨sound, .of_same rfl rfl⟩

/-- Verification under the lock changes nothing, and after a success the object is there. -/
theorem Sound.verified (sound : Sound trees w) {digest : Digest} {s : Store Tree}
    {result : Except ArtifactStoreError Unit}
    (checked : w.store.verifyOrQuarantine trees digest = (s, result)) :
    s = w.store ∧ (result = .ok () → (w.store.objects digest).isSome) := by
  have facts := sound.store.verifyOrQuarantine digest
  rw [checked] at facts
  exact facts

/-- Unlocking the lease of a call. -/
theorem Sound.unlock (sound : Sound trees w) (holds : Holds w call) :
    Good trees w (w.goOn (w.store.updateLease call.lease fun lease => { lease with held := false })
      call.process (.remove call.lease)) := by
  obtain ⟨job, held, mine⟩ := holds.holder
  have steady : Steady trees w
      (w.store.updateLease call.lease fun lease => { lease with held := false }) := by
    refine ⟨sound.store.withLeases _, ?_, .of_same rfl rfl⟩
    intro r waits
    exact (sound.waiting waits).updateLease
      (sound.apart held (mine ▸ List.mem_singleton_self call.reference) waits)
  refine ⟨sound.goOn_free steady rfl ?_, steady.spares⟩
  rintro ⟨lease, member, named, locked⟩
  obtain ⟨old, -, rfl⟩ := List.mem_map.mp member
  by_cases same : old.name = call.lease
  · rw [if_pos same] at locked
    cases locked
  · rw [if_neg same] at named
    exact same named

theorem advanceCall_good (sound : Sound trees w) (holds : Holds w call)
    (staged : call.Staged trees) : Good trees w (advanceCall trees w call) := by
  have steady := Steady.refl sound
  have stop : Good trees w (w.giveUp w.store call) :=
    ⟨sound.giveUp holds steady rfl, steady.spares⟩
  unfold advanceCall
  cases task : call.task with
  | publish stage =>
      simp only
      split
      · rename_i absent
        have verified : verifyObject trees stage call.digest = .ok () := by
          simpa only [Call.Staged, task] using staged
        have moved : Steady trees w (w.store.setObject call.digest stage) := by
          refine .of_leases sound (sound.store.place verified) rfl ?_
          intro digest _
          refine ⟨?_, fun _ found => found⟩
          intro object found
          have differs : digest ≠ call.digest := by
            rintro rfl
            rw [absent] at found
            cases found
          exact (Function.update_of_ne differs _ _).trans found
        refine ⟨sound.goOn holds moved rfl rfl ?_, moved.spares⟩
        simp [Job.Sound, Store.setObject]
      · rename_i object found
        split
        · rename_i s e checked
          obtain ⟨rfl, -⟩ := sound.verified checked
          exact stop
        · rename_i s checked
          obtain ⟨rfl, -⟩ := sound.verified checked
          split
          · refine ⟨sound.goOn holds steady rfl rfl ?_, steady.spares⟩
            simp [Job.Sound, found]
          · exact stop
  | read =>
      simp only
      split
      · exact stop
      · rename_i object found
        split
        · rename_i s e checked
          obtain ⟨rfl, -⟩ := sound.verified checked
          exact stop
        · rename_i s checked
          obtain ⟨rfl, -⟩ := sound.verified checked
          refine ⟨sound.goOn holds steady rfl rfl ?_, steady.spares⟩
          simp [Job.Sound, found]
  | view =>
      simp only
      split
      · rename_i s e checked
        obtain ⟨rfl, -⟩ := sound.verified checked
        exact stop
      · rename_i s checked
        obtain ⟨rfl, present⟩ := sound.verified checked
        exact ⟨sound.hand holds steady rfl (present rfl) .view, steady.spares⟩
  | map derivation =>
      simp only
      split
      · rename_i s e checked
        obtain ⟨rfl, -⟩ := sound.verified checked
        exact stop
      · rename_i s checked
        obtain ⟨rfl, -⟩ := sound.verified checked
        split
        · exact stop
        · have mapped : Steady trees w { w.store with
              derivations := (derivation, call.digest) :: w.store.derivations } :=
            .of_leases sound
              ⟨sound.store.live, sound.store.claimed, sound.store.referential,
                sound.store.markers⟩ rfl (.of_same rfl rfl)
          exact ⟨sound.giveUp holds mapped rfl, mapped.spares⟩
  | drop => exact sound.unlock holds

/-! ## Steps of a collection -/

/-- What keeps a collection's claim on its remaining targets. -/
theorem Collecting.Sound.shrink {s s' : Store Tree} {c : Collecting} {position : Position}
    (sound : c.Sound s) (roots : s'.catalog.roots = s.catalog.roots)
    (leases : s'.leases = s.leases)
    (stands : ∀ digest ∈ c.remaining.head?, position.At s' digest) :
    ({ c with position } : Collecting).Sound s' := by
  refine ⟨?_, stands⟩
  intro digest member guarded
  refine sound.1 digest member (Store.protected_of_shrunk roots ?_ guarded)
  intro lease inside active
  exact ⟨lease, leases ▸ inside, active, rfl⟩

theorem advanceCollect_good (sound : Sound trees w) {process : Nat} {c : Collecting}
    (holds : w.holder = some (process, .collect c)) (leftover : Option (Object Tree)) :
    Good trees w (advanceCollect w process c leftover) := by
  obtain ⟨report, remaining, position⟩ := c
  have ready : Collecting.Sound w.store ⟨report, remaining, position⟩ := sound.job _ _ holds
  have steady := Steady.refl sound
  cases remaining with
  | nil => exact ⟨sound.report steady process (by simp), steady.spares⟩
  | cons digest rest =>
      have free : ¬w.store.Protected digest := ready.1 digest List.mem_cons_self
      have stands : position.At w.store digest := ready.2 digest rfl
      -- The step may change the first target only, which is unprotected.
      have goOn : ∀ {s : Store Tree} (later : Position), s.Sound trees →
          s.leases = w.store.leases → s.catalog.roots = w.store.catalog.roots →
          Spares w.store s → later.At s digest →
          Good trees w (w.goOn s process (.collect ⟨report, digest :: rest, later⟩)) := by
        intro s later durable leases roots spares arrives
        refine ⟨sound.goOn_free (.of_leases sound durable leases spares) rfl ?_, spares⟩
        refine ready.shrink roots leases ?_
        intro other member
        cases member
        exact arrives
      have pending : ∀ {detached : Bool} (later : Position),
          (detached = true ∨ w.store.garbage digest = none) →
          (∀ catalog, catalog.detached digest = some detached →
            later.At { w.store with catalog } digest) →
          Good trees w (collectPending w process ⟨report, digest :: rest, position⟩ digest
            detached later) := by
        intro detached later clear arrives
        unfold collectPending
        split
        · rename_i catalog written
          obtain ⟨-, roots, -, -, rows⟩ := Catalog.setPending_ok written
          exact goOn later (sound.store.pending written clear) rfl roots (.of_same rfl rfl)
            (arrives catalog ((rows digest).trans (if_pos rfl)))
        · rename_i e failed
          refine ⟨sound.report steady process ?_, steady.spares⟩
          intro same
          cases same
          simp only [Catalog.setPending, reject] at failed
          split at failed
          · cases failed
          · cases failed
      have remove : ∀ (later : Position), w.store.catalog.detached digest = some true →
          later.At (w.store.setGarbage digest none) digest →
          (∀ object, position.At (w.store.setGarbage digest (some object)) digest) →
          Good trees w (collectRemove w process ⟨report, digest :: rest, position⟩ digest
            leftover later) := by
        intro later recorded arrives stays
        have spares : ∀ object, Spares w.store (w.store.setGarbage digest object) := by
          intro object
          exact .of_digest free (fun _ _ => rfl) fun other differs =>
            Function.update_of_ne differs _ _
        unfold collectRemove
        split
        · rename_i object
          exact goOn position (sound.store.discard recorded) rfl rfl (spares _) (stays object)
        · exact goOn later (sound.store.discard recorded) rfl rfl (spares _) arrives
      unfold advanceCollect
      cases position with
      | start =>
          simp only
          split
          · exact pending .claimed (.inl rfl) fun catalog row => row
          · rename_i absent
            exact goOn .cleaned sound.store rfl rfl (.of_same rfl rfl) absent
      | claimed =>
          refine remove .cleaned stands ?_ fun object => stands
          simp [Position.At, Store.setGarbage]
      | cleaned =>
          simp only
          split
          · exact pending .intended (.inr stands) fun catalog row => ⟨stands, row⟩
          · rename_i absent
            exact goOn .removed sound.store rfl rfl (.of_same rfl rfl) ⟨absent, stands⟩
      | intended =>
          simp only
          split
          · rename_i object live _
            refine goOn .moved (sound.store.move live stands.2) rfl rfl ?_ ?_
            · exact .of_digest free (fun other differs => Function.update_of_ne differs _ _)
                fun other differs => Function.update_of_ne differs _ _
            · simp [Position.At, Store.setObject, Store.setGarbage]
          · exact ⟨sound.report steady process (by simp), steady.spares⟩
      | moved => exact pending .recorded (.inl rfl) fun catalog row => ⟨stands, row⟩
      | recorded =>
          refine remove .removed stands.2 ⟨stands.1, ?_⟩ fun object => stands
          simp [Store.setGarbage]
      | removed =>
          simp only
          split
          · rename_i catalog forgotten
            obtain ⟨roots, -⟩ := Catalog.forget_ok forgotten
            have durable := sound.store.forget forgotten stands.2
            refine ⟨sound.goOn_free (.of_leases sound durable rfl (.of_same rfl rfl)) rfl ?_,
              .of_same rfl rfl⟩
            refine ⟨?_, fun _ _ => trivial⟩
            intro other member guarded
            refine ready.1 other (List.mem_cons_of_mem _ member)
              (Store.protected_of_shrunk roots ?_ guarded)
            exact fun lease inside active => ⟨lease, inside, active, rfl⟩
          · rename_i e failed
            refine ⟨sound.report steady process ?_, steady.spares⟩
            intro same
            cases same
            simp only [Catalog.forget, reject] at failed
            split at failed
            · cases failed
            · cases failed

/-! ## The start of a collection -/

theorem mem_validateTargets {s : Store Tree} {dryRun : Bool} {selected : List (String × Digest)}
    {report : List (CacheTargetReport × Digest)} {entry : CacheTargetReport × Digest}
    (validated : validateTargets trees s dryRun selected = .ok report) (member : entry ∈ report) :
    ∃ target ∈ selected, validateTarget trees s dryRun target = .ok entry.1 ∧
      entry.2 = target.2 := by
  induction selected generalizing report with
  | nil =>
      cases validated
      exact absurd member List.not_mem_nil
  | cons target rest ih =>
      simp only [validateTargets, ok_bind, ok_pure] at validated
      obtain ⟨first, head, others, tail, rfl⟩ := validated
      rcases List.mem_cons.mp member with rfl | inside
      · exact ⟨target, List.mem_cons_self, head, rfl⟩
      · obtain ⟨found, later, facts⟩ := ih tail inside
        exact ⟨found, List.mem_cons_of_mem _ later, facts⟩

/-- A target is deleted only when it is registered and unprotected, with its content checked. -/
theorem validateTarget_deleted {s : Store Tree} {dryRun : Bool} {target : String × Digest}
    {report : CacheTargetReport} (validated : validateTarget trees s dryRun target = .ok report)
    (deleted : report.state = .deleted) :
    s.catalog.manifest target.2 ≠ none ∧ ¬s.Protected target.2 ∧ s.Present target.2 ∧
      dryRun = false := by
  simp only [validateTarget, ok_bind, ok_reject] at validated
  obtain ⟨-, known, validated⟩ := validated
  split at validated
  · rename_i bare
    simp only [ok_bind, ok_pure] at validated
    obtain ⟨-, -, rfl⟩ := validated
    simp only at deleted
    split at deleted
    · rename_i present
      split at deleted
      · cases deleted
      · rename_i wet
        exact ⟨known, Store.not_protected_iff.mpr bare, present, by simpa using wet⟩
    · cases deleted
  · rw [ok_pure] at validated
    subst validated
    cases deleted

theorem mem_deletions {s : Store Tree} {dryRun : Bool} {selected : List (String × Digest)}
    {report : List (CacheTargetReport × Digest)} {digest : Digest}
    (validated : validateTargets trees s dryRun selected = .ok report)
    (member : digest ∈ deletions report) :
    s.catalog.manifest digest ≠ none ∧ ¬s.Protected digest := by
  obtain ⟨entry, inside, rfl⟩ := List.mem_map.mp member
  obtain ⟨reported, deleted⟩ := List.mem_filter.mp inside
  obtain ⟨target, -, checked, same⟩ := mem_validateTargets validated reported
  obtain ⟨known, free, -⟩ := validateTarget_deleted checked (of_decide_eq_true deleted)
  rw [same]
  exact ⟨known, free⟩

/-- The content of a sound store is never found unclaimed. -/
theorem verifyTarget_claimed {s : Store Tree} (sound : s.Sound trees) (digest : Digest) :
    verifyTarget trees s digest ≠ .error (.catalog "unclaimed garbage path") := by
  have registered : ∀ object, verifyObject trees object digest = .ok () →
      verifyRegistered trees object digest s.catalog ≠
        .error (.catalog "unclaimed garbage path") := by
    intro object verified failed
    simp only [verifyRegistered, verified, error_bind] at failed
    rcases failed with failed | ⟨_, _, failed⟩
    · cases failed
    · split at failed
      · simp only [markerHash, error_bind, error_expect, error_reject] at failed
        rcases failed with (⟨-, other⟩ | ⟨_, -, other⟩) | ⟨_, -, -, other⟩
        · cases other
        · cases other
        · cases other
      · cases failed
  intro failed
  simp only [verifyTarget, error_bind] at failed
  rcases failed with failed | ⟨_, _, failed⟩
  · unfold verifyLive at failed
    split at failed
    · rename_i live found
      exact registered live (sound.live found) failed
    · cases failed
  · unfold verifyGarbage at failed
    split at failed
    · cases failed
    · rename_i garbage found
      obtain ⟨detached, row, whole⟩ := sound.claimed found
      rw [row] at failed
      cases detached with
      | true => cases failed
      | false => exact registered garbage (whole rfl) failed

theorem validateTargets_claimed {s : Store Tree} (sound : s.Sound trees) (dryRun : Bool)
    (selected : List (String × Digest)) :
    validateTargets trees s dryRun selected ≠ .error (.catalog "unclaimed garbage path") := by
  induction selected with
  | nil =>
      intro failed
      cases failed
  | cons target rest ih =>
      intro failed
      simp only [validateTargets, error_bind] at failed
      rcases failed with failed | ⟨_, _, failed | ⟨_, _, failed⟩⟩
      · simp only [validateTarget, error_bind, error_reject] at failed
        rcases failed with ⟨-, impossible⟩ | ⟨_, _, failed⟩
        · cases impossible
        · split at failed
          · simp only [error_bind] at failed
            rcases failed with failed | ⟨_, _, failed⟩
            · exact verifyTarget_claimed sound target.2 failed
            · cases failed
          · cases failed
      · exact ih failed
      · cases failed

theorem targets_claimed (ids : List String) (text : String) : targets ids ≠ .error (.catalog text) := by
  induction ids with
  | nil =>
      intro failed
      cases failed
  | cons id rest ih =>
      intro failed
      simp only [targets, error_bind] at failed
      rcases failed with failed | ⟨_, _, failed | ⟨_, _, failed⟩⟩
      · unfold parseTarget at failed
        split at failed
        · rw [error_expect] at failed
          cases failed.2
        · cases failed
      · exact ih failed
      · cases failed

theorem collectReport_claimed {s : Store Tree} (sound : s.Sound trees) (ids : List String)
    (dryRun : Bool) :
    collectReport trees s ids dryRun ≠ .error (.catalog "unclaimed garbage path") := by
  intro failed
  simp only [collectReport, error_bind, Catalog.read_eq sound.referential] at failed
  rcases failed with failed | ⟨named, _, failed | ⟨_, _, failed | ⟨selected, _, failed⟩⟩⟩
  · exact targets_claimed _ _ failed
  · cases failed
  · unfold selection at failed
    split at failed
    · exact targets_claimed _ _ failed
    · cases failed
  · exact validateTargets_claimed sound _ _ failed

theorem collectReport_ok {s : Store Tree} {ids : List String} {dryRun : Bool}
    {report : List (CacheTargetReport × Digest)}
    (success : collectReport trees s ids dryRun = .ok report) :
    ∃ named selected, targets ids = .ok named ∧ selection s.catalog ids named = .ok selected ∧
      validateTargets trees s dryRun selected = .ok report := by
  simp only [collectReport, ok_bind] at success
  obtain ⟨named, parsed, snapshot, read, selected, chosen, validated⟩ := success
  obtain rfl := Catalog.read_ok read
  exact ⟨named, selected, parsed, chosen, validated⟩

theorem beginCollect_good (sound : Sound trees w) (process : Nat) (ids : List String)
    (dryRun : Bool) : Good trees w (beginCollect trees w process ids dryRun) := by
  have steady := Steady.refl sound
  unfold beginCollect
  split
  · rename_i e failed
    refine ⟨sound.report steady process ?_, steady.spares⟩
    intro same
    cases same
    exact collectReport_claimed sound.store ids dryRun failed
  · rename_i report success
    split
    · exact ⟨sound.report steady process (by simp), steady.spares⟩
    · refine ⟨sound.goOn_free steady rfl ⟨?_, fun _ _ => trivial⟩, steady.spares⟩
      intro digest member
      obtain ⟨_, _, _, _, validated⟩ := collectReport_ok success
      exact (mem_deletions validated member).2

/-! ## The other steps -/

theorem Steady.removeLease (sound : Sound trees w) {name : Nat} (quarantine : List Nat)
    (apart : ∀ r ∈ w.waiting, r.lease ≠ name) :
    Steady trees w { w.store with
      leases := w.store.leases.filter fun lease => lease.name ≠ name, quarantine } :=
  ⟨⟨sound.store.live, sound.store.claimed, sound.store.referential, sound.store.markers⟩,
    fun r waits => (sound.waiting waits).removeLease (apart r waits), .of_same rfl rfl⟩

theorem advance_good (sound : Sound trees w) (leftover : Option (Object Tree)) :
    Good trees w (advance trees w leftover) := by
  have steady := Steady.refl sound
  have release : Good trees w (w.release w.store) := ⟨sound.release steady, steady.spares⟩
  unfold advance
  split
  · exact .refl sound
  · rename_i process op holds
    have mine : (⟨op.process, op.lease, op.digest, false⟩ : Reference) ∈ (Job.lease op).references :=
      List.mem_singleton_self _
    have written : Steady trees w
        (w.store.updateLease op.lease fun lease => { lease with written := true }) := by
      refine ⟨sound.store.withLeases _, ?_, .of_same rfl rfl⟩
      intro r waits
      exact (sound.waiting waits).updateLease (sound.apart holds mine waits)
    refine ⟨sound.wait written ?_ ?_ (sound.job _ _ holds), written.spares⟩
    · have unique := sound.unique
      rw [World.references_of_holder holds] at unique
      exact unique
    · obtain ⟨lease, member, named, owner, digest, held, -⟩ :=
        sound.leased _ (World.references_of_holder holds ▸ List.mem_append_left _ mine)
      refine ⟨{ lease with written := true }, List.mem_map.mpr ⟨lease, member, if_pos named⟩,
        named, owner, digest, held, fun _ => rfl⟩
  · rename_i process op holds
    refine advanceCall_good sound ⟨.call op, ?_, rfl⟩ (sound.job _ _ holds)
    rw [holds, ← sound.owner _ _ holds op.reference (List.mem_singleton_self _)]
    rfl
  · rename_i process op holds
    have call : Holds w op := by
      refine ⟨.register op, ?_, rfl⟩
      rw [holds, ← sound.owner _ _ holds op.reference (List.mem_singleton_self _)]
      rfl
    have present : (w.store.objects op.digest).isSome := sound.job _ _ holds
    split
    · rename_i s registered
      obtain ⟨durable, objects, garbage, leases, -⟩ := sound.store.register registered
      have changed := Steady.of_leases sound durable leases (.of_same objects garbage)
      exact ⟨sound.hand call changed leases (objects ▸ present) .artifact, changed.spares⟩
    · exact ⟨sound.giveUp call steady rfl, steady.spares⟩
  · rename_i process name holds
    have removed := Steady.removeLease sound w.store.quarantine fun r waits =>
      (sound.waiting waits).ne_of_not_held (sound.job _ _ holds)
    exact ⟨sound.release removed, removed.spares⟩
  · split
    · rename_i s registered
      obtain ⟨durable, objects, garbage, leases, -⟩ := sound.store.register registered
      have changed := Steady.of_leases sound durable leases (.of_same objects garbage)
      exact ⟨sound.goOn_free changed rfl trivial, changed.spares⟩
    · exact release
  · split
    · rename_i catalog rooted
      have changed : Steady trees w { w.store with catalog } :=
        .of_leases sound (sound.store.root rooted) rfl (.of_same rfl rfl)
      exact ⟨sound.release changed, changed.spares⟩
    · exact release
  · exact release
  · rename_i process name names holds
    split
    · exact ⟨sound.goOn_free steady rfl trivial, steady.spares⟩
    · rename_i unheld
      split
      · exact release
      · have removed := Steady.removeLease sound (name :: w.store.quarantine)
          fun r waits => (sound.waiting waits).ne_of_not_held unheld
        exact ⟨sound.goOn_free removed rfl trivial, removed.spares⟩
  · rename_i process c holds
    exact advanceCollect_good sound holds leftover

theorem fail_good (sound : Sound trees w) : Good trees w (fail w) := by
  have steady := Steady.refl sound
  have release : Good trees w (w.release w.store) := ⟨sound.release steady, steady.spares⟩
  have call : ∀ {process : Nat} {job : Job Tree} {op : Call Tree},
      w.holder = some (process, job) → job.references = [op.reference] → Holds w op := by
    intro process job op holds mine
    refine ⟨job, ?_, mine⟩
    rw [holds, ← sound.owner _ _ holds op.reference (mine ▸ List.mem_singleton_self _)]
    rfl
  unfold fail
  split
  · exact .refl sound
  · rename_i process op holds
    have removed := Steady.removeLease sound w.store.quarantine fun r waits =>
      sound.apart holds (List.mem_singleton_self _) waits
    exact ⟨sound.release removed, removed.spares⟩
  · rename_i process op holds
    split
    · exact sound.unlock (call holds rfl)
    · exact ⟨sound.giveUp (call holds rfl) steady rfl, steady.spares⟩
  · rename_i process op holds
    split
    · exact sound.unlock (call holds rfl)
    · exact ⟨sound.giveUp (call holds rfl) steady rfl, steady.spares⟩
  · exact ⟨sound.report steady _ (by simp), steady.spares⟩
  · exact release
  · exact release
  · exact release
  · exact release

theorem updateRoot_good (sound : Sound trees w) (process : Nat) (id root : String)
    (add dryRun : Bool) : Good trees w (updateRoot trees w process id root add dryRun) := by
  have steady := Steady.refl sound
  unfold updateRoot
  simp only
  split
  · exact .refl sound
  · split
    · exact .refl sound
    · split
      · exact ⟨sound.goOn_free steady rfl trivial, steady.spares⟩
      · exact ⟨sound.goOn_free steady rfl trivial, steady.spares⟩

/-- What a running operation relies on survives the end of other leases. -/
theorem Job.Sound.of_leases {s : Store Tree} {leases : List Lease} {job : Job Tree}
    (ready : job.Sound trees s)
    (fewer : ∀ lease ∈ leases, lease.held = true → lease ∈ s.leases) :
    job.Sound trees { s with leases } := by
  cases job with
  | lease op => exact ready
  | call op => exact ready
  | register op => exact ready
  | remove name =>
      rintro ⟨lease, member, named, held⟩
      exact ready ⟨lease, fewer lease member held, named, held⟩
  | addRoot digest name => trivial
  | writeRoot digest name add => trivial
  | sweep names => trivial
  | collect c =>
      refine ⟨?_, ?_⟩
      · intro digest member guarded
        have shrunk : ∀ lease ∈ leases, lease.Active →
            ∃ old ∈ s.leases, old.Active ∧ old.digest = lease.digest :=
          fun lease inside active => ⟨lease, fewer lease inside active.2, active, rfl⟩
        have roots : ({ s with leases } : Store Tree).catalog.roots = s.catalog.roots := rfl
        exact ready.1 digest member (Store.protected_of_shrunk roots shrunk guarded)
      · intro digest member
        have stands := ready.2 digest member
        cases position : c.position with
        | start => trivial
        | _ =>
            rw [position] at stands
            exact stands

theorem crash_good (sound : Sound trees w) (process : Nat) : Good trees w (crash w process) := by
  have references : (crash w process).references.Sublist w.references := by
    refine List.Sublist.append ?_ (List.Sublist.append ?_ ?_)
    · unfold World.active crash
      cases holds : w.holder with
      | none => exact List.Sublist.refl _
      | some holder =>
          by_cases mine : holder.1 = process
          · simp [Option.filter, mine]
          · simp [Option.filter, mine]
    · exact List.filter_sublist.map _
    · exact List.filter_sublist.map _
  -- Everything that is left belongs to other processes.
  have others : ∀ r ∈ (crash w process).references, r.process ≠ process := by
    intro r member
    rcases List.mem_append.mp member with active | waits
    · cases holds : w.holder with
      | none => simp [World.active, crash, holds] at active
      | some holder =>
          by_cases mine : holder.1 = process
          · simp [World.active, crash, holds, Option.filter, mine] at active
          · simp only [World.active, crash, holds, Option.filter, mine, ne_eq, not_false_eq_true,
              decide_true, if_true, Option.elim_some] at active
            rw [sound.owner holder.1 holder.2 holds r active]
            exact mine
    · rcases List.mem_append.mp waits with calls | handles
      · obtain ⟨op, inside, rfl⟩ := List.mem_map.mp calls
        exact of_decide_eq_true (List.mem_filter.mp inside).2
      · obtain ⟨handle, inside, rfl⟩ := List.mem_map.mp handles
        exact of_decide_eq_true (List.mem_filter.mp inside).2
  refine ⟨⟨sound.store.withLeases _, ?_, ?_, ?_, ?_, ?_, ?_, sound.returned⟩, .of_same rfl rfl⟩
  · exact sound.unique.sublist (references.map _)
  · intro r member
    obtain ⟨lease, inside, named, owner, facts⟩ := sound.leased r (references.subset member)
    refine ⟨lease, List.mem_map.mpr ⟨lease, inside, if_neg ?_⟩, named, owner, facts⟩
    rw [owner]
    exact others r member
  · intro _ _ holds
    exact sound.owner _ _ (Option.eq_some_of_filter_eq_some holds)
  · exact fun op member => sound.staged op (List.mem_filter.mp member).1
  · intro _ _ holds
    refine (sound.job _ _ (Option.eq_some_of_filter_eq_some holds)).of_leases ?_
    intro lease member held
    obtain ⟨old, inside, rfl⟩ := List.mem_map.mp member
    by_cases mine : old.owner = process
    · rw [if_pos mine] at held
      cases held
    · rw [if_neg mine]
      exact inside
  · exact fun handle member => sound.live handle (List.mem_filter.mp member).1

theorem beginLease_good (sound : Sound trees w) (purpose : Purpose) {op : Call Tree}
    (staged : op.Staged trees) : Good trees w (w.beginLease purpose op) := by
  unfold World.beginLease
  split
  · exact .refl sound
  · rename_i possible
    push Not at possible
    obtain ⟨free, fresh⟩ := possible
    have idle : w.holder = none := by simpa using free
    have leased : ∀ r ∈ w.waiting, r.Leased ({ w.store with
        leases := ⟨op.lease, op.process, purpose, op.digest, false, true⟩ :: w.store.leases } :
          Store Tree) := by
      intro r waits
      obtain ⟨lease, member, facts⟩ := sound.waiting waits
      exact ⟨lease, List.mem_cons_of_mem _ member, facts⟩
    have steady : Steady trees w { w.store with
        leases := ⟨op.lease, op.process, purpose, op.digest, false, true⟩ :: w.store.leases } :=
      ⟨sound.store.withLeases _, leased, .of_same rfl rfl⟩
    refine ⟨⟨steady.sound, ?_, ?_, ?_, sound.staged, ?_, ?_, sound.returned⟩, steady.spares⟩
    · refine List.nodup_cons.mpr ⟨?_, sound.waiting_unique⟩
      intro member
      obtain ⟨r, waits, same⟩ := List.mem_map.mp member
      obtain ⟨lease, inside, named, -⟩ := sound.waiting waits
      exact fresh (List.mem_map.mpr ⟨lease, inside, named.trans same⟩)
    · intro r member
      rcases List.mem_cons.mp member with rfl | waits
      · exact ⟨_, List.mem_cons_self, rfl, rfl, rfl, rfl, fun impossible => by cases impossible⟩
      · exact leased r waits
    · intro _ _ holds r member
      cases holds
      rw [List.mem_singleton.mp member]
    · intro _ _ holds
      cases holds
      exact staged
    · exact fun handle member => steady.live sound member

theorem extract_perm {α : Type} {p : α → Bool} {l rest : List α} {a : α}
    (found : extract p l = some (a, rest)) : l.Perm (a :: rest) ∧ p a = true := by
  induction l generalizing rest with
  | nil => cases found
  | cons first others ih =>
      simp only [extract] at found
      split at found
      · rename_i here
        cases found
        exact ⟨.refl _, here⟩
      · obtain ⟨⟨b, remaining⟩, inner, same⟩ := Option.map_eq_some_iff.mp found
        cases same
        obtain ⟨perm, holds⟩ := ih inner
        exact ⟨(perm.cons first).trans (.swap _ _ _), holds⟩

/-- The references are only rearranged, and the store stays. -/
theorem Sound.rearrange (sound : Sound trees w) {w' : World Tree} (store : w'.store = w.store)
    (references : w'.references.Perm w.references)
    (owner : ∀ process job, w'.holder = some (process, job) →
      ∀ r ∈ job.references, r.process = process)
    (staged : ∀ op ∈ w'.calls, op.Staged trees)
    (job : ∀ process job, w'.holder = some (process, job) → job.Sound trees w.store)
    (handles : w'.handles ⊆ w.handles) (returned : w'.returned = w.returned) :
    Good trees w w' := by
  refine ⟨⟨store ▸ sound.store, ?_, ?_, owner, staged, ?_, ?_, returned ▸ sound.returned⟩,
    .of_same (congrArg Store.objects store) (congrArg Store.garbage store)⟩
  · exact (references.map _).nodup_iff.mpr sound.unique
  · rw [store]
    exact fun r member => sound.leased r (references.subset member)
  · rw [store]
    exact job
  · rw [store]
    exact fun handle member => sound.live handle (handles member)

/-- Every step keeps the invariant and spares what is protected. -/
theorem next_good (sound : Sound trees w) (label : Label Tree) :
    Good trees w (next trees w label) := by
  have same : Good trees w w := .refl sound
  cases label with
  | importTree process lease source copy expected =>
      simp only [next]
      split
      · rename_i stage built
        exact beginLease_good sound .publication (verifies_of_stageObject built)
      · exact beginLease_good sound .publication trivial
  | get process lease digest => exact beginLease_good sound .read trivial
  | privateView handle lease =>
      simp only [next]
      split
      · exact beginLease_good sound .view trivial
      · exact same
  | publishDataset handle lease derivation =>
      simp only [next]
      split
      · exact beginLease_good sound .mapping trivial
      · exact same
  | verify handle =>
      simp only [next]
      split
      · rw [(sound.store.verifyOrQuarantine handle.digest).1]
        exact ⟨sound.release (.refl sound), .of_same rfl rfl⟩
      · exact same
  | drop handle =>
      simp only [next]
      split
      · exact same
      · rename_i found rest taken
        obtain ⟨perm, named⟩ := extract_perm taken
        obtain rfl : found = handle := of_decide_eq_true named
        refine sound.rearrange rfl ?_ sound.owner ?_ sound.job ?_ rfl
        · refine List.Perm.append_left _ ?_
          have handles := ((perm.symm).map Handle.reference).append_left
            (w.calls.map Call.reference)
          exact (List.perm_middle.symm).trans handles
        · intro op member
          rcases List.mem_cons.mp member with rfl | old
          · trivial
          · exact sound.staged op old
        · exact fun other member => perm.symm.subset (List.mem_cons_of_mem _ member)
  | updateRoot process id root add dryRun =>
      simp only [next]
      split
      · exact same
      · exact updateRoot_good sound process id root add dryRun
  | quarantineAbandonedLeases process =>
      simp only [next]
      split
      · exact same
      · exact ⟨sound.goOn_free (.refl sound) rfl trivial, .of_same rfl rfl⟩
  | collect process ids dryRun =>
      simp only [next]
      split
      · exact same
      · exact beginCollect_good sound process ids dryRun
  | resume lease =>
      simp only [next]
      split
      · exact same
      · rename_i free
        have idle : w.holder = none := by simpa using free
        split
        · exact same
        · rename_i op rest taken
          obtain ⟨perm, -⟩ := extract_perm taken
          refine sound.rearrange rfl ?_ ?_ ?_ ?_ (List.Subset.refl _) rfl
          · rw [World.references_of_free idle]
            exact ((perm.symm).map Call.reference).append_right _
          · intro _ _ holds r member
            cases holds
            rw [List.mem_singleton.mp member]
            rfl
          · exact fun other member =>
              sound.staged other (perm.symm.subset (List.mem_cons_of_mem _ member))
          · intro _ _ holds
            cases holds
            exact sound.staged op (perm.symm.subset List.mem_cons_self)
  | abandon lease =>
      simp only [next]
      split
      · exact same
      · rename_i op rest taken
        obtain ⟨perm, -⟩ := extract_perm taken
        refine sound.rearrange rfl ?_ sound.owner ?_ sound.job (List.Subset.refl _) rfl
        · refine List.Perm.append_left _ ?_
          exact ((perm.symm).map Call.reference).append_right _
        · intro other member
          rcases List.mem_cons.mp member with rfl | old
          · trivial
          · exact sound.staged other (perm.symm.subset (List.mem_cons_of_mem _ old))
  | advance leftover => exact advance_good sound leftover
  | fail => exact fail_good sound
  | crash process => exact crash_good sound process

theorem sound_of_initial (start : Initial w) : Sound trees w := by
  obtain rfl := start
  refine ⟨⟨?_, ?_, ⟨?_, ?_⟩, ?_⟩, List.nodup_nil, ?_, ?_, ?_, ?_, ?_, ?_⟩
  all_goals
    intros
    contradiction

theorem sound_of_reachable (reach : Lib.Reachable (next trees) Initial w) : Sound trees w :=
  reach.invariant (fun _ start => sound_of_initial start) fun _ label sound =>
    (next_good sound label).1

end Preservation

/-! ## Protected content stays -/

/-- In every reachable state, whatever step comes next: a digest that a root names or an
active lease carries keeps its directories, so a collection detaches and deletes
unprotected content only; the object of every live handle is in place and verifies;
garbage is claimed by a pending row; and no collection has failed on an unclaimed path. -/
theorem collection_spares_protected (trees : Trees Tree) {w : World Tree}
    (reach : Lib.Reachable (next trees) Initial w) :
    (∀ label, Spares w.store (next trees w label).store) ∧
      (∀ handle ∈ w.handles, ∃ object, w.store.objects handle.digest = some object ∧
        verifyObject trees object handle.digest = .ok ()) ∧
      (∀ digest, (w.store.garbage digest).isSome → (w.store.catalog.detached digest).isSome) ∧
      ∀ entry ∈ w.returned, entry.2 ≠ .error (.catalog "unclaimed garbage path") := by
  have sound := sound_of_reachable reach
  refine ⟨fun label => (next_good sound label).2, ?_, ?_, sound.returned⟩
  · intro handle member
    obtain ⟨object, found⟩ := Option.isSome_iff_exists.mp (sound.live handle member)
    exact ⟨object, found, sound.store.live found⟩
  · intro digest present
    obtain ⟨object, found⟩ := Option.isSome_iff_exists.mp present
    obtain ⟨detached, row, -⟩ := sound.store.claimed found
    rw [row]
    rfl

/-- The only tree of the sample: an empty directory. -/
inductive SampleTree where
  | bare
  deriving DecidableEq

namespace SampleTree

/-- The tree hash. -/
def digest : Digest :=
  ⟨[27, 156, 136, 81, 55, 222, 81, 60, 72, 11, 189, 181, 224, 125, 65, 112, 154, 4, 28, 23, 216,
    116, 12, 173, 205, 220, 8, 25, 187, 119, 22, 71], rfl⟩

def marker : Json := markerDocument digest []

/-- The canonical text of the marker, in bytes. -/
def bytes : List UInt8 :=
  [123, 34, 99, 111, 109, 112, 108, 101, 116, 101, 34, 58, 116, 114, 117, 101, 44, 34, 101, 110,
   116, 114, 105, 101, 115, 34, 58, 91, 93, 44, 34, 115, 99, 104, 101, 109, 97, 95, 118, 101,
   114, 115, 105, 111, 110, 34, 58, 49, 44, 34, 116, 114, 101, 101, 95, 104, 97, 115, 104, 95,
   118, 101, 114, 115, 105, 111, 110, 34, 58, 49, 44, 34, 116, 114, 101, 101, 95, 115, 104, 97,
   50, 53, 54, 34, 58, 34, 49, 98, 57, 99, 56, 56, 53, 49, 51, 55, 100, 101, 53, 49, 51, 99, 52,
   56, 48, 98, 98, 100, 98, 53, 101, 48, 55, 100, 52, 49, 55, 48, 57, 97, 48, 52, 49, 99, 49,
   55, 100, 56, 55, 52, 48, 99, 97, 100, 99, 100, 100, 99, 48, 56, 49, 57, 98, 98, 55, 55, 49,
   54, 52, 55, 34, 125]

/-- SHA-256 of the marker. -/
def markerDigest : Digest :=
  ⟨[23, 78, 188, 134, 233, 95, 58, 45, 213, 94, 227, 197, 249, 204, 176, 99, 153, 22, 48, 49,
    115, 32, 213, 32, 205, 189, 255, 239, 253, 27, 100, 183], rfl⟩

def trees : Trees SampleTree where
  inventory _ := .ok []
  hashLocalTree _ := .ok digest
  sameContents _ _ := true
  repositoryPath path := decide (path ≠ "")
  fromSlice found := if found = bytes then some marker else none
  toCanonicalBytes value := if value = marker then bytes else []
  sha256 found := if found = bytes then markerDigest else default

/-- The labels of one import up to the handle it returns. -/
def imported (process lease : Nat) : List (Label SampleTree) :=
  [.importTree process lease .bare .bare digest, .advance none, .resume lease, .advance none,
    .advance none]

/-- The labels that end the handle of an import. -/
def dropped (process lease : Nat) : List (Label SampleTree) :=
  [.drop ⟨process, lease, digest, .artifact⟩, .resume lease, .advance none, .advance none]

/-- An import is dropped; a collection moves its object and dies. -/
def interrupted : List (Label SampleTree) :=
  imported 1 0 ++ dropped 1 0 ++
    [.collect 2 [] false, .advance none, .advance none, .advance none, .crash 2]

def start : World SampleTree := ⟨.empty, none, [], [], []⟩

end SampleTree

/-- A second import puts the object in place beside the garbage of the first. -/
theorem collection_spares_protected_interrupted :
    let w := Lib.run (next SampleTree.trees) SampleTree.start
      (SampleTree.interrupted ++ SampleTree.imported 1 1)
    (w.handles = [⟨1, 1, SampleTree.digest, .artifact⟩] ∧
      (w.store.garbage SampleTree.digest).isSome) ∧
      (∀ label, Spares w.store (next SampleTree.trees w label).store) ∧
      (w.store.objects SampleTree.digest).isSome ∧
      (w.store.catalog.detached SampleTree.digest).isSome := by
  have reached : ∀ {w : World SampleTree}, Lib.Reachable (next SampleTree.trees) Initial w →
      w.handles = [⟨1, 1, SampleTree.digest, .artifact⟩] ∧
        (w.store.garbage SampleTree.digest).isSome →
      (∀ label, Spares w.store (next SampleTree.trees w label).store) ∧
        (w.store.objects SampleTree.digest).isSome ∧
        (w.store.catalog.detached SampleTree.digest).isSome := by
    intro w reach facts
    obtain ⟨spares, live, claimed, -⟩ := collection_spares_protected SampleTree.trees reach
    obtain ⟨object, found, -⟩ := live ⟨1, 1, SampleTree.digest, .artifact⟩ (by simp [facts.1])
    exact ⟨spares, Option.isSome_iff_exists.mpr ⟨object, found⟩, claimed _ facts.2⟩
  intro w
  have facts : w.handles = [⟨1, 1, SampleTree.digest, .artifact⟩] ∧
      (w.store.garbage SampleTree.digest).isSome := by
    decide +kernel
  exact ⟨facts, reached ⟨SampleTree.start, _, rfl, rfl⟩ facts⟩

end Metewand.ArtifactStore
