import Metewand.ArtifactStore.System

/-!
# What every state of the cache satisfies

`Store.Sound` is the part of the invariant that survives a crash at any point: live
objects verify, garbage is claimed by a pending row, and content whose move has not
been recorded is still complete.  `Sound` adds what the running operations rely on:
each waiting operation and each handle owns a lease of its own, and a collection has
only unprotected digests left to delete.

`Spares s s'` says that a step leaves every protected digest alone.
-/

namespace Metewand.ArtifactStore

open Lib.Check

variable {Tree : Type}

/-! ## Rows of the catalog -/

theorem lookup_filter_ne {β : Type} (rows : List (Digest × β)) (digest other : Digest) :
    (rows.filter fun row => row.1 ≠ digest).lookup other =
      if other = digest then none else rows.lookup other := by
  induction rows with
  | nil => simp
  | cons row rest ih =>
      obtain ⟨key, value⟩ := row
      simp only [ne_eq, decide_not] at ih ⊢
      by_cases here : key = digest
      · subst here
        rw [List.filter_cons_of_neg (by simp), ih]
        by_cases same : other = key
        · rw [if_pos same, if_pos same]
        · rw [if_neg same, if_neg same, List.lookup_cons, beq_false_of_ne same]
      · rw [List.filter_cons_of_pos (by simpa using here), List.lookup_cons, List.lookup_cons, ih]
        by_cases same : other = key
        · subst same
          simp [here]
        · rw [beq_false_of_ne same]

theorem lookup_append_one {β : Type} {rows : List (Digest × β)} {digest : Digest} {value : β}
    (absent : rows.lookup digest = none) (other : Digest) :
    (rows ++ [(digest, value)]).lookup other =
      if other = digest then some value else rows.lookup other := by
  rw [List.lookup_append]
  by_cases same : other = digest
  · subst same
    simp [absent]
  · have differs : (other == digest) = false := by simpa using same
    simp [same, List.lookup_cons, differs]

namespace Catalog

variable {c c' : Catalog} {digest : Digest}

theorem read_ok {snapshot : Catalog} (success : c.read = .ok snapshot) : snapshot = c := by
  simp only [read, ok_bind, ok_reject, ok_pure] at success
  obtain ⟨-, -, rfl⟩ := success
  rfl

theorem read_eq (referential : c.Referential) : c.read = .ok c := by
  simp only [read, ok_bind, ok_reject, ok_pure, not_not]
  exact ⟨(), referential, trivial⟩

/-- A registered tree keeps its marker and a new one gets the given marker. -/
theorem register_ok {marker : Digest} (success : c.register digest marker = .ok c') :
    c'.roots = c.roots ∧ c'.pending = c.pending ∧ c'.manifest digest = some marker ∧
      ∀ other, other ≠ digest → c'.manifest other = c.manifest other := by
  unfold register at success
  split at success
  · rename_i expected found
    simp only [ok_bind, ok_reject, ok_pure, not_not] at success
    obtain ⟨-, rfl, rfl⟩ := success
    exact ⟨rfl, rfl, found, fun _ _ => rfl⟩
  · rename_i absent
    cases success
    refine ⟨rfl, rfl, ?_, ?_⟩
    · exact (lookup_append_one absent digest).trans (if_pos rfl)
    · intro other differs
      exact (lookup_append_one absent other).trans (if_neg differs)

theorem root_ok {name : String} {add : Bool} (success : c.root digest name add = .ok c') :
    c'.objects = c.objects ∧ c'.pending = c.pending ∧
      ∀ row ∈ c'.roots, row ∈ c.roots ∨ (c.manifest row.2).isSome := by
  unfold root at success
  split at success
  · split at success
    · cases success
      exact ⟨rfl, rfl, fun row member => .inl member⟩
    · simp only [ok_bind, ok_reject, ok_pure] at success
      obtain ⟨-, known, rfl⟩ := success
      refine ⟨rfl, rfl, ?_⟩
      intro row member
      rcases List.mem_append.mp member with old | new
      · exact .inl old
      · rw [List.mem_singleton] at new
        subst new
        exact .inr (Option.isSome_iff_ne_none.mpr known)
  · simp only [ok_bind, ok_reject, ok_pure] at success
    obtain ⟨-, -, rfl⟩ := success
    exact ⟨rfl, rfl, fun row member => .inl (List.mem_filter.mp member).1⟩

theorem setPending_ok {detached : Bool} (success : c.setPending digest detached = .ok c') :
    c'.objects = c.objects ∧ c'.roots = c.roots ∧ (c.manifest digest).isSome ∧
      (∀ row ∈ c'.pending, row ∈ c.pending ∨ row.1 = digest) ∧
      ∀ other, c'.detached other = if other = digest then some detached else c.detached other := by
  simp only [setPending, ok_bind, ok_reject, ok_pure] at success
  obtain ⟨-, known, rfl⟩ := success
  refine ⟨rfl, rfl, Option.isSome_iff_ne_none.mpr known, ?_, ?_⟩
  · intro row member
    rcases List.mem_cons.mp member with rfl | old
    · exact .inr rfl
    · exact .inl (List.mem_filter.mp old).1
  · intro other
    simp only [Catalog.detached]
    by_cases same : other = digest
    · simp [same]
    · have differs : (other == digest) = false := by simpa using same
      rw [List.lookup_cons, differs, if_neg same, lookup_filter_ne, if_neg same]

theorem forget_ok (success : c.forget digest = .ok c') :
    c'.roots = c.roots ∧ (∀ row ∈ c.roots, row.2 ≠ digest) ∧
      (∀ row ∈ c'.pending, row ∈ c.pending ∧ row.1 ≠ digest) ∧
      (∀ other, c'.detached other = if other = digest then none else c.detached other) ∧
      ∀ other, c'.manifest other = if other = digest then none else c.manifest other := by
  simp only [forget, ok_bind, ok_reject, ok_pure, not_exists, not_and] at success
  obtain ⟨-, free, rfl⟩ := success
  refine ⟨rfl, free, ?_, fun other => lookup_filter_ne _ _ _, fun other => lookup_filter_ne _ _ _⟩
  intro row member
  obtain ⟨old, differs⟩ := List.mem_filter.mp member
  exact ⟨old, of_decide_eq_true differs⟩

end Catalog

/-! ## The durable invariant -/

/-- What holds of the cache directory whoever crashes and whenever. -/
structure Store.Sound (trees : Trees Tree) (s : Store Tree) : Prop where
  live : ∀ {digest object}, s.objects digest = some object →
    verifyObject trees object digest = .ok ()
  claimed : ∀ {digest object}, s.garbage digest = some object →
    ∃ detached, s.catalog.detached digest = some detached ∧
      (detached = false → verifyObject trees object digest = .ok ())
  referential : s.catalog.Referential
  markers : ∀ {digest marker}, s.catalog.manifest digest = some marker →
    ∃ object, verifyObject trees object digest = .ok () ∧ markerHash trees object = .ok marker

/-- Protected digests keep what they have below `objects` and `garbage`. -/
def Spares (s s' : Store Tree) : Prop :=
  ∀ digest, s.Protected digest →
    (∀ object, s.objects digest = some object → s'.objects digest = some object) ∧
      ∀ object, s.garbage digest = some object → s'.garbage digest = some object

theorem Spares.of_same {s s' : Store Tree} (objects : s'.objects = s.objects)
    (garbage : s'.garbage = s.garbage) : Spares s s' := by
  intro digest _
  rw [objects, garbage]
  exact ⟨fun _ found => found, fun _ found => found⟩

/-- A step that changes one digest only spares the others. -/
theorem Spares.of_digest {s s' : Store Tree} {digest : Digest} (free : ¬s.Protected digest)
    (objects : ∀ other, other ≠ digest → s'.objects other = s.objects other)
    (garbage : ∀ other, other ≠ digest → s'.garbage other = s.garbage other) : Spares s s' := by
  intro other guarded
  have differs : other ≠ digest := by
    rintro rfl
    exact free guarded
  rw [objects other differs, garbage other differs]
  exact ⟨fun _ found => found, fun _ found => found⟩

namespace Store

variable {trees : Trees Tree} {s : Store Tree} {digest : Digest}

/-- Writing the catalog alone. -/
theorem Sound.withCatalog (sound : s.Sound trees) {catalog : Catalog}
    (referential : catalog.Referential)
    (claimed : ∀ other, s.catalog.detached other ≠ none →
      catalog.detached other = s.catalog.detached other ∨ catalog.detached other = some true ∨
        s.garbage other = none)
    (markers : ∀ {other marker}, catalog.manifest other = some marker →
      s.catalog.manifest other = some marker ∨
        ∃ object, verifyObject trees object other = .ok () ∧ markerHash trees object = .ok marker) :
    ({ s with catalog } : Store Tree).Sound trees where
  live := sound.live
  claimed := by
    intro other object found
    obtain ⟨detached, row, whole⟩ := sound.claimed found
    have known : s.catalog.detached other ≠ none := by simp [row]
    rcases claimed other known with same | done | gone
    · exact ⟨detached, same.trans row, whole⟩
    · exact ⟨true, done, fun impossible => Bool.noConfusion impossible⟩
    · rw [gone] at found
      cases found
  referential := referential
  markers := by
    intro other marker found
    rcases markers found with old | new
    · exact sound.markers old
    · exact new

theorem Sound.register (sound : s.Sound trees) {s' : Store Tree}
    (success : s.registerObject trees digest = .ok s') :
    s'.Sound trees ∧ s'.objects = s.objects ∧ s'.garbage = s.garbage ∧ s'.leases = s.leases ∧
      s'.catalog.roots = s.catalog.roots := by
  simp only [registerObject, ok_bind, ok_expect, ok_pure] at success
  obtain ⟨object, live, marker, hashed, catalog, registered, rfl⟩ := success
  obtain ⟨roots, pending, new, old⟩ := Catalog.register_ok registered
  have kept : ∀ other, (s.catalog.manifest other).isSome → (catalog.manifest other).isSome := by
    intro other known
    by_cases same : other = digest
    · rw [same, new]
      rfl
    · rw [old other same]
      exact known
  refine ⟨sound.withCatalog ⟨?_, ?_⟩ ?_ ?_, rfl, rfl, rfl, roots⟩
  · rw [roots]
    exact fun row member => kept _ (sound.referential.1 row member)
  · rw [pending]
    exact fun row member => kept _ (sound.referential.2 row member)
  · intro other _
    exact .inl (congrArg (List.lookup other) pending)
  · intro other found manifest
    by_cases same : other = digest
    · subst same
      rw [new] at manifest
      cases manifest
      exact .inr ⟨object, sound.live live, hashed⟩
    · exact .inl ((old other same).symm.trans manifest)

theorem Sound.root (sound : s.Sound trees) {catalog : Catalog} {name : String} {add : Bool}
    (success : s.catalog.root digest name add = .ok catalog) :
    ({ s with catalog } : Store Tree).Sound trees := by
  obtain ⟨objects, pending, rows⟩ := Catalog.root_ok success
  have manifest : ∀ other, catalog.manifest other = s.catalog.manifest other :=
    fun other => congrArg (List.lookup other) objects
  refine sound.withCatalog ⟨?_, ?_⟩ ?_ ?_
  · intro row member
    rw [manifest]
    rcases rows row member with old | known
    · exact sound.referential.1 row old
    · exact known
  · intro row member
    rw [pending] at member
    rw [manifest]
    exact sound.referential.2 row member
  · exact fun other _ => .inl (congrArg (List.lookup other) pending)
  · intro other marker found
    exact .inl ((manifest other).symm.trans found)

/-- A pending row is written before a move of nothing that lies in `garbage`, or for
garbage that may be removed. -/
theorem Sound.pending (sound : s.Sound trees) {catalog : Catalog} {detached : Bool}
    (success : s.catalog.setPending digest detached = .ok catalog)
    (clear : detached = true ∨ s.garbage digest = none) :
    ({ s with catalog } : Store Tree).Sound trees := by
  obtain ⟨objects, roots, known, rows, lookup⟩ := Catalog.setPending_ok success
  have manifest : ∀ other, catalog.manifest other = s.catalog.manifest other :=
    fun other => congrArg (List.lookup other) objects
  refine sound.withCatalog ⟨?_, ?_⟩ ?_ ?_
  · intro row member
    rw [roots] at member
    rw [manifest]
    exact sound.referential.1 row member
  · intro row member
    rw [manifest]
    rcases rows row member with old | rfl
    · exact sound.referential.2 row old
    · exact known
  · intro other _
    by_cases same : other = digest
    · subst same
      rw [lookup other, if_pos rfl]
      rcases clear with rfl | gone
      · exact .inr (.inl rfl)
      · exact .inr (.inr gone)
    · rw [lookup other, if_neg same]
      exact .inl rfl
  · intro other marker found
    exact .inl ((manifest other).symm.trans found)

theorem Sound.forget (sound : s.Sound trees) {catalog : Catalog}
    (success : s.catalog.forget digest = .ok catalog) (clear : s.garbage digest = none) :
    ({ s with catalog } : Store Tree).Sound trees := by
  obtain ⟨roots, free, rows, lookup, manifest⟩ := Catalog.forget_ok success
  refine sound.withCatalog ⟨?_, ?_⟩ ?_ ?_
  · intro row member
    rw [roots] at member
    rw [manifest, if_neg (free row member)]
    exact sound.referential.1 row member
  · intro row member
    obtain ⟨old, differs⟩ := rows row member
    rw [manifest, if_neg differs]
    exact sound.referential.2 row old
  · intro other _
    by_cases same : other = digest
    · subst same
      exact .inr (.inr clear)
    · rw [lookup other, if_neg same]
      exact .inl rfl
  · intro other marker found
    rw [manifest] at found
    split at found
    · cases found
    · exact .inl found

/-- Verified content may be put at its own address. -/
theorem Sound.place (sound : s.Sound trees) {object : Object Tree}
    (verified : verifyObject trees object digest = .ok ()) :
    (s.setObject digest (some object)).Sound trees where
  live := by
    intro other found live
    simp only [setObject] at live
    by_cases same : other = digest
    · subst same
      rw [Function.update_self] at live
      cases live
      exact verified
    · rw [Function.update_of_ne same] at live
      exact sound.live live
  claimed := sound.claimed
  referential := sound.referential
  markers := sound.markers

/-- Garbage whose move has been recorded may become anything. -/
theorem Sound.discard (sound : s.Sound trees) {object : Option (Object Tree)}
    (recorded : s.catalog.detached digest = some true) :
    (s.setGarbage digest object).Sound trees where
  live := sound.live
  claimed := by
    intro other found garbage
    simp only [setGarbage] at garbage
    by_cases same : other = digest
    · subst same
      exact ⟨true, recorded, fun impossible => Bool.noConfusion impossible⟩
    · rw [Function.update_of_ne same] at garbage
      exact sound.claimed garbage
  referential := sound.referential
  markers := sound.markers

/-- The move of a live object after its announcement. -/
theorem Sound.move (sound : s.Sound trees) {object : Object Tree}
    (live : s.objects digest = some object) (announced : s.catalog.detached digest = some false) :
    ((s.setObject digest none).setGarbage digest (some object)).Sound trees where
  live := by
    intro other found alive
    simp only [setObject, setGarbage] at alive
    by_cases same : other = digest
    · subst same
      rw [Function.update_self] at alive
      cases alive
    · rw [Function.update_of_ne same] at alive
      exact sound.live alive
  claimed := by
    intro other found garbage
    simp only [setObject, setGarbage] at garbage
    by_cases same : other = digest
    · subst same
      rw [Function.update_self] at garbage
      cases garbage
      exact ⟨false, announced, fun _ => sound.live live⟩
    · rw [Function.update_of_ne same] at garbage
      exact sound.claimed garbage
  referential := sound.referential
  markers := sound.markers

theorem Sound.withLeases (sound : s.Sound trees) (leases : List Lease) :
    ({ s with leases } : Store Tree).Sound trees :=
  ⟨sound.live, sound.claimed, sound.referential, sound.markers⟩

/-- Verification never finds a bad object. -/
theorem Sound.verifyOrQuarantine (sound : s.Sound trees) (digest : Digest) :
    (s.verifyOrQuarantine trees digest).1 = s ∧
      ((s.verifyOrQuarantine trees digest).2 = .ok () → (s.objects digest).isSome) := by
  unfold Store.verifyOrQuarantine
  split
  · exact ⟨rfl, fun impossible => by cases impossible⟩
  · rename_i object found
    rw [sound.live found]
    exact ⟨rfl, fun _ => by rw [found]; rfl⟩

end Store

end Metewand.ArtifactStore
