import Metewand.ArtifactStore.Protection

/-!
# Collection converges

Whatever combination of pending row, live object and garbage earlier operations have
left behind, a collection that is allowed to go on removes all of it
(`collection_converges`).  Each step of the holder brings the first remaining target one
position further (`Collecting.left` counts what is left to do); other processes can
neither enter nor disturb it.  A selection with a bad member is refused before the first
write, in any state of the cache.
-/

namespace Metewand.ArtifactStore

open Lib Lib.Check

variable {Tree : Type}

/-! ## Targets in order -/

/-- What a list of names selects. -/
structure Names (ids : List String) (named : List (String × Digest)) : Prop where
  ascending : Ascending named
  spelled : ∀ entry ∈ named, entry.1 = targetId entry.2
  sound : ∀ entry ∈ named, entry.1 ∈ ids
  complete : ∀ id ∈ ids, ∃ digest, (id, digest) ∈ named

theorem names_of_targets {ids : List String} {named : List (String × Digest)}
    (parsed : targets ids = .ok named) : Names ids named := by
  induction ids generalizing named with
  | nil =>
      cases parsed
      exact ⟨.nil, by simp, by simp, by simp⟩
  | cons id rest ih =>
      simp only [targets, ok_bind, ok_pure] at parsed
      obtain ⟨digest, read, others, tail, rfl⟩ := parsed
      have names := ih tail
      refine ⟨names.ascending.insertEntry, ?_, ?_, ?_⟩
      · intro entry member
        rcases mem_insertEntry member with rfl | old
        · exact parseTarget_eq_ok.mp read
        · exact names.spelled entry old
      · intro entry member
        rcases mem_insertEntry member with rfl | old
        · exact List.mem_cons_self
        · exact List.mem_cons_of_mem _ (names.sound entry old)
      · intro other member
        by_cases same : other = id
        · subst same
          exact ⟨digest, insertEntry_mem other digest others⟩
        · obtain ⟨found, inside⟩ := names.complete other ((List.mem_cons.mp member).resolve_left same)
          exact ⟨found, mem_insertEntry_of_mem inside same⟩

theorem exists_targets {ids : List String} (spelled : ∀ id ∈ ids, ∃ digest, id = targetId digest) :
    ∃ named, targets ids = .ok named := by
  induction ids with
  | nil => exact ⟨[], rfl⟩
  | cons id rest ih =>
      obtain ⟨digest, same⟩ := spelled id List.mem_cons_self
      obtain ⟨others, tail⟩ := ih fun other member => spelled other (List.mem_cons_of_mem _ member)
      refine ⟨insertEntry id digest others, ?_⟩
      simp only [targets, ok_bind, ok_pure]
      exact ⟨digest, parseTarget_eq_ok.mpr same, others, tail, rfl⟩

theorem Names.mem_of_targetId {ids : List String} {named : List (String × Digest)}
    (names : Names ids named) {digest : Digest} (member : targetId digest ∈ ids) :
    (targetId digest, digest) ∈ named := by
  obtain ⟨found, inside⟩ := names.complete _ member
  obtain rfl := targetId_injective (names.spelled _ inside)
  exact inside

theorem Names.nodup {ids : List String} {named : List (String × Digest)}
    (names : Names ids named) : (named.map Prod.snd).Nodup := by
  refine List.pairwise_map.mpr (names.ascending.imp_of_mem ?_)
  intro a b left right before same
  rw [names.spelled a left, names.spelled b right, same] at before
  exact lt_irrefl _ before

/-- The digest is among the targets of a collection. -/
def Selects (catalog : Catalog) (ids : List String) (digest : Digest) : Prop :=
  (ids = [] ∧ (catalog.manifest digest).isSome) ∨ targetId digest ∈ ids

theorem mem_of_lookup {β : Type} {rows : List (Digest × β)} {digest : Digest} {value : β}
    (found : rows.lookup digest = some value) : (digest, value) ∈ rows := by
  induction rows with
  | nil => cases found
  | cons row rest ih =>
      obtain ⟨key, first⟩ := row
      by_cases same : digest = key
      · subst same
        rw [List.lookup_cons_self] at found
        cases found
        exact List.mem_cons_self
      · rw [List.lookup_cons, beq_false_of_ne same] at found
        exact List.mem_cons_of_mem _ (ih found)

/-- The selected targets are the named ones, or all that are registered. -/
theorem names_of_selection {catalog : Catalog} {ids : List String}
    {named selected : List (String × Digest)} (parsed : targets ids = .ok named)
    (chosen : selection catalog ids named = .ok selected) :
    (selected.map Prod.snd).Nodup ∧
      ∀ digest, Selects catalog ids digest → (targetId digest, digest) ∈ selected := by
  unfold selection at chosen
  split at chosen
  · rename_i empty
    have names := names_of_targets chosen
    refine ⟨names.nodup, ?_⟩
    rintro digest (⟨-, known⟩ | member)
    · obtain ⟨marker, found⟩ := Option.isSome_iff_exists.mp known
      exact names.mem_of_targetId (List.mem_map.mpr ⟨_, mem_of_lookup found, rfl⟩)
    · rw [empty] at member
      exact absurd member List.not_mem_nil
  · rename_i nonempty
    cases chosen
    have names := names_of_targets parsed
    refine ⟨names.nodup, ?_⟩
    rintro digest (⟨empty, -⟩ | member)
    · exact absurd empty nonempty
    · exact names.mem_of_targetId member

/-! ## Validation in a sound cache -/

section Validation

variable {trees : Trees Tree} {s : Store Tree} {ids : List String} {dryRun : Bool}
  {selected : List (String × Digest)} {report : List (CacheTargetReport × Digest)}

/-- Verified content has the registered marker. -/
theorem verifyRegistered_of_sound (collisionFree : trees.CollisionFree) (sound : s.Sound trees)
    {object : Object Tree} {digest : Digest}
    (verified : verifyObject trees object digest = .ok ()) :
    verifyRegistered trees object digest s.catalog = .ok () := by
  simp only [verifyRegistered, ok_bind]
  refine ⟨(), verified, ?_⟩
  split
  · rename_i expected registered
    obtain ⟨first, firstVerified, firstMarker⟩ := sound.markers registered
    have marker : markerHash trees object = .ok expected :=
      (markerHash_unique collisionFree verified firstVerified).trans firstMarker
    simp only [ok_bind, ok_reject, not_not]
    exact ⟨expected, marker, rfl⟩
  · rfl

theorem verifyTarget_of_sound (collisionFree : trees.CollisionFree) (sound : s.Sound trees)
    (digest : Digest) : verifyTarget trees s digest = .ok () := by
  simp only [verifyTarget, ok_bind]
  refine ⟨(), ?_, ?_⟩
  · unfold verifyLive
    split
    · rename_i live found
      exact verifyRegistered_of_sound collisionFree sound (sound.live found)
    · rfl
  · unfold verifyGarbage
    split
    · rfl
    · rename_i garbage found
      obtain ⟨detached, row, whole⟩ := sound.claimed found
      rw [row]
      cases detached with
      | true => rfl
      | false => exact verifyRegistered_of_sound collisionFree sound (whole rfl)

theorem exists_validateTargets (collisionFree : trees.CollisionFree) (sound : s.Sound trees)
    (known : ∀ target ∈ selected, s.catalog.manifest target.2 ≠ none) :
    ∃ report, validateTargets trees s dryRun selected = .ok report := by
  induction selected with
  | nil => exact ⟨[], rfl⟩
  | cons target rest ih =>
      obtain ⟨others, tail⟩ := ih fun other member => known other (List.mem_cons_of_mem _ member)
      have first : ∃ entry, validateTarget trees s dryRun target = .ok entry := by
        unfold validateTarget
        rw [reject, if_neg (known target List.mem_cons_self),
          verifyTarget_of_sound collisionFree sound target.2]
        by_cases bare : s.catalog.rootNames target.2 = [] ∧ s.leasePurposes target.2 = []
        · exact ⟨_, if_pos bare⟩
        · exact ⟨_, if_neg bare⟩
      obtain ⟨entry, head⟩ := first
      refine ⟨(entry, target.2) :: others, ?_⟩
      simp only [validateTargets, ok_bind, ok_pure]
      exact ⟨entry, head, others, tail, rfl⟩

theorem validateTargets_digests (validated : validateTargets trees s dryRun selected = .ok report) :
    report.map Prod.snd = selected.map Prod.snd := by
  induction selected generalizing report with
  | nil =>
      cases validated
      rfl
  | cons target rest ih =>
      simp only [validateTargets, ok_bind, ok_pure] at validated
      obtain ⟨first, -, others, tail, rfl⟩ := validated
      rw [List.map_cons, List.map_cons, ih tail]

theorem validateTargets_mem (validated : validateTargets trees s dryRun selected = .ok report)
    {target : String × Digest} (member : target ∈ selected) :
    ∃ entry, (entry, target.2) ∈ report ∧ validateTarget trees s dryRun target = .ok entry := by
  induction selected generalizing report with
  | nil => exact absurd member List.not_mem_nil
  | cons first rest ih =>
      simp only [validateTargets, ok_bind, ok_pure] at validated
      obtain ⟨entry, head, others, tail, rfl⟩ := validated
      rcases List.mem_cons.mp member with rfl | later
      · exact ⟨entry, List.mem_cons_self, head⟩
      · obtain ⟨found, inside, checked⟩ := ih tail later
        exact ⟨found, List.mem_cons_of_mem _ inside, checked⟩

/-- An accepted target is registered, and its content has been checked if it is unprotected. -/
theorem validateTarget_checked {target : String × Digest} {entry : CacheTargetReport}
    (validated : validateTarget trees s dryRun target = .ok entry) :
    s.catalog.manifest target.2 ≠ none ∧
      (¬s.Protected target.2 → verifyTarget trees s target.2 = .ok () ∧
        (dryRun = false → s.Present target.2 → entry.state = .deleted)) := by
  simp only [validateTarget, ok_bind, ok_reject] at validated
  obtain ⟨-, known, validated⟩ := validated
  refine ⟨known, ?_⟩
  intro free
  rw [if_pos (Store.not_protected_iff.mp free)] at validated
  simp only [ok_bind, ok_pure] at validated
  obtain ⟨⟨⟩, checked, rfl⟩ := validated
  refine ⟨checked, ?_⟩
  rintro rfl present
  simp [present]

/-- An accepted selection has no unknown and no damaged target. -/
theorem collectReport_checked (success : collectReport trees s ids dryRun = .ok report) :
    (∀ id ∈ ids, ∃ digest, id = targetId digest ∧ s.catalog.manifest digest ≠ none) ∧
      ∀ digest, Selects s.catalog ids digest → ¬s.Protected digest →
        verifyTarget trees s digest = .ok () := by
  obtain ⟨named, selected, parsed, chosen, validated⟩ := collectReport_ok success
  obtain ⟨-, selects⟩ := names_of_selection parsed chosen
  constructor
  · intro id member
    obtain ⟨digest, inside⟩ := (names_of_targets parsed).complete id member
    have spelled := (names_of_targets parsed).spelled _ inside
    obtain ⟨entry, -, checked⟩ :=
      validateTargets_mem validated (selects digest (.inr (spelled ▸ member)))
    exact ⟨digest, spelled, (validateTarget_checked checked).1⟩
  · intro digest inside free
    obtain ⟨entry, -, checked⟩ := validateTargets_mem validated (selects digest inside)
    exact ((validateTarget_checked checked).2 free).1

/-- The validation of registered targets in a sound cache, and what it is going to delete. -/
theorem exists_collectReport (collisionFree : trees.CollisionFree) (sound : s.Sound trees)
    (known : ∀ id ∈ ids, ∃ digest, id = targetId digest ∧ s.catalog.manifest digest ≠ none) :
    ∃ report, collectReport trees s ids false = .ok report ∧ (deletions report).Nodup ∧
      ∀ digest, Selects s.catalog ids digest → ¬s.Protected digest → s.Present digest →
        digest ∈ deletions report := by
  obtain ⟨named, parsed⟩ := exists_targets fun id member =>
    (known id member).imp fun digest facts => facts.1
  have chosen : ∃ selected, selection s.catalog ids named = .ok selected ∧
      ∀ target ∈ selected, s.catalog.manifest target.2 ≠ none := by
    unfold selection
    split
    · have rows : ∀ id ∈ s.catalog.objects.map fun row => targetId row.1,
          ∃ digest, id = targetId digest ∧ s.catalog.manifest digest ≠ none := by
        intro id member
        obtain ⟨row, inside, rfl⟩ := List.mem_map.mp member
        refine ⟨row.1, rfl, ?_⟩
        intro absent
        have differs := List.lookup_eq_none_iff.mp absent row inside
        simp at differs
      obtain ⟨selected, all⟩ := exists_targets fun id member =>
        (rows id member).imp fun digest facts => facts.1
      refine ⟨selected, all, ?_⟩
      intro target member
      have names := names_of_targets all
      obtain ⟨digest, same, registered⟩ := rows _ (names.sound target member)
      rw [names.spelled target member] at same
      rwa [targetId_injective same]
    · refine ⟨named, rfl, ?_⟩
      intro target member
      have names := names_of_targets parsed
      obtain ⟨digest, same, registered⟩ := known _ (names.sound target member)
      rw [names.spelled target member] at same
      rwa [targetId_injective same]
  obtain ⟨selected, picked, registered⟩ := chosen
  obtain ⟨report, validated⟩ :=
    @exists_validateTargets Tree trees s false selected collisionFree sound registered
  obtain ⟨distinct, selects⟩ := names_of_selection parsed picked
  refine ⟨report, ?_, ?_, ?_⟩
  · simp only [collectReport, ok_bind]
    exact ⟨named, parsed, s.catalog, Catalog.read_eq sound.referential, selected, picked, validated⟩
  · rw [← validateTargets_digests validated] at distinct
    exact distinct.sublist (List.filter_sublist.map _)
  · intro digest inside free present
    obtain ⟨entry, listed, checked⟩ := validateTargets_mem validated (selects digest inside)
    have deleted := ((validateTarget_checked checked).2 free).2 rfl present
    exact List.mem_map.mpr ⟨_, List.mem_filter.mpr ⟨listed, decide_eq_true deleted⟩, rfl⟩

end Validation

/-! ## The deletion loop -/

/-- Nothing of the digest is left. -/
def Store.Gone (s : Store Tree) (digest : Digest) : Prop :=
  s.objects digest = none ∧ s.garbage digest = none ∧ s.catalog.detached digest = none ∧
    s.catalog.manifest digest = none

/-- Steps to the next target. -/
def Position.left : Position → Nat
  | .start => 7
  | .claimed => 6
  | .cleaned => 5
  | .intended => 4
  | .moved => 3
  | .recorded => 2
  | .removed => 1

/-- Steps the deletion loop has left at most. -/
def Collecting.left (c : Collecting) : Nat :=
  match c.remaining with
  | [] => 0
  | _ :: rest => c.position.left + 7 * rest.length

/-- A complete step of the holder. -/
def Label.isStep : Label Tree → Bool
  | .advance none => true
  | _ => false

/-- The operation is neither stopped by an error nor by the death of its process. -/
def Label.Harmless (process : Nat) : Label Tree → Prop
  | .fail => False
  | .crash other => other ≠ process
  | _ => True

section Loop

variable {trees : Trees Tree} {w : World Tree} {process : Nat} {c : Collecting}
  {target : Digest}

/-- A collection on its way to deleting `target`: the remaining targets are registered,
and an announced move has something to move. -/
structure Clearing (trees : Trees Tree) (process : Nat) (target : Digest)
    (returned : List (Nat × CollectResult)) (c : Collecting) (w : World Tree) : Prop where
  sound : Sound trees w
  holder : w.holder = some (process, .collect c)
  returned : w.returned = returned
  distinct : c.remaining.Nodup
  known : ∀ digest ∈ c.remaining, w.store.catalog.manifest digest ≠ none
  movable : c.position = .intended → ∀ digest ∈ c.remaining.head?,
    (w.store.objects digest).isSome
  clears : target ∈ c.remaining ∨ w.store.Gone target

variable {returned : List (Nat × CollectResult)}

theorem Clearing.ready (clearing : Clearing trees process target returned c w) :
    c.Sound w.store :=
  clearing.sound.job _ _ clearing.holder

/-- Neither the collection nor what it works on has changed. -/
def Undisturbed (w w' : World Tree) : Prop :=
  w'.holder = w.holder ∧ w'.returned = w.returned ∧ w'.store.objects = w.store.objects ∧
    w'.store.garbage = w.store.garbage ∧ w'.store.catalog = w.store.catalog

/-- While the collection has the lock, other labels change leases, calls and handles only. -/
theorem held_step (holder : w.holder = some (process, .collect c)) {label : Label Tree}
    (harmless : label.Harmless process) (other : ∀ leftover, label ≠ .advance leftover) :
    Undisturbed w (next trees w label) := by
  have busy : w.holder.isSome = true := by simp [holder]
  have begins : ∀ purpose (op : Call Tree), w.beginLease purpose op = w :=
    fun purpose op => if_pos (.inl busy)
  have idle : ∀ {w' : World Tree}, w' = w → Undisturbed w w' := by
    rintro _ rfl
    exact ⟨rfl, rfl, rfl, rfl, rfl⟩
  cases label with
  | advance leftover => exact absurd rfl (other leftover)
  | fail => exact harmless.elim
  | crash dead =>
      have differs : dead ≠ process := harmless
      refine ⟨?_, rfl, rfl, rfl, rfl⟩
      simp [next, crash, holder, Option.filter, Ne.symm differs]
  | importTree p lease source copy expected =>
      refine idle ?_
      simp only [next, begins]
      split
      · rfl
      · rfl
  | get p lease digest => exact idle (begins _ _)
  | privateView handle lease => exact idle (by simp only [next, begins, ite_self])
  | publishDataset handle lease derivation => exact idle (by simp only [next, begins, ite_self])
  | verify handle => exact idle (if_neg (by simp [holder]))
  | updateRoot p id root add dryRun => exact idle (if_pos busy)
  | quarantineAbandonedLeases p => exact idle (if_pos busy)
  | collect p ids dryRun => exact idle (if_pos busy)
  | resume lease => exact idle (if_pos busy)
  | drop handle =>
      simp only [next]
      split
      · exact ⟨rfl, rfl, rfl, rfl, rfl⟩
      · exact ⟨rfl, rfl, rfl, rfl, rfl⟩
  | abandon lease =>
      simp only [next]
      split
      · exact ⟨rfl, rfl, rfl, rfl, rfl⟩
      · exact ⟨rfl, rfl, rfl, rfl, rfl⟩

theorem Clearing.other (clearing : Clearing trees process target returned c w)
    {label : Label Tree} (harmless : label.Harmless process)
    (other : ∀ leftover, label ≠ .advance leftover) :
    Clearing trees process target returned c (next trees w label) := by
  obtain ⟨holder, same, objects, garbage, catalog⟩ :=
    @held_step _ trees _ _ _ clearing.holder _ harmless other
  refine ⟨(next_good clearing.sound label).1, holder.trans clearing.holder,
    same.trans clearing.returned, clearing.distinct, ?_, ?_, ?_⟩
  · rw [catalog]
    exact clearing.known
  · rw [objects]
    exact clearing.movable
  · unfold Store.Gone
    rw [objects, garbage, catalog]
    exact clearing.clears

/-- Other digests than the given one are left alone, rows included. -/
def OnlyAt (digest : Digest) (s s' : Store Tree) : Prop :=
  ∀ other, other ≠ digest → s'.objects other = s.objects other ∧
    s'.garbage other = s.garbage other ∧ s'.catalog.detached other = s.catalog.detached other ∧
    s'.catalog.manifest other = s.catalog.manifest other

theorem Store.Gone.of_onlyAt {s s' : Store Tree} {digest other : Digest}
    (only : OnlyAt digest s s') (differs : other ≠ digest) (gone : s.Gone other) :
    s'.Gone other := by
  obtain ⟨objects, garbage, detached, manifest⟩ := only other differs
  exact ⟨objects.trans gone.1, garbage.trans gone.2.1, detached.trans gone.2.2.1,
    manifest.trans gone.2.2.2⟩

/-- What the holder's next step leaves: the same collection with less to do. -/
def Onward (trees : Trees Tree) (process : Nat) (target : Digest)
    (returned : List (Nat × CollectResult)) (c : Collecting) (leftover : Option (Object Tree))
    (w' : World Tree) : Prop :=
  ∃ c', Clearing trees process target returned c' w' ∧ c'.report = c.report ∧
    c'.left ≤ c.left ∧ (leftover = none → c'.left < c.left)

theorem advance_collect (holder : w.holder = some (process, .collect c))
    (leftover : Option (Object Tree)) :
    next trees w (.advance leftover) = advanceCollect w process c leftover := by
  simp only [next, advance, holder]

/-- One step of the deletion loop. -/
theorem Clearing.onward {report : List (CacheTargetReport × Digest)} {digest : Digest}
    {rest : List Digest} {position : Position}
    (clearing : Clearing trees process target returned ⟨report, digest :: rest, position⟩ w)
    (leftover : Option (Object Tree)) :
    Onward trees process target returned ⟨report, digest :: rest, position⟩ leftover
      (next trees w (.advance leftover)) := by
  have good := (next_good clearing.sound (.advance leftover)).1
  rw [advance_collect clearing.holder leftover] at good ⊢
  have stands : position.At w.store digest := clearing.ready.2 digest rfl
  have known : w.store.catalog.manifest digest ≠ none :=
    clearing.known digest List.mem_cons_self
  -- The loop stays with this target and comes to another position.
  have goOn : ∀ {s : Store Tree} (later : Position),
      Sound trees (w.goOn s process (.collect ⟨report, digest :: rest, later⟩)) →
      OnlyAt digest w.store s → s.catalog.manifest digest = w.store.catalog.manifest digest →
      (later = .intended → (s.objects digest).isSome) → later.left ≤ position.left →
      (leftover = none → later.left < position.left) →
      Onward trees process target returned ⟨report, digest :: rest, position⟩ leftover
        (w.goOn s process (.collect ⟨report, digest :: rest, later⟩)) := by
    intro s later sound only manifest movable less strict
    refine ⟨⟨report, digest :: rest, later⟩, ⟨sound, rfl, clearing.returned, clearing.distinct,
      ?_, ?_, ?_⟩, rfl, ?_, ?_⟩
    · intro other member
      show s.catalog.manifest other ≠ none
      by_cases same : other = digest
      · rw [same, manifest]
        exact known
      · rw [(only other same).2.2.2]
        exact clearing.known other member
    · intro intended other member
      cases member
      exact movable intended
    · refine clearing.clears.imp_right fun gone => gone.of_onlyAt only ?_
      rintro rfl
      exact known gone.2.2.2
    · exact Nat.add_le_add_right less _
    · exact fun complete => Nat.add_lt_add_right (strict complete) _
  -- Writing a pending row succeeds, since the target is registered.
  have pending : ∀ {detached : Bool} (later : Position),
      advanceCollect w process ⟨report, digest :: rest, position⟩ leftover =
        collectPending w process ⟨report, digest :: rest, position⟩ digest detached later →
      (later = .intended → (w.store.objects digest).isSome) → later.left < position.left →
      Onward trees process target returned ⟨report, digest :: rest, position⟩ leftover
        (advanceCollect w process ⟨report, digest :: rest, position⟩ leftover) := by
    intro detached later step movable less
    rw [step] at good ⊢
    unfold collectPending at good ⊢
    split
    · rename_i catalog written
      rw [written] at good
      obtain ⟨objects, -, -, -, rows⟩ := Catalog.setPending_ok written
      refine goOn later good ?_ (congrArg (List.lookup digest) objects) movable (by omega)
        fun _ => less
      intro other differs
      exact ⟨rfl, rfl, (rows other).trans (if_neg differs), congrArg (List.lookup other) objects⟩
    · rename_i e failed
      simp only [Catalog.setPending, reject, if_neg known] at failed
      cases failed
  -- A removal gets all the way or leaves the loop where it is.
  have remove : ∀ (later : Position),
      advanceCollect w process ⟨report, digest :: rest, position⟩ leftover =
        collectRemove w process ⟨report, digest :: rest, position⟩ digest leftover later →
      later ≠ .intended → position ≠ .intended → later.left < position.left →
      Onward trees process target returned ⟨report, digest :: rest, position⟩ leftover
        (advanceCollect w process ⟨report, digest :: rest, position⟩ leftover) := by
    intro later step laterFree free less
    rw [step] at good ⊢
    have only : ∀ object, OnlyAt digest w.store (w.store.setGarbage digest object) :=
      fun object other differs => ⟨rfl, Function.update_of_ne differs _ _, rfl, rfl⟩
    cases leftover with
    | some object =>
        refine goOn position good (only _) rfl (fun here => absurd here free) (by omega) ?_
        intro impossible
        cases impossible
    | none =>
        exact goOn later good (only _) rfl (fun here => absurd here laterFree) (by omega)
          fun _ => less
  cases position with
  | start =>
      cases garbage : w.store.garbage digest with
      | some object =>
          refine @pending true .claimed ?_ (fun impossible => by cases impossible) (by decide)
          simp only [advanceCollect, garbage]
      | none =>
          simp only [advanceCollect, garbage] at good ⊢
          exact goOn .cleaned good (fun _ _ => ⟨rfl, rfl, rfl, rfl⟩) rfl
            (fun impossible => by cases impossible) (by decide) fun _ => by decide
  | claimed => exact remove .cleaned rfl (by decide) (by decide) (by decide)
  | cleaned =>
      cases live : w.store.objects digest with
      | some object =>
          refine @pending false .intended ?_ (fun _ => by simp [live]) (by decide)
          simp only [advanceCollect, live]
      | none =>
          simp only [advanceCollect, live] at good ⊢
          exact goOn .removed good (fun _ _ => ⟨rfl, rfl, rfl, rfl⟩) rfl
            (fun impossible => by cases impossible) (by decide) fun _ => by decide
  | intended =>
      obtain ⟨object, live⟩ := Option.isSome_iff_exists.mp (clearing.movable rfl digest rfl)
      simp only [advanceCollect, live, stands.1] at good ⊢
      refine goOn .moved good ?_ rfl (fun impossible => by cases impossible) (by decide)
        fun _ => by decide
      intro other differs
      exact ⟨Function.update_of_ne differs _ _, Function.update_of_ne differs _ _, rfl, rfl⟩
  | moved => exact @pending true .recorded rfl (fun impossible => by cases impossible) (by decide)
  | recorded => exact remove .removed rfl (by decide) (by decide) (by decide)
  | removed =>
      have free : ¬w.store.Protected digest := clearing.ready.1 digest List.mem_cons_self
      have unrooted : ¬∃ row ∈ w.store.catalog.roots, row.2 = digest := fun rooted =>
        free (.inl rooted)
      cases forgotten : w.store.catalog.forget digest with
      | error e =>
          simp only [Catalog.forget, reject, if_neg unrooted] at forgotten
          cases forgotten
      | ok catalog =>
          simp only [advanceCollect, forgotten] at good ⊢
          obtain ⟨-, -, -, detached, manifest⟩ := Catalog.forget_ok forgotten
          obtain ⟨absent, distinct⟩ := List.nodup_cons.mp clearing.distinct
          have only : OnlyAt digest w.store { w.store with catalog } := fun other differs =>
            ⟨rfl, rfl, (detached other).trans (if_neg differs),
              (manifest other).trans (if_neg differs)⟩
          have gone : ({ w.store with catalog } : Store Tree).Gone digest :=
            ⟨stands.1, stands.2, (detached digest).trans (if_pos rfl),
              (manifest digest).trans (if_pos rfl)⟩
          refine ⟨⟨report, rest, .start⟩, ⟨good, rfl, clearing.returned, distinct, ?_, ?_, ?_⟩,
            rfl, ?_, fun _ => ?_⟩
          · intro other member
            show catalog.manifest other ≠ none
            have differs : other ≠ digest := by
              rintro rfl
              exact absent member
            rw [(only other differs).2.2.2]
            exact clearing.known other (List.mem_cons_of_mem _ member)
          · intro impossible
            cases impossible
          · rcases clearing.clears with member | before
            · rcases List.mem_cons.mp member with rfl | later
              · exact .inr gone
              · exact .inl later
            · by_cases same : target = digest
              · exact .inr (same ▸ gone)
              · exact .inr (before.of_onlyAt only same)
          all_goals
            cases rest with
            | nil => simp [Collecting.left, Position.left]
            | cons second others =>
                simp only [Collecting.left, Position.left, List.length_cons]
                omega

/-- The last step of the loop returns the report. -/
theorem Clearing.finish {report : List (CacheTargetReport × Digest)} {position : Position}
    (clearing : Clearing trees process target returned ⟨report, [], position⟩ w)
    (leftover : Option (Object Tree)) :
    next trees w (.advance leftover) =
      w.report w.store process (.ok (report.map Prod.fst)) := by
  rw [advance_collect clearing.holder leftover]
  rfl

/-- The collection has returned its report and nothing of the digest is left. -/
structure Cleared (process : Nat) (target : Digest) (returned : List (Nat × CollectResult))
    (report : List (CacheTargetReport × Digest)) (w : World Tree) : Prop where
  holder : w.holder = none
  returned : w.returned = (process, .ok (report.map Prod.fst)) :: returned
  gone : w.store.Gone target

/-- A collection that takes enough steps returns, whatever happens in between. -/
theorem Clearing.run (clearing : Clearing trees process target returned c w)
    {labels : List (Label Tree)} (harmless : ∀ label ∈ labels, label.Harmless process)
    (enough : c.left < labels.countP Label.isStep) :
    ∃ before after, labels = before ++ after ∧
      Cleared process target returned c.report (Lib.run (next trees) w before) := by
  induction labels generalizing w c with
  | nil => simp at enough
  | cons label rest ih =>
      have harmlessRest : ∀ label ∈ rest, label.Harmless process :=
        fun other member => harmless other (List.mem_cons_of_mem _ member)
      have goOn : ∀ {c' : Collecting},
          Clearing trees process target returned c' (next trees w label) →
          c'.report = c.report → c'.left < rest.countP Label.isStep →
          ∃ before after, label :: rest = before ++ after ∧
            Cleared process target returned c.report (Lib.run (next trees) w before) := by
        intro c' later same fewer
        obtain ⟨before, after, split, cleared⟩ := ih later harmlessRest fewer
        rw [same] at cleared
        exact ⟨label :: before, after, congrArg (label :: ·) split, cleared⟩
      by_cases step : ∃ leftover, label = .advance leftover
      · obtain ⟨leftover, rfl⟩ := step
        obtain ⟨report, remaining, position⟩ := c
        cases remaining with
        | nil =>
            refine ⟨[.advance leftover], rest, rfl, ?_⟩
            rw [Lib.run_cons, Lib.run_nil, clearing.finish leftover]
            refine ⟨rfl, congrArg _ clearing.returned, ?_⟩
            exact clearing.clears.resolve_left List.not_mem_nil
        | cons digest others =>
            obtain ⟨c', later, same, less, strict⟩ := clearing.onward leftover
            refine goOn later same ?_
            cases leftover with
            | none =>
                have fewer := strict rfl
                rw [List.countP_cons_of_pos rfl] at enough
                omega
            | some object =>
                rw [List.countP_cons_of_neg (by simp [Label.isStep])] at enough
                omega
      · have other : ∀ leftover, label ≠ .advance leftover := fun leftover same =>
          step ⟨leftover, same⟩
        refine goOn (clearing.other (harmless label List.mem_cons_self) other) rfl ?_
        have skipped : Label.isStep label = false := by
          cases label with
          | advance leftover => exact absurd rfl (other leftover)
          | _ => rfl
        rw [List.countP_cons_of_neg (by simp [skipped])] at enough
        exact enough

end Loop

/-! ## Convergence and refusal -/

/-- Live content, or content whose move has not been recorded, fails verification. -/
def Store.Damaged (trees : Trees Tree) (s : Store Tree) (digest : Digest) : Prop :=
  (∃ object, s.objects digest = some object ∧
    verifyRegistered trees object digest s.catalog ≠ .ok ()) ∨
  ∃ object, s.garbage digest = some object ∧ s.catalog.detached digest ≠ some true ∧
    verifyRegistered trees object digest s.catalog ≠ .ok ()

theorem not_damaged_of_verifyTarget {trees : Trees Tree} {s : Store Tree} {digest : Digest}
    (verified : verifyTarget trees s digest = .ok ()) : ¬s.Damaged trees digest := by
  simp only [verifyTarget, ok_bind] at verified
  obtain ⟨_, live, garbage⟩ := verified
  rintro (⟨object, found, bad⟩ | ⟨object, found, unrecorded, bad⟩)
  · simp only [verifyLive, found] at live
    exact bad live
  · simp only [verifyGarbage, found] at garbage
    split at garbage
    · rename_i recorded
      exact unrecorded recorded
    · exact bad garbage
    · cases garbage

/-- In every reachable state, so after any crashes, imports and root changes: a collection
whose targets are registered and that goes on for long enough returns its report, and
leaves nothing of an unprotected selected digest that was live or pending.  And in any
state at all, a selection with an unknown target, or with an unprotected one whose content
fails verification, is refused with nothing moved and no row written. -/
theorem collection_converges (trees : Trees Tree) (collisionFree : trees.CollisionFree) :
    (∀ {w : World Tree} {process : Nat} {ids : List String} {digest : Digest},
      Lib.Reachable (next trees) Initial w → w.holder = none →
      (∀ id ∈ ids, ∃ known, id = targetId known ∧ w.store.catalog.manifest known ≠ none) →
      Selects w.store.catalog ids digest → ¬w.store.Protected digest →
      ((w.store.objects digest).isSome ∨ (w.store.catalog.detached digest).isSome) →
      ∃ report bound, ∀ labels : List (Label Tree),
        (∀ label ∈ labels, label.Harmless process) → bound < labels.countP Label.isStep →
        ∃ before after, labels = before ++ after ∧
          Cleared process digest w.returned report
            (Lib.run (next trees) (next trees w (.collect process ids false)) before)) ∧
    ∀ {w : World Tree} {process : Nat} {ids : List String} {dryRun : Bool}, w.holder = none →
      ((∃ id ∈ ids, ∀ known, id = targetId known → w.store.catalog.manifest known = none) ∨
        ∃ digest, Selects w.store.catalog ids digest ∧ ¬w.store.Protected digest ∧
          w.store.Damaged trees digest) →
      ∃ e, next trees w (.collect process ids dryRun) = w.report w.store process (.error e) := by
  constructor
  · intro w process ids digest reach free known selected unprotected present
    have sound := sound_of_reachable reach
    have present : w.store.Present digest := present.imp_right .inr
    obtain ⟨report, success, distinct, deletes⟩ :=
      exists_collectReport collisionFree sound.store known
    have deleted := deletes digest selected unprotected present
    have begun : next trees w (.collect process ids false) =
        w.goOn w.store process (.collect ⟨report, deletions report, .start⟩) := by
      have some : deletions report ≠ [] := List.ne_nil_of_mem deleted
      simp only [next, free, Option.isSome_none, Bool.false_eq_true, if_false, beginCollect,
        success, false_or, if_neg some]
    have good := (next_good sound (.collect process ids false)).1
    rw [begun] at good ⊢
    obtain ⟨_, _, _, _, validated⟩ := collectReport_ok success
    have clearing : Clearing trees process digest w.returned ⟨report, deletions report, .start⟩
        (w.goOn w.store process (.collect ⟨report, deletions report, .start⟩)) :=
      ⟨good, rfl, rfl, distinct, fun other member => (mem_deletions validated member).1,
        (fun impossible => by cases impossible), .inl deleted⟩
    exact ⟨report, _, fun labels harmless enough => clearing.run harmless enough⟩
  · intro w process ids dryRun free bad
    cases result : collectReport trees w.store ids dryRun with
    | error e =>
        refine ⟨e, ?_⟩
        simp only [next, free, Option.isSome_none, Bool.false_eq_true, if_false, beginCollect,
          result]
    | ok report =>
        obtain ⟨known, verified⟩ := collectReport_checked result
        rcases bad with ⟨id, member, unknown⟩ | ⟨digest, selected, unprotected, damaged⟩
        · obtain ⟨digest, spelled, registered⟩ := known id member
          exact absurd (unknown digest spelled) registered
        · exact absurd damaged (not_damaged_of_verifyTarget (verified digest selected unprotected))

theorem collection_converges_interrupted :
    let w := Lib.run (next SampleTree.trees) SampleTree.start SampleTree.interrupted
    (w.holder = none ∧ (w.store.garbage SampleTree.digest).isSome ∧
      w.store.catalog.detached SampleTree.digest = some false) ∧
      ∃ report bound, ∀ labels : List (Label SampleTree),
        (∀ label ∈ labels, label.Harmless 3) → bound < labels.countP Label.isStep →
        ∃ before after, labels = before ++ after ∧
          Cleared 3 SampleTree.digest w.returned report
            (Lib.run (next SampleTree.trees) (next SampleTree.trees w (.collect 3 [] false))
              before) := by
  have reached : ∀ {w : World SampleTree}, Lib.Reachable (next SampleTree.trees) Initial w →
      w.holder = none ∧ w.store.catalog.detached SampleTree.digest = some false ∧
        (w.store.catalog.manifest SampleTree.digest).isSome ∧
        w.store.catalog.rootNames SampleTree.digest = [] ∧
        w.store.leasePurposes SampleTree.digest = [] →
      ∃ report bound, ∀ labels : List (Label SampleTree),
        (∀ label ∈ labels, label.Harmless 3) → bound < labels.countP Label.isStep →
        ∃ before after, labels = before ++ after ∧
          Cleared 3 SampleTree.digest w.returned report
            (Lib.run (next SampleTree.trees) (next SampleTree.trees w (.collect 3 [] false))
              before) := by
    intro w reach ⟨free, row, registered, bare⟩
    have named : ∀ id ∈ ([] : List String), ∃ known, id = targetId known ∧
        w.store.catalog.manifest known ≠ none := by simp
    have pending : (w.store.catalog.detached SampleTree.digest).isSome := by simp [row]
    exact (collection_converges SampleTree.trees fun _ _ => rfl).1 reach free named
      (.inl ⟨rfl, registered⟩) (Store.not_protected_iff.mpr bare) (.inr pending)
  intro w
  have facts : (w.holder.isNone ∧ (w.store.garbage SampleTree.digest).isSome) ∧
      w.store.catalog.detached SampleTree.digest = some false ∧
        (w.store.catalog.manifest SampleTree.digest).isSome ∧
        w.store.catalog.rootNames SampleTree.digest = [] ∧
        w.store.leasePurposes SampleTree.digest = [] := by
    decide +kernel
  have free : w.holder = none := Option.isNone_iff_eq_none.mp facts.1.1
  exact ⟨⟨free, facts.1.2, facts.2.1⟩, reached ⟨SampleTree.start, _, rfl, rfl⟩ ⟨free, facts.2⟩⟩

end Metewand.ArtifactStore
