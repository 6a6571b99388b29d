import Metewand.Buffered.Validate
import Metewand.Buffered.FixedCount
import Mathlib.Data.List.Find

/-!
# What validation guarantees

`validateBuffer_sound`: everything a trajectory promises, read off the files of an accepted
buffer.  The checks are local; each loop carries an invariant over the rows or snapshots it
has passed (`checkPoints_ok`, `checkSnapshots_ok`), and the global statements follow.
-/

namespace Metewand.Buffered

open Lib Lib.Check Evidence BufferedTrace

/-! ## Trees -/

/-- A directory tree: no two entries have one path. -/
structure DirectoryTree where
  root : Node
  distinct : Keyed (·.path) (root.entries "")

/-- The file of an entry. -/
def fileOf (e : TreeEntry) : Option (String × List UInt8) :=
  match e.entry with
  | .file content _ => some (e.path, content)
  | _ => none

def DirectoryTree.files (tree : DirectoryTree) : Files := (tree.root.entries "").filterMap fileOf

/-- The files besides the manifest. -/
def DirectoryTree.others (tree : DirectoryTree) (path : String) : Files :=
  tree.files.filter fun f => f.1 ≠ path

/-! ## The guarantees -/

section Guarantees

variable (profile : SelectedBufferedProfile)

/-- A strictly increasing list of scheduled checks that leaves none out below its last. -/
structure Leading (schedule : CheckSchedule) (indices : List Nat) : Prop where
  increasing : indices.Pairwise (· < ·)
  scheduled : ∀ i ∈ indices, schedule.includes i
  complete : ∀ i, schedule.includes i → (∃ j ∈ indices, i ≤ j) → i ∈ indices

/-- Later rows are further along in checks, time and every kind of work. -/
structure Follows (p q : TracePoint) : Prop where
  index : p.checkIndex < q.checkIndex
  time : p.instrumentedTimeNs ≤ q.instrumentedTimeNs
  work : ∀ key n, p.work.get key = some n → ∃ m, q.work.get key = some m ∧ n ≤ m

/-- The thresholds the snapshots list, each with the row of its snapshot. -/
def listed (snapshots : List BufferedSnapshot) : List (Nat × UInt64) :=
  snapshots.flatMap fun s => s.thresholds.map (s.traceIndex, ·)

/-- The stop reasons that rows and counts bear out. -/
def Substantiated (manifest : BufferedManifest) (points : List TracePoint) (last : TracePoint) :
    Prop :=
  match manifest.stopReason with
  | .targetReached => ∃ threshold ∈ profile.policy.threshold, reachesAt profile threshold last
  | .fixedCount =>
      profile.policy.metric = none ∧ manifest.snapshots.length = profile.policy.maxObservations
  | .traceLimit => points.length = profile.policy.maxTracePoints
  | .observationLimit => manifest.snapshots.length = profile.policy.maxObservations
  | .activeTimeLimit =>
      ∀ active, profile.policy.activeTimeNs = .ok active → active ≤ last.instrumentedTimeNs
  | .byteLimit | .implementationStopped => True

/-- The files on disk are the manifest and the files it declares. -/
structure FilesDeclared (sha256 : List UInt8 → Digest) (tree : DirectoryTree) (path : String)
    (manifest : BufferedManifest) : Prop where
  regular : ∀ e ∈ tree.root.entries "", safePath e.path ∧ (e.entry = .directory ∨ (fileOf e).isSome)
  declared : (manifest.files.map fun f => (f.path, f.sizeBytes, f.sha256)).Perm
    ((tree.others path).map fun f => (f.1, f.2.length, (sha256 f.2).hex))
  size : tree.files.size ≤ profile.policy.maxBufferBytes

/-- The manifest and the rows are what the files hold. -/
structure ReadFrom (lib : JsonLibrary) (tree : DirectoryTree) (path : String)
    (manifest : BufferedManifest) (points : List TracePoint) : Prop where
  document : ∃ data ∈ tree.files.find path, ∃ value ∈ lib.fromSlice data,
    BufferedManifest.fromJson value.value = some manifest
  rows : ∃ trace ∈ (tree.others path).find manifest.trace,
    List.Forall₂ (fun line point => ∃ value ∈ lib.fromSlice line,
      TracePoint.fromJson value.value = some point) (traceLines trace) points

/-- The rows before the last one continue the run, and the last one ends it. -/
structure RowsSound (manifest : BufferedManifest) (init : List TracePoint) (last : TracePoint) :
    Prop where
  running : ∀ p ∈ init, p.terminal = false
  terminal : last.terminal = true
  leading : Leading profile.checkSchedule (init.map (·.checkIndex))
  following : (init ++ [last]).Pairwise Follows
  next : ∀ i, profile.checkSchedule.includes i → (∀ p ∈ init, p.checkIndex < i) →
    last.checkIndex ≤ i
  times : ∀ p ∈ init ++ [last], p.instrumentedTimeNs ≤ manifest.instrumentedTotalTimeNs
  continued : ∀ p ∈ init, (∀ threshold ∈ profile.policy.threshold,
      reachesAt profile threshold p = false) ∧
    ∀ active, profile.policy.activeTimeNs = .ok active → p.instrumentedTimeNs < active

/-- The snapshots and the thresholds they list. -/
structure SnapshotsSound (manifest : BufferedManifest) (points : List TracePoint) : Prop where
  count : 1 ≤ manifest.snapshots.length ∧
    manifest.snapshots.length ≤ profile.policy.maxObservations
  ordinals : manifest.snapshots.map (·.captureOrdinal) = List.range manifest.snapshots.length
  increasing : (manifest.snapshots.map (·.traceIndex)).Pairwise (· < ·)
  last : ∀ s ∈ manifest.snapshots.getLast?, s.traceIndex + 1 = points.length
  every : profile.policy.metric = none →
    manifest.snapshots.map (·.traceIndex) = List.range points.length
  policy : ∀ entry ∈ listed manifest.snapshots, containsF64 profile.policy.thresholds entry.2
  first : ∀ threshold ∈ profile.policy.thresholds,
    ((listed manifest.snapshots).filter fun entry => F64.eq entry.2 threshold).map Prod.fst =
      if points.any (reachesAt profile threshold) then
        [points.findIdx (reachesAt profile threshold)]
      else []

/-- What an accepted buffer guarantees. -/
structure BufferSound (lib : JsonLibrary) (sha256 : List UInt8 → Digest) (tree : DirectoryTree)
    (path : String) (manifest : BufferedManifest) (points : List TracePoint) : Prop where
  files : FilesDeclared profile sha256 tree path manifest
  read : ReadFrom lib tree path manifest points
  rows : ∃ init last, points = init ++ [last] ∧ RowsSound profile manifest init last ∧
    Substantiated profile manifest points last
  snapshots : SnapshotsSound profile manifest points
  /-- Every proper prefix leaves the terminal reserve. -/
  reserve : ∀ trace ∈ (tree.others path).find manifest.trace,
    ∀ index, index + 1 < points.length →
      let bytes := (((traceLines trace).take (index + 1)).map fun line => line.length + 1).sum
      ∃ encoded, lib.bytes (prefixManifest manifest index bytes).json = .ok encoded ∧
        ((prefixManifest manifest index bytes).files.map (·.sizeBytes)).sum + encoded.length ≤
          profile.policy.maxBufferBytes - profile.policy.terminalReserveBytes

end Guarantees

/-! ## Paths -/

theorem pathParts_injective {a b : String} (same : pathParts a = pathParts b) : a = b := by
  refine String.toList_inj.mp ?_
  have joined : ∀ c : String, ['/'].intercalate (pathParts c) = c.toList := fun c =>
    List.intercalate_splitOn '/'
  rw [← joined a, ← joined b, same]

theorem components_safe {path : String} (safe : safePath path = true) :
    components path = pathParts path := by
  simp only [safePath, Bool.and_eq_true, Bool.not_eq_eq_eq_not, Bool.not_true, List.any_eq_false,
    decide_eq_true_eq, not_or] at safe
  have plain := safe.2
  have kept : (pathParts path).filter (fun p => p ≠ [] ∧ p ≠ ['.']) = pathParts path := by
    refine List.filter_eq_self.mpr fun p member => ?_
    simpa using ⟨(plain p member).1, (plain p member).2.1⟩
  unfold components
  rw [kept]
  split
  · rename_i head
    exact absurd rfl (plain [] (head ▸ List.mem_cons_self)).1
  · rename_i head
    exact absurd rfl (plain ['.'] (head ▸ List.mem_cons_self)).2.1
  · rfl

/-- Normalized paths with the same components are the same text. -/
theorem samePath_safe {a b : String} (left : safePath a = true) (right : safePath b = true) :
    samePath a b = true ↔ a = b := by
  unfold samePath
  rw [components_safe left, components_safe right, decide_eq_true_eq]
  exact ⟨pathParts_injective, congrArg _⟩

theorem namesDirectory_safe {path : String} (safe : safePath path = true) :
    namesDirectory path = false := by
  simp only [safePath, Bool.and_eq_true, Bool.not_eq_eq_eq_not, Bool.not_true, List.any_eq_false,
    decide_eq_true_eq, not_or] at safe
  unfold namesDirectory
  refine (Option.any_eq_false _ _).mpr fun p last => ?_
  have plain := safe.2 p (List.mem_of_getLast? last)
  simpa using ⟨plain.1, plain.2.1⟩

/-! ## Files -/

theorem inventoryEntry_ok {e : TreeEntry} {found : Files} (accepted : inventoryEntry e = .ok found) :
    safePath e.path = true ∧ (e.entry = .directory ∨ (fileOf e).isSome) ∧
      found = (fileOf e).toList := by
  simp only [inventoryEntry, ok_bind, ok_reject, Bool.not_eq_false] at accepted
  obtain ⟨_, safe, read⟩ := accepted
  unfold fileOf
  cases kind : e.entry with
  | directory =>
      rw [kind] at read
      cases read
      exact ⟨safe, .inl rfl, rfl⟩
  | file content executable =>
      rw [kind] at read
      cases read
      exact ⟨safe, .inr rfl, rfl⟩
  | symlink _ | unsupported =>
      rw [kind] at read
      cases read

theorem inventoryFiles_ok {tree : DirectoryTree} {files : Files}
    (accepted : inventoryFiles tree.root = .ok files) :
    files = tree.files ∧ ∀ e ∈ tree.root.entries "",
      safePath e.path = true ∧ (e.entry = .directory ∨ (fileOf e).isSome) := by
  simp only [inventoryFiles, ok_bind, ok_pure] at accepted
  obtain ⟨_, -, found, collected, rfl⟩ := accepted
  have each := ok_traverseAll.mp collected
  clear collected
  unfold DirectoryTree.files
  generalize tree.root.entries "" = entries at each
  induction each with
  | nil => exact ⟨rfl, fun e absent => absurd absent List.not_mem_nil⟩
  | @cons e files es fss head _ ih =>
      obtain ⟨safe, kind, rfl⟩ := inventoryEntry_ok head
      refine ⟨?_, fun e' member => ?_⟩
      · rw [List.flatten_cons, ih.1, List.filterMap_cons]
        cases fileOf e <;> rfl
      · rcases List.mem_cons.mp member with rfl | later
        · exact ⟨safe, kind⟩
        · exact ih.2 e' later

theorem mem_files {tree : DirectoryTree} {f : String × List UInt8} (member : f ∈ tree.files) :
    ∃ e ∈ tree.root.entries "", e.path = f.1 ∧ fileOf e = some f := by
  obtain ⟨e, inside, file⟩ := List.mem_filterMap.mp member
  refine ⟨e, inside, ?_, file⟩
  unfold fileOf at file
  split at file
  · cases file
    rfl
  · cases file

/-- No two files have one path. -/
theorem files_keyed (tree : DirectoryTree) : Keyed Prod.fst tree.files := by
  have names : tree.files.map Prod.fst =
      ((tree.root.entries "").filter fun e => (fileOf e).isSome).map (·.path) := by
    unfold DirectoryTree.files
    induction tree.root.entries "" with
    | nil => rfl
    | cons e rest ih =>
        rw [List.filterMap_cons, List.filter_cons]
        cases file : fileOf e with
        | none => simpa using ih
        | some f =>
            have path : e.path = f.1 := by
              unfold fileOf at file
              split at file
              · cases file
                rfl
              · cases file
            simp [ih, path]
  unfold Keyed
  rw [names]
  exact (tree.distinct.filter fun e => (fileOf e).isSome)

/-- A safe path finds the one file that has it. -/
theorem find_safe {files : Files} (safe : ∀ f ∈ files, safePath f.1 = true) {path : String}
    (plain : safePath path = true) {content : List UInt8} (found : files.find path = some content) :
    (path, content) ∈ files := by
  unfold Files.find at found
  obtain ⟨f, first, rfl⟩ := Option.map_eq_some_iff.mp found
  have inside := List.mem_of_find?_eq_some first
  have same := (samePath_safe (safe f inside) plain).mp (List.find?_some (p := fun f : String × List UInt8 => samePath f.1 path) first)
  rw [← same]
  exact inside

/-- The loop over the declared files. -/
structure Declared (sha256 : List UInt8 → Digest) (actual : Files) (done : List BufferFile)
    (declared : List String) : Prop where
  paths : declared = done.map (·.path)
  safe : ∀ f ∈ done, safePath f.path = true
  present : ∀ f ∈ done, ∃ content, actual.find f.path = some content ∧
    content.length = f.sizeBytes ∧ (sha256 content).hex = f.sha256
  distinct : (done.map (·.path)).Nodup

theorem declare_ok {sha256 : List UInt8 → Digest} {actual : Files} {done : List BufferFile}
    {declared declared' : List String} {entry : BufferFile}
    (so_far : Declared sha256 actual done declared)
    (accepted : declare sha256 actual declared entry = .ok declared') :
    Declared sha256 actual (done ++ [entry]) declared' := by
  simp only [declare, ok_bind, ok_reject, ok_pure, not_or, Bool.not_eq_false, not_not] at accepted
  obtain ⟨_, safe, _, ⟨fresh, sized⟩, data, read, _, hashed, rfl⟩ := accepted
  rw [Files.read, if_neg (by simp [namesDirectory_safe safe]), ok_expect] at read
  refine ⟨?_, ?_, ?_, ?_⟩
  · rw [so_far.paths, List.map_append, List.map_singleton]
  · intro f member
    rcases List.mem_append.mp member with before | here
    · exact so_far.safe f before
    · cases List.mem_singleton.mp here
      exact safe
  · intro f member
    rcases List.mem_append.mp member with before | here
    · exact so_far.present f before
    · cases List.mem_singleton.mp here
      rw [read] at sized
      exact ⟨data, read, Option.some.inj sized, hashed⟩
  · rw [List.map_append, List.nodup_append]
    refine ⟨so_far.distinct, by simp, fun p before q here same => ?_⟩
    rw [List.map_singleton, List.mem_singleton] at here
    subst here
    obtain ⟨f, member, rfl⟩ := List.mem_map.mp before
    refine fresh (List.any_eq_true.mpr ⟨f.path, ?_, ?_⟩)
    · rw [so_far.paths]
      exact before
    · exact (samePath_safe safe (so_far.safe f member)).mpr same.symm

/-- With no undeclared file left, the declared files are the files on disk. -/
theorem declared_perm {sha256 : List UInt8 → Digest} {actual : Files}
    (keyed : Keyed Prod.fst actual) (safe : ∀ f ∈ actual, safePath f.1 = true)
    {files : List BufferFile} {declared : List String}
    (all : Declared sha256 actual files declared) (same : sameKeys declared actual = true) :
    (files.map fun f => (f.path, f.sizeBytes, f.sha256)).Perm
      (actual.map fun f => (f.1, f.2.length, (sha256 f.2).hex)) := by
  have left : (files.map fun f => (f.path, f.sizeBytes, f.sha256)).Nodup :=
    List.Nodup.of_map Prod.fst (by rw [List.map_map]; exact all.distinct)
  have right : (actual.map fun f => (f.1, f.2.length, (sha256 f.2).hex)).Nodup :=
    List.Nodup.of_map Prod.fst (by rw [List.map_map]; exact keyed)
  refine (List.perm_ext_iff_of_nodup left right).mpr fun row => ?_
  simp only [List.mem_map]
  constructor
  · intro ⟨f, member, row⟩
    obtain ⟨content, found, size, hash⟩ := all.present f member
    exact ⟨(f.path, content), find_safe safe (all.safe f member) found, by rw [← row, ← size, ← hash]⟩
  · intro ⟨f, member, row⟩
    have covered := (Bool.and_eq_true_iff.mp same).2
    obtain ⟨path, inside, equal⟩ := List.any_eq_true.mp (List.all_eq_true.mp covered f member)
    rw [all.paths] at inside
    obtain ⟨entry, declared, rfl⟩ := List.mem_map.mp inside
    have path := (samePath_safe (safe f member) (all.safe entry declared)).mp equal
    obtain ⟨content, found, size, hash⟩ := all.present entry declared
    have stored := find_safe safe (all.safe entry declared) found
    have one := keyed.eq_of_key stored member path.symm
    exact ⟨entry, declared, by rw [← row, ← path, ← size, ← hash, ← one]⟩

/-! ## Rows -/

theorem readRows_ok {lib : JsonLibrary} {limit : Nat} {lines : List (List UInt8)}
    {points : List TracePoint} (read : thread (readRow lib limit) [] lines = .ok points) :
    List.Forall₂ (fun line point => ∃ value ∈ lib.fromSlice line,
      TracePoint.fromJson value.value = some point) lines points := by
  refine thread_all (fun done points => List.Forall₂ (fun line point => ∃ value ∈ lib.fromSlice line,
    TracePoint.fromJson value.value = some point) done points) .nil ?_ read
  intro done points line points' before accepted
  simp only [readRow, ok_bind, ok_expect, ok_reject, ok_pure] at accepted
  obtain ⟨value, parsed, point, typed, _, -, rfl⟩ := accepted
  exact List.rel_append before (.cons ⟨value, parsed, typed⟩ .nil)

theorem behind_false {earlier later : Work} (kept : behind earlier later = false) :
    ∀ key n, earlier.get key = some n → ∃ m, later.get key = some m ∧ n ≤ m := by
  intro key n found
  have entry := List.any_eq_false.mp kept (key, n) (OrderedMap.get_eq_some.mp found)
  simp only [Bool.not_eq_true, Bool.not_eq_false'] at entry
  obtain ⟨m, now, le⟩ := (Option.any_eq_true _ _).mp entry
  exact ⟨m, now, by simpa using le⟩

theorem Follows.trans {p q r : TracePoint} (first : Follows p q) (second : Follows q r) :
    Follows p r := by
  refine ⟨Nat.lt_trans first.index second.index, Nat.le_trans first.time second.time, ?_⟩
  intro key n found
  obtain ⟨m, now, le⟩ := first.work key n found
  obtain ⟨k, then_, le'⟩ := second.work key m now
  exact ⟨k, then_, Nat.le_trans le le'⟩

/-- A row that follows the last one follows them all. -/
theorem pairwise_follows {done : List TracePoint} {p : TracePoint}
    (before : done.Pairwise Follows) (last : ∀ q ∈ done.getLast?, Follows q p) :
    (done ++ [p]).Pairwise Follows := by
  refine List.pairwise_append.mpr ⟨before, List.pairwise_singleton _ _, fun q member r here => ?_⟩
  cases List.mem_singleton.mp here
  rcases List.eq_nil_or_concat done with rfl | ⟨init, final, rfl⟩
  · exact absurd member List.not_mem_nil
  · rw [List.concat_eq_append] at *
    have ending := last final (by simp)
    rcases List.mem_append.mp member with earlier | here
    · exact ((List.pairwise_append.mp before).2.2 q earlier final (List.mem_singleton_self _)).trans
        ending
    · cases List.mem_singleton.mp here
      exact ending

/-- The next scheduled check extends the leading ones. -/
theorem Leading.append {schedule : CheckSchedule} (valid : schedule.valid = true)
    {indices : List Nat} (safe : ∀ i ∈ indices, i ≤ maxSafeInteger)
    (leading : Leading schedule indices) {next : Nat}
    (found : schedule.nextAfter indices.getLast? = some next) :
    Leading schedule (indices ++ [next]) := by
  have last : ∀ i ∈ indices, ∃ j ∈ indices.getLast?, i ≤ j := by
    intro i member
    rcases List.eq_nil_or_concat indices with rfl | ⟨init, final, rfl⟩
    · exact absurd member List.not_mem_nil
    · rw [List.concat_eq_append] at *
      refine ⟨final, by simp, ?_⟩
      rcases List.mem_append.mp member with earlier | here
      · exact Nat.le_of_lt ((List.pairwise_append.mp leading.increasing).2.2 i earlier final
          (List.mem_singleton_self _))
      · exact Nat.le_of_eq (List.mem_singleton.mp here)
  obtain ⟨included, -, after, least⟩ := CheckSchedule.nextAfter_some valid
    (fun p member => safe p (List.mem_of_getLast? member)) found
  refine ⟨?_, ?_, ?_⟩
  · refine List.pairwise_append.mpr ⟨leading.increasing, List.pairwise_singleton _ _, ?_⟩
    intro i member j here
    cases List.mem_singleton.mp here
    obtain ⟨final, ending, le⟩ := last i member
    exact Nat.lt_of_le_of_lt le (after final ending)
  · intro i member
    rcases List.mem_append.mp member with earlier | here
    · exact leading.scheduled i earlier
    · cases List.mem_singleton.mp here
      exact included
  · intro i scheduled ⟨j, member, le⟩
    rw [List.mem_append, List.mem_singleton]
    by_cases below : ∃ k ∈ indices, i ≤ k
    · exact .inl (leading.complete i scheduled below)
    · right
      have above : CheckSchedule.After indices.getLast? i := fun p ending =>
        Nat.lt_of_not_le fun le => below ⟨p, List.mem_of_getLast? ending, le⟩
      rcases List.mem_append.mp member with earlier | here
      · exact absurd ⟨j, earlier, le⟩ below
      · cases List.mem_singleton.mp here
        exact Nat.le_antisymm le (least i scheduled above)

/-- What one row satisfies against the rows before it. -/
theorem checkPoint_ok {profile : SelectedBufferedProfile} {total : Nat} {cursor next : Cursor}
    {p : TracePoint} (accepted : checkPoint profile total cursor p = .ok next) :
    p.checkIndex ≤ maxSafeInteger ∧ p.instrumentedTimeNs ≤ total ∧
      (∀ q ∈ cursor.previous, Follows q p) ∧
      (p.terminal = false → cursor.expected = some p.checkIndex ∧
        (∀ threshold ∈ profile.policy.threshold, reachesAt profile threshold p = false) ∧
        ∀ active, profile.policy.activeTimeNs = .ok active → p.instrumentedTimeNs < active) ∧
      (p.terminal = true → ∀ n ∈ cursor.expected, p.checkIndex ≤ n) ∧
      next = ⟨profile.checkSchedule.nextAfter (some p.checkIndex), some p⟩ := by
  simp only [checkPoint, ok_bind, ok_reject, ok_pure] at accepted
  obtain ⟨_, valid, _, monotone, _, -, _, continued, rfl⟩ := accepted
  simp only [not_or, not_and, not_not, Nat.not_lt, Bool.not_eq_true] at valid
  obtain ⟨index, time, -, scheduled, ends, -⟩ := valid
  refine ⟨index, time, ?_, ?_, ?_, rfl⟩
  · intro q previous
    have kept := (Option.any_eq_false _ _).mp (Bool.not_eq_true _ ▸ monotone) q previous
    simp only [Bool.or_eq_false_iff, decide_eq_false_iff_not] at kept
    exact ⟨by omega, by omega, behind_false kept.2⟩
  · intro running
    simp only [checkContinued, running, Bool.false_eq_true, if_false, ok_bind, ok_mapError,
      ok_reject, not_or, Bool.not_eq_true] at continued
    obtain ⟨active, limit, early, untouched⟩ := continued
    refine ⟨(scheduled running).symm, fun threshold target => ?_, fun active' limit' => ?_⟩
    · exact (Option.any_eq_false _ _).mp untouched threshold target
    · cases limit.symm.trans limit'
      exact Nat.lt_of_not_le early
  · intro terminal n due
    have bound := (Option.any_eq_false _ _).mp (ends terminal) n due
    simpa using bound

/-- The rows passed so far, all of them running. -/
structure Passed (profile : SelectedBufferedProfile) (total : Nat) (done : List TracePoint)
    (cursor : Cursor) : Prop where
  expected : cursor.expected = profile.checkSchedule.nextAfter (done.map (·.checkIndex)).getLast?
  previous : cursor.previous = done.getLast?
  safe : ∀ p ∈ done, p.checkIndex ≤ maxSafeInteger
  times : ∀ p ∈ done, p.instrumentedTimeNs ≤ total
  following : done.Pairwise Follows
  leading : (∀ p ∈ done, p.terminal = false) → Leading profile.checkSchedule (done.map (·.checkIndex))
  continued : ∀ p ∈ done, p.terminal = false →
    (∀ threshold ∈ profile.policy.threshold, reachesAt profile threshold p = false) ∧
      ∀ active, profile.policy.activeTimeNs = .ok active → p.instrumentedTimeNs < active

theorem Passed.append {profile : SelectedBufferedProfile} {total : Nat} {done : List TracePoint}
    {cursor next : Cursor} {p : TracePoint} (valid : profile.checkSchedule.valid = true)
    (passed : Passed profile total done cursor)
    (accepted : checkPoint profile total cursor p = .ok next) :
    Passed profile total (done ++ [p]) next := by
  obtain ⟨index, time, follows, running, -, rfl⟩ := checkPoint_ok accepted
  refine ⟨by simp, by simp, ?_, ?_, ?_, ?_, ?_⟩
  · intro q member
    rcases List.mem_append.mp member with earlier | here
    · exact passed.safe q earlier
    · cases List.mem_singleton.mp here
      exact index
  · intro q member
    rcases List.mem_append.mp member with earlier | here
    · exact passed.times q earlier
    · cases List.mem_singleton.mp here
      exact time
  · exact pairwise_follows passed.following (passed.previous ▸ follows)
  · intro all
    rw [List.map_append, List.map_singleton]
    refine Leading.append valid ?_ (passed.leading fun q member =>
      all q (List.mem_append_left _ member)) ?_
    · intro i member
      obtain ⟨q, inside, rfl⟩ := List.mem_map.mp member
      exact passed.safe q inside
    · rw [← passed.expected]
      exact (running (all p (by simp))).1
  · intro q member nonterminal
    rcases List.mem_append.mp member with earlier | here
    · exact passed.continued q earlier nonterminal
    · cases List.mem_singleton.mp here
      exact (running nonterminal).2

/-- The loop over all rows. -/
theorem checkPoints_ok {profile : SelectedBufferedProfile} {manifest : BufferedManifest}
    {init : List TracePoint} {last : TracePoint} {cursor : Cursor}
    (valid : profile.checkSchedule.valid = true)
    (accepted : thread (checkPoint profile manifest.instrumentedTotalTimeNs)
      ⟨profile.checkSchedule.nextAfter none, none⟩ (init ++ [last]) = .ok cursor)
    (running : ∀ p ∈ init, p.terminal = false) (terminal : last.terminal = true) :
    RowsSound profile manifest init last := by
  rw [thread_append] at accepted
  obtain ⟨middle, before, ending⟩ := ok_bind.mp accepted
  have start : Passed profile manifest.instrumentedTotalTimeNs []
      ⟨profile.checkSchedule.nextAfter none, none⟩ :=
    ⟨rfl, rfl, by simp, by simp, .nil, fun _ => ⟨.nil, by simp, by simp⟩, by simp⟩
  have passed := thread_all (Passed profile manifest.instrumentedTotalTimeNs) start
    (fun passed row => passed.append valid row) before
  simp only [thread, ok_bind] at ending
  obtain ⟨next, final, -⟩ := ending
  have all := passed.append valid final
  obtain ⟨index, -, -, -, ends, -⟩ := checkPoint_ok final
  refine ⟨running, terminal, passed.leading running, all.following, ?_, all.times,
    fun p member => passed.continued p member (running p member)⟩
  intro i scheduled above
  have after : CheckSchedule.After (init.map (·.checkIndex)).getLast? i := by
    intro j ending
    obtain ⟨p, member, rfl⟩ := List.mem_map.mp (List.mem_of_getLast? ending)
    exact above p member
  have safe : ∀ j ∈ (init.map (·.checkIndex)).getLast?, j ≤ maxSafeInteger := by
    intro j ending
    obtain ⟨p, member, rfl⟩ := List.mem_map.mp (List.mem_of_getLast? ending)
    exact passed.safe p member
  have due := ends terminal
  rw [passed.expected] at due
  cases found : profile.checkSchedule.nextAfter (init.map (·.checkIndex)).getLast? with
  | some n =>
      have bound := due n found
      have least := (CheckSchedule.nextAfter_some valid safe found).2.2.2 i scheduled after
      omega
  | none =>
      have large := CheckSchedule.nextAfter_none valid safe found i scheduled after
      omega

/-! ## Snapshots -/

theorem eq_trans_left {a b c : UInt64} (left : F64.eq a c = true) (right : F64.eq b c = true) :
    F64.eq a b = true := by
  simp only [F64.eq, Bool.and_eq_true, decide_eq_true_eq] at left right ⊢
  exact ⟨⟨left.1.1, right.1.1⟩, left.2.trans right.2.symm⟩

/-- Equal thresholds are reached by the same rows. -/
theorem reachesAt_congr (profile : SelectedBufferedProfile) {a b : UInt64}
    (same : F64.eq a b = true) (p : TracePoint) : reachesAt profile a p = reachesAt profile b p := by
  simp only [F64.eq, Bool.and_eq_true, Bool.not_eq_eq_eq_not, Bool.not_true, decide_eq_true_eq] at same
  obtain ⟨⟨left, right⟩, magnitude⟩ := same
  have reaches : ∀ v, profile.policy.reaches v a = profile.policy.reaches v b := by
    intro v
    unfold ProfilePolicy.reaches F64.le
    rw [left, right, magnitude]
  unfold reachesAt
  congr 1
  funext v
  exact reaches v

/-- The thresholds listed so far, each at the row that is the first to reach it. -/
structure Claimed (profile : SelectedBufferedProfile) (points : List TracePoint)
    (entries : List (Nat × UInt64)) : Prop where
  policy : ∀ e ∈ entries, containsF64 profile.policy.thresholds e.2 = true
  reached : ∀ e ∈ entries, (points[e.1]?).any (reachesAt profile e.2) = true
  first : ∀ e ∈ entries, (points.take e.1).any (reachesAt profile e.2) = false
  distinct : entries.Pairwise fun a b => F64.eq a.2 b.2 = false

theorem claimThresholds_ok {profile : SelectedBufferedProfile} {points : List TracePoint}
    {index : Nat} {entries : List (Nat × UInt64)} {thresholds after : List UInt64}
    (claimed : Claimed profile points entries)
    (accepted : thread (claimThreshold profile points index) (entries.map Prod.snd) thresholds =
      .ok after) :
    after = (entries ++ thresholds.map (index, ·)).map Prod.snd ∧
      Claimed profile points (entries ++ thresholds.map (index, ·)) := by
  refine thread_all (fun done after => after = (entries ++ done.map (index, ·)).map Prod.snd ∧
    Claimed profile points (entries ++ done.map (index, ·))) ⟨by simp, by simpa using claimed⟩ ?_
    accepted
  intro done before threshold after ⟨listed, claimed⟩ accepted
  subst listed
  simp only [claimThreshold, ok_bind, ok_reject, ok_pure, not_or, Bool.not_eq_false,
    Bool.not_eq_true] at accepted
  obtain ⟨_, ⟨admitted, fresh, reached, first⟩, rfl⟩ := accepted
  have extended : entries ++ (done ++ [threshold]).map (index, ·) =
      (entries ++ done.map (index, ·)) ++ [(index, threshold)] := by simp
  rw [extended]
  have each : ∀ {P : Nat × UInt64 → Prop}, (∀ e ∈ entries ++ done.map (index, ·), P e) →
      P (index, threshold) → ∀ e ∈ (entries ++ done.map (index, ·)) ++ [(index, threshold)], P e := by
    intro P before here e member
    rcases List.mem_append.mp member with earlier | last
    · exact before e earlier
    · cases List.mem_singleton.mp last
      exact here
  refine ⟨by simp, each claimed.policy admitted, each claimed.reached reached,
    each claimed.first first, ?_⟩
  refine List.pairwise_append.mpr ⟨claimed.distinct, List.pairwise_singleton _ _, ?_⟩
  intro a member b here
  cases List.mem_singleton.mp here
  have other := List.any_eq_false.mp fresh a.2 (List.mem_map_of_mem member)
  simpa using other

/-- The snapshots passed so far. -/
structure Counted (profile : SelectedBufferedProfile) (points : List TracePoint)
    (done : List BufferedSnapshot) (claims : Claims) : Prop where
  ordinal : claims.ordinal = done.length
  previous : claims.previous = (done.map (·.traceIndex)).getLast?
  thresholds : claims.thresholds = (listed done).map Prod.snd
  ordinals : done.map (·.captureOrdinal) = List.range done.length
  increasing : (done.map (·.traceIndex)).Pairwise (· < ·)
  inside : ∀ s ∈ done, s.traceIndex < points.length
  claimed : Claimed profile points (listed done)

theorem checkSnapshot_ok {profile : SelectedBufferedProfile} {declared : List String}
    {points : List TracePoint} {done : List BufferedSnapshot} {claims next : Claims}
    {snapshot : BufferedSnapshot} (counted : Counted profile points done claims)
    (accepted : checkSnapshot profile declared points claims snapshot = .ok next) :
    Counted profile points (done ++ [snapshot]) next := by
  simp only [checkSnapshot, ok_bind, ok_reject, ok_pure, not_or, not_not, Bool.not_eq_true,
    Nat.not_le] at accepted
  obtain ⟨_, ⟨ordinal, inside, -, -, later⟩, thresholds, listing, rfl⟩ := accepted
  rw [counted.thresholds] at listing
  obtain ⟨rfl, claimed⟩ := claimThresholds_ok counted.claimed listing
  have appended : listed (done ++ [snapshot]) =
      listed done ++ snapshot.thresholds.map (snapshot.traceIndex, ·) := by
    simp [listed]
  refine ⟨by simp [counted.ordinal], by simp, by rw [appended], ?_, ?_, ?_, appended ▸ claimed⟩
  · rw [List.map_append, counted.ordinals, List.length_append, List.length_singleton,
      List.range_succ, List.map_singleton, ordinal, counted.ordinal]
  · rw [List.map_append, List.map_singleton]
    refine List.pairwise_append.mpr ⟨counted.increasing, List.pairwise_singleton _ _, ?_⟩
    intro i member j here
    cases List.mem_singleton.mp here
    rw [counted.previous] at later
    rcases List.eq_nil_or_concat (done.map (·.traceIndex)) with empty | ⟨init, final, split⟩
    · rw [empty] at member
      exact absurd member List.not_mem_nil
    · rw [List.concat_eq_append] at split
      have increasing := counted.increasing
      rw [split] at later member increasing
      have last := (Option.any_eq_false _ _).mp later final (by simp)
      simp only [decide_eq_false_iff_not, Nat.not_le] at last
      rcases List.mem_append.mp member with earlier | here
      · exact Nat.lt_trans ((List.pairwise_append.mp increasing).2.2 i earlier final
          (List.mem_singleton_self _)) last
      · cases List.mem_singleton.mp here
        exact last
  · intro s member
    rcases List.mem_append.mp member with earlier | here
    · exact counted.inside s earlier
    · cases List.mem_singleton.mp here
      exact inside

/-- A threshold some row reaches is listed once, at the first such row. -/
theorem first_listed {profile : SelectedBufferedProfile} {points : List TracePoint}
    {entries : List (Nat × UInt64)} (claimed : Claimed profile points entries) {threshold : UInt64}
    (saved : points.any (reachesAt profile threshold) = true →
      containsF64 (entries.map Prod.snd) threshold = true) :
    (entries.filter fun entry => F64.eq entry.2 threshold).map Prod.fst =
      if points.any (reachesAt profile threshold) then
        [points.findIdx (reachesAt profile threshold)]
      else [] := by
  have first : ∀ e ∈ entries, F64.eq e.2 threshold = true →
      points.any (reachesAt profile threshold) = true ∧
        e.1 = points.findIdx (reachesAt profile threshold) := by
    intro e member same
    have congr := funext (reachesAt_congr profile same)
    have reached := claimed.reached e member
    have before := claimed.first e member
    rw [congr] at reached before
    obtain ⟨p, at_, here⟩ := (Option.any_eq_true _ _).mp reached
    obtain ⟨within, rfl⟩ := List.getElem?_eq_some_iff.mp at_
    refine ⟨List.any_eq_true.mpr ⟨_, List.getElem_mem within, here⟩, ?_⟩
    refine ((List.findIdx_eq within).mpr ⟨here, fun j below => ?_⟩).symm
    have inside : j < points.length := by omega
    have row := List.any_eq_false.mp before points[j]
      (List.mem_take_iff_getElem.mpr ⟨j, by omega, rfl⟩)
    simpa using row
  have pairwise : (entries.filter fun entry => F64.eq entry.2 threshold).Pairwise
      fun a b => F64.eq a.2 b.2 = false := claimed.distinct.sublist List.filter_sublist
  cases kept : entries.filter fun entry => F64.eq entry.2 threshold with
  | nil =>
      split
      · rename_i some
        obtain ⟨t, inside, same⟩ := List.any_eq_true.mp (saved some)
        obtain ⟨e, member, rfl⟩ := List.mem_map.mp inside
        have here : e ∈ entries.filter fun entry => F64.eq entry.2 threshold :=
          List.mem_filter.mpr ⟨member, same⟩
        rw [kept] at here
        exact absurd here List.not_mem_nil
      · rfl
  | cons e rest =>
      have member : e ∈ entries.filter fun entry => F64.eq entry.2 threshold := by
        rw [kept]
        exact List.mem_cons_self
      obtain ⟨inside, same⟩ := List.mem_filter.mp member
      obtain ⟨some, index⟩ := first e inside same
      have alone : rest = [] := by
        cases rest with
        | nil => rfl
        | cons e' rest =>
            have member' : e' ∈ entries.filter fun entry => F64.eq entry.2 threshold := by
              rw [kept]
              exact List.mem_cons_of_mem _ List.mem_cons_self
            rw [kept] at pairwise
            have other := (List.pairwise_cons.mp pairwise).1 e' List.mem_cons_self
            rw [eq_trans_left same (List.mem_filter.mp member').2] at other
            cases other
      rw [if_pos some, alone, List.map_singleton, index]

/-- As many increasing indices as there are places take every place. -/
theorem eq_range {n : Nat} {indices : List Nat} (increasing : indices.Pairwise (· < ·))
    (inside : ∀ i ∈ indices, i < n) (length : indices.length = n) : indices = List.range n := by
  have distinct : indices.Nodup := increasing.imp fun less => Nat.ne_of_lt less
  have some : indices.Subperm (List.range n) :=
    List.subperm_of_subset distinct fun i member => List.mem_range.mpr (inside i member)
  have all : indices.Perm (List.range n) := some.perm_of_length_le (by simp [length])
  exact all.eq_of_pairwise (fun _ _ _ _ less more => absurd more (Nat.lt_asymm less)) increasing
    List.pairwise_lt_range

/-! ## The whole buffer -/

section Whole

variable {lib : JsonLibrary} {sha256 : List UInt8 → Digest} {profile : SelectedBufferedProfile}
  {tree : DirectoryTree} {path : String} {manifest : BufferedManifest} {points : List TracePoint}

theorem checkSnapshots_ok {declared : List String}
    (accepted : checkSnapshots profile manifest declared points = .ok ()) :
    SnapshotsSound profile manifest points := by
  simp only [checkSnapshots, ok_bind, ok_reject, not_or, not_and, not_not, Nat.not_lt, ok_each,
    Bool.not_eq_false] at accepted
  obtain ⟨_, ⟨nonempty, bound⟩, _, every, claims, passed, _, last, saved⟩ := accepted
  have start : Counted profile points [] ⟨0, [], none, []⟩ :=
    ⟨rfl, rfl, rfl, rfl, .nil, by simp, ⟨by simp [listed], by simp [listed], by simp [listed], .nil⟩⟩
  have counted := thread_all (Counted profile points) start
    (fun before snapshot => checkSnapshot_ok before snapshot) passed
  rw [counted.previous] at last
  have positive := List.length_pos_iff.mpr nonempty
  refine ⟨⟨positive, bound⟩, counted.ordinals, counted.increasing, ?_, ?_, counted.claimed.policy, ?_⟩
  · intro s ending
    have index : (manifest.snapshots.map (·.traceIndex)).getLast? = some s.traceIndex := by
      rw [List.getLast?_map, ending]
      rfl
    have same := Option.some.inj (index.symm.trans last)
    have inside := counted.inside s (List.mem_of_getLast? ending)
    omega
  · intro unmetered
    have length := every unmetered
    refine eq_range counted.increasing (fun i member => ?_) (by rw [List.length_map, length])
    obtain ⟨s, inside, rfl⟩ := List.mem_map.mp member
    exact counted.inside s inside
  · intro threshold admitted
    refine first_listed counted.claimed fun reached => ?_
    rw [← counted.thresholds]
    exact saved threshold admitted reached

theorem readManifest_ok {files : Files}
    (accepted : readManifest lib profile files path = .ok manifest) :
    safePath path = true ∧ ∃ data ∈ files.find path, ∃ value ∈ lib.fromSlice data,
      BufferedManifest.fromJson value.value = some manifest := by
  simp only [readManifest, ok_bind, ok_reject, ok_expect, ok_pure, Bool.not_eq_false] at accepted
  obtain ⟨_, safe, data, read, value, parsed, typed, shaped, _, -, rfl⟩ := accepted
  rw [Files.read, if_neg (by simp [namesDirectory_safe safe]), ok_expect] at read
  exact ⟨safe, data, read, value, parsed, shaped⟩

theorem checkReason_ok {last : TracePoint}
    (accepted : checkReason profile manifest points last = .ok ()) :
    Substantiated profile manifest points last := by
  unfold checkReason at accepted
  unfold Substantiated
  cases kind : manifest.stopReason with
  | targetReached =>
      rw [kind] at accepted
      simp only [ok_reject, not_not] at accepted
      obtain ⟨threshold, target, reached⟩ := (Option.any_eq_true _ _).mp accepted
      exact ⟨threshold, target, reached⟩
  | fixedCount =>
      rw [kind] at accepted
      simpa only [ok_reject, not_or, not_not, Bool.not_eq_true, Option.isSome_eq_false_iff,
        Option.isNone_iff_eq_none] using accepted
  | traceLimit | observationLimit =>
      rw [kind] at accepted
      simpa only [ok_reject, not_not] using accepted
  | activeTimeLimit =>
      rw [kind] at accepted
      simp only [ok_bind, ok_mapError, ok_reject, Nat.not_lt] at accepted
      obtain ⟨active, limit, late⟩ := accepted
      intro active' limit'
      cases limit.symm.trans limit'
      exact late
  | byteLimit | implementationStopped => trivial

theorem readTrace_ok {files : Files} {declared : List String} {lines : List (List UInt8)}
    (accepted : readTrace lib profile files declared path = .ok (lines, points)) :
    declared.any (samePath path) = true ∧
    ∃ trace, files.find path = some trace ∧ lines = traceLines trace ∧
      List.Forall₂ (fun line point => ∃ value ∈ lib.fromSlice line,
        TracePoint.fromJson value.value = some point) lines points ∧
      ∃ init last, points = init ++ [last] ∧ (∀ p ∈ init, p.terminal = false) ∧
        last.terminal = true := by
  simp only [readTrace, ok_bind, ok_reject, ok_pure, not_or, not_not, Bool.not_eq_true] at accepted
  obtain ⟨_, names, trace, read, _, -, points', rows, _, ⟨ends, running⟩, result⟩ := accepted
  cases result
  have found : files.find path = some trace := by
    unfold Files.read at read
    split at read
    · cases read
    · exact ok_expect.mp read
  refine ⟨Bool.of_not_eq_false names, trace, found, rfl, readRows_ok rows, ?_⟩
  obtain ⟨last, final, terminal⟩ := (Option.any_eq_true _ _).mp (Bool.of_not_eq_false ends)
  refine ⟨points.dropLast, last, ?_, fun p member => ?_, terminal⟩
  · exact (List.dropLast_append_getLast? last final).symm
  · simpa using List.any_eq_false.mp running p member

/-- The files besides the manifest, as the validator removes it. -/
theorem others_eq (safe : ∀ f ∈ tree.files, safePath f.1 = true) (plain : safePath path = true) :
    (tree.files.filter fun f => !samePath f.1 path) = tree.others path := by
  refine List.filter_congr fun f member => ?_
  have same := samePath_safe (safe f member) plain
  by_cases here : f.1 = path
  · simp [here, samePath]
  · have other : samePath f.1 path = false := Bool.eq_false_iff.mpr fun equal => here (same.mp equal)
    simp [here, other]

/-- A path that names a declared file finds the same file with the manifest left out. -/
theorem find_others (safe : ∀ f ∈ tree.files, safePath f.1 = true) {files : List BufferFile}
    {declared : List String} (all : Declared sha256 (tree.others path) files declared) {named : String}
    (listed : declared.any (samePath named) = true) :
    (tree.others path).find named = tree.files.find named := by
  have others : ∀ f ∈ tree.others path, safePath f.1 = true := fun f member =>
    safe f (List.mem_of_mem_filter member)
  rw [all.paths] at listed
  obtain ⟨p, inside, same⟩ := List.any_eq_true.mp listed
  obtain ⟨entry, member, rfl⟩ := List.mem_map.mp inside
  obtain ⟨content, found, -, -⟩ := all.present entry member
  have other := find_safe others (all.safe entry member) found
  have apart : entry.path ≠ path := by simpa using (List.mem_filter.mp other).2
  -- a file with the components of `named` is the declared one
  have only : ∀ f ∈ tree.files, samePath f.1 named = true → f.1 ≠ path := by
    intro f file here
    have equal : samePath f.1 entry.path = true := by
      unfold samePath at here same ⊢
      rw [decide_eq_true_eq] at here same ⊢
      exact here.trans same
    rw [(samePath_safe (safe f file) (all.safe entry member)).mp equal]
    exact apart
  unfold Files.find DirectoryTree.others
  rw [List.find?_filter]
  refine congrArg _ (List.find?_congr fun f file => ?_)
  by_cases here : samePath f.1 named = true
  · simp [here, only f file here]
  · simp [here]

theorem checkPrefix_ok {lines : List (List UInt8)} {index : Nat}
    (accepted : checkPrefix lib profile manifest lines index = .ok ()) :
    let bytes := ((lines.take (index + 1)).map fun line => line.length + 1).sum
    ∃ encoded, lib.bytes (prefixManifest manifest index bytes).json = .ok encoded ∧
      ((prefixManifest manifest index bytes).files.map (·.sizeBytes)).sum + encoded.length ≤
        profile.policy.maxBufferBytes - profile.policy.terminalReserveBytes := by
  simp only [checkPrefix, ok_bind, ok_mapError, ok_reject, Nat.not_lt] at accepted
  obtain ⟨encoded, written, fits⟩ := accepted
  exact ⟨encoded, written, fits⟩

/-- The guarantees of an accepted buffer. -/
theorem validateBuffer_sound (valid : profile.checkSchedule.validate = .ok ())
    (accepted : validateBuffer lib sha256 profile tree.root path = .ok (manifest, points)) :
    BufferSound profile lib sha256 tree path manifest points := by
  simp only [validateBuffer, ok_bind, ok_reject, ok_mapError, ok_expect, ok_pure, ok_each] at accepted
  obtain ⟨_, -, _, -, files, inventory, _, -, _, size, _, -, manifest', document, declared,
    each, _, same, ⟨lines, points'⟩, trace, cursor, rows, _, snapshots, last, ending, _, reason, _,
    reserve, _, -, _, -, result⟩ := accepted
  cases result
  obtain ⟨rfl, regular⟩ := inventoryFiles_ok inventory
  obtain ⟨plain, data, found, value, parsed, shaped⟩ := readManifest_ok document
  obtain ⟨named, content, stored, rfl, parsed', init, final, rfl, running, terminal⟩ :=
    readTrace_ok trace
  have safe : ∀ f ∈ tree.files, safePath f.1 = true := by
    intro f member
    obtain ⟨e, inside, path, -⟩ := mem_files member
    exact path ▸ (regular e inside).1
  rw [others_eq safe plain] at each same
  have others : ∀ f ∈ tree.others path, safePath f.1 = true := fun f member =>
    safe f (List.mem_of_mem_filter member)
  have declares := thread_all (Declared sha256 (tree.others path)) ⟨rfl, by simp, by simp, .nil⟩
    (fun before entry => declare_ok before entry) each
  have besides : (tree.others path).find manifest.trace = some content := by
    rw [find_others safe declares named]
    exact stored
  refine ⟨⟨regular, ?_, Nat.le_of_not_lt size⟩, ⟨⟨data, found, value, parsed, shaped⟩, content, besides, parsed'⟩,
    ⟨init, final, rfl, ?_, ?_⟩, ?_, ?_⟩
  · exact declared_perm ((files_keyed tree).filter _) others declares
      (Bool.of_not_eq_false same)
  · exact checkPoints_ok (CheckSchedule.valid_of_validate valid) rows running terminal
  · rw [List.getLast?_concat] at ending
    cases ending
    exact checkReason_ok reason
  · exact checkSnapshots_ok snapshots
  · intro trace found index before
    cases besides.symm.trans found
    exact checkPrefix_ok (reserve index (List.mem_range.mpr (Nat.lt_sub_of_add_lt before)))

end Whole

/-! A buffer of one row and one snapshot. -/

section Sample

/-- The text of a document of ASCII strings and integers. -/
def plainBytes (v : Json) : List UInt8 :=
  (JsonLibrary.text ⟨fun _ => [], fun _ => none⟩ v).map fun c => UInt8.ofNat c.toNat

def samplePoint : TracePoint := ⟨0, ∅, .obj [], 0, true⟩

def sampleTrace : List UInt8 := plainBytes samplePoint.json ++ [10]

def sampleResult : List UInt8 := plainBytes (resultDocument (.obj []))

def sampleDigests : Digest × Digest :=
  (⟨[136, 239, 249, 195, 166, 163, 37, 35, 55, 71, 82, 67, 183, 49, 236, 74,
      170, 177, 26, 17, 124, 142, 164, 199, 210, 96, 194, 130, 235, 81, 219, 134], rfl⟩,
    ⟨[234, 249, 153, 33, 104, 234, 210, 22, 40, 161, 52, 79, 232, 42, 21, 202,
      127, 113, 48, 183, 117, 88, 120, 243, 94, 212, 55, 169, 221, 219, 53, 143], rfl⟩)

def sampleHash (input : List UInt8) : Digest :=
  if input = sampleTrace then sampleDigests.1 else sampleDigests.2

def sampleManifest : BufferedManifest where
  schemaVersion := 1
  complete := true
  clock := "monotonic_ns"
  instrumentedScope := "solve"
  instrumentedTotalTimeNs := 0
  stopReason := .fixedCount
  trace := "trace.jsonl"
  snapshots := [⟨0, 0, [], "result.json"⟩]
  files := [⟨"trace.jsonl", sampleDigests.1.hex, 94⟩, ⟨"result.json", sampleDigests.2.hex, 41⟩]

/-- A library that reads the two documents of the buffer. -/
def sampleLibrary : JsonLibrary where
  fractionText _ := ['0', '.', '5']
  parse input :=
    if input = plainBytes sampleManifest.json then some sampleManifest.json
    else if input = plainBytes samplePoint.json then some samplePoint.json
    else none

def sampleChildren : List (String × Node) :=
  [("buffer.json", .file (plainBytes sampleManifest.json) false), ("trace.jsonl", .file sampleTrace false),
    ("result.json", .file sampleResult false)]

def sampleTree : DirectoryTree where
  root := .directory sampleChildren
  distinct := by unfold Keyed; decide

theorem validateBuffer_sample : validateBuffer sampleLibrary sampleHash (countingProfile 1 2)
    sampleTree.root "buffer.json" = .ok (sampleManifest, [samplePoint]) := by
  have wf : (Node.directory sampleChildren).WellFormed := by
    simp [sampleChildren, Node.WellFormed, ChildrenWellFormed, Keyed]
  obtain ⟨_, -, -, hashed⟩ := transcript_ok ownMode wf
  have inventory : inventoryFiles sampleTree.root = .ok sampleTree.files := by decide +kernel
  have document : readManifest sampleLibrary (countingProfile 1 2) sampleTree.files "buffer.json" =
      .ok sampleManifest := by decide +kernel
  have trace : readTrace sampleLibrary (countingProfile 1 2) sampleTree.files
      ["trace.jsonl", "result.json"] "trace.jsonl" =
        .ok ([plainBytes samplePoint.json], [samplePoint]) := by decide +kernel
  simp only [validateBuffer, ok_bind, ok_reject, ok_mapError, ok_expect, ok_pure, ok_each]
  refine ⟨(), by decide +kernel, (), by decide +kernel, _, inventory, (), by decide +kernel, (),
    by decide +kernel, _, hashed, _, document, ["trace.jsonl", "result.json"], by decide +kernel, (),
    by decide +kernel, _, trace, ⟨some 1, some samplePoint⟩, rfl, (), by decide +kernel, _, rfl, (),
    by decide +kernel, (), ?_, _, hashed, (), fun changed => changed rfl, rfl⟩
  intro index inside
  cases List.mem_range.mp inside

theorem validateBuffer_sound_sample : BufferSound (countingProfile 1 2) sampleLibrary sampleHash
    sampleTree "buffer.json" sampleManifest [samplePoint] :=
  validateBuffer_sound rfl validateBuffer_sample

end Sample

end Metewand.Buffered
