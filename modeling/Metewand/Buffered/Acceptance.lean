import Metewand.Buffered.Checks

/-!
# A completed buffer is accepted

`validateBuffer_write`: the files of a finished collector are accepted by the validator of
the same profile, wherever they lie in one directory and each row nests below the reader's
limit.  It reads back the collector's manifest and rows.
-/

namespace Metewand

open Lib Lib.Check

namespace Buffered

open Json Evidence BufferedTrace

/-! ## What is written -/

namespace BufferedTrace

variable {lib : JsonLibrary} {clock : Nat → Nat} {profile : SelectedBufferedProfile} {t : BufferedTrace}
  {sha256 : List UInt8 → Digest}

/-- The trace and the saved snapshots. -/
def contents (t : BufferedTrace) (trace : List UInt8) : Files :=
  ("trace.jsonl", trace) :: t.snapshots.map fun saved => (saved.1.manifest, saved.2)

/-- The manifest of a finished collector. -/
def written (sha256 : List UInt8 → Digest) (t : BufferedTrace) (trace : List UInt8) : BufferedManifest :=
  t.manifest t.total (t.stopped.getD .implementationStopped) ((t.contents trace).map fun f => file sha256 f.1 f.2)

/-- What a finished collector writes, and that it fits. -/
structure Writes (lib : JsonLibrary) (sha256 : List UInt8 → Digest) (profile : SelectedBufferedProfile)
    (t : BufferedTrace) (rows : List (List UInt8)) (data : List UInt8) : Prop where
  encoded : List.Forall₂ (fun p row => bytes lib p.json = .ok row) t.points rows
  document : bytes lib (t.written sha256 (rows.flatMap (· ++ [10]))).json = .ok data
  size : (rows.flatMap (· ++ [10])).length + (t.snapshots.map (·.2.length)).sum + data.length ≤
    profile.policy.maxBufferBytes
  answer : t.write lib sha256 =
    .ok ("buffer.json", t.contents (rows.flatMap (· ++ [10])) ++ [("buffer.json", data)])

/-- A collector that has finished can write its files. -/
theorem Recounts.writes (recounts : Recounts lib profile t) (sha256 : List UInt8 → Digest)
    (finished : t.finished = true) : ∃ rows data, Writes lib sha256 profile t rows data := by
  rcases recounts.closed finished with ⟨stops, safe, -⟩
  have ended := recounts.collects.ended stops
  have kept := recounts.collects.kept
  rcases ended.fits.written kept.recorded.rows sha256 safe (t.stopped.getD .implementationStopped) with
    ⟨trace, data, text, document, size⟩
  have traced := text
  simp only [traceText, ok_bind, ok_pure] at traced
  rcases traced with ⟨rows, encoded, rfl⟩
  have manifest : t.written sha256 (rows.flatMap (· ++ [10])) = t.manifest t.total
      (t.stopped.getD .implementationStopped) (file sha256 "trace.jsonl" (rows.flatMap (· ++ [10])) ::
        t.snapshots.map fun saved => file sha256 saved.1.manifest saved.2) := by
    unfold written contents
    rw [List.map_cons, List.map_map]
    rfl
  refine ⟨rows, data, ok_traverseAll.mp encoded, manifest ▸ document, kept.recorded.size ▸ size, ?_⟩
  unfold write
  rw [kept.own]
  simp only [ok_bind, ok_reject, ok_pure, finished]
  refine ⟨(), Bool.noConfusion, _, text, data, ?_, (), ?_, ?_⟩
  · rw [List.map_map]
    exact document
  · have policy_ : t.policy = profile.policy := congrArg _ kept.same
    rw [policy_]
    exact Nat.not_lt.mpr size
  · rfl

/-- The snapshots of a stopped run, as the validator takes them. -/
theorem Recounts.saved (recounts : Recounts lib profile t) (stops : t.stopped ≠ none) :
    Saved profile t.points (t.snapshots.map Prod.fst) := by
  have ended := recounts.collects.ended stops
  have recorded := recounts.collects.kept.recorded
  refine ⟨recounts.history.saves, ?_, ?_, ?_, ?_, ?_⟩
  · rw [List.map_map, List.length_map]
    exact recorded.ordinals
  · rw [List.map_map]
    exact recorded.increasing
  · exact List.forall_mem_map.mpr recorded.inside
  · rw [List.length_map]
    exact recounts.history.counted.2
  · rcases (Option.any_eq_true _ _).mp ended.saved with ⟨last, final, index⟩
    exact ⟨last.1, by rw [List.getLast?_map, final]; rfl, by simpa using index⟩

/-! ## Prefixes -/

/-- The files of a prefix: the trace so far, and the snapshots of its rows. -/
theorem prefix_files {points : List TracePoint} (saved : Saved profile points (t.snapshots.map Prod.fst))
    (trace : List UInt8) (i n : Nat) : (prefixManifest (t.written sha256 trace).stored i n).files =
      { file sha256 "trace.jsonl" trace with sizeBytes := n } ::
        (t.snapshots.filter fun s => s.1.traceIndex ≤ i).map fun s => file sha256 s.1.manifest s.2 := by
  have inside : ∀ {s : BufferedSnapshot × List UInt8}, s ∈ t.snapshots → s.1 ∈ t.snapshots.map Prod.fst :=
    fun member => List.mem_map_of_mem member
  have named : ∀ s ∈ t.snapshots, s.1.manifest = snapshotPath s.1.captureOrdinal :=
    fun s member => saved.saves.named s.1 (inside member)
  have apart : ∀ s ∈ t.snapshots, samePath s.1.manifest "trace.jsonl" = false := by
    intro s member
    rw [named s member]
    refine Bool.eq_false_iff.mpr fun same => ?_
    rw [samePath_safe (snapshotPath_safe _) plain_safe.1] at same
    exact (snapshotPath_apart _).1 same
  have own : samePath "trace.jsonl" "trace.jsonl" = true := decide_eq_true rfl
  have snapshots : (t.written sha256 trace).stored.snapshots =
      t.snapshots.map fun s => s.1.stored := List.map_map
  have kept : ∀ s ∈ t.snapshots, (samePath s.1.manifest "trace.jsonl" ||
      (((t.snapshots.map fun s => s.1.stored).filter fun s => s.traceIndex ≤ i).map fun s =>
        (parent s.manifest).getD []).any (startsWithPath · s.1.manifest)) = decide (s.1.traceIndex ≤ i) := by
    intro s member
    rw [apart s member, Bool.false_or, Bool.eq_iff_iff, decide_eq_true_eq, List.any_eq_true]
    constructor
    · intro member
      rcases member with ⟨directory, listed, below⟩
      rcases List.mem_map.mp listed with ⟨s', filtered, rfl⟩
      rcases List.mem_filter.mp filtered with ⟨mapped, early⟩
      rcases List.mem_map.mp mapped with ⟨s₀, member₀, rfl⟩
      have path : (parent s₀.1.stored.manifest).getD [] =
          ["snapshots".toList, (toString s₀.1.captureOrdinal).toList] := by
        rw [show s₀.1.stored.manifest = snapshotPath s₀.1.captureOrdinal from named s₀ member₀,
          parent_snapshotPath]
        rfl
      rw [path, named s member, startsWith_snapshotPath] at below
      rw [← saved.ordinals_unique (inside member₀) (inside member) below]
      exact of_decide_eq_true early
    · intro early
      refine ⟨_, List.mem_map_of_mem (List.mem_filter.mpr ⟨List.mem_map_of_mem member, ?_⟩), ?_⟩
      · exact decide_eq_true early
      · rw [show s.1.stored.manifest = s.1.manifest from rfl, named s member, parent_snapshotPath]
        exact startsWith_snapshotPath.mpr rfl
  unfold prefixManifest
  simp only [snapshots]
  show List.map _ (List.filter _ ((t.contents trace).map fun f => file sha256 f.1 f.2)) = _
  unfold contents
  rw [List.map_cons, List.filter_cons_of_pos (by simp only [file]; exact Bool.or_eq_true_iff.mpr (.inl own)),
    List.map_cons, List.map_map, List.filter_map, List.map_map]
  congr 1
  · exact if_pos own
  rw [← List.filter_congr kept]
  refine List.map_congr_left fun s member => ?_
  exact if_neg (Bool.eq_false_iff.mp (apart s (List.mem_of_mem_filter member)))

/-- A stored snapshot is written as the snapshot was. -/
theorem stored_lighter (s : BufferedSnapshot) : lib.Lighter s.stored.json s.json := by
  have items : lib.Lighter (.arr (s.stored.thresholds.map F64.json)) (.arr (s.thresholds.map F64.json)) := by
    apply JsonLibrary.lighter_arr
    refine List.sublistForall₂_iff.mpr ⟨_, ?_, List.Sublist.refl _⟩
    rw [show s.stored.thresholds = s.thresholds.map readThreshold from rfl, List.map_map,
      List.forall₂_map_left_iff, List.forall₂_map_right_iff]
    exact List.forall₂_same.mpr fun threshold _ v normal => ⟨v, readThreshold_json normal, Nat.le_refl _⟩
  apply JsonLibrary.lighter_object
  · show BufferedSnapshot.fields.Nodup
    decide
  · exact .cons ⟨rfl, .refl _⟩ (.cons ⟨rfl, .refl _⟩ (.cons ⟨rfl, items⟩ (.cons ⟨rfl, .refl _⟩ .nil)))

/-- The rows of a prefix are no longer than what the run had recorded by then. -/
theorem rows_length {points : List TracePoint} {rows : List (List UInt8)} {limit i : Nat}
    (encoded : List.Forall₂ (fun p row => bytes lib p.json = .ok row) points rows)
    (within : RowsWithin lib (points.take i) limit) :
    ((rows.take i).map fun line => line.length + 1).sum ≤ limit := by
  rcases within with ⟨others, written, size⟩
  have same : rows.take i = others := by
    have here := List.forall₂_take i encoded
    clear encoded size
    generalize points.take i = some at here written
    generalize rows.take i = lines at here
    induction here generalizing others with
    | nil =>
        cases written
        rfl
    | cons head _ ih =>
        cases written with
        | cons head' tail =>
            cases head.symm.trans head'
            rw [ih _ tail]
  rw [same]
  exact size

/-- Every proper prefix leaves the terminal reserve, as the validator counts it. -/
theorem checkPrefix_accepts (recounts : Recounts lib profile t) (stops : t.stopped ≠ none)
    {rows : List (List UInt8)} (encoded : List.Forall₂ (fun p row => bytes lib p.json = .ok row) t.points rows)
    (trace : List UInt8) {i : Nat} (short : i + 1 < t.points.length) :
    checkPrefix lib profile (t.written sha256 trace).stored rows i = .ok () := by
  rcases recounts.history.prefixes i short with ⟨s, held⟩
  have rows_ := held.rows
  rw [held.points] at rows_
  have bound := rows_length encoded rows_
  generalize lines : ((rows.take (i + 1)).map fun line => line.length + 1).sum = n at bound
  have files := @prefix_files _ t sha256 _ (recounts.saved stops) trace i n
  rw [← held.snapshots] at files
  have snapshots : (prefixManifest (t.written sha256 trace).stored i n).snapshots =
      (s.snapshots.map Prod.fst).map BufferedSnapshot.stored := by
    rw [held.snapshots, List.map_map]
    show ((t.snapshots.map Prod.fst).map BufferedSnapshot.stored).filter _ = _
    rw [List.map_map, List.filter_map]
    rfl
  have own : t.profile = s.profile := recounts.collects.kept.same.trans held.same.symm
  have shape : prefixManifest (t.written sha256 trace).stored i n = { s.estimate 0 none with
      instrumentedTotalTimeNs := maxSafeInteger, stopReason := .implementationStopped
      snapshots := (prefixManifest (t.written sha256 trace).stored i n).snapshots
      files := (prefixManifest (t.written sha256 trace).stored i n).files } := by
    unfold prefixManifest BufferedManifest.stored written estimate manifest
    simp only [own]
  have width_zero : Json.width (quote zeroHash) = 66 := by decide
  have hashes : ∀ data, Json.width (quote (sha256 data).hex) ≤ Json.width (quote zeroHash) := fun data =>
    Nat.le_of_eq ((width_hex _).trans width_zero.symm)
  have lighter : lib.Lighter (prefixManifest (t.written sha256 trace).stored i n).json (s.estimate 0 none).json := by
    rw [shape]
    apply manifest_lighter (s.estimate 0 none) (Nat.le_refl _) (Nat.le_refl _)
    · rw [snapshots, List.forall₂_map_left_iff]
      exact List.forall₂_same.mpr fun snapshot _ => stored_lighter snapshot
    · rw [files]
      refine .cons (file_lighter (hashes trace) bound) ?_
      rw [List.forall₂_map_left_iff, List.forall₂_map_right_iff]
      exact List.forall₂_same.mpr fun saved _ => file_lighter (hashes saved.2) (Nat.le_refl _)
  rcases held.fits with ⟨size, estimated, small⟩
  rcases estimatedBytes_eq_ok.mp estimated with ⟨encoded', document, sum⟩
  rcases bytes_lighter lighter document with ⟨data, document', le⟩
  have total : ((prefixManifest (t.written sha256 trace).stored i n).files.map (·.sizeBytes)).sum =
      n + s.snapshotBytes := by
    rw [files, held.size, List.map_cons, List.sum_cons, List.map_map]
    rfl
  unfold bytes at document'
  rw [ok_mapError] at document'
  simp only [Option.elim_none] at sum
  simp only [checkPrefix, ok_bind, ok_mapError, ok_reject, Nat.not_lt, lines]
  refine ⟨data, document', ?_⟩
  rw [total]
  omega

/-! ## Where the files lie -/

/-- The paths that are written are safe, apart, and none is the manifest's. -/
theorem contents_paths (saved : Saved profile t.points (t.snapshots.map Prod.fst)) (trace : List UInt8) :
    (∀ f ∈ t.contents trace, safePath f.1 = true ∧ f.1 ≠ "buffer.json") ∧ Keyed Prod.fst (t.contents trace) := by
  have named : ∀ s ∈ t.snapshots, s.1.manifest = snapshotPath s.1.captureOrdinal :=
    fun s member => saved.saves.named s.1 (List.mem_map_of_mem member)
  constructor
  · intro f member
    rcases List.mem_cons.mp member with first | later
    · rw [first]
      have apart : "trace.jsonl" ≠ "buffer.json" := by decide
      exact ⟨plain_safe.1, apart⟩
    · rcases List.mem_map.mp later with ⟨s, inside, rfl⟩
      rw [named s inside]
      exact ⟨snapshotPath_safe _, (snapshotPath_apart _).2⟩
  · have paths : (t.contents trace).map Prod.fst =
        "trace.jsonl" :: (t.snapshots.map fun s => s.1.captureOrdinal).map snapshotPath := by
      unfold contents
      rw [List.map_cons, List.map_map, List.map_map]
      congr 1
      exact List.map_congr_left named
    have ordinals := saved.ordinals
    rw [List.map_map] at ordinals
    unfold Keyed
    rw [paths, show t.snapshots.map (fun s => s.1.captureOrdinal) = _ from ordinals]
    refine List.nodup_cons.mpr ⟨?_, ?_⟩
    · intro member
      rcases List.mem_map.mp member with ⟨n, -, same⟩
      exact (snapshotPath_apart n).1 same
    · exact List.nodup_range.map fun _ _ same => snapshotPath_injective same

end BufferedTrace

/-- A directory that holds exactly these files, in whatever directories below it. -/
structure DirectoryTree.Holds (tree : DirectoryTree) (files : Files) : Prop where
  wellFormed : tree.root.WellFormed
  directory : tree.root.entry = .directory
  regular : ∀ e ∈ tree.root.entries "", safePath e.path = true ∧ (e.entry = .directory ∨ (fileOf e).isSome)
  files : tree.files.Perm files

namespace DirectoryTree.Holds

variable {tree : DirectoryTree} {files : Files}

theorem safe (holds : tree.Holds files) : ∀ f ∈ tree.files, safePath f.1 = true := by
  intro f member
  rcases mem_files member with ⟨e, inside, path, -⟩
  exact path ▸ (holds.regular e inside).1

theorem inventory (holds : tree.Holds files) : inventoryFiles tree.root = .ok tree.files := by
  have entries : traverseAll inventoryEntry (tree.root.entries "") =
      .ok ((tree.root.entries "").map fun e => (fileOf e).toList) := by
    apply traverseAll_eq_map
    intro e member
    rcases holds.regular e member with ⟨safe, kind⟩
    unfold inventoryEntry fileOf at *
    simp only [ok_bind, ok_reject, Bool.not_eq_false]
    refine ⟨(), safe, ?_⟩
    cases kind_ : e.entry with
    | directory => rfl
    | file content executable => rfl
    | symlink _ | unsupported =>
        rw [kind_] at kind
        rcases kind with impossible | impossible
        · cases impossible
        · cases impossible
  have flat : ((tree.root.entries "").map fun e => (fileOf e).toList).flatten = tree.files := by
    unfold DirectoryTree.files
    induction tree.root.entries "" with
    | nil => rfl
    | cons e rest ih =>
        rw [List.map_cons, List.flatten_cons, ih, List.filterMap_cons]
        cases fileOf e <;> rfl
  simp only [inventoryFiles, ok_bind, ok_reject, ok_pure, not_not]
  exact ⟨(), holds.directory, _, entries, flat⟩

/-- The directory has a hash. -/
theorem hashed (holds : tree.Holds files) : ∃ inventory, transcript ownMode tree.root = .ok inventory := by
  have wf := holds.wellFormed
  have directory := holds.directory
  cases root : tree.root with
  | directory children =>
      rw [root] at wf
      rcases transcript_ok ownMode wf with ⟨_, -, -, hashed⟩
      exact ⟨_, hashed⟩
  | file _ _ | symlink _ | unsupported =>
      rw [root] at directory
      cases directory

end DirectoryTree.Holds

/-! ## The whole buffer -/

section Whole

variable {lib : JsonLibrary} {sha256 : List UInt8 → Digest} {profile : SelectedBufferedProfile} {clock : Nat → Nat}
  {t : BufferedTrace} {tree : DirectoryTree} {rows : List (List UInt8)} {data : List UInt8}

/-- The files besides the manifest are the trace and the snapshots. -/
theorem mem_others (saved : Saved profile t.points (t.snapshots.map Prod.fst)) {trace : List UInt8}
    (holds : tree.Holds (t.contents trace ++ [("buffer.json", data)])) (f : String × List UInt8) :
    f ∈ tree.others "buffer.json" ↔ f ∈ t.contents trace := by
  have paths := contents_paths saved trace
  unfold DirectoryTree.others
  rw [List.mem_filter, decide_eq_true_eq, holds.files.mem_iff, List.mem_append, List.mem_singleton]
  constructor
  · intro member
    rcases member with ⟨either, other⟩
    rcases either with inside | here
    · exact inside
    · rw [here] at other
      exact absurd rfl other
  · intro inside
    exact ⟨.inl inside, (paths.1 f inside).2⟩

theorem declares_others (saved : Saved profile t.points (t.snapshots.map Prod.fst)) {trace : List UInt8}
    (holds : tree.Holds (t.contents trace ++ [("buffer.json", data)])) :
    thread (declare sha256 (tree.others "buffer.json")) [] (t.written sha256 trace).stored.files =
        .ok ((t.contents trace).map Prod.fst) ∧
      sameKeys ((t.contents trace).map Prod.fst) (tree.others "buffer.json") = true := by
  have paths := contents_paths saved trace
  have files : (t.written sha256 trace).stored.files = (t.contents trace).map fun f => file sha256 f.1 f.2 := rfl
  have names : ((t.contents trace).map fun f => file sha256 f.1 f.2).map (·.path) =
      (t.contents trace).map Prod.fst := by
    rw [List.map_map]
    rfl
  constructor
  · rw [files, ← names]
    apply declares_ok
    · exact fun f member => holds.safe f (List.mem_of_mem_filter member)
    · exact (files_keyed tree).filter _
    · rw [names]
      exact paths.2
    · intro entry member
      rcases List.mem_map.mp member with ⟨f, inside, rfl⟩
      exact ⟨f.2, (mem_others saved holds f).mpr inside, rfl, rfl⟩
  · have self : ∀ path, samePath path path = true := fun path => decide_eq_true rfl
    unfold sameKeys
    rw [Bool.and_eq_true, List.all_eq_true, List.all_eq_true]
    constructor
    · intro path member
      rcases List.mem_map.mp member with ⟨f, inside, rfl⟩
      exact List.any_eq_true.mpr ⟨f, (mem_others saved holds f).mpr inside, self f.1⟩
    · intro f inside
      have listed := (mem_others saved holds f).mp inside
      exact List.any_eq_true.mpr ⟨f.1, List.mem_map_of_mem listed, self f.1⟩

/-- The manifest is read back as it was written. -/
theorem readManifest_written (documented : lib.Documented) (accepted : Accepted profile)
    (recounts : Recounts lib profile t) (finished : t.finished = true) {trace : List UInt8}
    (document : bytes lib (t.written sha256 trace).json = .ok data)
    (holds : tree.Holds (t.contents trace ++ [("buffer.json", data)])) :
    readManifest lib profile tree.files "buffer.json" = .ok (t.written sha256 trace).stored ∧
      ∃ value, lib.fromSlice data = some value ∧
        BufferedManifest.fromJson value.value = some (t.written sha256 trace).stored := by
  rcases recounts.closed finished with ⟨-, total, -⟩
  have finite : ∀ s ∈ (t.written sha256 trace).snapshots, ∀ threshold ∈ s.thresholds,
      F64.isFinite threshold = true := fun s member threshold names =>
    accepted.policy.thresholds_finite threshold ((recounts.history.saves.policy s member).subset names)
  rcases (t.written sha256 trace).json_shape with ⟨ordered, shallow⟩
  unfold bytes JsonLibrary.bytes at document
  rw [ok_mapError, ok_map] at document
  rcases document with ⟨w, normal, same⟩
  have parsed := fromSlice_bytes documented ordered normal
  rw [if_pos shallow, same] at parsed
  rcases Option.map_eq_some_iff.mp parsed with ⟨value, found, shape⟩
  have version : (t.written sha256 trace).schemaVersion < 2 ^ 32 := by
    show 1 < 2 ^ 32
    decide
  have typed := BufferedManifest.read_json finite version normal
  rw [← shape] at typed
  have stored : ("buffer.json", data) ∈ tree.files :=
    holds.files.mem_iff.mpr (List.mem_append_right _ (List.mem_singleton_self _))
  refine ⟨?_, value, found, typed⟩
  simp only [readManifest, ok_bind, ok_reject, ok_expect, ok_pure, Bool.not_eq_false, not_or, not_not, Nat.not_lt]
  refine ⟨(), plain_safe.2, data, read_mem holds.safe (files_keyed tree) stored, value, found, _, typed, (),
    ⟨rfl, rfl, rfl, ?_, total⟩, rfl⟩
  show t.profile.instrumentedScope = profile.instrumentedScope
  rw [recounts.collects.kept.same]

/-- The trace is read back row by row. -/
theorem readTrace_written (documented : lib.Documented) (recounts : Recounts lib profile t)
    (stops : t.stopped ≠ none) (encoded : List.Forall₂ (fun p row => bytes lib p.json = .ok row) t.points rows)
    (holds : tree.Holds (t.contents (rows.flatMap (· ++ [10])) ++ [("buffer.json", data)]))
    (shallow : ∀ p ∈ t.points, p.json.depth < recursionLimit) :
    ∃ qs, List.Forall₂ TracePoint.ReadAs t.points qs ∧
      readTrace lib profile tree.files ((t.contents (rows.flatMap (· ++ [10]))).map Prod.fst) "trace.jsonl" =
        .ok (rows, qs) := by
  rcases (recounts.collects.ended stops).terminal with ⟨last, final, terminal⟩
  have nonempty : t.points ≠ [] := List.ne_nil_of_mem (List.mem_of_getLast? final)
  have lines : ∀ row ∈ rows, row ≠ [] ∧ (10 : UInt8) ∉ row := by
    intro row member
    rcases List.getElem_of_mem member with ⟨i, bound, rfl⟩
    exact row_line documented (encoded.get (encoded.length_eq ▸ bound) bound)
  have read := rows_read documented encoded recounts.history.sorted shallow
  rcases read with ⟨qs, each, texts⟩
  have bound : qs.length ≤ profile.policy.maxTracePoints := each.length_eq ▸ recounts.history.counted.1
  have some : rows ≠ [] := by
    intro none
    rw [none, List.forall₂_nil_right_iff] at encoded
    exact nonempty encoded
  have stored : ("trace.jsonl", rows.flatMap (· ++ [10])) ∈ tree.files :=
    holds.files.mem_iff.mpr (List.mem_append_left _ List.mem_cons_self)
  rcases flags_read recounts.history.rows each final terminal with ⟨ends, running⟩
  refine ⟨qs, each, ?_⟩
  simp only [readTrace, ok_bind, ok_reject, ok_pure, not_or, not_not, Bool.not_eq_true]
  refine ⟨(), ?_, _, read_mem holds.safe (files_keyed tree) stored, (), getLast?_rows some, qs, ?_, (), ⟨?_, ?_⟩, ?_⟩
  · have self : samePath "trace.jsonl" "trace.jsonl" = true := decide_eq_true rfl
    rw [Bool.not_eq_false]
    exact List.any_eq_true.mpr ⟨"trace.jsonl", List.mem_cons_self, self⟩
  · rw [traceLines_rows lines]
    exact readRows_written texts bound
  · rw [ends]
    exact Bool.noConfusion
  · exact running
  · rw [traceLines_rows lines]

/-- A directory with the files of a collector is within the byte bound. -/
theorem BufferedTrace.Writes.size_le (writes : Writes lib sha256 profile t rows data)
    (holds : tree.Holds (t.contents (rows.flatMap (· ++ [10])) ++ [("buffer.json", data)])) :
    tree.files.size ≤ profile.policy.maxBufferBytes := by
  have whole := (holds.files.map fun f => f.2.length).sum_nat
  have bound := writes.size
  unfold Files.size
  rw [whole, contents, List.map_append, List.sum_append, List.map_cons, List.sum_cons, List.map_map,
    List.map_singleton, List.sum_singleton]
  exact bound

/-- The files of a finished collector are accepted. -/
theorem accepts_written (documented : lib.Documented) {t₀ : BufferedTrace} (opens : withClock profile = .ok t₀)
    (recounts : Recounts lib profile t) (finished : t.finished = true) (writes : Writes lib sha256 profile t rows data)
    (holds : tree.Holds (t.contents (rows.flatMap (· ++ [10])) ++ [("buffer.json", data)]))
    (shallow : ∀ p ∈ t.points, p.json.depth < recursionLimit) :
    ∃ qs, List.Forall₂ TracePoint.ReadAs t.points qs ∧
      validateBuffer lib sha256 profile tree.root "buffer.json" =
        .ok ((t.written sha256 (rows.flatMap (· ++ [10]))).stored, qs) := by
  rcases recounts.closed finished with ⟨stops, total, late⟩
  have accepted := (withClock_ok opens).1
  have ended := recounts.collects.ended stops
  have saved := recounts.saved stops
  rcases ended.terminal with ⟨last, final, terminal⟩
  have document := (readManifest_written documented accepted recounts finished writes.document holds).1
  rcases @declares_others sha256 _ _ _ _ saved _ holds with ⟨declares, keys⟩
  rcases readTrace_written documented recounts stops writes.encoded holds shallow with ⟨qs, each, trace⟩
  have times : ∀ p ∈ t.points, p.instrumentedTimeNs ≤ t.total := fun p member =>
    Nat.le_trans (recounts.history.rows.times last final p member) (late last final)
  have ends : ∀ last' ∈ t.points.getLast?, last'.terminal = true := by
    intro last' final'
    rw [← Option.some.inj (final.symm.trans final')]
    exact terminal
  rcases checkPoints_accept recounts.history.rows each ends times with ⟨cursor, points⟩
  have listed : ∀ s ∈ t.snapshots.map Prod.fst,
      s.manifest ∈ (t.contents (rows.flatMap (· ++ [10]))).map Prod.fst := by
    intro s member
    rcases List.mem_map.mp member with ⟨saved, inside, rfl⟩
    exact List.mem_map.mpr ⟨_, List.mem_cons_of_mem _ (List.mem_map_of_mem inside), rfl⟩
  have snapshots := @checkSnapshots_accept _ _ _ _ accepted.policy saved each _ listed
    (t.written sha256 (rows.flatMap (· ++ [10]))).stored rfl
  rcases forall₂_last each.flip final with ⟨q, last_, read⟩
  cases stopped : t.stopped with
  | none => exact absurd stopped stops
  | some reason =>
  have same : (t.written sha256 (rows.flatMap (· ++ [10]))).stored.stopReason = reason := by
    show t.stopped.getD .implementationStopped = reason
    rw [stopped]
    rfl
  have reason_ := @checkReason_accepts profile t.points qs last q
    (t.written sha256 (rows.flatMap (· ++ [10]))).stored (t.manifest 0 reason []) accepted.policy.active
    (recounts.history.borne reason stopped last final) same (List.length_map _) each.length_eq.symm read
  have reserve : ∀ i ∈ List.range (qs.length - 1), checkPrefix lib profile
      (t.written sha256 (rows.flatMap (· ++ [10]))).stored rows i = .ok () := by
    intro i member
    have below := List.mem_range.mp member
    rw [← each.length_eq] at below
    exact checkPrefix_accepts recounts stops writes.encoded _ (by omega)
  have size := writes.size_le holds
  have small : tree.files.size < 2 ^ 64 := by
    have bound := accepted.bounds.bufferBytes.2
    unfold maxSafeInteger at bound
    omega
  rcases holds.hashed with ⟨inventory, hashed⟩
  refine ⟨qs, each, ?_⟩
  simp only [withClock, ok_bind] at opens
  rcases opens with ⟨u, policy, v, bounds, -⟩
  have others := others_eq holds.safe plain_safe.2
  simp only [validateBuffer, ok_bind, ok_reject, ok_mapError, ok_expect, ok_pure, ok_each]
  refine ⟨u, policy, v, bounds, _, holds.inventory, (), Nat.not_le.mpr small, (), Nat.not_lt.mpr size, _, hashed, _,
    document, _, others ▸ declares, (), ?_, (rows, qs), trace, cursor, points, (), snapshots, q, last_, (), reason_,
    (), reserve, _, hashed, (), fun changed => changed rfl, rfl⟩
  rw [others, keys]
  exact Bool.noConfusion

/-- An accepted buffer has no row that nests too deep. -/
theorem shallow_of_accepted (documented : lib.Documented) {t₀ : BufferedTrace} (opens : withClock profile = .ok t₀)
    (recounts : Recounts lib profile t) (finished : t.finished = true) (writes : Writes lib sha256 profile t rows data)
    (holds : tree.Holds (t.contents (rows.flatMap (· ++ [10])) ++ [("buffer.json", data)]))
    {manifest : BufferedManifest} {points : List TracePoint}
    (valid : validateBuffer lib sha256 profile tree.root "buffer.json" = .ok (manifest, points)) :
    ∀ p ∈ t.points, p.json.depth < recursionLimit := by
  rcases recounts.closed finished with ⟨stops, -⟩
  have accepted := (withClock_ok opens).1
  simp only [withClock, ok_bind] at opens
  rcases opens with ⟨_, -, _, -, u, schedule, -⟩
  have saved := recounts.saved stops
  rcases (validateBuffer_sound schedule valid).read with ⟨⟨data', found, value, parsed, typed⟩, trace, traced, each⟩
  have stored : ("buffer.json", data) ∈ tree.files :=
    holds.files.mem_iff.mpr (List.mem_append_right _ (List.mem_singleton_self _))
  cases (find_mem holds.safe (files_keyed tree) stored).symm.trans found
  rcases (readManifest_written documented accepted recounts finished writes.document holds).2 with
    ⟨value', parsed', typed'⟩
  cases parsed'.symm.trans parsed
  cases typed'.symm.trans typed
  have other : ("trace.jsonl", rows.flatMap (· ++ [10])) ∈ tree.others "buffer.json" :=
    (mem_others saved holds _).mpr List.mem_cons_self
  have plain : ∀ f ∈ tree.others "buffer.json", safePath f.1 = true :=
    fun f member => holds.safe f (List.mem_of_mem_filter member)
  cases (find_mem plain ((files_keyed tree).filter _) other).symm.trans traced
  have lines : ∀ row ∈ rows, row ≠ [] ∧ (10 : UInt8) ∉ row := by
    intro row member
    rcases List.getElem_of_mem member with ⟨i, bound, rfl⟩
    exact row_line documented (writes.encoded.get (writes.encoded.length_eq ▸ bound) bound)
  rw [traceLines_rows lines] at each
  intro p member
  rcases List.getElem_of_mem member with ⟨i, bound, rfl⟩
  have bound' : i < rows.length := writes.encoded.length_eq ▸ bound
  have read := row_read documented (recounts.history.sorted _ member) (writes.encoded.get bound bound')
  rcases each.get bound' (each.length_eq ▸ bound') with ⟨value, parsed, -⟩
  by_contra deep
  rw [if_neg deep] at read
  cases read.symm.trans parsed

/-- After any calls, once a run has finished, its files are written, and the validator of the
same profile accepts them from any directory that holds them, unless a row nests too deep for
the reader. It reads the collector's own manifest and rows. -/
theorem validateBuffer_write (documented : lib.Documented) (nondecreasing : Monotone clock) {t₀ : BufferedTrace}
    (opens : withClock profile = .ok t₀) {calls : List Call} (sorted : ∀ c ∈ calls, c.Sorted)
    (finished : (t₀.run lib clock calls).finished = true) (sha256 : List UInt8 → Digest) :
    ∃ files trace, (t₀.run lib clock calls).write lib sha256 = .ok ("buffer.json", files) ∧
      ("trace.jsonl", trace) ∈ files ∧ ∀ tree : DirectoryTree, tree.Holds files →
        if ∀ p ∈ (t₀.run lib clock calls).points, p.json.depth < recursionLimit then
          ∃ qs, List.Forall₂ TracePoint.ReadAs (t₀.run lib clock calls).points qs ∧
            validateBuffer lib sha256 profile tree.root "buffer.json" =
              .ok (((t₀.run lib clock calls).written sha256 trace).stored, qs)
        else ∀ result, validateBuffer lib sha256 profile tree.root "buffer.json" ≠ .ok result := by
  rcases withClock_ok opens with ⟨accepted, same⟩
  have recounts : Recounts lib profile (t₀.run lib clock calls) := by
    rw [same]
    exact run_recounts nondecreasing accepted sorted
  rcases recounts.writes sha256 finished with ⟨rows, data, writes⟩
  refine ⟨_, rows.flatMap (· ++ [10]), writes.answer, List.mem_append_left _ List.mem_cons_self,
    fun tree holds => ?_⟩
  split
  · rename_i shallow
    exact accepts_written documented opens recounts finished writes holds shallow
  · rename_i deep
    intro result valid
    exact deep (shallow_of_accepted documented opens recounts finished writes holds valid)

end Whole

/-! A run that finishes at its first row, and a directory that holds what it writes. -/

section Sample

open Protocol

/-- The library of the sample reads every canonical text below the limit, and no deeper one. -/
theorem sampleLibrary_documented : sampleSerde.library.Documented where
  fraction := sampleFraction_numeric
  reads w normal ordered := by
    have written : sampleSerde.canonicalize w = some w := by
      change w.normalize.toOption = some w
      rw [normal]
      rfl
    have encoded : sampleSerde.library.encode w = sampleText.encode w := by
      rw [JsonLibrary.encode, JsonLibrary.encode, sampleSerde_text]
    change (if (sampleSerde.deserialize (sampleSerde.library.encode w)).2 = true then
      (sampleSerde.deserialize (sampleSerde.library.encode w)).1.read else none) = _
    by_cases shallow : w.depth < recursionLimit
    · rw [if_pos shallow, sampleSerde_documented.reads w w ordered written shallow]
      exact (Raw.read_complete (ofJson_complete normal)).trans (congrArg some (ofJson_value ordered))
    · have unknown : ¬ ∃ w', Canonical (sampleText.encode w) w' := by
        rintro ⟨w', normal', ordered', shallow', same⟩
        have texts : sampleText.text w = sampleText.text w' := String.ofList_injective (utf8_injective same)
        have is : w = w' := JsonLibrary.text_injective sampleText_spelled normal normal' ordered ordered' texts
        exact shallow (is ▸ shallow')
      have read : sampleSerde.deserialize (sampleText.encode w) = (.malformed, false) := dif_neg unknown
      rw [if_neg shallow, encoded, read]
      rfl

def sampleFinish : Call := .finish ⟨0, ∅⟩ (.ok (.obj [])) (.ok (.obj []))

theorem sampleFinish_sorted : ∀ c ∈ [sampleFinish], c.Sorted := by
  intro c member metrics measured
  rw [List.mem_singleton.mp member] at measured
  cases measured
  exact ⟨.nil, trivial⟩

/-- The only row of the run, and the result it freezes. -/
def finishedPoint : TracePoint := ⟨0, ∅, .obj [], 0, true⟩

def finishedResult : List UInt8 := sampleText.encode (resultDocument (.obj []))

theorem finishedResult_frozen :
    frozen sampleSerde.library true (.ok (.obj [])) = .ok (some finishedResult) := by
  have ordered : (resultDocument (.obj [])).Ordered := by
    apply object_ordered
    simp only [List.forall_mem_cons]
    exact ⟨trivial, ⟨.nil, trivial⟩, trivial, fun field absent => absurd absent List.not_mem_nil⟩
  have normal : (resultDocument (.obj [])).normalize = .ok (resultDocument (.obj [])) := by decide +kernel
  have shallow : (resultDocument (.obj [])).depth < recursionLimit := by decide +kernel
  have parsed := fromSlice_bytes sampleLibrary_documented ordered normal
  rw [if_pos shallow] at parsed
  rcases Option.map_eq_some_iff.mp parsed with ⟨value, found, shape⟩
  have encoded : bytes sampleSerde.library (resultDocument (.obj [])) = .ok finishedResult := by
    simp only [bytes, JsonLibrary.bytes, normal]
    rfl
  have object : (value.value.get "data").isObject = true := by
    rw [shape]
    decide +kernel
  simp only [frozen, capture, objectData, if_true, ok_bind, ok_pure, ok_expect, ok_reject]
  exact ⟨_, ⟨_, rfl, encoded⟩, (), ⟨value, found, not_not.mpr object⟩, rfl⟩

/-- The run of the one call. -/
noncomputable def finishedRun : BufferedTrace :=
  (opened (countingProfile 1 2)).run sampleSerde.library (fun _ => 0) [sampleFinish]

/-- It finishes with one row and one snapshot. -/
theorem finishedRun_finishes : finishedRun.finished = true ∧ finishedRun.points = [finishedPoint] ∧
    finishedRun.snapshots = [(⟨0, 0, [], snapshotPath 0⟩, finishedResult)] := by
  have limit : (countingProfile 1 2).policy.activeTimeNs = .ok 1000000000 := by decide +kernel
  have written : bytes sampleSerde.library finishedPoint.json = .ok (sampleText.encode finishedPoint.json) := by
    have normal : finishedPoint.json.normalize = .ok finishedPoint.json := by decide +kernel
    simp only [bytes, JsonLibrary.bytes, normal]
    rfl
  have stops : (opened (countingProfile 1 2)).countedReason []
      ((opened (countingProfile 1 2)).reasonOf none 0 1000000000 true) = some .implementationStopped := by
    decide +kernel
  have normal : ((opened (countingProfile 1 2)).estimate ((sampleText.encode finishedPoint.json).length + 1)
      (some finishedResult)).json.normalize =
    .ok ((opened (countingProfile 1 2)).estimate ((sampleText.encode finishedPoint.json).length + 1)
      (some finishedResult)).json := by decide +kernel
  have estimated : ∃ size, (opened (countingProfile 1 2)).estimatedBytes sampleSerde.library
      ((sampleText.encode finishedPoint.json).length + 1) (some finishedResult) = .ok size ∧ size ≤ 65536 := by
    refine ⟨_, estimatedBytes_ok normal, ?_⟩
    rw [sampleSerde_text]
    decide +kernel
  rcases estimated with ⟨size, estimated, fits⟩
  have prepared := @prepare_stops sampleSerde.library (opened (countingProfile 1 2)) ⟨0, ∅⟩ (.obj []) 0 1000000000
    (.ok (.obj [])) true none _ _ _ _ (Nat.zero_le _) rfl rfl stops written finishedResult_frozen estimated fits
  have checked := @check_prepared sampleSerde.library (fun _ => 0) (opened (countingProfile 1 2)) ⟨0, ∅⟩
    (.ok (.obj [])) _ _ _ _ _ rfl limit rfl rfl prepared
  have within : ¬ (opened (countingProfile 1 2)).tick.tick.policy.maxObservations ≤
      (opened (countingProfile 1 2)).tick.tick.snapshots.length := by decide +kernel
  simp only [commit, if_neg within] at checked
  have first : (opened (countingProfile 1 2)).points.getLast?.filter (fun p => p.checkIndex = 0) = none := rfl
  have fresh : ¬ ((opened (countingProfile 1 2)).finished = true ∨
      (opened (countingProfile 1 2)).adopted.isSome = true) := by decide +kernel
  simp only [finishedRun, BufferedTrace.run, call, sampleFinish, finish, if_neg fresh, first, checked]
  exact ⟨rfl, rfl, rfl⟩

/-- A directory with the files of such a run. -/
def finishedChildren (trace result manifest : List UInt8) : List (String × Node) :=
  [("trace.jsonl", .file trace false),
    ("snapshots", .directory [("0", .directory [("result.json", .file result false)])]),
    ("buffer.json", .file manifest false)]

theorem finishedChildren_wellFormed (trace result manifest : List UInt8) :
    (Node.directory (finishedChildren trace result manifest)).WellFormed := by
  simp [finishedChildren, Node.WellFormed, ChildrenWellFormed, Keyed]

def finishedTree (trace result manifest : List UInt8) : DirectoryTree where
  root := .directory (finishedChildren trace result manifest)
  distinct := entries_keyed (finishedChildren_wellFormed trace result manifest)

theorem finishedTree_holds (trace result manifest : List UInt8) : (finishedTree trace result manifest).Holds
    [("trace.jsonl", trace), (snapshotPath 0, result), ("buffer.json", manifest)] := by
  have entries : (finishedTree trace result manifest).root.entries "" =
      [⟨"trace.jsonl", .file trace false⟩, ⟨"snapshots", .directory⟩, ⟨"snapshots/0", .directory⟩,
        ⟨snapshotPath 0, .file result false⟩, ⟨"buffer.json", .file manifest false⟩] := by
    have inner : join "snapshots" "0" = "snapshots/0" := by decide +kernel
    have path : join "snapshots/0" "result.json" = snapshotPath 0 := by decide +kernel
    have top : ∀ name, join "" name = name := fun name => if_pos rfl
    simp only [finishedTree, finishedChildren, Node.entries, childEntries, top, inner, path, Node.entry]
    rfl
  refine ⟨finishedChildren_wellFormed trace result manifest, rfl, ?_, ?_⟩
  · rw [entries]
    simp only [List.forall_mem_cons]
    exact ⟨⟨plain_safe.1, .inr rfl⟩, ⟨by decide +kernel, .inl trivial⟩, ⟨by decide +kernel, .inl trivial⟩,
      ⟨by decide +kernel, .inr rfl⟩, ⟨plain_safe.2, .inr rfl⟩, fun e absent => absurd absent List.not_mem_nil⟩
  · unfold DirectoryTree.files
    rw [entries]
    exact .refl _

theorem validateBuffer_write_sample : ∃ trace manifest,
    finishedRun.write sampleSerde.library sampleHash = .ok ("buffer.json",
      [("trace.jsonl", trace), (snapshotPath 0, finishedResult), ("buffer.json", manifest)]) ∧
    ∃ q, finishedPoint.ReadAs q ∧ validateBuffer sampleSerde.library sampleHash (countingProfile 1 2)
      (finishedTree trace finishedResult manifest).root "buffer.json" =
        .ok ((finishedRun.written sampleHash trace).stored, [q]) := by
  rcases finishedRun_finishes with ⟨finished, points, snapshots⟩
  have nondecreasing : Monotone fun _ : Nat => 0 := monotone_const
  have opens : withClock (countingProfile 1 2) = .ok (opened (countingProfile 1 2)) :=
    withClock_opened (by decide +kernel) (by decide +kernel) (by decide +kernel)
  rcases validateBuffer_write sampleLibrary_documented nondecreasing opens sampleFinish_sorted finished sampleHash
    with ⟨files, trace, written, listed, read⟩
  have recounts : Recounts sampleSerde.library (countingProfile 1 2) finishedRun :=
    run_recounts nondecreasing (withClock_ok opens).1 sampleFinish_sorted
  rcases recounts.writes sampleHash finished with ⟨rows, manifest, writes⟩
  have shape : files = [("trace.jsonl", rows.flatMap (· ++ [10])), (snapshotPath 0, finishedResult),
      ("buffer.json", manifest)] := by
    have same := congrArg Prod.snd (Except.ok.inj (written.symm.trans writes.answer))
    rw [contents, snapshots] at same
    exact same
  have text : trace = rows.flatMap (· ++ [10]) := by
    have other : "trace.jsonl" ≠ snapshotPath 0 ∧ "trace.jsonl" ≠ "buffer.json" := by decide +kernel
    simpa [shape, other] using listed
  have shallow : ∀ p ∈ finishedRun.points, p.json.depth < recursionLimit := by
    intro p member
    rw [points, List.mem_singleton] at member
    rw [member]
    decide +kernel
  subst shape
  rcases Eq.mp (if_pos shallow) (read _ (finishedTree_holds _ finishedResult manifest)) with ⟨qs, each, valid⟩
  change List.Forall₂ TracePoint.ReadAs finishedRun.points qs at each
  rw [points] at each
  rcases List.forall₂_cons_left_iff.mp each with ⟨q, rest, same, none, rfl⟩
  cases none
  exact ⟨_, manifest, written, q, same, text ▸ valid⟩

end Sample

end Buffered

end Metewand
