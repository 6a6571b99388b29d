import Metewand.Buffered.History

/-!
# What the checks of the validator accept

One lemma for each check of a completed buffer, from what the collector keeps of its rows,
snapshots and reason.

* `rows_read`: every row reads back.
* `checkPoints_accept`, `checkSnapshots_accept`, `checkReason_accepts`: rows, snapshots and
  reason of a collector are accepted as read back.
-/

namespace Metewand

open Lib Lib.Check

namespace Json

/-! ## Nesting and order -/

theorem depthMembers_le {n : Nat} {members : List (String × Json)} (each : ∀ m ∈ members, m.2.depth ≤ n) :
    depthMembers members ≤ n := by
  induction members with
  | nil => exact Nat.zero_le _
  | cons m rest ih =>
      rcases List.forall_mem_cons.mp each with ⟨head, tail⟩
      exact Nat.max_le.mpr ⟨head, ih tail⟩

theorem depthItems_le {n : Nat} {items : List Json} (each : ∀ item ∈ items, item.depth ≤ n) :
    depthItems items ≤ n := by
  induction items with
  | nil => exact Nat.zero_le _
  | cons item rest ih =>
      rcases List.forall_mem_cons.mp each with ⟨head, tail⟩
      exact Nat.max_le.mpr ⟨head, ih tail⟩

theorem depth_object_le {n : Nat} {fields : List (String × Json)} (each : ∀ field ∈ fields, field.2.depth ≤ n) :
    (object fields).depth ≤ n + 1 := by
  rcases object_ascending fields with ⟨members, built, -⟩
  rw [built, depth]
  exact Nat.succ_le_succ (depthMembers_le fun m member => each m (mem_object built member))

theorem depth_arr_le {n : Nat} {items : List Json} (each : ∀ item ∈ items, item.depth ≤ n) :
    (Json.arr items).depth ≤ n + 1 := by
  rw [depth]
  exact Nat.succ_le_succ (depthItems_le each)

end Json

theorem Json.normalize_isObject {v w : Json} (normal : v.normalize = .ok w) (object : v.isObject = true) :
    w.isObject = true := by
  cases v with
  | obj members =>
      simp only [normalize] at normal
      rcases ok_map.mp normal with ⟨members', -, rfl⟩
      rfl
  | null | bool _ | num _ | str _ | arr _ => cases object

namespace Buffered

open Json Evidence BufferedTrace

theorem threshold_plain (bits : UInt64) : (F64.json bits).Ordered ∧ (F64.json bits).depth = 0 := by
  unfold F64.json
  split
  · exact ⟨trivial, rfl⟩
  · exact ⟨trivial, rfl⟩

theorem BufferedSnapshot.json_shape (s : BufferedSnapshot) : s.json.Ordered ∧ s.json.depth ≤ 2 := by
  constructor
  · apply object_ordered
    simp only [List.forall_mem_cons]
    refine ⟨trivial, trivial, orderedItems_iff.mpr ?_, trivial, fun field absent => absurd absent List.not_mem_nil⟩
    exact List.forall_mem_map.mpr fun bits _ => (threshold_plain bits).1
  · apply depth_object_le
    simp only [List.forall_mem_cons]
    refine ⟨Nat.zero_le _, Nat.zero_le _, depth_arr_le ?_, Nat.zero_le _,
      fun field absent => absurd absent List.not_mem_nil⟩
    exact List.forall_mem_map.mpr fun bits _ => Nat.le_of_eq (threshold_plain bits).2

theorem BufferFile.json_shape (f : BufferFile) : f.json.Ordered ∧ f.json.depth ≤ 1 := by
  constructor
  · apply object_ordered
    simp only [List.forall_mem_cons]
    exact ⟨trivial, trivial, trivial, fun field absent => absurd absent List.not_mem_nil⟩
  · apply depth_object_le
    simp only [List.forall_mem_cons]
    exact ⟨Nat.zero_le _, Nat.zero_le _, Nat.zero_le _, fun field absent => absurd absent List.not_mem_nil⟩

/-- A manifest is within the reader's limit whatever it holds. -/
theorem BufferedManifest.json_shape (m : BufferedManifest) : m.json.Ordered ∧ m.json.depth < recursionLimit := by
  constructor
  · apply object_ordered
    simp only [List.forall_mem_cons]
    refine ⟨trivial, trivial, trivial, trivial, trivial, trivial, trivial, orderedItems_iff.mpr ?_,
      orderedItems_iff.mpr ?_, fun field absent => absurd absent List.not_mem_nil⟩
    · exact List.forall_mem_map.mpr fun s _ => s.json_shape.1
    · exact List.forall_mem_map.mpr fun f _ => f.json_shape.1
  · have small : m.json.depth ≤ 4 := by
      apply depth_object_le
      simp only [List.forall_mem_cons]
      refine ⟨Nat.zero_le _, Nat.zero_le _, Nat.zero_le _, Nat.zero_le _, Nat.zero_le _, Nat.zero_le _,
        Nat.zero_le _, depth_arr_le ?_, ?_, fun field absent => absurd absent List.not_mem_nil⟩
      · exact List.forall_mem_map.mpr fun s _ => s.json_shape.2
      · have shallow : (Json.arr (m.files.map BufferFile.json)).depth ≤ 2 :=
          depth_arr_le (List.forall_mem_map.mpr fun f _ => f.json_shape.2)
        exact Nat.le_succ_of_le shallow
    exact Nat.lt_of_le_of_lt small (by decide)

theorem TracePoint.json_ordered {p : TracePoint} (sorted : p.provisionalMetrics.Ordered) : p.json.Ordered := by
  apply object_ordered
  simp only [List.forall_mem_cons]
  refine ⟨trivial, ?_, sorted, trivial, trivial, fun field absent => absurd absent List.not_mem_nil⟩
  exact ofMap_ordered fun entry _ => trivial

/-! ## Paths -/

theorem snapshotPath_toList (n : Nat) : (snapshotPath n).toList =
    "snapshots/".toList ++ ((toString n).toList ++ "/result.json".toList) := by
  simp only [snapshotPath, String.toList_append, List.append_assoc]

def snapshotParts (n : Nat) : List (List Char) :=
  ["snapshots".toList, (toString n).toList, "result.json".toList]

theorem snapshotPath_parts (n : Nat) : pathParts (snapshotPath n) = snapshotParts n := by
  have text : (snapshotPath n).toList = ['/'].intercalate (snapshotParts n) := by
    rw [snapshotPath_toList]
    simp [snapshotParts, List.intercalate, List.intersperse]
  unfold pathParts
  rw [text]
  apply List.splitOn_intercalate
  · intro part member
    rcases List.mem_cons.mp member with first | member
    · rw [first]
      decide
    rcases List.mem_cons.mp member with second | member
    · rw [second]
      exact JsonLibrary.not_mem_digits (by decide)
    · rw [List.mem_singleton.mp member]
      decide
  · exact List.cons_ne_nil _ _

theorem snapshotPath_characters {n : Nat} {c : Char} (member : c ∈ (snapshotPath n).toList) :
    ¬(c = '\\' ∨ c.toNat = 0) := by
  have fixed : ∀ c, c ∈ "snapshots/".toList ∨ c ∈ "/result.json".toList → ¬(c = '\\' ∨ c.toNat = 0) := by
    intro c member
    have all : (("snapshots/".toList ++ "/result.json".toList).all fun c => !decide (c = '\\' ∨ c.toNat = 0)) =
        true := by decide
    have each := List.all_eq_true.mp all c (List.mem_append.mpr member)
    rw [Bool.not_eq_true', decide_eq_false_iff_not] at each
    exact each
  rw [snapshotPath_toList] at member
  rcases List.mem_append.mp member with first | member
  · exact fixed c (.inl first)
  rcases List.mem_append.mp member with digit | last
  · intro strange
    have plain := JsonLibrary.digit_of_mem digit
    rcases strange with slash | null
    · rw [slash] at plain
      cases plain
    · have low := (Char.isDigit_iff_toNat.mp plain).1
      rw [null] at low
      exact absurd low (by decide)
  · exact fixed c (.inr last)

theorem snapshotParts_plain {n : Nat} {p : List Char} (member : p ∈ snapshotParts n) :
    ¬(p = [] ∨ p = ['.'] ∨ p = ['.', '.'] ∨ ':' ∈ p) := by
  have digits : ∀ q : List Char, '.' ∈ q → (toString n).toList ≠ q := by
    intro q dot same
    exact JsonLibrary.not_mem_digits (by decide) (same ▸ dot)
  have some : (toString n).toList ≠ [] := by
    have spelled : (toString n).toList = Nat.toDigits 10 n := by simp
    rw [spelled]
    exact Nat.toDigits_ne_nil
  rcases List.mem_cons.mp member with first | member
  · rw [first]
    decide
  rcases List.mem_cons.mp member with second | member
  · rw [second, not_or, not_or, not_or]
    exact ⟨some, digits _ (by decide), digits _ (by decide), JsonLibrary.not_mem_digits (by decide)⟩
  · rw [List.mem_singleton.mp member]
    decide

theorem snapshotPath_safe (n : Nat) : safePath (snapshotPath n) = true := by
  have nonempty : snapshotPath n ≠ "" := by
    intro empty
    have text := snapshotPath_toList n
    rw [empty] at text
    cases text
  unfold safePath
  rw [snapshotPath_parts, Bool.and_eq_true, Bool.and_eq_true, Bool.not_eq_true', Bool.not_eq_true']
  refine ⟨⟨decide_eq_true nonempty, List.any_eq_false.mpr fun c member => ?_⟩,
    List.any_eq_false.mpr fun p member => ?_⟩
  · rw [decide_eq_true_eq]
    exact snapshotPath_characters member
  · rw [decide_eq_true_eq]
    exact snapshotParts_plain member

theorem snapshotPath_injective {m n : Nat} (same : snapshotPath m = snapshotPath n) : m = n := by
  have parts := congrArg pathParts same
  rw [snapshotPath_parts, snapshotPath_parts] at parts
  have digits : (toString m).toList = (toString n).toList := (List.cons.inj (List.cons.inj parts).2).1
  exact JsonLibrary.decimal_injective digits

/-- Snapshots lie below `snapshots`, beside the trace and the manifest. -/
theorem snapshotPath_apart (n : Nat) : snapshotPath n ≠ "trace.jsonl" ∧ snapshotPath n ≠ "buffer.json" := by
  have text := snapshotPath_toList n
  constructor
  · intro same
    rw [same] at text
    cases text
  · intro same
    rw [same] at text
    cases text

theorem parent_snapshotPath (n : Nat) :
    parent (snapshotPath n) = some ["snapshots".toList, (toString n).toList] := by
  unfold parent
  rw [components_safe (snapshotPath_safe n), snapshotPath_parts]
  rfl

/-- The directory of a snapshot holds the one file. -/
theorem startsWith_snapshotPath {m n : Nat} :
    startsWithPath ["snapshots".toList, (toString m).toList] (snapshotPath n) = true ↔ m = n := by
  unfold startsWithPath
  rw [components_safe (snapshotPath_safe n), snapshotPath_parts, List.isPrefixOf_iff_prefix]
  constructor
  · intro starts
    rcases starts with ⟨rest, whole⟩
    have digits : (toString m).toList = (toString n).toList := (List.cons.inj (List.cons.inj whole).2).1
    exact JsonLibrary.decimal_injective digits
  · intro same
    rw [same]
    exact ⟨["result.json".toList], rfl⟩

theorem plain_safe : safePath "trace.jsonl" = true ∧ safePath "buffer.json" = true := by decide +kernel

/-! ## Files -/

section Files

variable {sha256 : List UInt8 → Digest} {files : Files} {path : String} {content : List UInt8}

/-- A file is found under its own path. -/
theorem find_mem (safe : ∀ f ∈ files, safePath f.1 = true) (keyed : Keyed Prod.fst files)
    (member : (path, content) ∈ files) : files.find path = some content := by
  have plain := safe _ member
  unfold Files.find
  cases found : List.find? (fun f => samePath f.1 path) files with
  | none =>
      have missed := List.find?_eq_none.mp found _ member
      exact absurd ((samePath_safe plain plain).mpr rfl) missed
  | some f =>
      have inside := List.mem_of_find?_eq_some found
      have same := List.find?_some found
      rw [samePath_safe (safe f inside) plain] at same
      rw [keyed.eq_of_key inside member same]
      rfl

theorem read_mem (safe : ∀ f ∈ files, safePath f.1 = true) (keyed : Keyed Prod.fst files)
    (member : (path, content) ∈ files) : files.read path = .ok content := by
  unfold Files.read
  rw [if_neg (by rw [namesDirectory_safe (safe _ member)]; decide), ok_expect]
  exact find_mem safe keyed member

/-- A list that names each file once with its size and its hash is accepted. -/
theorem declares_ok (safe : ∀ f ∈ files, safePath f.1 = true) (keyed : Keyed Prod.fst files)
    {entries : List BufferFile} (distinct : (entries.map (·.path)).Nodup)
    (listed : ∀ entry ∈ entries, ∃ content, (entry.path, content) ∈ files ∧
      content.length = entry.sizeBytes ∧ (sha256 content).hex = entry.sha256) :
    thread (declare sha256 files) [] entries = .ok (entries.map (·.path)) := by
  have passed := @thread_ok _ _ _ (declare sha256 files)
    (fun done declared => declared = done.map (·.path)) [] entries rfl ?_
  · rcases passed with ⟨declared, run, same⟩
    rw [run, same]
  intro done entry rest declared split held
  rcases listed entry (by rw [split]; exact List.mem_append_right _ List.mem_cons_self) with
    ⟨content, member, size, hash⟩
  have plain : safePath entry.path = true := safe _ member
  refine ⟨declared ++ [entry.path], ?_, by rw [held, List.map_append, List.map_singleton]⟩
  simp only [declare, ok_bind, ok_reject, ok_pure, not_or, Bool.not_eq_false, not_not]
  refine ⟨(), plain, (), ⟨?_, ?_⟩, content, read_mem safe keyed member, (), hash, trivial⟩
  · intro seen
    rcases List.any_eq_true.mp seen with ⟨p, before, same⟩
    rw [held] at before
    rcases List.mem_map.mp before with ⟨earlier, inside, rfl⟩
    have inside' : earlier ∈ entries := by
      rw [split]
      exact List.mem_append_left _ inside
    rcases listed earlier inside' with ⟨_, member', -, -⟩
    rw [samePath_safe plain (safe _ member')] at same
    rw [split, List.map_append, List.map_cons, List.nodup_append] at distinct
    exact distinct.2.2 _ before _ List.mem_cons_self same.symm
  · rw [find_mem safe keyed member, ← size]
    rfl

end Files

/-! ## The trace -/

/-- Complete rows without a newline are the lines of their text. -/
theorem traceLines_rows {rows : List (List UInt8)} (plain : ∀ row ∈ rows, row ≠ [] ∧ (10 : UInt8) ∉ row) :
    traceLines (rows.flatMap (· ++ [10])) = rows := by
  have split : (rows.flatMap (· ++ [10])).splitOn (10 : UInt8) = rows ++ [[]] := by
    unfold List.splitOn
    induction rows with
    | nil => rfl
    | cons row rest ih =>
        rcases List.forall_mem_cons.mp plain with ⟨head, tail⟩
        have whole : row.splitOnP (· == 10) = [row] := by
          apply List.splitOnP_eq_singleton
          intro byte member
          exact beq_eq_false_iff_ne.mpr fun same => head.2 (same ▸ member)
        rw [List.flatMap_cons, List.append_assoc, List.singleton_append,
          List.splitOnP_append_cons _ _ (by decide), whole, ih tail]
        rfl
  unfold traceLines
  rw [split, List.filter_append, List.filter_eq_self.mpr fun row member => decide_eq_true (plain row member).1]
  exact List.append_nil _

/-- A trace of some rows ends with a newline. -/
theorem getLast?_rows {rows : List (List UInt8)} (some : rows ≠ []) :
    (rows.flatMap (· ++ [10])).getLast? = Option.some (10 : UInt8) := by
  rcases List.eq_nil_or_concat' rows with none | ⟨init, last, split⟩
  · exact absurd none some
  · rw [split, List.flatMap_append, List.flatMap_singleton, ← List.append_assoc, List.getLast?_concat]

section Rows

variable {lib : JsonLibrary} {limit : Nat} {p : TracePoint} {row : List UInt8}

/-- The bytes of a row are one line. -/
theorem row_line (documented : lib.Documented) (written : bytes lib p.json = .ok row) :
    row ≠ [] ∧ (10 : UInt8) ∉ row := by
  unfold bytes JsonLibrary.bytes at written
  rw [ok_mapError, ok_map] at written
  rcases written with ⟨w, normal, rfl⟩
  refine ⟨?_, encode_line documented w⟩
  intro empty
  simp only [TracePoint.json, object, Json.normalize] at normal
  rcases ok_map.mp normal with ⟨members, -, rfl⟩
  have size := utf8_ofList_length (lib.text (.obj members))
  rw [JsonLibrary.encode] at empty
  rw [empty, JsonLibrary.text] at size
  rw [List.length_nil, List.cons_append, width_cons] at size
  have brace := Char.utf8Size_pos '{'
  omega

/-- A row is read back where its nesting is below the reader's limit, and only there. -/
theorem row_read (documented : lib.Documented) (sorted : p.provisionalMetrics.Ordered)
    (written : bytes lib p.json = .ok row) :
    if p.json.depth < recursionLimit then
      ∃ value q, lib.fromSlice row = some value ∧ TracePoint.fromJson value.value = some q ∧ p.ReadAs q
    else lib.fromSlice row = none := by
  unfold bytes JsonLibrary.bytes at written
  rw [ok_mapError, ok_map] at written
  rcases written with ⟨w, normal, rfl⟩
  have parsed := fromSlice_bytes documented (TracePoint.json_ordered sorted) normal
  split
  · rename_i shallow
    rw [if_pos shallow] at parsed
    rcases Option.map_eq_some_iff.mp parsed with ⟨value, found, same⟩
    rcases TracePoint.read_json normal with ⟨q, typed, read⟩
    exact ⟨value, q, found, same ▸ typed, read⟩
  · rename_i deep
    rw [if_neg deep] at parsed
    exact Option.map_eq_none_iff.mp parsed

/-- Rows that nest below the limit are all read back. -/
theorem rows_read (documented : lib.Documented) {points : List TracePoint} {rows : List (List UInt8)}
    (encoded : List.Forall₂ (fun p row => bytes lib p.json = .ok row) points rows)
    (sorted : ∀ p ∈ points, p.provisionalMetrics.Ordered)
    (shallow : ∀ p ∈ points, p.json.depth < recursionLimit) :
    ∃ qs, List.Forall₂ TracePoint.ReadAs points qs ∧ List.Forall₂ (fun row q => ∃ value,
      lib.fromSlice row = some value ∧ TracePoint.fromJson value.value = some q) rows qs := by
  induction encoded with
  | nil => exact ⟨[], .nil, .nil⟩
  | cons head _ ih =>
      rcases List.forall_mem_cons.mp shallow with ⟨here, others⟩
      rcases List.forall_mem_cons.mp sorted with ⟨ordered, ordereds⟩
      have one := row_read documented ordered head
      rw [if_pos here] at one
      rcases one with ⟨value, q, parsed, typed, same⟩
      rcases ih ordereds others with ⟨qs, each, texts⟩
      exact ⟨q :: qs, .cons same each, .cons ⟨value, parsed, typed⟩ texts⟩

theorem readRows_written {readPoints : List TracePoint} {rows : List (List UInt8)}
    (each : List.Forall₂ (fun row q => ∃ value, lib.fromSlice row = some value ∧
      TracePoint.fromJson value.value = some q) rows readPoints)
    (bound : readPoints.length ≤ limit) : thread (readRow lib limit) [] rows = .ok readPoints := by
  suffices from_ : ∀ {rows rest : List _} {done : List TracePoint}, List.Forall₂ (fun row q => ∃ value,
      lib.fromSlice row = some value ∧ TracePoint.fromJson value.value = some q) rows rest →
      (done ++ rest).length ≤ limit → thread (readRow lib limit) done rows = .ok (done ++ rest) from
    from_ each bound
  intro rows rest done each
  induction each generalizing done with
  | nil =>
      intro _
      rw [List.append_nil]
      rfl
  | @cons row q rows rest head _ ih =>
      intro bound
      rcases head with ⟨value, parsed, typed⟩
      have room : ¬limit < (done ++ [q]).length := by
        rw [List.length_append, List.length_cons] at bound
        rw [List.length_append, List.length_singleton]
        omega
      simp only [thread, ok_bind, readRow, ok_expect, ok_reject, ok_pure]
      refine ⟨done ++ [q], ⟨value, parsed, q, typed, (), room, rfl⟩, ?_⟩
      rw [ih (by rwa [← List.append_cons]), ← List.append_cons]

end Rows

/-! ## Rows -/

section Trajectory

variable {profile : SelectedBufferedProfile} {points qs : List TracePoint} {p q : TracePoint}

/-- A list related to a split one splits with it. -/
theorem forall₂_split {α β : Type} {R : α → β → Prop} {as : List α} {front rest : List β} {b : β}
    (each : List.Forall₂ R as (front ++ b :: rest)) : ∃ front' a rest', as = front' ++ a :: rest' ∧
      List.Forall₂ R front' front ∧ R a b ∧ List.Forall₂ R rest' rest := by
  have before := List.forall₂_take_append _ _ _ each
  have after := List.forall₂_drop_append _ _ _ each
  cases split : as.drop front.length with
  | nil =>
      rw [split] at after
      cases after
  | cons a rest' =>
      rw [split] at after
      cases after with
      | cons head tail =>
          refine ⟨_, a, rest', ?_, before, head, tail⟩
          rw [← split, List.take_append_drop]

/-- Related lists end with related elements. -/
theorem forall₂_last {α β : Type} {R : α → β → Prop} {as : List α} {bs : List β} {b : β}
    (each : List.Forall₂ R as bs) (last : bs.getLast? = some b) : ∃ a, as.getLast? = some a ∧ R a b := by
  rcases List.getLast?_eq_some_iff.mp last with ⟨front, whole⟩
  rw [whole] at each
  rcases forall₂_split each with ⟨front', a, rest, split, -, one, none⟩
  cases none
  exact ⟨a, by rw [split, List.getLast?_concat], one⟩

/-- The target metric is read back as the same number. -/
theorem TracePoint.ReadAs.metricOf (read : p.ReadAs q) (policy : ProfilePolicy) :
    (metricOf policy p.provisionalMetrics = none ∧ metricOf policy q.provisionalMetrics = none) ∨
      ∃ a b, Buffered.metricOf policy p.provisionalMetrics = some a ∧
        Buffered.metricOf policy q.provisionalMetrics = some b ∧ SameNumber a b := by
  unfold Buffered.metricOf
  cases policy.metric with
  | none => exact .inl ⟨rfl, rfl⟩
  | some name => exact asF64?_normal (normalize_get name read.1)

theorem TracePoint.ReadAs.reachesAt (read : p.ReadAs q) (threshold : UInt64) :
    reachesAt profile threshold q = Buffered.reachesAt profile threshold p := by
  unfold Buffered.reachesAt
  rcases read.metricOf profile.policy with ⟨left, right⟩ | ⟨a, b, left, right, same⟩
  · rw [left, right]
  · rw [left, right]
    simp only [Option.any_some]
    unfold ProfilePolicy.reaches F64.le
    rw [isNaN_of_finite same.left, isNaN_of_finite same.right, same.value]

theorem readAs_indices {ps : List TracePoint} (each : List.Forall₂ TracePoint.ReadAs ps qs) :
    ps.map (·.checkIndex) = qs.map (·.checkIndex) := by
  induction each with
  | nil => rfl
  | cons head _ ih => rw [List.map_cons, List.map_cons, ih, head.2]

theorem Trajectory.init (rows : Trajectory profile (points ++ [q])) : Trajectory profile points := by
  intro before p after split
  have row := rows before p (after ++ [q]) (by rw [split, List.append_assoc, List.cons_append])
  exact ⟨row.1, fun _ => row.2 (List.append_ne_nil_of_right_ne_nil _ (List.cons_ne_nil _ _))⟩

/-- No row is later than the last. -/
theorem Trajectory.times (rows : Trajectory profile points) :
    ∀ last ∈ points.getLast?, ∀ p ∈ points, p.instrumentedTimeNs ≤ last.instrumentedTimeNs := by
  induction points using List.reverseRecOn with
  | nil => exact fun last absent => by cases absent
  | append_singleton init q ih =>
      intro last final p member
      rw [List.getLast?_concat] at final
      rw [← Option.some.inj final]
      rcases List.mem_append.mp member with before | here
      · have some : init ≠ [] := List.ne_nil_of_mem before
        have ending := List.getLast?_eq_some_getLast some
        have continues := (rows init q [] rfl).1
        exact Nat.le_trans (ih rows.init _ ending p before) (continues.later _ ending).2.1
      · rw [List.mem_singleton.mp here]

/-- The last row alone ends the run. -/
theorem flags_read (rows : Trajectory profile points) (each : List.Forall₂ TracePoint.ReadAs points qs)
    {last : TracePoint} (final : points.getLast? = some last) (terminal : last.terminal = true) :
    qs.getLast?.any (·.terminal) = true ∧ qs.dropLast.any (·.terminal) = false := by
  rcases List.getLast?_eq_some_iff.mp final with ⟨init, whole⟩
  have turned := each.flip
  rw [whole] at turned
  rcases forall₂_split turned with ⟨init', q, rest, split, before, read, none⟩
  cases none
  rw [split, List.getLast?_concat, List.dropLast_concat]
  constructor
  · rw [Option.any_some, read.2]
    exact terminal
  · refine List.any_eq_false.mpr fun r member => ?_
    rcases List.getElem_of_mem member with ⟨i, bound, rfl⟩
    have short : i < init.length := before.length_eq ▸ bound
    have read := before.get bound short
    have parts : init.take i ++ init[i] :: init.drop (i + 1) = init := by
      rw [← List.drop_eq_getElem_cons short, List.take_append_drop]
    have row := rows (init.take i) init[i] (init.drop (i + 1) ++ [last])
      (by rw [whole, ← List.cons_append, ← List.append_assoc, parts])
    have goes := row.2 (List.append_ne_nil_of_right_ne_nil _ (List.cons_ne_nil _ _))
    have same : init'[i].terminal = init[i].terminal := by
      have whole := read.2
      simp only [List.get_eq_getElem] at whole
      rw [whole]
    rw [same, goes.running]
    exact Bool.noConfusion

/-- A row that goes on from the rows before it passes every check a row must pass. -/
theorem checkPoint_accepts {total : Nat} {before done : List TracePoint} (continues : Continues profile before p)
    (running : p.terminal = false → Goes profile before p) (bounded : p.instrumentedTimeNs ≤ total)
    (earlier : List.Forall₂ TracePoint.ReadAs before done) (read : p.ReadAs q) :
    checkPoint profile total
        ⟨profile.checkSchedule.nextAfter (done.getLast?.map (·.checkIndex)), done.getLast?⟩ q =
      .ok ⟨profile.checkSchedule.nextAfter (some q.checkIndex), some q⟩ := by
  have indices : before.getLast?.map (·.checkIndex) = done.getLast?.map (·.checkIndex) := by
    rw [← List.getLast?_map, ← List.getLast?_map, readAs_indices earlier]
  have object : q.provisionalMetrics.isObject = true := normalize_isObject read.1 continues.metrics
  have row : q.checkIndex = p.checkIndex ∧ q.work = p.work ∧ q.instrumentedTimeNs = p.instrumentedTimeNs ∧
      q.terminal = p.terminal := by
    rw [read.2]
    exact ⟨rfl, rfl, rfl, rfl⟩
  rcases row with ⟨index, work, time, flag⟩
  simp only [checkPoint, ok_bind, ok_reject, ok_pure]
  rw [← indices, index, time, work, flag]
  refine ⟨(), ?_, (), ?_, (), ?_, (), ?_, trivial⟩
  · simp only [not_or, not_and, not_not, Nat.not_lt, Bool.not_eq_true]
    refine ⟨continues.index, bounded, by rw [object]; exact Bool.noConfusion, ?_, ?_, ?_⟩
    · intro open_
      exact (running open_).scheduled.symm
    · intro _
      refine (Option.any_eq_false _ _).mpr fun next due => ?_
      have bound := continues.due next due
      simpa using bound
    · refine List.any_eq_false.mpr fun entry member => ?_
      have small := continues.work entry member
      simpa using small
  · rw [Bool.not_eq_true]
    refine (Option.any_eq_false _ _).mpr fun r last => ?_
    rcases forall₂_last earlier last with ⟨b, ending, same⟩
    rcases continues.later b ending with ⟨above, after, onward⟩
    rw [same.2]
    simp only [Bool.or_eq_false_iff, decide_eq_false_iff_not, Nat.not_le, Nat.not_lt]
    exact ⟨⟨above, after⟩, onward⟩
  · intro broken
    rcases broken with ⟨metered, infinite⟩
    have target := continues.target metered
    rcases read.metricOf profile.policy with ⟨left, -⟩ | ⟨a, b, left, right, same⟩
    · rw [left] at target
      cases target
    · rw [right] at infinite
      exact infinite same.right
  · unfold checkContinued
    rw [flag]
    cases open_ : p.terminal with
    | true => rfl
    | false =>
        rcases (running open_).early with ⟨active, limit, early⟩
        simp only [Bool.false_eq_true, if_false, ok_bind, ok_mapError, ok_reject, not_or, Nat.not_le,
          Bool.not_eq_true]
        refine ⟨active, limit, time ▸ early, (Option.any_eq_false _ _).mpr fun threshold target => ?_⟩
        rw [read.reachesAt]
        exact (running open_).short threshold target

/-- The rows of a trajectory are accepted as read back. -/
theorem checkPoints_accept {total : Nat} (rows : Trajectory profile points)
    (each : List.Forall₂ TracePoint.ReadAs points qs)
    (ends : ∀ last ∈ points.getLast?, last.terminal = true)
    (times : ∀ p ∈ points, p.instrumentedTimeNs ≤ total) :
    ∃ cursor, thread (checkPoint profile total) ⟨profile.checkSchedule.nextAfter none, none⟩ qs = .ok cursor := by
  have passed := @thread_ok _ _ _ (checkPoint profile total) (fun done cursor => cursor =
    ⟨profile.checkSchedule.nextAfter (done.getLast?.map (·.checkIndex)), done.getLast?⟩)
    ⟨profile.checkSchedule.nextAfter none, none⟩ qs rfl ?_
  · rcases passed with ⟨cursor, run, -⟩
    exact ⟨cursor, run⟩
  intro done q rest cursor split held
  rw [split] at each
  rcases forall₂_split each with ⟨before, p, after, points_, earlier, read, -⟩
  rcases rows before p after points_ with ⟨continues, goes⟩
  have running : p.terminal = false → Goes profile before p := by
    intro open_
    apply goes
    intro none
    rw [none] at points_
    have closed := ends p (by rw [points_, List.getLast?_concat]; rfl)
    rw [closed] at open_
    cases open_
  have bounded := times p (by rw [points_]; simp)
  refine ⟨⟨profile.checkSchedule.nextAfter (some q.checkIndex), some q⟩, ?_, ?_⟩
  · rw [held]
    exact checkPoint_accepts continues running bounded earlier read
  · rw [List.getLast?_concat]
    rfl

end Trajectory

/-! ## Snapshots -/

section Snapshots

variable {profile : SelectedBufferedProfile} {points qs : List TracePoint} {snapshots : List BufferedSnapshot}

/-- A list mapped from another splits with it. -/
theorem map_split {α β : Type} {f : α → β} {as : List α} {front rest : List β} {b : β}
    (split : as.map f = front ++ b :: rest) : ∃ front' a rest', as = front' ++ a :: rest' ∧
      front'.map f = front ∧ f a = b := by
  rcases List.map_eq_append_iff.mp split with ⟨front', others, whole, before, after⟩
  rcases List.map_eq_cons_iff.mp after with ⟨a, rest', same, head, -⟩
  exact ⟨front', a, rest', by rw [whole, same], before, head⟩

/-- What the collector keeps of its snapshots, and what a validator looks at. -/
structure Saved (profile : SelectedBufferedProfile) (points : List TracePoint)
    (snapshots : List BufferedSnapshot) : Prop where
  saves : Saves profile points snapshots
  ordinals : snapshots.map (·.captureOrdinal) = List.range snapshots.length
  increasing : (snapshots.map (·.traceIndex)).Pairwise (· < ·)
  inside : ∀ s ∈ snapshots, s.traceIndex < points.length
  counted : snapshots.length ≤ profile.policy.maxObservations
  last : ∃ s ∈ snapshots.getLast?, s.traceIndex = points.length - 1

theorem Saved.ordinals_unique (saved : Saved profile points snapshots) {a b : BufferedSnapshot}
    (left : a ∈ snapshots) (right : b ∈ snapshots) (same : a.captureOrdinal = b.captureOrdinal) : a = b := by
  have distinct : (snapshots.map (·.captureOrdinal)).Nodup := by
    rw [saved.ordinals]
    exact List.nodup_range
  exact List.inj_on_of_nodup_map distinct left right same

/-- Thresholds that are read back alike are one. -/
theorem readThreshold_unique (valid : profile.policy.Valid) {a b : UInt64}
    (left : a ∈ profile.policy.thresholds) (right : b ∈ profile.policy.thresholds)
    (same : F64.eq (readThreshold a) (readThreshold b) = true) : a = b := by
  have first := readThreshold_eq (valid.thresholds_finite a left)
  have second := readThreshold_eq (valid.thresholds_finite b right)
  apply valid.threshold_unique left right
  simp only [F64.eq, Bool.and_eq_true, decide_eq_true_eq] at same first second ⊢
  exact ⟨⟨first.1.1, second.1.1⟩, first.2.trans (same.2.trans second.2.symm)⟩

theorem reachesAt_stored (valid : profile.policy.Valid) {threshold : UInt64}
    (listed : threshold ∈ profile.policy.thresholds) {p q : TracePoint} (read : p.ReadAs q) :
    reachesAt profile (readThreshold threshold) q = reachesAt profile threshold p := by
  rw [← reachesAt_congr profile (readThreshold_eq (valid.thresholds_finite threshold listed)), read.reachesAt]

/-- The rows that were read back reach a threshold where the rows do. -/
theorem hits_stored (valid : profile.policy.Valid) (each : List.Forall₂ TracePoint.ReadAs points qs)
    {threshold : UInt64} (listed : threshold ∈ profile.policy.thresholds) {i : Nat} :
    (qs[i]?).any (reachesAt profile (readThreshold threshold)) = true ↔ Hits profile points threshold i := by
  unfold Hits
  rw [Option.any_eq_true]
  constructor
  · intro hits
    rcases hits with ⟨q, found, reaches⟩
    rcases List.getElem?_eq_some_iff.mp found with ⟨bound, here⟩
    have short : i < points.length := each.length_eq ▸ bound
    have read : points[i].ReadAs qs[i] := each.get short bound
    refine ⟨points[i], List.getElem?_eq_getElem short, ?_⟩
    rwa [← reachesAt_stored valid listed read, here]
  · intro hits
    rcases hits with ⟨p, found, reaches⟩
    rcases List.getElem?_eq_some_iff.mp found with ⟨short, here⟩
    have bound : i < qs.length := each.length_eq ▸ short
    have read : points[i].ReadAs qs[i] := each.get short bound
    refine ⟨qs[i], List.getElem?_eq_getElem bound, ?_⟩
    rwa [reachesAt_stored valid listed read, here]

/-- The thresholds listed by some snapshots, as they are read back. -/
def storedThresholds (snapshots : List BufferedSnapshot) : List UInt64 :=
  (snapshots.flatMap (·.thresholds)).map readThreshold

theorem mem_storedThresholds {t : UInt64} : t ∈ storedThresholds snapshots ↔
    ∃ s ∈ snapshots, ∃ threshold ∈ s.thresholds, readThreshold threshold = t := by
  unfold storedThresholds
  simp only [List.mem_map, List.mem_flatMap]
  constructor
  · intro member
    rcases member with ⟨threshold, ⟨s, member, names⟩, same⟩
    exact ⟨s, member, threshold, names, same⟩
  · intro member
    rcases member with ⟨s, member, threshold, names, same⟩
    exact ⟨threshold, ⟨s, member, names⟩, same⟩

/-- A threshold of a snapshot is listed nowhere before. -/
theorem listed_once (valid : profile.policy.Valid) (saved : Saved profile points snapshots)
    {before after : List BufferedSnapshot} {s : BufferedSnapshot} (split : snapshots = before ++ s :: after)
    {front rest : List UInt64} {t x : UInt64} (names : s.thresholds = front ++ t :: rest)
    (member : x ∈ storedThresholds before ++ front.map readThreshold) : ¬F64.eq x (readThreshold t) = true := by
  intro alike
  have here : s ∈ snapshots := by
    rw [split]
    exact List.mem_append_right _ List.mem_cons_self
  have listed : t ∈ s.thresholds := by
    rw [names]
    exact List.mem_append_right _ List.mem_cons_self
  have admitted : ∀ {s₀ : BufferedSnapshot}, s₀ ∈ snapshots → ∀ threshold ∈ s₀.thresholds,
      threshold ∈ profile.policy.thresholds := fun member _ names => (saved.saves.policy _ member).subset names
  have policy := admitted here t listed
  rcases List.mem_append.mp member with listed₀ | listed₀
  · -- an earlier snapshot lists a threshold that an earlier row reaches
    rcases mem_storedThresholds.mp listed₀ with ⟨s₀, member₀, u, names₀, rfl⟩
    have inside : s₀ ∈ snapshots := by
      rw [split]
      exact List.mem_append_left _ member₀
    have earlier : s₀.traceIndex < s.traceIndex := by
      have order := saved.increasing
      rw [split, List.map_append, List.map_cons, List.pairwise_append] at order
      exact order.2.2 _ (List.mem_map_of_mem member₀) _ List.mem_cons_self
    have one := readThreshold_unique valid (admitted inside u names₀) policy alike
    rw [one] at names₀
    exact (saved.saves.first s here t listed).2 s₀.traceIndex earlier (saved.saves.first s₀ inside t names₀).1
  · rcases List.mem_map.mp listed₀ with ⟨u, names₀, rfl⟩
    have inside : u ∈ s.thresholds := by
      rw [names]
      exact List.mem_append_left _ names₀
    have one := readThreshold_unique valid (admitted here u inside) policy alike
    have distinct := valid.thresholds_distinct.sublist (saved.saves.policy s here)
    rw [names, List.pairwise_append] at distinct
    have apart := distinct.2.2 u names₀ t List.mem_cons_self
    have finite := valid.thresholds_finite t policy
    rw [one, SameNumber.eq ⟨finite, finite, rfl⟩] at apart
    cases apart

theorem claims_accept (valid : profile.policy.Valid) (saved : Saved profile points snapshots)
    (each : List.Forall₂ TracePoint.ReadAs points qs) {before after : List BufferedSnapshot} {s : BufferedSnapshot}
    (split : snapshots = before ++ s :: after) :
    thread (claimThreshold profile qs s.traceIndex) (storedThresholds before) (s.thresholds.map readThreshold) =
      .ok (storedThresholds (before ++ [s])) := by
  have here : s ∈ snapshots := by
    rw [split]
    exact List.mem_append_right _ List.mem_cons_self
  have passed := @thread_ok _ _ _ (claimThreshold profile qs s.traceIndex)
    (fun done thresholds => thresholds = storedThresholds before ++ done) (storedThresholds before)
    (s.thresholds.map readThreshold) (List.append_nil _).symm ?_
  · rcases passed with ⟨thresholds, run, same⟩
    rw [run, same]
    unfold storedThresholds
    rw [List.flatMap_append, List.map_append, List.flatMap_singleton]
  intro done t' rest thresholds listed held
  rcases map_split listed with ⟨front, t, rest₀, names, mapped, same⟩
  have listed : t ∈ s.thresholds := by
    rw [names]
    exact List.mem_append_right _ List.mem_cons_self
  have policy := (saved.saves.policy s here).subset listed
  rcases saved.saves.first s here t listed with ⟨hit, never⟩
  refine ⟨thresholds ++ [t'], ?_, by rw [held, List.append_assoc]⟩
  simp only [claimThreshold, ok_bind, ok_reject, ok_pure, not_or, Bool.not_eq_false, Bool.not_eq_true]
  rw [← same]
  refine ⟨(), ⟨?_, ?_, ?_, ?_⟩, trivial⟩
  · exact List.any_eq_true.mpr ⟨t, policy, readThreshold_eq (valid.thresholds_finite t policy)⟩
  · refine List.any_eq_false.mpr fun x member => listed_once valid saved split names ?_
    rwa [held, ← mapped] at member
  · exact (hits_stored valid each policy).mpr hit
  · refine List.any_eq_false.mpr fun q member reaches => ?_
    rcases List.mem_take_iff_getElem.mp member with ⟨j, bound, at_⟩
    refine never j (by omega) ((hits_stored valid each policy).mp ?_)
    rw [List.getElem?_eq_getElem (by omega), at_]
    exact reaches

theorem stored_fields (snapshots : List BufferedSnapshot) :
    (snapshots.map BufferedSnapshot.stored).flatMap (·.thresholds) = storedThresholds snapshots ∧
      (snapshots.map BufferedSnapshot.stored).map (·.traceIndex) = snapshots.map (·.traceIndex) := by
  constructor
  · unfold storedThresholds
    rw [List.flatMap_map, List.map_flatMap]
    rfl
  · rw [List.map_map]
    rfl

/-- Every snapshot of the collector is accepted in its place. -/
theorem checkSnapshot_accepts (valid : profile.policy.Valid) (saved : Saved profile points snapshots)
    (each : List.Forall₂ TracePoint.ReadAs points qs) {declared : List String}
    (listed : ∀ s ∈ snapshots, s.manifest ∈ declared) {before after : List BufferedSnapshot} {s : BufferedSnapshot}
    (split : snapshots = before ++ s :: after) :
    checkSnapshot profile declared qs ⟨before.length, before.map (·.traceIndex),
        (before.map (·.traceIndex)).getLast?, storedThresholds before⟩ s.stored =
      .ok ⟨before.length + 1, before.map (·.traceIndex) ++ [s.traceIndex], some s.traceIndex,
        storedThresholds (before ++ [s])⟩ := by
  have here : s ∈ snapshots := by
    rw [split]
    exact List.mem_append_right _ List.mem_cons_self
  have earlier : ∀ i ∈ before.map (·.traceIndex), i < s.traceIndex := by
    intro i member
    have order := saved.increasing
    rw [split, List.map_append, List.map_cons, List.pairwise_append] at order
    exact order.2.2 i member _ List.mem_cons_self
  have ordinal : s.captureOrdinal = before.length := by
    have at_ := congrArg (fun ordinals : List Nat => ordinals[before.length]?) saved.ordinals
    rw [split] at at_
    simpa using at_
  simp only [checkSnapshot, ok_bind, ok_reject, ok_pure, not_or, not_not]
  refine ⟨(), ⟨ordinal, ?_, ?_, ?_, ?_⟩, storedThresholds (before ++ [s]), ?_, rfl⟩
  · rw [← each.length_eq]
    exact Nat.not_le.mpr (saved.inside s here)
  · exact fun seen => absurd (earlier _ seen) (Nat.lt_irrefl _)
  · have plain : samePath s.manifest s.manifest = true := decide_eq_true rfl
    exact List.any_eq_true.mpr ⟨s.manifest, listed s here, plain⟩
  · rw [Bool.not_eq_true]
    refine (Option.any_eq_false _ _).mpr fun i last => ?_
    exact decide_eq_false (Nat.not_le.mpr (earlier i (List.mem_of_getLast? last)))
  · exact claims_accept valid saved each split

theorem checkSnapshots_accept (valid : profile.policy.Valid) (saved : Saved profile points snapshots)
    (each : List.Forall₂ TracePoint.ReadAs points qs) {declared : List String}
    (listed : ∀ s ∈ snapshots, s.manifest ∈ declared) {m : BufferedManifest}
    (stored : m.snapshots = snapshots.map BufferedSnapshot.stored) :
    checkSnapshots profile m declared qs = .ok () := by
  rcases saved.last with ⟨last, final, index⟩
  have nonempty : snapshots ≠ [] := List.ne_nil_of_mem (List.mem_of_getLast? final)
  have length : m.snapshots.length = snapshots.length := by rw [stored, List.length_map]
  have passed := @thread_ok _ _ _ (checkSnapshot profile declared qs) (fun done claims => claims =
    ⟨done.length, done.map (·.traceIndex), (done.map (·.traceIndex)).getLast?, done.flatMap (·.thresholds)⟩)
    ⟨0, [], none, []⟩ m.snapshots rfl ?_
  · rcases passed with ⟨claims, run, whole⟩
    simp only [checkSnapshots, ok_bind, ok_reject, not_or, not_and, not_not, Nat.not_lt, ok_each,
      Bool.not_eq_false]
    refine ⟨(), ⟨?_, length ▸ saved.counted⟩, (), ?_, claims, run, (), ?_, ?_⟩
    · rw [stored]
      simpa using nonempty
    · intro unmetered
      have every := congrArg List.length (saved.saves.whole unmetered)
      rw [List.length_map, List.length_range] at every
      rw [length, every, each.length_eq]
    · rw [whole, stored, (stored_fields snapshots).2, List.getLast?_map, final, ← each.length_eq, ← index]
      rfl
    · intro threshold admitted reached
      rcases List.any_eq_true.mp reached with ⟨q, member, reaches⟩
      rcases List.getElem?_of_mem member with ⟨i, found⟩
      have finite := valid.thresholds_finite threshold admitted
      have hit : Hits profile points threshold i := by
        apply (hits_stored valid each admitted).mp
        rw [found, Option.any_some, ← reachesAt_congr profile (readThreshold_eq finite)]
        exact reaches
      rcases saved.saves.every threshold admitted i hit with ⟨s, inside, names⟩
      rw [whole, stored, (stored_fields snapshots).1]
      refine List.any_eq_true.mpr ⟨readThreshold threshold,
        mem_storedThresholds.mpr ⟨s, inside, threshold, names, rfl⟩, ?_⟩
      have same := readThreshold_eq finite
      simp only [F64.eq, Bool.and_eq_true, decide_eq_true_eq] at same ⊢
      exact ⟨⟨same.1.2, same.1.1⟩, same.2.symm⟩
  · intro done s' rest claims split held
    rw [stored] at split
    rcases map_split split with ⟨before, s, after, whole, mapped, same⟩
    have accepted := checkSnapshot_accepts valid saved each listed whole
    rcases stored_fields before with ⟨names, indices⟩
    refine ⟨_, ?_, rfl⟩
    rw [held, ← mapped, ← same, List.length_map, names, indices, accepted]
    rcases stored_fields (before ++ [s]) with ⟨names', indices'⟩
    rw [List.map_append, List.map_singleton] at names' indices'
    rw [names', indices', List.map_append, List.map_singleton, List.getLast?_concat, List.length_append,
      List.length_map, List.length_singleton]

end Snapshots

/-! ## The stop reason -/

theorem checkReason_accepts {profile : SelectedBufferedProfile} {points qs : List TracePoint} {last q : TracePoint}
    {m m₀ : BufferedManifest} (active : ∃ limit, profile.policy.activeTimeNs = .ok limit)
    (borne : Substantiated profile m₀ points last) (reason : m.stopReason = m₀.stopReason)
    (count : m.snapshots.length = m₀.snapshots.length) (length : qs.length = points.length) (read : last.ReadAs q) :
    checkReason profile m qs q = .ok () := by
  unfold checkReason
  unfold Substantiated at borne
  rw [reason]
  cases kind : m₀.stopReason with
  | targetReached =>
      rw [kind] at borne
      rcases borne with ⟨threshold, target, reaches⟩
      simp only [ok_reject, not_not]
      refine (Option.any_eq_true _ _).mpr ⟨threshold, target, ?_⟩
      rw [read.reachesAt]
      exact reaches
  | fixedCount =>
      rw [kind] at borne
      rcases borne with ⟨unmetered, full⟩
      simp only [ok_reject, not_or, not_not, unmetered, count]
      exact ⟨Bool.noConfusion, full⟩
  | traceLimit =>
      rw [kind] at borne
      simp only [ok_reject, not_not, length]
      exact borne
  | observationLimit =>
      rw [kind] at borne
      simp only [ok_reject, not_not, count]
      exact borne
  | activeTimeLimit =>
      rw [kind] at borne
      rcases active with ⟨limit, parsed⟩
      simp only [ok_bind, ok_mapError, ok_reject, Nat.not_lt]
      refine ⟨limit, parsed, ?_⟩
      rw [read.2]
      exact borne limit parsed
  | byteLimit | implementationStopped => rfl

end Buffered

end Metewand
