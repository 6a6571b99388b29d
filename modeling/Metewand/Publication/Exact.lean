import Metewand.Publication.Directory
import Metewand.Core.Spelling
import Metewand.Lib.Uri

/-!
# What a marker says of a directory

The inventory of a directory succeeds exactly when only regular files and nonempty directories
lie below it under portable paths, and then lists the files (`inventory_ok`).  With the same
marker a second directory is accepted exactly when it holds the same files in the same shape
(`verify_exact`), and two accepted directories have the same contents exactly when they hold
the same files (`sameContents_iff`).
-/

namespace Metewand.Publication

open Lib Lib.Check Evidence

/-! ## Shapes -/

mutual

/-- Only regular files, and directories that are not empty. -/
def Solid : Node → Prop
  | .directory children => children ≠ [] ∧ ChildrenSolid children
  | .file _ _ => True
  | .symlink _ | .unsupported => False

def ChildrenSolid : List (String × Node) → Prop
  | [] => True
  | (_, node) :: rest => Solid node ∧ ChildrenSolid rest

end

mutual

/-- A directory lists distinct names. -/
def Listed : Node → Prop
  | .directory children => Keyed Prod.fst children ∧ ChildrenListed children
  | _ => True

def ChildrenListed : List (String × Node) → Prop
  | [] => True
  | (name, node) :: rest => (name ≠ "" ∧ '/' ∉ name.toList) ∧ Listed node ∧ ChildrenListed rest

end

/-- A directory without symbolic links, special files and empty subdirectories. -/
def SolidRoot (root : Node) : Prop := ∃ children, root = .directory children ∧ ChildrenSolid children

/-- What `checkPath` lets pass. -/
structure Portable (path : String) : Prop where
  separators : '\\' ∉ path.toList
  terminators : Char.ofNat 0 ∉ path.toList
  valid : validRepositoryPath path = true

theorem checkPath_ok {path : String} {u : Unit} : checkPath path = .ok u ↔ Portable path := by
  simp only [checkPath, ok_bind, ok_reject, not_or, Bool.not_eq_false]
  constructor
  · rintro ⟨-, ⟨separators, terminators⟩, valid⟩
    exact ⟨separators, terminators, valid⟩
  · rintro ⟨separators, terminators, valid⟩
    exact ⟨(), ⟨separators, terminators⟩, valid⟩

theorem validRepositoryPath_iff {path : String} : validRepositoryPath path = true ↔
    path ≠ "" ∧ '\\' ∉ path.toList ∧
      ∀ component ∈ path.toList.splitOn '/', component ≠ [] ∧ component ≠ ['.'] ∧ component ≠ ['.', '.'] := by
  simp only [validRepositoryPath, Bool.and_eq_true, decide_eq_true_eq, Bool.not_eq_true',
    List.all_eq_true]
  constructor
  · rintro ⟨⟨⟨⟨named, -⟩, -⟩, plain⟩, components⟩
    exact ⟨named, plain, components⟩
  · rintro ⟨named, plain, components⟩
    refine ⟨⟨⟨⟨named, ?_⟩, ?_⟩, plain⟩, components⟩
    · refine (Option.any_eq_false _ _).mpr fun c first => ?_
      obtain ⟨rest, text⟩ := List.head?_eq_some_iff.mp first
      rw [text] at plain components
      have apart : ¬ (c = '/' ∨ c = '\\') := by
        rintro (rfl | rfl)
        · have empty : [] ∈ ([] ++ '/' :: rest).splitOn '/' := by
            rw [Uri.splitOn_slash, Uri.splitOn_plain List.not_mem_nil]
            exact List.mem_append_left _ (List.mem_singleton_self _)
          exact (components [] empty).1 rfl
        · exact plain List.mem_cons_self
      simpa using apart
    · intro last
      obtain ⟨before, text⟩ := List.getLast?_eq_some_iff.mp last
      rw [text] at components
      have empty : [] ∈ (before ++ '/' :: []).splitOn '/' := by
        rw [Uri.splitOn_slash, Uri.splitOn_plain List.not_mem_nil]
        exact List.mem_append_right _ (List.mem_singleton_self _)
      exact (components [] empty).1 rfl

/-- The directory of a portable path is portable. -/
theorem Portable.parent {path directory : String} {below : List Char} (portable : Portable path)
    (text : path.toList = directory.toList ++ '/' :: below) (named : directory ≠ "") :
    Portable directory := by
  obtain ⟨separators, terminators, valid⟩ := portable
  have components := (validRepositoryPath_iff.mp valid).2.2
  rw [text] at separators terminators components
  have plain : '\\' ∉ directory.toList := fun member => separators (List.mem_append_left _ member)
  refine ⟨plain, fun member => terminators (List.mem_append_left _ member), ?_⟩
  refine validRepositoryPath_iff.mpr ⟨named, plain, fun component member => components component ?_⟩
  rw [Uri.splitOn_slash]
  exact List.mem_append_left _ member

theorem not_portable_empty : ¬ Portable "" := fun portable =>
  (validRepositoryPath_iff.mp portable.valid).1 rfl

/-! ## The inventory -/

section Inventory

variable {sha256 : List UInt8 → Digest}

/-- What the inventory records of a file. -/
def recorded (sha256 : List UInt8 → Digest) (f : String × List UInt8) : FileEntry :=
  fileEntry sha256 f.1 f.2

mutual

theorem walk_ok {relative : String} (named : relative ≠ "") :
    ∀ {node : Node} {found : List FileEntry}, walk sha256 relative node = .ok found ↔
      Solid node ∧ (∀ e ∈ node.entries relative, Portable e.path) ∧
        found = ((regular ⟨relative, node.entry⟩).toList ++
          (node.entries relative).filterMap regular).map (recorded sha256)
  | .directory children, found => by
      simp only [walk, ok_bind, ok_reject, ok_pure, walkChildren_ok, Solid, Node.entries]
      constructor
      · rintro ⟨_, ⟨solid, portable, rfl⟩, _, some, rfl⟩
        refine ⟨⟨fun empty => some ⟨by rw [empty]; rfl, named⟩, solid⟩, portable, rfl⟩
      · rintro ⟨⟨some, solid⟩, portable, rfl⟩
        exact ⟨_, ⟨solid, portable, rfl⟩, (), fun empty => some (List.isEmpty_iff.mp empty.1), rfl⟩
  | .file content _, found => by
      simp only [walk, Solid, Node.entries, List.not_mem_nil, false_implies, implies_true, true_and,
        List.filterMap_nil, List.append_nil]
      constructor
      · intro same
        cases same
        rfl
      · rintro rfl
        rfl
  | .symlink _, found | .unsupported, found => by
      refine iff_of_false ?_ fun held => held.1
      intro same
      cases same

theorem walkChildren_ok {relative : String} :
    ∀ {children : List (String × Node)} {found : List FileEntry},
      walkChildren sha256 relative children = .ok found ↔
        ChildrenSolid children ∧ (∀ e ∈ childEntries relative children, Portable e.path) ∧
          found = ((childEntries relative children).filterMap regular).map (recorded sha256)
  | [], found => by
      simp only [walkChildren, ChildrenSolid, childEntries, List.not_mem_nil, false_implies, implies_true,
        true_and, List.filterMap_nil, List.map_nil, Except.ok.injEq]
      exact eq_comm
  | (name, node) :: rest, found => by
      simp only [walkChildren, ok_bind, ok_pure, checkPath_ok, walkChildren_ok, ChildrenSolid]
      constructor
      · rintro ⟨_, portable, here, walked, _, ⟨solid, portables, rfl⟩, rfl⟩
        have named : join relative name ≠ "" := fun empty => not_portable_empty (empty ▸ portable)
        obtain ⟨solid', portables', rfl⟩ := (walk_ok named).mp walked
        refine ⟨⟨solid', solid⟩, fun e member => ?_, ?_⟩
        · rcases List.mem_append.mp member with here | later
          · rcases List.mem_cons.mp here with rfl | below
            · exact portable
            · exact portables' e below
          · exact portables e later
        · rw [childEntries, ← List.map_append, List.filterMap_append, List.filterMap_cons]
          cases regular ⟨join relative name, node.entry⟩ <;> rfl
      · rintro ⟨⟨solid', solid⟩, portables, rfl⟩
        have portable : Portable (join relative name) :=
          portables ⟨join relative name, node.entry⟩ (List.mem_append_left _ List.mem_cons_self)
        have named : join relative name ≠ "" := fun empty => not_portable_empty (empty ▸ portable)
        refine ⟨(), portable, _, (walk_ok named).mpr ⟨solid', fun e below => ?_, rfl⟩, _,
          ⟨solid, fun e later => ?_, rfl⟩, ?_⟩
        · exact portables e (List.mem_append_left _ (List.mem_cons_of_mem _ below))
        · exact portables e (List.mem_append_right _ later)
        · rw [childEntries, ← List.map_append, List.filterMap_append, List.filterMap_cons]
          cases regular ⟨join relative name, node.entry⟩ <;> rfl

end

/-- The inventory succeeds on a solid directory with portable paths, and lists its files. -/
theorem inventory_ok {root : Node} {m : OrderedMap String FileEntry} :
    inventory sha256 root = .ok m ↔ SolidRoot root ∧ (∀ e ∈ root.entries "", Portable e.path) ∧
      m = .ofRows FileEntry.path ((files root).map (recorded sha256)) := by
  unfold SolidRoot files
  cases root with
  | directory children =>
      simp only [inventory, ok_bind, ok_reject, ok_pure, walk, walkChildren_ok, Node.entries, Node.entry]
      constructor
      · rintro ⟨_, -, _, ⟨_, ⟨solid, portable, rfl⟩, _, -, rfl⟩, rfl⟩
        exact ⟨⟨children, rfl, solid⟩, portable, rfl⟩
      · rintro ⟨⟨_, same, solid⟩, portable, rfl⟩
        cases same
        exact ⟨(), by simp, _, ⟨_, ⟨solid, portable, rfl⟩, (), fun root => root.2 rfl, rfl⟩, rfl⟩
  | file _ _ | symlink _ | unsupported =>
      refine iff_of_false (fun same => by cases same) fun held => ?_
      obtain ⟨⟨_, same, -⟩, -⟩ := held
      cases same

/-! ## The files of a solid directory -/

theorem Solid.entry {node : Node} (solid : Solid node) :
    (∃ content mode, node.entry = .file content mode) ∨ node.entry = .directory := by
  cases node with
  | directory _ => exact .inr rfl
  | file content mode => exact .inl ⟨content, mode, rfl⟩
  | symlink _ | unsupported => exact solid.elim

mutual

/-- Somewhere below a directory that is not empty there is a file. -/
theorem exists_file {relative : String} (named : relative ≠ "") :
    ∀ {node : Node}, Solid node → node.entry = .directory → ∃ path content mode below,
      (⟨path, .file content mode⟩ : TreeEntry) ∈ node.entries relative ∧
        path.toList = relative.toList ++ '/' :: below
  | .directory _, solid, _ => exists_file_child named solid.1 solid.2
  | .file _ _, _, kind | .symlink _, _, kind | .unsupported, _, kind => by cases kind

theorem exists_file_child {relative : String} (named : relative ≠ "") :
    ∀ {children : List (String × Node)}, children ≠ [] → ChildrenSolid children →
      ∃ path content mode below, (⟨path, .file content mode⟩ : TreeEntry) ∈ childEntries relative children ∧
        path.toList = relative.toList ++ '/' :: below
  | [], nonempty, _ => absurd rfl nonempty
  | (name, node) :: rest, _, solid => by
      have start : (join relative name).toList = relative.toList ++ '/' :: name.toList := by
        rw [join_toList, childPrefix, if_neg named, List.append_assoc, List.singleton_append]
      have named' : join relative name ≠ "" := by
        intro empty
        rw [empty] at start
        simp at start
      rcases solid.1.entry with ⟨content, mode, kind⟩ | kind
      · refine ⟨join relative name, content, mode, name.toList, ?_, start⟩
        rw [← kind]
        exact List.mem_append_left _ List.mem_cons_self
      · obtain ⟨path, content, mode, below, member, text⟩ := exists_file named' solid.1 kind
        refine ⟨path, content, mode, name.toList ++ '/' :: below,
          List.mem_append_left _ (List.mem_cons_of_mem _ member), ?_⟩
        rw [text, start, List.append_assoc, List.cons_append]

end

/-- An entry is a file, or a directory above a file. -/
def AboveFile (entries : List TreeEntry) (e : TreeEntry) : Prop :=
  (∃ content mode, e.entry = .file content mode) ∨
    e.path ≠ "" ∧ ∃ path content mode below, (⟨path, .file content mode⟩ : TreeEntry) ∈ entries ∧
      path.toList = e.path.toList ++ '/' :: below

theorem AboveFile.mono {entries entries' : List TreeEntry} {e : TreeEntry}
    (above : AboveFile entries e) (sub : ∀ f ∈ entries, f ∈ entries') : AboveFile entries' e := by
  rcases above with file | ⟨named, path, content, mode, below, member, text⟩
  · exact .inl file
  · exact .inr ⟨named, path, content, mode, below, sub _ member, text⟩

mutual

theorem entries_aboveFile {relative : String} (named : relative ≠ "") :
    ∀ {node : Node}, Solid node → Listed node → ∀ e ∈ node.entries relative,
      AboveFile (node.entries relative) e
  | .directory _, solid, listed, e, member => childEntries_aboveFile solid.2 listed.2 e member
  | .file _ _, _, _, _, member => absurd member List.not_mem_nil

theorem childEntries_aboveFile {relative : String} :
    ∀ {children : List (String × Node)}, ChildrenSolid children → ChildrenListed children →
      ∀ e ∈ childEntries relative children, AboveFile (childEntries relative children) e
  | [], _, _, _, member => absurd member List.not_mem_nil
  | (name, node) :: rest, solid, listed, e, member => by
      have named : join relative name ≠ "" := join_ne_empty listed.1.1
      rcases List.mem_append.mp member with here | later
      · rcases List.mem_cons.mp here with rfl | below
        · rcases solid.1.entry with file | kind
          · exact .inl file
          · obtain ⟨path, content, mode, below, inside, text⟩ := exists_file named solid.1 kind
            exact .inr ⟨named, path, content, mode, below,
              List.mem_append_left _ (List.mem_cons_of_mem _ inside), text⟩
        · exact (entries_aboveFile named solid.1 listed.2.1 e below).mono fun f inside =>
            List.mem_append_left _ (List.mem_cons_of_mem _ inside)
      · exact (childEntries_aboveFile solid.2 listed.2.2 e later).mono fun f inside =>
          List.mem_append_right _ inside

end

theorem mem_files {root : Node} {f : String × List UInt8} :
    f ∈ files root ↔ ∃ mode, (⟨f.1, .file f.2 mode⟩ : TreeEntry) ∈ root.entries "" := by
  unfold files
  rw [List.mem_filterMap]
  constructor
  · rintro ⟨⟨path, entry⟩, member, kind⟩
    unfold regular at kind
    cases entry with
    | file content mode =>
        cases kind
        exact ⟨mode, member⟩
    | directory | symlink _ | unsupported => cases kind
  · rintro ⟨mode, member⟩
    exact ⟨_, member, rfl⟩

/-- In a solid directory the paths of the files decide. -/
theorem portable_of_files {root : Node} (solid : SolidRoot root) (listed : Listed root)
    (portable : ∀ f ∈ files root, Portable f.1) : ∀ e ∈ root.entries "", Portable e.path := by
  obtain ⟨children, rfl, solid⟩ := solid
  intro e member
  have found := childEntries_aboveFile solid listed.2 e member
  obtain ⟨path, entry⟩ := e
  rcases found with ⟨content, mode, kind⟩ | ⟨named, file, content, mode, below, inside, text⟩
  · cases kind
    exact portable (path, content) (mem_files.mpr ⟨mode, member⟩)
  · exact (portable (file, content) (mem_files.mpr ⟨mode, inside⟩)).parent text named

mutual

theorem wellFormed_of_portable {relative : String} : ∀ {node : Node}, Solid node → Listed node →
    (∀ e ∈ node.entries relative, Portable e.path) → node.WellFormed
  | .directory _, solid, listed, portable =>
      ⟨listed.1, childrenWellFormed_of_portable solid.2 listed.2 portable⟩
  | .file _ _, _, _, _ => trivial

theorem childrenWellFormed_of_portable {relative : String} : ∀ {children : List (String × Node)},
    ChildrenSolid children → ChildrenListed children →
      (∀ e ∈ childEntries relative children, Portable e.path) → ChildrenWellFormed children
  | [], _, _, _ => trivial
  | (name, node) :: rest, solid, listed, portable => by
      have here := (portable ⟨join relative name, node.entry⟩ (List.mem_append_left _ List.mem_cons_self)).separators
      rw [join_toList] at here
      refine ⟨⟨listed.1.1, listed.1.2, fun member => here (List.mem_append_right _ member)⟩, ?_, ?_⟩
      · exact wellFormed_of_portable solid.1 listed.2.1 fun e below =>
          portable e (List.mem_append_left _ (List.mem_cons_of_mem _ below))
      · exact childrenWellFormed_of_portable solid.2 listed.2.2 fun e later =>
          portable e (List.mem_append_right _ later)

end

/-- No two files of a directory with an inventory have one path. -/
theorem files_keyed {root : Node} (solid : SolidRoot root) (listed : Listed root)
    (portable : ∀ e ∈ root.entries "", Portable e.path) : Keyed Prod.fst (files root) := by
  have names : ∀ es : List TreeEntry,
      ((es.filterMap regular).map Prod.fst).Sublist (es.map (·.path)) := by
    intro es
    induction es with
    | nil => exact .slnil
    | cons e rest ih =>
        rw [List.filterMap_cons, List.map_cons]
        obtain ⟨path, entry⟩ := e
        cases entry with
        | file content mode => exact ih.cons_cons _
        | directory | symlink _ | unsupported => exact ih.cons _
  obtain ⟨children, rfl, solid⟩ := solid
  have well : (Node.directory children).WellFormed :=
    ⟨listed.1, childrenWellFormed_of_portable solid listed.2 portable⟩
  exact (names _).nodup (entries_keyed well)

/-! ## What the inventory maps -/

/-- A directory that has an inventory. -/
structure Readable (root : Node) : Prop where
  listed : Listed root
  solid : SolidRoot root
  portable : ∀ e ∈ root.entries "", Portable e.path

/-- The inventory of a readable directory. -/
def listing (sha256 : List UInt8 → Digest) (root : Node) : OrderedMap String FileEntry :=
  .ofRows FileEntry.path ((files root).map (recorded sha256))

variable {root : Node}

theorem Readable.inventory (readable : Readable root) :
    inventory sha256 root = .ok (listing sha256 root) :=
  inventory_ok.mpr ⟨readable.solid, readable.portable, rfl⟩

theorem readable_of_inventory (listed : Listed root) {m : OrderedMap String FileEntry}
    (found : Publication.inventory sha256 root = .ok m) : Readable root ∧ m = listing sha256 root := by
  obtain ⟨solid, portable, rfl⟩ := inventory_ok.mp found
  exact ⟨⟨listed, solid, portable⟩, rfl⟩

theorem Readable.keyed (readable : Readable root) : Keyed Prod.fst (files root) :=
  files_keyed readable.solid readable.listed readable.portable

theorem Readable.get_listing (readable : Readable root) {path : String} {e : FileEntry} :
    (listing sha256 root).get path = some e ↔
      ∃ content, (path, content) ∈ files root ∧ e = fileEntry sha256 path content := by
  have distinct : (((files root).map (recorded sha256)).map FileEntry.path).Nodup := by
    rw [List.map_map]
    exact readable.keyed
  unfold listing
  rw [OrderedMap.get_ofRows distinct]
  constructor
  · rintro ⟨member, rfl⟩
    obtain ⟨f, inside, rfl⟩ := List.mem_map.mp member
    exact ⟨f.2, inside, rfl⟩
  · rintro ⟨content, inside, rfl⟩
    exact ⟨List.mem_map.mpr ⟨(path, content), inside, rfl⟩, rfl⟩

theorem Readable.named (readable : Readable root) {path : String} {e : FileEntry}
    (found : (listing sha256 root).get path = some e) : e.path = path := by
  obtain ⟨content, -, rfl⟩ := readable.get_listing.mp found
  rfl

theorem Readable.readFile (readable : Readable root) {path : String} {content : List UInt8} :
    readFile root path = some content ↔ (path, content) ∈ files root := by
  unfold Publication.readFile
  rw [Option.map_eq_some_iff]
  constructor
  · rintro ⟨f, found, rfl⟩
    have same := List.find?_some found
    rw [decide_eq_true_eq] at same
    rw [← same]
    exact List.mem_of_find?_eq_some found
  · intro member
    exact ⟨_, readable.keyed.find_of_mem member, rfl⟩

/-! ## Entries of the directory itself -/

theorem childEntries_of_mem {relative : String} {c : String × Node} :
    ∀ {children : List (String × Node)}, c ∈ children →
      (⟨join relative c.1, c.2.entry⟩ : TreeEntry) ∈ childEntries relative children
  | (name, node) :: rest, member => by
      rcases List.mem_cons.mp member with rfl | later
      · exact List.mem_append_left _ List.mem_cons_self
      · exact List.mem_append_right _ (childEntries_of_mem later)

theorem directory_of_child {name : String} {node : Node} (found : child name root = some node) :
    ∃ children, root = .directory children ∧ lookupEntry name children = some node := by
  cases root with
  | directory children => exact ⟨children, rfl, found⟩
  | file _ _ | symlink _ | unsupported => cases found

theorem mem_files_of_child {name : String} {data : List UInt8} {mode : Bool}
    (found : child name root = some (.file data mode)) : (name, data) ∈ files root := by
  obtain ⟨children, rfl, inside⟩ := directory_of_child found
  have plain : join "" name = name := if_pos rfl
  have entry := @childEntries_of_mem "" _ _ (mem_of_lookup inside)
  rw [plain] at entry
  exact mem_files.mpr ⟨mode, entry⟩

/-- A file whose path has no slash is an entry of the directory itself. -/
theorem child_of_mem_files (readable : Readable root) {name : String} (plain : '/' ∉ name.toList)
    {data : List UInt8} (member : (name, data) ∈ files root) :
    ∃ mode, child name root = some (.file data mode) := by
  obtain ⟨children, rfl, solid⟩ := readable.solid
  have well := childrenWellFormed_of_portable solid readable.listed.2 readable.portable
  obtain ⟨mode, entry⟩ := mem_files.mp member
  obtain ⟨c, inside, here | below⟩ := childEntries_path entry
  · have joined : join "" c.1 = c.1 := if_pos rfl
    rw [joined] at here
    obtain ⟨name', node⟩ := c
    cases node with
    | file data' mode' =>
        cases here
        obtain ⟨other, found⟩ := exists_lookup inside
        have same := readable.listed.1.eq_of_key (mem_of_lookup found) inside rfl
        cases same
        exact ⟨mode, found⟩
    | directory _ | symlink _ | unsupported => cases here
  · obtain ⟨⟨named, -, -⟩, wellBelow⟩ := childrenWellFormed_of_mem well inside
    obtain ⟨rest, text⟩ := entries_path (join_ne_empty named) wellBelow _ below
    exact absurd (text ▸ List.mem_append_right _ List.mem_cons_self) plain

/-! ## The marker -/

section Marker

variable {lib : JsonLibrary} {schema : Json → Bool} {prepared directory : Node}

theorem verify_ok {u : Unit} : verifyFinalizedDirectory sha256 lib schema root = .ok u ↔
    ∃ marker m, readMarker lib schema root = .ok marker ∧ Publication.inventory sha256 root = .ok m ∧
      marker = (m.erase manifestName).values := by
  simp only [verifyFinalizedDirectory, ok_bind, ok_reject, not_not]
  constructor
  · rintro ⟨marker, read, m, found, lists⟩
    exact ⟨marker, m, read, found, lists⟩
  · rintro ⟨marker, m, read, found, lists⟩
    exact ⟨marker, read, m, found, lists⟩

/-- The marker is read from the bytes of its file. -/
theorem readMarker_congr {data : List UInt8} {mode mode' : Bool}
    (marker : child manifestName prepared = some (.file data mode))
    (marker' : child manifestName directory = some (.file data mode')) :
    readMarker lib schema prepared = readMarker lib schema directory := by
  obtain ⟨children, rfl, -⟩ := directory_of_child marker
  obtain ⟨children', rfl, -⟩ := directory_of_child marker'
  unfold readMarker
  rw [marker, marker']
  rfl

theorem child_of_readMarker {found : List FileEntry} (read : readMarker lib schema root = .ok found) :
    ∃ data mode, child manifestName root = some (.file data mode) := by
  simp only [readMarker, ok_bind, ok_expect] at read
  obtain ⟨-, -, node, inside, read⟩ := read
  cases node with
  | file data mode => exact ⟨data, mode, inside⟩
  | directory _ | symlink _ | unsupported => cases read

/-- A second directory of the same shape: the same files, and nothing but files and directories
that hold some. -/
structure Matches (prepared directory : Node) : Prop where
  solid : SolidRoot directory
  files : ∀ f, f ∈ files directory ↔ f ∈ files prepared

theorem Matches.readable (same : Matches prepared directory) (readable : Readable prepared)
    (listed : Listed directory) : Readable directory := by
  refine ⟨listed, same.solid, portable_of_files same.solid listed fun f member => ?_⟩
  obtain ⟨mode, entry⟩ := mem_files.mp ((same.files f).mp member)
  exact readable.portable _ entry

theorem Matches.listing (same : Matches prepared directory) (readable : Readable prepared)
    (readable' : Readable directory) : listing sha256 directory = listing sha256 prepared := by
  refine OrderedMap.ext_get fun path => Option.ext fun e => ?_
  rw [readable'.get_listing, readable.get_listing]
  simp only [same.files]

theorem manifestName_plain : '/' ∉ manifestName.toList := by decide

/-- The same files are accepted, whatever hashes collide. -/
theorem Matches.verify (same : Matches prepared directory) (listed : Listed prepared)
    (listed' : Listed directory) (accepted : verifyFinalizedDirectory sha256 lib schema prepared = .ok ()) :
    verifyFinalizedDirectory sha256 lib schema directory = .ok () := by
  obtain ⟨marker, m, read, found, lists⟩ := verify_ok.mp accepted
  obtain ⟨readable, rfl⟩ := readable_of_inventory listed found
  have readable' := same.readable readable listed'
  obtain ⟨data, mode, own⟩ := child_of_readMarker read
  obtain ⟨mode', own'⟩ := child_of_mem_files readable' manifestName_plain
    ((same.files _).mpr (mem_files_of_child own))
  refine verify_ok.mpr ⟨marker, _, readMarker_congr own own' ▸ read, readable'.inventory, ?_⟩
  rw [same.listing readable readable']
  exact lists

/-- An accepted directory with the same marker has the same files where no hashes collide. -/
theorem matches_of_verify (listed : Listed prepared) (listed' : Listed directory)
    (accepted : verifyFinalizedDirectory sha256 lib schema prepared = .ok ())
    {data : List UInt8} {mode mode' : Bool}
    (marker : child manifestName prepared = some (.file data mode))
    (marker' : child manifestName directory = some (.file data mode'))
    (injective : ∀ f ∈ files prepared, ∀ g ∈ files directory, sha256 f.2 = sha256 g.2 → f.2 = g.2)
    (accepted' : verifyFinalizedDirectory sha256 lib schema directory = .ok ()) :
    Matches prepared directory := by
  obtain ⟨found, m, read, inventoried, lists⟩ := verify_ok.mp accepted
  obtain ⟨found', m', read', inventoried', lists'⟩ := verify_ok.mp accepted'
  obtain ⟨readable, rfl⟩ := readable_of_inventory listed inventoried
  obtain ⟨readable', rfl⟩ := readable_of_inventory listed' inventoried'
  have same : found = found' := by
    rw [readMarker_congr marker marker', read'] at read
    exact (Except.ok.inj read).symm
  have maps : (Publication.listing sha256 prepared).erase manifestName =
      (Publication.listing sha256 directory).erase manifestName := by
    have named : ∀ {a : Node}, Readable a → ∀ k v,
        ((Publication.listing sha256 a).erase manifestName).get k = some v → v.path = k := by
      intro a first k v inside
      rw [OrderedMap.get_erase] at inside
      split at inside
      · cases inside
      · exact first.named inside
    exact OrderedMap.ext_values (named readable) (named readable') (lists.symm.trans (same.trans lists'))
  -- besides the marker, an entry of one inventory is an entry of the other
  have moves : ∀ {a b : Node}, Readable a → Readable b → (∀ f ∈ files a, ∀ g ∈ files b,
      sha256 f.2 = sha256 g.2 → f.2 = g.2) → (Publication.listing sha256 a).erase manifestName =
        (Publication.listing sha256 b).erase manifestName → ∀ f ∈ files a, f.1 ≠ manifestName → f ∈ files b := by
    intro a b first second injective equal f member other
    have mine : ((Publication.listing sha256 a).erase manifestName).get f.1 =
        some (fileEntry sha256 f.1 f.2) := by
      rw [OrderedMap.get_erase, if_neg other]
      exact first.get_listing.mpr ⟨f.2, member, rfl⟩
    rw [equal, OrderedMap.get_erase, if_neg other] at mine
    obtain ⟨content, inside, entry⟩ := second.get_listing.mp mine
    have hashes : (sha256 f.2).hex = (sha256 content).hex := congrArg FileEntry.sha256 entry
    have digests : sha256 f.2 = sha256 content := by
      have read := (sha256 f.2).parse_hex
      rw [hashes, (sha256 content).parse_hex] at read
      exact (Option.some.inj read).symm
    have contents : f.2 = content := injective f member (f.1, content) inside digests
    rw [← contents] at inside
    exact inside
  have own := mem_files_of_child marker
  have own' := mem_files_of_child marker'
  refine ⟨readable'.solid, fun f => ⟨fun member => ?_, fun member => ?_⟩⟩
  · by_cases here : f.1 = manifestName
    · rw [readable'.keyed.eq_of_key member own' here]
      exact own
    · exact moves readable' readable (fun g inside h inside' equal =>
        (injective h inside' g inside equal.symm).symm) maps.symm f member here
  · by_cases here : f.1 = manifestName
    · rw [readable.keyed.eq_of_key member own here]
      exact own'
    · exact moves readable readable' injective maps f member here

/-- A directory with the marker of an accepted one is accepted exactly when it has its files. -/
theorem verify_exact (listed : Listed prepared) (listed' : Listed directory)
    (accepted : verifyFinalizedDirectory sha256 lib schema prepared = .ok ())
    {data : List UInt8} {mode mode' : Bool}
    (marker : child manifestName prepared = some (.file data mode))
    (marker' : child manifestName directory = some (.file data mode'))
    (injective : ∀ f ∈ files prepared, ∀ g ∈ files directory, sha256 f.2 = sha256 g.2 → f.2 = g.2) :
    verifyFinalizedDirectory sha256 lib schema directory = .ok () ↔ Matches prepared directory :=
  ⟨matches_of_verify listed listed' accepted marker marker' injective,
    fun same => same.verify listed listed' accepted⟩

/-! ## Preparing -/

theorem childrenListed_concat {name : String} {node : Node} (named : name ≠ "" ∧ '/' ∉ name.toList)
    (listed : Listed node) : ∀ {children : List (String × Node)}, ChildrenListed children →
      ChildrenListed (children ++ [(name, node)])
  | [], _ => ⟨named, listed, trivial⟩
  | (_, _) :: _, below => ⟨below.1, below.2.1, childrenListed_concat named listed below.2.2⟩

/-- A prepared directory is the stage with the marker as one more file. -/
theorem prepare_ok {stage : Node} (done : prepareDirectory sha256 lib schema stage = .ok prepared) :
    ∃ children data, stage = .directory children ∧ lookupEntry manifestName children = none ∧
      prepared = .directory (children ++ [(manifestName, .file data false)]) ∧
      verifyFinalizedDirectory sha256 lib schema prepared = .ok () := by
  simp only [prepareDirectory, ok_bind, ok_pure] at done
  obtain ⟨_, -, _, -, marker, -, _, -, made, created, _, accepted, rfl⟩ := done
  cases stage with
  | directory children =>
      simp only [createFile, ok_ite, Except.ok.injEq] at created
      rcases created with ⟨-, impossible⟩ | ⟨absent, same⟩
      · cases impossible
      · exact ⟨children, _, rfl, Option.not_isSome_iff_eq_none.mp absent, same.symm, accepted⟩
  | file _ _ | symlink _ | unsupported => cases created

/-- What holds of a directory that was prepared. -/
structure IsPrepared (sha256 : List UInt8 → Digest) (lib : JsonLibrary) (schema : Json → Bool)
    (prepared : Node) : Prop where
  listed : Listed prepared
  accepted : verifyFinalizedDirectory sha256 lib schema prepared = .ok ()
  marker : ∃ data, child manifestName prepared = some (.file data false)

theorem isPrepared {stage : Node} (listed : Listed stage)
    (done : prepareDirectory sha256 lib schema stage = .ok prepared) :
    IsPrepared sha256 lib schema prepared := by
  obtain ⟨children, data, rfl, absent, rfl, accepted⟩ := prepare_ok done
  have fresh : manifestName ∉ children.map Prod.fst := by
    intro member
    obtain ⟨⟨name, node⟩, inside, rfl⟩ := List.mem_map.mp member
    obtain ⟨other, found⟩ := exists_lookup inside
    rw [absent] at found
    cases found
  have keyed : Keyed Prod.fst (children ++ [(manifestName, Node.file data false)]) := by
    unfold Keyed
    rw [List.map_append]
    refine List.nodup_append.mpr ⟨listed.1, List.nodup_singleton _, ?_⟩
    intro a first b last same
    have other : a = manifestName := same.trans (List.mem_singleton.mp last)
    exact fresh (other ▸ first)
  refine ⟨⟨keyed, ?_⟩, accepted, data, ?_⟩
  · exact @childrenListed_concat _ (.file data false) ⟨by decide, manifestName_plain⟩ trivial _ listed.2
  · obtain ⟨other, found⟩ := exists_lookup
      (List.mem_append_right children (List.mem_singleton_self (manifestName, Node.file data false)))
    have same := keyed.eq_of_key (mem_of_lookup found)
      (List.mem_append_right children (List.mem_singleton_self (manifestName, Node.file data false))) rfl
    cases same
    exact found

theorem IsPrepared.readable (whole : IsPrepared sha256 lib schema prepared) : Readable prepared := by
  obtain ⟨_, _, -, found, -⟩ := verify_ok.mp whole.accepted
  exact (readable_of_inventory whole.listed found).1

/-- Everything that verification promises of a prepared directory. -/
structure ExactlyVerified (sha256 : List UInt8 → Digest) (lib : JsonLibrary) (schema : Json → Bool)
    (prepared : Node) : Prop where
  accepted : verifyFinalizedDirectory sha256 lib schema prepared = .ok ()
  marker : ∃ data, child manifestName prepared = some (.file data false)
  /-- With the bytes of its marker exactly its own files are accepted. -/
  exactly : ∀ directory data mode mode', Listed directory →
    child manifestName prepared = some (.file data mode) →
    child manifestName directory = some (.file data mode') →
    (∀ f ∈ files prepared, ∀ g ∈ files directory, sha256 f.2 = sha256 g.2 → f.2 = g.2) →
    (verifyFinalizedDirectory sha256 lib schema directory = .ok () ↔ Matches prepared directory)

theorem IsPrepared.exactlyVerified (whole : IsPrepared sha256 lib schema prepared) :
    ExactlyVerified sha256 lib schema prepared where
  accepted := whole.accepted
  marker := whole.marker
  exactly := fun _ _ _ _ listed' marker marker' injective =>
    verify_exact whole.listed listed' whole.accepted marker marker' injective

end Marker

/-! ## Comparing contents -/

/-- Files of one size are compared as a whole. -/
theorem compareBytes_eq : ∀ (n : Nat) {a b : List UInt8}, a.length ≤ n → a.length = b.length →
    compareBytes a b = .ok (decide (a = b)) := by
  intro n
  induction n with
  | zero =>
      intro a b small length
      have left : a = [] := List.length_eq_zero_iff.mp (Nat.le_zero.mp small)
      subst left
      have right : b = [] := List.length_eq_zero_iff.mp length.symm
      subst right
      unfold compareBytes
      simp
  | succ n ih =>
      intro a b small length
      unfold compareBytes
      by_cases empty : a = []
      · subst empty
        have right : b = [] := List.length_eq_zero_iff.mp length.symm
        simp [right]
      · have positive := List.length_pos_iff.mpr empty
        have block : (a.take 8192).length ≤ b.length := by
          rw [List.length_take]
          omega
        rw [if_neg empty, if_neg (Nat.not_lt.mpr block)]
        have cut : b.take (a.take 8192).length = b.take 8192 := by
          rw [List.length_take, length, List.take_eq_take_iff]
          omega
        have rest : b.drop (a.take 8192).length = b.drop 8192 := by
          rw [List.length_take, length]
          rcases Nat.le_total 8192 b.length with long | short
          · rw [Nat.min_eq_left long]
          · rw [Nat.min_eq_right short, List.drop_eq_nil_of_le (Nat.le_refl _), List.drop_eq_nil_of_le short]
        rw [cut, rest]
        by_cases first : a.take 8192 = b.take 8192
        · rw [if_neg (not_not.mpr first), ih (by rw [List.length_drop]; omega)
            (by rw [List.length_drop, List.length_drop, length])]
          have whole : a.drop 8192 = b.drop 8192 ↔ a = b := by
            constructor
            · intro later
              rw [← List.take_append_drop 8192 a, first, later, List.take_append_drop]
            · rintro rfl
              rfl
          simp only [whole]
        · have other : a ≠ b := fun same => first (by rw [same])
          rw [if_pos first]
          simp [other]

theorem compareFiles_ok {left right : Node} : ∀ {paths : List String},
    (∀ path ∈ paths, ∃ a b, readFile left path = some a ∧ readFile right path = some b ∧
      a.length = b.length) →
    ∃ same, compareFiles left right paths = .ok same ∧
      (same = true ↔ ∀ path ∈ paths, readFile left path = readFile right path)
  | [], _ => ⟨true, rfl, by simp⟩
  | path :: rest, each => by
      obtain ⟨a, b, here, there, length⟩ := each path List.mem_cons_self
      obtain ⟨same, compared, iff⟩ := @compareFiles_ok left right rest
        fun other member => each other (List.mem_cons_of_mem _ member)
      have first := compareBytes_eq a.length (Nat.le_refl _) length
      by_cases equal : a = b
      · refine ⟨same, ?_, ?_⟩
        · simp only [compareFiles, here, there, ok_bind, ok_expect]
          exact ⟨a, rfl, b, rfl, true, first.trans (congrArg Except.ok (decide_eq_true equal)), compared⟩
        · rw [iff, List.forall_mem_cons, here, there, equal]
          simp
      · refine ⟨false, ?_, ?_⟩
        · simp only [compareFiles, here, there, ok_bind, ok_expect]
          exact ⟨a, rfl, b, rfl, false, first.trans (congrArg Except.ok (decide_eq_false equal)), rfl⟩
        · rw [List.forall_mem_cons, here, there]
          simp [equal]

/-- Two readable directories compare as equal exactly when they hold the same files. -/
theorem sameContents_iff {left right : Node} (readable : Readable left) (readable' : Readable right) :
    ∃ same, sameContents sha256 left right = .ok same ∧
      (same = true ↔ ∀ f, f ∈ files right ↔ f ∈ files left) := by
  by_cases maps : listing sha256 left = listing sha256 right
  · have each : ∀ path ∈ (listing sha256 left).keys, ∃ a b, readFile left path = some a ∧
        readFile right path = some b ∧ a.length = b.length := by
      intro path member
      obtain ⟨e, found⟩ := Option.isSome_iff_exists.mp (OrderedMap.mem_keys.mp member)
      have found' := found
      rw [maps] at found'
      obtain ⟨a, here, rfl⟩ := readable.get_listing.mp found
      obtain ⟨b, there, entry⟩ := readable'.get_listing.mp found'
      exact ⟨a, b, readable.readFile.mpr here, readable'.readFile.mpr there, congrArg FileEntry.sizeBytes entry⟩
    obtain ⟨same, compared, iff⟩ := compareFiles_ok each
    refine ⟨same, ?_, ?_⟩
    · simp only [sameContents, readable.inventory, readable'.inventory, ok_bind]
      exact ⟨_, rfl, _, rfl, by rw [if_neg (not_not.mpr maps)]; exact compared⟩
    · have named : ∀ {root : Node} {f : String × List UInt8}, Readable root → f ∈ files root →
          f.1 ∈ (listing sha256 root).keys := fun first member =>
        OrderedMap.mem_keys.mpr (Option.isSome_iff_exists.mpr ⟨_, first.get_listing.mpr ⟨_, member, rfl⟩⟩)
      rw [iff]
      constructor
      · intro equal f
        constructor
        · intro member
          have key : f.1 ∈ (listing sha256 left).keys := maps ▸ named readable' member
          exact readable.readFile.mp ((equal f.1 key).trans (readable'.readFile.mpr member))
        · intro member
          exact readable'.readFile.mp
            ((equal f.1 (named readable member)).symm.trans (readable.readFile.mpr member))
      · intro files path member
        obtain ⟨a, b, here, there, -⟩ := each path member
        have inside := (files (path, a)).mpr (readable.readFile.mp here)
        rw [here, readable'.readFile.mpr inside]
  · refine ⟨false, ?_, iff_of_false (by simp) fun same => ?_⟩
    swap
    · exact maps ((⟨readable'.solid, same⟩ : Matches left right).listing readable readable').symm
    simp only [sameContents, readable.inventory, readable'.inventory, ok_bind]
    exact ⟨_, rfl, _, rfl, by rw [if_pos maps]; rfl⟩

end Inventory

end Metewand.Publication
