import Metewand.Core.Bytes
import Metewand.Lib.Check
import Metewand.Lib.Table
import Mathlib.Data.List.Lex
import Mathlib.Data.List.Sort
import Mathlib.Data.String.Basic

/-!
# Local trees

`hash_tree` of `runtime/local_tree.rs`: the entries below a directory are collected, sorted
by the bytes of their paths and written to one transcript.  A tree is what the file system
holds while it is hashed; the listing order of a directory is the order of its children.

The transcript is delimited field by field, and the global sort leaves it one order, so
two trees have one transcript exactly when they have the same entries
(`transcript_iff`).
-/

namespace Metewand.Evidence

open Lib Lib.Check

/-! ## Trees -/

/-- What the file system holds at a path. -/
inductive Node where
  | directory (children : List (String × Node))
  | file (content : List UInt8) (executable : Bool)
  | symlink (target : String)
  | unsupported

/-- An entry of a tree without what is below it. -/
inductive Entry where
  | directory
  | file (content : List UInt8) (executable : Bool)
  | symlink (target : String)
  | unsupported
  deriving DecidableEq

def Node.entry : Node → Entry
  | .directory _ => .directory
  | .file content executable => .file content executable
  | .symlink target => .symlink target
  | .unsupported => .unsupported

inductive LocalTreeHashError where
  | rootNotDirectory
  | nonNormalizedPath (path : String)
  | unsupportedEntryType (path : String)
  deriving DecidableEq

/-- A path as its bytes are compared. -/
def byteKey (path : String) : List Nat := (utf8 path).map UInt8.toNat

/-- The path of an entry of a directory. -/
def join (relative name : String) : String :=
  if relative = "" then name else relative ++ "/" ++ name

/-! ## Hashing -/

structure TreeEntry where
  path : String
  entry : Entry
  deriving DecidableEq

mutual

/-- `collect_entries`: the entries below a directory, name by name. -/
def collectEntries (relative : String) :
    Node → Except LocalTreeHashError (List TreeEntry)
  | .directory children => do
      let parts ← traverseAll Prod.snd
        ((collectChildren relative children).mergeSort fun a b =>
          decide (byteKey a.1 ≤ byteKey b.1))
      return parts.flatten
  | _ => .ok []

/-- What each child contributes, in listing order. -/
def collectChildren (relative : String) :
    List (String × Node) → List (String × Except LocalTreeHashError (List TreeEntry))
  | [] => []
  | (name, node) :: rest =>
      (name, do
        let path := join relative name
        reject ('\\' ∈ name.toList) (.nonNormalizedPath path)
        let below ← collectEntries path node
        return ⟨path, node.entry⟩ :: below) :: collectChildren relative rest

end

def transcriptDomain : String := "metewand-local-tree\x00"

def localTreeHashVersion : List UInt8 := [0, 0, 0, 1]

section Transcript

variable (executable : String → Bool → Bool)

/-- `hash_entry`: the bytes one entry adds; a path and its own mode decide on the bit. -/
def hashEntry (entry : TreeEntry) : Except LocalTreeHashError (List UInt8) :=
  let head := sized (utf8 entry.path)
  match entry.entry with
  | .directory => .ok (head ++ utf8 "d")
  | .file content mode =>
      .ok (head ++ utf8 "f" ++ [if executable entry.path mode then 1 else 0] ++ sized content)
  | .symlink target => .ok (head ++ utf8 "l" ++ sized (utf8 target))
  | .unsupported => .error (.unsupportedEntryType entry.path)

/-- The bytes `hash_tree` feeds to the hash. -/
def transcript (root : Node) : Except LocalTreeHashError (List UInt8) := do
  reject (root.entry ≠ .directory) .rootNotDirectory
  let entries ← collectEntries "" root
  let sorted := entries.mergeSort fun a b => decide (byteKey a.path ≤ byteKey b.path)
  let parts ← traverseAll (hashEntry executable) sorted
  return utf8 transcriptDomain ++ localTreeHashVersion ++ toBeBytes entries.length ++
    parts.flatten

end Transcript

/-- The mode of the file itself decides. -/
def ownMode (_path : String) (mode : Bool) : Bool := mode

/-! ## The entries of a tree -/

mutual

/-- The entries below a node, with their paths. -/
def Node.entries (relative : String) : Node → List TreeEntry
  | .directory children => childEntries relative children
  | _ => []

def childEntries (relative : String) : List (String × Node) → List TreeEntry
  | [] => []
  | (name, node) :: rest =>
      ⟨join relative name, node.entry⟩ :: node.entries (join relative name) ++
        childEntries relative rest

end

mutual

/-- Directories list distinct plain names, and every entry has a supported type. -/
def Node.WellFormed : Node → Prop
  | .directory children => Keyed Prod.fst children ∧ ChildrenWellFormed children
  | .unsupported => False
  | _ => True

def ChildrenWellFormed : List (String × Node) → Prop
  | [] => True
  | (name, node) :: rest =>
      (name ≠ "" ∧ '/' ∉ name.toList ∧ '\\' ∉ name.toList) ∧ node.WellFormed ∧
        ChildrenWellFormed rest

end

/-- Counts and sizes fit the machine words the source keeps them in. -/
structure Fits (entries : List TreeEntry) : Prop where
  count : entries.length < 2 ^ 64
  path : ∀ e ∈ entries, (utf8 e.path).length < 2 ^ 64
  content : ∀ e ∈ entries, ∀ content mode, e.entry = .file content mode → content.length < 2 ^ 64
  target : ∀ e ∈ entries, ∀ target, e.entry = .symlink target → (utf8 target).length < 2 ^ 64

/-! ## Collection -/

mutual

theorem collectEntries_ok (relative : String) :
    ∀ node : Node, node.WellFormed → ∃ collected, collectEntries relative node = .ok collected ∧
      collected.Perm (node.entries relative)
  | .directory children, wf => by
      obtain ⟨parts, collected, perm⟩ := collectChildren_ok relative children wf.2
      let read (part : String × Except LocalTreeHashError (List TreeEntry)) : List TreeEntry :=
        match part.2 with
        | .ok entries => entries
        | .error _ => []
      let sorted := (collectChildren relative children).mergeSort fun a b =>
        decide (byteKey a.1 ≤ byteKey b.1)
      have order : sorted.Perm (collectChildren relative children) := List.mergeSort_perm _ _
      have each : ∀ part ∈ sorted, part.2 = .ok (read part) := by
        intro part member
        rw [order.mem_iff, collected] at member
        obtain ⟨source, -, rfl⟩ := List.mem_map.mp member
        rfl
      refine ⟨sorted.flatMap read, ?_, ?_⟩
      · simp only [collectEntries, ok_bind, ok_pure]
        exact ⟨_, traverseAll_eq_map each, List.flatMap_def.symm⟩
      · refine (order.flatMap_right read).trans ?_
        rw [collected, List.flatMap_map]
        exact perm
  | .file _ _, _ | .symlink _, _ => ⟨[], rfl, .refl _⟩

theorem collectChildren_ok (relative : String) :
    ∀ children : List (String × Node), ChildrenWellFormed children →
      ∃ parts : List (String × List TreeEntry),
        collectChildren relative children = parts.map (fun part => (part.1, .ok part.2)) ∧
          (parts.flatMap Prod.snd).Perm (childEntries relative children)
  | [], _ => ⟨[], rfl, .refl _⟩
  | (name, node) :: rest, wf => by
      obtain ⟨⟨-, -, plain⟩, well, others⟩ := wf
      obtain ⟨below, collected, perm⟩ := collectEntries_ok (join relative name) node well
      obtain ⟨parts, remaining, perms⟩ := collectChildren_ok relative rest others
      refine ⟨(name, ⟨join relative name, node.entry⟩ :: below) :: parts, ?_, ?_⟩
      · have head : (do
            let path := join relative name
            reject ('\\' ∈ name.toList) (LocalTreeHashError.nonNormalizedPath path)
            let below ← collectEntries path node
            return TreeEntry.mk path node.entry :: below) =
              .ok (⟨join relative name, node.entry⟩ :: below) := by
          simp only [ok_bind, ok_reject, ok_pure]
          exact ⟨(), plain, below, collected, rfl⟩
        rw [collectChildren, remaining]
        exact congrArg (fun x => (name, x) :: _) head
      · exact (perm.cons _).append perms

end

/-! ## Paths -/

/-- What stands before the names of a directory. -/
def childPrefix (relative : String) : List Char :=
  if relative = "" then [] else relative.toList ++ ['/']

theorem join_toList (relative name : String) :
    (join relative name).toList = childPrefix relative ++ name.toList := by
  unfold join childPrefix
  split
  · rfl
  · simp [String.toList_append]

/-- Names without a slash are told apart by what follows them. -/
theorem name_of_slash {a b x y : List Char} (left : '/' ∉ a) (right : '/' ∉ b)
    (after : ∀ c ∈ x.head?, c = '/') (after' : ∀ c ∈ y.head?, c = '/') (same : a ++ x = b ++ y) :
    a = b := by
  have cut : ∀ {n r : List Char}, '/' ∉ n → (∀ c ∈ r.head?, c = '/') →
      (n ++ r).takeWhile (· ≠ '/') = n := by
    intro n r plain slash
    rw [List.takeWhile_append_of_pos fun c member => by
      simpa using fun equal : c = '/' => plain (equal ▸ member)]
    cases r with
    | nil => simp
    | cons c r => simp [slash c rfl]
  rw [← cut left after, ← cut right after', same]

theorem name_of_join (relative : String) {a b : String} {x y : List Char} (left : '/' ∉ a.toList)
    (right : '/' ∉ b.toList) (after : ∀ c ∈ x.head?, c = '/') (after' : ∀ c ∈ y.head?, c = '/')
    (same : (join relative a).toList ++ x = (join relative b).toList ++ y) : a = b := by
  rw [join_toList, join_toList, List.append_assoc, List.append_assoc] at same
  exact String.toList_inj.mp
    (name_of_slash left right after after' (List.append_cancel_left same))

/-- An entry of a directory is one of its children or lies below one. -/
theorem childEntries_path {relative : String} :
    ∀ {children : List (String × Node)} {e : TreeEntry}, e ∈ childEntries relative children →
      ∃ child ∈ children, (e = ⟨join relative child.1, child.2.entry⟩ ∨
        e ∈ child.2.entries (join relative child.1))
  | [], _, member => absurd member List.not_mem_nil
  | (name, node) :: rest, e, member => by
      rcases List.mem_append.mp member with here | later
      · exact ⟨(name, node), List.mem_cons_self, List.mem_cons.mp here⟩
      · obtain ⟨child, inside, found⟩ := childEntries_path later
        exact ⟨child, List.mem_cons_of_mem _ inside, found⟩

theorem childrenWellFormed_of_mem {child : String × Node} :
    ∀ {children : List (String × Node)}, ChildrenWellFormed children → child ∈ children →
      (child.1 ≠ "" ∧ '/' ∉ child.1.toList ∧ '\\' ∉ child.1.toList) ∧ child.2.WellFormed
  | (name, node) :: rest, wf, member => by
      rcases List.mem_cons.mp member with rfl | later
      · exact ⟨wf.1, wf.2.1⟩
      · exact childrenWellFormed_of_mem wf.2.2 later

theorem join_ne_empty {relative name : String} (named : name ≠ "") : join relative name ≠ "" := by
  intro empty
  have text := join_toList relative name
  rw [empty] at text
  exact named (String.toList_inj.mp (List.append_eq_nil_iff.mp text.symm).2)

mutual

/-- The path of an entry continues the path of the directory it is in. -/
theorem entries_path {relative : String} (named : relative ≠ "") :
    ∀ {node : Node}, node.WellFormed → ∀ e ∈ node.entries relative,
      ∃ below, e.path.toList = relative.toList ++ '/' :: below
  | .directory _, wf, e, member => childEntries_below named wf.2 e member
  | .file _ _, _, _, member | .symlink _, _, _, member => absurd member List.not_mem_nil

theorem childEntries_below {relative : String} (named : relative ≠ "") :
    ∀ {children : List (String × Node)}, ChildrenWellFormed children →
      ∀ e ∈ childEntries relative children,
        ∃ below, e.path.toList = relative.toList ++ '/' :: below
  | [], _, _, member => absurd member List.not_mem_nil
  | (name, node) :: rest, wf, e, member => by
      have start : (join relative name).toList = relative.toList ++ '/' :: name.toList := by
        rw [join_toList, childPrefix, if_neg named, List.append_assoc, List.singleton_append]
      rcases List.mem_append.mp member with here | later
      · rcases List.mem_cons.mp here with rfl | inside
        · exact ⟨name.toList, start⟩
        · obtain ⟨below, path⟩ := entries_path (join_ne_empty wf.1.1) wf.2.1 e inside
          exact ⟨name.toList ++ '/' :: below, by rw [path, start]; simp⟩
      · exact childEntries_below named wf.2.2 e later

end

/-- The path of an entry starts with the child it is or lies below. -/
theorem childEntries_starts {relative : String} {children : List (String × Node)}
    (wf : ChildrenWellFormed children) {e : TreeEntry} (member : e ∈ childEntries relative children) :
    ∃ child ∈ children, ∃ rest, (∀ c ∈ rest.head?, c = '/') ∧
      e.path.toList = (join relative child.1).toList ++ rest := by
  obtain ⟨child, inside, rfl | below⟩ := childEntries_path member
  · exact ⟨child, inside, [], by simp, by simp⟩
  · obtain ⟨⟨named, -, -⟩, well⟩ := childrenWellFormed_of_mem wf inside
    obtain ⟨rest, path⟩ := entries_path (join_ne_empty named) well e below
    exact ⟨child, inside, '/' :: rest, by simp, path⟩

mutual

/-- No two entries have one path. -/
theorem entries_keyed {relative : String} :
    ∀ {node : Node}, node.WellFormed → Keyed (·.path) (node.entries relative)
  | .directory _, wf => childEntries_keyed wf.1 wf.2
  | .file _ _, _ | .symlink _, _ => .nil

theorem childEntries_keyed {relative : String} :
    ∀ {children : List (String × Node)}, Keyed Prod.fst children → ChildrenWellFormed children →
      Keyed (·.path) (childEntries relative children)
  | [], _, _ => .nil
  | (name, node) :: rest, keyed, wf => by
      obtain ⟨⟨named, plain, -⟩, well, others⟩ := wf
      obtain ⟨new, distinct⟩ := List.nodup_cons.mp keyed
      have mine : Keyed (·.path) (⟨join relative name, node.entry⟩ ::
          node.entries (join relative name) : List TreeEntry) := by
        refine List.nodup_cons.mpr ⟨fun member => ?_, entries_keyed well⟩
        obtain ⟨e, inside, same⟩ := List.mem_map.mp member
        obtain ⟨below, path⟩ := entries_path (join_ne_empty named) well e inside
        have longer := congrArg List.length path
        rw [same] at longer
        simp at longer
      unfold Keyed
      rw [childEntries, List.map_append, List.nodup_append]
      refine ⟨mine, childEntries_keyed distinct others, ?_⟩
      · intro a left b right equal
        obtain ⟨e, here, rfl⟩ := List.mem_map.mp left
        obtain ⟨f, later, rfl⟩ := List.mem_map.mp right
        obtain ⟨rest', after', path'⟩ : ∃ rest, (∀ c ∈ rest.head?, c = '/') ∧
            e.path.toList = (join relative name).toList ++ rest := by
          rcases List.mem_cons.mp here with rfl | inside
          · exact ⟨[], by simp, by simp⟩
          · obtain ⟨below, path⟩ := entries_path (join_ne_empty named) well e inside
            exact ⟨'/' :: below, by simp, path⟩
        obtain ⟨child, inside, rest, after, path⟩ := childEntries_starts others later
        obtain ⟨⟨-, plainChild, -⟩, -⟩ := childrenWellFormed_of_mem others inside
        have same : name = child.1 := by
          refine name_of_join relative plain plainChild after' after ?_
          rw [← path', ← path, equal]
        exact new (List.mem_map.mpr ⟨child, inside, same.symm⟩)

end

/-! ## The transcript -/

/-- An entry whose mode is what counts for the transcript. -/
def TreeEntry.under (executable : String → Bool → Bool) (e : TreeEntry) : TreeEntry :=
  { e with
    entry :=
      match e.entry with
      | .file content mode => .file content (executable e.path mode)
      | other => other }

/-- The bytes after an entry's path. -/
def Entry.code : Entry → List UInt8
  | .directory => utf8 "d"
  | .file content mode => utf8 "f" ++ [if mode then 1 else 0] ++ sized content
  | .symlink target => utf8 "l" ++ sized (utf8 target)
  | .unsupported => []

def TreeEntry.code (e : TreeEntry) : List UInt8 := sized (utf8 e.path) ++ e.entry.code

/-- An entry that can be written. -/
structure TreeEntry.Writable (e : TreeEntry) : Prop where
  supported : e.entry ≠ .unsupported
  path : (utf8 e.path).length < 2 ^ 64
  content : ∀ content mode, e.entry = .file content mode → content.length < 2 ^ 64
  target : ∀ target, e.entry = .symlink target → (utf8 target).length < 2 ^ 64

theorem hashEntry_eq {executable : String → Bool → Bool} {e : TreeEntry}
    (supported : e.entry ≠ .unsupported) :
    hashEntry executable e = .ok (e.under executable).code := by
  obtain ⟨path, entry⟩ := e
  cases entry with
  | directory => rfl
  | file content mode => simp [hashEntry, TreeEntry.under, TreeEntry.code, Entry.code]
  | symlink target => simp [hashEntry, TreeEntry.under, TreeEntry.code, Entry.code]
  | unsupported => exact absurd rfl supported

theorem entry_code_delimited {a b : Entry} (left : a ≠ .unsupported) (right : b ≠ .unsupported)
    (content : ∀ content mode, a = .file content mode → content.length < 2 ^ 64)
    (content' : ∀ content mode, b = .file content mode → content.length < 2 ^ 64)
    (target : ∀ target, a = .symlink target → (utf8 target).length < 2 ^ 64)
    (target' : ∀ target, b = .symlink target → (utf8 target).length < 2 ^ 64) {x y : List UInt8}
    (same : a.code ++ x = b.code ++ y) : a = b ∧ x = y := by
  have tags : utf8 "d" = [100] ∧ utf8 "f" = [102] ∧ utf8 "l" = [108] := by decide
  obtain ⟨d, f, l⟩ := tags
  cases a with
  | unsupported => exact absurd rfl left
  | directory =>
      cases b with
      | unsupported => exact absurd rfl right
      | directory => exact ⟨rfl, List.append_cancel_left same⟩
      | file _ _ => simp [Entry.code, d, f] at same
      | symlink _ => simp [Entry.code, d, l] at same
  | file bytes mode =>
      cases b with
      | unsupported => exact absurd rfl right
      | directory => simp [Entry.code, d, f] at same
      | symlink _ => simp [Entry.code, f, l] at same
      | file bytes' mode' =>
          simp only [Entry.code, f, List.append_assoc, List.cons_append, List.nil_append,
            List.cons.injEq, true_and] at same
          obtain ⟨bit, rest⟩ := same
          obtain ⟨contents, after⟩ :=
            sized_delimited (content bytes mode rfl) (content' bytes' mode' rfl) _ _ rest
          have modes : mode = mode' := by
            cases mode <;> cases mode' <;> simp at bit ⊢
          exact ⟨by rw [contents, modes], after⟩
  | symlink text =>
      cases b with
      | unsupported => exact absurd rfl right
      | directory => simp [Entry.code, d, l] at same
      | file _ _ => simp [Entry.code, f, l] at same
      | symlink text' =>
          simp only [Entry.code, l, List.append_assoc, List.cons_append, List.nil_append,
            List.cons.injEq, true_and] at same
          obtain ⟨texts, after⟩ := sized_delimited (target text rfl) (target' text' rfl) _ _ same
          exact ⟨by rw [utf8_injective texts], after⟩

theorem code_delimited : Delimited TreeEntry.Writable TreeEntry.code := by
  intro a b left right x y same
  rw [TreeEntry.code, TreeEntry.code, List.append_assoc, List.append_assoc] at same
  obtain ⟨paths, rest⟩ := sized_delimited left.path right.path _ _ same
  obtain ⟨entries, after⟩ := entry_code_delimited left.supported right.supported left.content
    right.content left.target right.target rest
  refine ⟨?_, after⟩
  obtain ⟨path, entry⟩ := a
  obtain ⟨path', entry'⟩ := b
  cases utf8_injective paths
  cases entries
  rfl

theorem byteKey_injective {a b : String} (same : byteKey a = byteKey b) : a = b :=
  utf8_injective (List.map_injective_iff.mpr (fun _ _ equal => UInt8.toNat_inj.mp equal) same)

/-- Entries with distinct paths have one order under the bytes of their paths. -/
theorem sorted_unique {es fs : List TreeEntry} (keyed : Keyed (·.path) es) (perm : es.Perm fs)
    (sorted : es.Pairwise fun a b => byteKey a.path ≤ byteKey b.path)
    (sorted' : fs.Pairwise fun a b => byteKey a.path ≤ byteKey b.path) : es = fs := by
  refine perm.eq_of_pairwise (fun a b left right le ge => ?_) sorted sorted'
  have paths := byteKey_injective (le_antisymm le ge)
  exact keyed.eq_of_key left (perm.mem_iff.mpr right) paths

theorem Node.WellFormed.supported {node : Node} (wf : node.WellFormed) :
    node.entry ≠ .unsupported := by
  cases node with
  | unsupported => exact absurd wf id
  | directory _ | file _ _ | symlink _ => exact Entry.noConfusion

mutual

theorem entries_supported {relative : String} :
    ∀ {node : Node}, node.WellFormed → ∀ e ∈ node.entries relative, e.entry ≠ .unsupported
  | .directory _, wf, e, member => childEntries_supported wf.2 e member
  | .file _ _, _, _, member | .symlink _, _, _, member => absurd member List.not_mem_nil

theorem childEntries_supported {relative : String} :
    ∀ {children : List (String × Node)}, ChildrenWellFormed children →
      ∀ e ∈ childEntries relative children, e.entry ≠ .unsupported
  | [], _, _, member => absurd member List.not_mem_nil
  | (_, _) :: _, wf, e, member => by
      rcases List.mem_append.mp member with here | later
      · rcases List.mem_cons.mp here with rfl | inside
        · exact wf.2.1.supported
        · exact entries_supported wf.2.1 e inside
      · exact childEntries_supported wf.2.2 e later

end

/-- The transcript of a well-formed directory: its entries in the order of their paths. -/
theorem transcript_ok (executable : String → Bool → Bool) {children : List (String × Node)}
    (wf : (Node.directory children).WellFormed) :
    ∃ sorted : List TreeEntry, sorted.Perm (((Node.directory children).entries "").map (·.under executable)) ∧
      sorted.Pairwise (fun a b => byteKey a.path ≤ byteKey b.path) ∧
      transcript executable (.directory children) =
        .ok (utf8 transcriptDomain ++ localTreeHashVersion ++
          (toBeBytes sorted.length ++ sorted.flatMap TreeEntry.code)) := by
  obtain ⟨collected, ran, perm⟩ := collectEntries_ok "" (.directory children) wf
  let order := collected.mergeSort fun a b => decide (byteKey a.path ≤ byteKey b.path)
  have same : order.Perm collected := List.mergeSort_perm _ _
  have ascending : order.Pairwise fun a b => decide (byteKey a.path ≤ byteKey b.path) :=
    List.pairwise_mergeSort (fun a b c => by simpa using le_trans)
      (fun a b => by simpa using le_total _ _) collected
  have each : ∀ e ∈ order, hashEntry executable e = .ok (e.under executable).code := by
    intro e member
    exact hashEntry_eq (entries_supported wf e (perm.mem_iff.mp (same.mem_iff.mp member)))
  refine ⟨order.map (·.under executable), (same.trans perm).map _, ?_, ?_⟩
  · exact List.pairwise_map.mpr (ascending.imp fun le => of_decide_eq_true le)
  · simp only [transcript, ok_bind, ok_reject, ok_pure]
    refine ⟨(), fun differs => differs rfl, collected, ran, _, traverseAll_eq_map each, ?_⟩
    rw [List.length_map, same.length_eq, List.flatMap_map, ← List.flatMap_def, List.append_assoc]

theorem Fits.writable {entries : List TreeEntry} (fits : Fits entries)
    (supported : ∀ e ∈ entries, e.entry ≠ .unsupported) (executable : String → Bool → Bool) :
    ∀ e ∈ entries.map (·.under executable), e.Writable := by
  intro e member
  obtain ⟨source, inside, rfl⟩ := List.mem_map.mp member
  obtain ⟨path, entry⟩ := source
  have plain := supported _ inside
  have content := fits.content _ inside
  have target := fits.target _ inside
  have small : (utf8 path).length < 2 ^ 64 := fits.path _ inside
  cases entry with
  | unsupported => exact absurd rfl plain
  | directory => exact ⟨Entry.noConfusion, small, nofun, nofun⟩
  | file bytes mode =>
      refine ⟨Entry.noConfusion, small, ?_, nofun⟩
      rintro _ _ ⟨⟩
      exact content bytes mode rfl
  | symlink text =>
      refine ⟨Entry.noConfusion, small, nofun, ?_⟩
      rintro _ ⟨⟩
      exact target text rfl

theorem keyed_under {entries : List TreeEntry} (keyed : Keyed (·.path) entries)
    (executable : String → Bool → Bool) : Keyed (·.path) (entries.map (·.under executable)) := by
  unfold Keyed
  rw [List.map_map]
  exact keyed

theorem nodup_of_keyed {entries : List TreeEntry} (keyed : Keyed (·.path) entries) :
    entries.Nodup := List.Nodup.of_map _ keyed

section Two

variable {executable executable' : String → Bool → Bool} {children children' : List (String × Node)}

/-- Equal sets of entries have one transcript. -/
theorem transcript_congr (wf : (Node.directory children).WellFormed)
    (wf' : (Node.directory children').WellFormed)
    (same : ∀ e, e ∈ ((Node.directory children).entries "").map (·.under executable) ↔
      e ∈ ((Node.directory children').entries "").map (·.under executable')) :
    transcript executable (.directory children) = transcript executable' (.directory children') := by
  obtain ⟨sorted, perm, ascending, ran⟩ := transcript_ok executable wf
  obtain ⟨sorted', perm', ascending', ran'⟩ := transcript_ok executable' wf'
  have keyed := keyed_under (@entries_keyed "" _ wf) executable
  have keyed' := keyed_under (@entries_keyed "" _ wf') executable'
  have sets := (List.perm_ext_iff_of_nodup (nodup_of_keyed keyed) (nodup_of_keyed keyed')).mpr same
  have order : sorted = sorted' := by
    refine sorted_unique ?_ (perm.trans (sets.trans perm'.symm)) ascending ascending'
    exact (perm.map _).nodup_iff.mpr keyed
  rw [ran, ran', order]

/-- One transcript comes from one set of entries. -/
theorem transcript_eq (wf : (Node.directory children).WellFormed)
    (wf' : (Node.directory children').WellFormed)
    (fits : Fits ((Node.directory children).entries ""))
    (fits' : Fits ((Node.directory children').entries ""))
    (same : transcript executable (.directory children) =
      transcript executable' (.directory children')) :
    ∀ e, e ∈ ((Node.directory children).entries "").map (·.under executable) ↔
      e ∈ ((Node.directory children').entries "").map (·.under executable') := by
  obtain ⟨sorted, perm, -, ran⟩ := transcript_ok executable wf
  obtain ⟨sorted', perm', -, ran'⟩ := transcript_ok executable' wf'
  rw [ran, ran', Except.ok.injEq] at same
  have count : sorted.length < 2 ^ 64 := by
    rw [perm.length_eq, List.length_map]
    exact fits.count
  have count' : sorted'.length < 2 ^ 64 := by
    rw [perm'.length_eq, List.length_map]
    exact fits'.count
  obtain ⟨lengths, codes⟩ := toBeBytes_delimited count count' _ _ (List.append_cancel_left same)
  have writable := fits.writable (entries_supported wf) executable
  have writable' := fits'.writable (entries_supported wf') executable'
  obtain ⟨order, -⟩ := code_delimited.flatMap (x := []) (y := [])
    (fun e member => writable e (perm.mem_iff.mp member))
    (fun e member => writable' e (perm'.mem_iff.mp member)) lengths (by simpa using codes)
  intro e
  rw [← perm.mem_iff, ← perm'.mem_iff, order]

end Two

theorem map_under_ownMode (entries : List TreeEntry) :
    entries.map (·.under ownMode) = entries := by
  refine (List.map_congr_left fun e _ => ?_).trans (List.map_id _)
  obtain ⟨path, entry⟩ := e
  cases entry <;> rfl

/-! ## Archived trees -/

/-- The part of an archive's inventory that hashing reads. -/
structure InventoryFile where
  path : String
  executable : Bool
  deriving DecidableEq

/-- `EvidenceSnapshot::tree_hash`: the mode the inventory records for a payload. -/
def archivedMode (files : List InventoryFile) (relative name : String) (_mode : Bool) : Bool :=
  (files.find? fun file => file.path = "data/" ++ relative ++ "/" ++ name).any (·.executable)

/-- The payloads `create_archive` records for a tree, with their own modes. -/
def inventoryOf (relative : String) (root : Node) : List InventoryFile :=
  (root.entries "").filterMap fun e =>
    match e.entry with
    | .file _ mode => some ⟨"data/" ++ relative ++ "/" ++ e.path, mode⟩
    | _ => none

mutual

/-- What `walk_files` takes: files, and directories that are not empty. -/
def Node.Archivable : Node → Prop
  | .directory children => children ≠ [] ∧ ChildrenArchivable children
  | .file _ _ => True
  | _ => False

def ChildrenArchivable : List (String × Node) → Prop
  | [] => True
  | (_, node) :: rest => node.Archivable ∧ ChildrenArchivable rest

end

mutual

theorem entries_kinds {relative : String} :
    ∀ {node : Node}, node.Archivable → ∀ e ∈ node.entries relative,
      e.entry = .directory ∨ ∃ content mode, e.entry = .file content mode
  | .directory _, wf, e, member => childEntries_kinds wf.2 e member
  | .file _ _, _, _, member => absurd member List.not_mem_nil

theorem childEntries_kinds {relative : String} :
    ∀ {children : List (String × Node)}, ChildrenArchivable children →
      ∀ e ∈ childEntries relative children,
        e.entry = .directory ∨ ∃ content mode, e.entry = .file content mode
  | [], _, _, member => absurd member List.not_mem_nil
  | (_, node) :: _, wf, e, member => by
      rcases List.mem_append.mp member with here | later
      · rcases List.mem_cons.mp here with rfl | inside
        · cases node with
          | directory _ => exact .inl rfl
          | file content mode => exact .inr ⟨content, mode, rfl⟩
          | symlink _ | unsupported => exact absurd wf.1 id
        · exact entries_kinds wf.1 e inside
      · exact childEntries_kinds wf.2 e later

end

mutual

/-- There is a file below every directory. -/
theorem entries_fileBelow {relative : String} (named : relative ≠ "") :
    ∀ {node : Node}, node.Archivable → node.WellFormed → node.entry = .directory →
      ∃ e ∈ node.entries relative, (∃ content mode, e.entry = .file content mode) ∧
        ∃ below, e.path.toList = relative.toList ++ '/' :: below
  | .directory ((name, node) :: rest), archivable, wf, _ => by
      obtain ⟨e, member, file⟩ := childEntries_file relative
        (List.cons_ne_nil (name, node) rest) archivable.2 wf.2
      exact ⟨e, member, file, childEntries_below named wf.2 e member⟩

theorem childEntries_file (relative : String) :
    ∀ {children : List (String × Node)}, children ≠ [] → ChildrenArchivable children →
      ChildrenWellFormed children →
      ∃ e ∈ childEntries relative children, ∃ content mode, e.entry = .file content mode
  | (name, .file content mode) :: _, _, _, _ =>
      ⟨_, List.mem_append_left _ List.mem_cons_self, content, mode, rfl⟩
  | (name, .directory below) :: _, _, archivable, wf => by
      obtain ⟨e, member, file, -⟩ :=
        entries_fileBelow (join_ne_empty wf.1.1) archivable.1 wf.2.1 rfl
      exact ⟨e, List.mem_append_left _ (List.mem_cons_of_mem _ member), file⟩
  | (_, .symlink _) :: _, _, archivable, _ => absurd archivable.1 id
  | (_, .unsupported) :: _, _, archivable, _ => absurd archivable.1 id

end

mutual

theorem entries_directory {relative : String} :
    ∀ {node : Node}, node.Archivable → node.WellFormed → ∀ d ∈ node.entries relative,
      d.entry = .directory → ∃ e ∈ node.entries relative,
        (∃ content mode, e.entry = .file content mode) ∧
          ∃ below, e.path.toList = d.path.toList ++ '/' :: below
  | .directory _, archivable, wf, d, member, kind =>
      childEntries_directory archivable.2 wf.2 d member kind
  | .file _ _, _, _, _, member, _ => absurd member List.not_mem_nil

theorem childEntries_directory {relative : String} :
    ∀ {children : List (String × Node)}, ChildrenArchivable children →
      ChildrenWellFormed children → ∀ d ∈ childEntries relative children, d.entry = .directory →
        ∃ e ∈ childEntries relative children, (∃ content mode, e.entry = .file content mode) ∧
          ∃ below, e.path.toList = d.path.toList ++ '/' :: below
  | [], _, _, _, member, _ => absurd member List.not_mem_nil
  | (_, node) :: _, archivable, wf, d, member, kind => by
      rcases List.mem_append.mp member with here | later
      · rcases List.mem_cons.mp here with rfl | inside
        · obtain ⟨e, within, found⟩ :=
            entries_fileBelow (join_ne_empty wf.1.1) archivable.1 wf.2.1 kind
          exact ⟨e, List.mem_append_left _ (List.mem_cons_of_mem _ within), found⟩
        · obtain ⟨e, within, found⟩ := entries_directory archivable.1 wf.2.1 d inside kind
          exact ⟨e, List.mem_append_left _ (List.mem_cons_of_mem _ within), found⟩
      · obtain ⟨e, within, found⟩ := childEntries_directory archivable.2 wf.2.2 d later kind
        exact ⟨e, List.mem_append_right _ within, found⟩

end

/-- A path splits at a slash inside or after its first name. -/
theorem split_at_slash {start name above below rest : List Char} (plain : '/' ∉ name)
    (after : start.length ≤ above.length)
    (same : above ++ '/' :: below = start ++ name ++ rest) :
    (start ++ name).length ≤ above.length := by
  by_contra short
  rw [not_le, List.length_append] at short
  have slash : (above ++ '/' :: below)[above.length]? = some '/' := by simp
  have inside : above.length < (start ++ name).length := by
    rw [List.length_append]
    exact short
  rw [same, List.getElem?_append_left inside, List.getElem?_append_right after] at slash
  exact plain (List.mem_of_getElem? slash)

mutual

/-- Every slash of a path below a node ends the path of a directory. -/
theorem entries_parent {relative : String} (named : relative ≠ "") {above below : List Char} :
    ∀ {node : Node}, node.WellFormed → ∀ e ∈ node.entries relative,
      (relative.toList ++ ['/']).length ≤ above.length → e.path.toList = above ++ '/' :: below →
        ∃ d ∈ node.entries relative, d.entry = .directory ∧ d.path.toList = above
  | .directory _, wf, e, member, inside, path =>
      childEntries_parent (by rwa [childPrefix, if_neg named]) wf.2 e member path
  | .file _ _, _, _, member, _, _ | .symlink _, _, _, member, _, _ =>
      absurd member List.not_mem_nil

theorem childEntries_parent {relative : String} {above below : List Char}
    (within : (childPrefix relative).length ≤ above.length) :
    ∀ {children : List (String × Node)}, ChildrenWellFormed children →
      ∀ e ∈ childEntries relative children, e.path.toList = above ++ '/' :: below →
        ∃ d ∈ childEntries relative children, d.entry = .directory ∧ d.path.toList = above
  | [], _, _, member, _ => absurd member List.not_mem_nil
  | (name, node) :: rest, wf, e, member, path => by
      rcases List.mem_append.mp member with here | later
      · have start := join_toList relative name
        have named : join relative name ≠ "" := join_ne_empty wf.1.1
        rcases List.mem_cons.mp here with rfl | inside
        · -- the child itself has no slash after the directory's own path
          have own : above ++ '/' :: below = childPrefix relative ++ name.toList ++ [] := by
            rw [List.append_nil, ← start, ← path]
          have long := split_at_slash wf.1.2.1 within own
          have total := congrArg List.length (path.symm.trans start)
          rw [List.length_append, List.length_cons] at total
          omega
        · obtain ⟨x, continues⟩ := entries_path named wf.2.1 e inside
          have long := split_at_slash wf.1.2.1 within
            (path.symm.trans (continues.trans (by rw [start])))
          rcases Nat.eq_or_lt_of_le long with equal | longer
          · have own : above = (join relative name).toList := by
              refine (List.append_inj_left (path.symm.trans continues) ?_)
              rw [start, equal]
            cases node with
            | directory children =>
                exact ⟨_, List.mem_append_left _ List.mem_cons_self, rfl, own.symm⟩
            | file _ _ | symlink _ => exact absurd inside List.not_mem_nil
            | unsupported => exact absurd wf.2.1 id
          · obtain ⟨d, found, kind, at_⟩ := entries_parent named wf.2.1 e inside
              (by rw [List.length_append, start]; exact longer) path
            exact ⟨d, List.mem_append_left _ (List.mem_cons_of_mem _ found), kind, at_⟩
      · obtain ⟨d, found, kind, at_⟩ := childEntries_parent within wf.2.2 e later path
        exact ⟨d, List.mem_append_right _ found, kind, at_⟩

end

section Archived

variable {relative : String} {files : List InventoryFile}
  {children children' : List (String × Node)}

/-- Two archivable trees with the same files have the same directories. -/
theorem directory_of_files (archivable : (Node.directory children).Archivable)
    (wf : (Node.directory children).WellFormed) (wf' : (Node.directory children').WellFormed)
    (same : ∀ path content mode,
      ⟨path, .file content mode⟩ ∈ (Node.directory children).entries "" →
        ∃ mode', ⟨path, .file content mode'⟩ ∈ (Node.directory children').entries "")
    {path : String} (member : ⟨path, .directory⟩ ∈ (Node.directory children).entries "") :
    ⟨path, .directory⟩ ∈ (Node.directory children').entries "" := by
  obtain ⟨⟨name, entry⟩, inside, ⟨content, mode, kind⟩, below, under⟩ :=
    entries_directory archivable wf _ member rfl
  cases kind
  obtain ⟨mode', there⟩ := same name content mode inside
  obtain ⟨⟨above, entry⟩, found, kind, at_⟩ :=
    childEntries_parent (Nat.zero_le _) wf'.2 _ there under
  cases kind
  cases String.toList_inj.mp at_
  exact found

/-- The inventory records the mode of every file of the tree it was made for. -/
theorem archivedMode_eq (keyed : Keyed (·.path) files)
    (inventoried : ∀ f ∈ inventoryOf relative (.directory children), f ∈ files) {path : String}
    {content : List UInt8} {mode : Bool} (other : Bool)
    (member : ⟨path, .file content mode⟩ ∈ (Node.directory children).entries "") :
    archivedMode files relative path other = mode := by
  have recorded : (⟨"data/" ++ relative ++ "/" ++ path, mode⟩ : InventoryFile) ∈ files :=
    inventoried _ (List.mem_filterMap.mpr ⟨_, member, rfl⟩)
  have found : files.find? (fun file => file.path = "data/" ++ relative ++ "/" ++ path) = some _ :=
    keyed.find_of_mem recorded
  rw [archivedMode, found]
  rfl

/-- A tree rebuilt from an archive is hashed as the original was. -/
theorem archived_transcript (wf : (Node.directory children).WellFormed)
    (wf' : (Node.directory children').WellFormed)
    (archivable : (Node.directory children).Archivable)
    (archivable' : (Node.directory children').Archivable) (keyed : Keyed (·.path) files)
    (inventoried : ∀ f ∈ inventoryOf relative (.directory children), f ∈ files)
    (same : ∀ path content,
      (∃ mode, ⟨path, .file content mode⟩ ∈ (Node.directory children).entries "") ↔
        ∃ mode, ⟨path, .file content mode⟩ ∈ (Node.directory children').entries "") :
    transcript (archivedMode files relative) (.directory children') =
      transcript ownMode (.directory children) := by
  refine transcript_congr wf' wf fun e => ?_
  rw [map_under_ownMode]
  constructor
  · intro member
    obtain ⟨⟨path, entry⟩, inside, rfl⟩ := List.mem_map.mp member
    rcases entries_kinds archivable' _ inside with kind | ⟨content, mode, kind⟩
    · cases kind
      exact directory_of_files archivable' wf' wf
        (fun path content mode found => (same path content).mpr ⟨mode, found⟩) inside
    · cases kind
      obtain ⟨mode', found⟩ := (same path content).mpr ⟨mode, inside⟩
      have recorded := archivedMode_eq keyed inventoried mode found
      simpa only [TreeEntry.under, recorded] using found
  · intro member
    obtain ⟨path, entry⟩ := e
    rcases entries_kinds archivable _ member with kind | ⟨content, mode, kind⟩
    · cases kind
      refine List.mem_map.mpr ⟨⟨path, .directory⟩, ?_, rfl⟩
      exact directory_of_files archivable wf wf'
        (fun path content mode found => (same path content).mp ⟨mode, found⟩) member
    · cases kind
      obtain ⟨mode', found⟩ := (same path content).mp ⟨mode, member⟩
      refine List.mem_map.mpr ⟨⟨path, .file content mode'⟩, found, ?_⟩
      simp only [TreeEntry.under, archivedMode_eq keyed inventoried mode' member]

end Archived

/-- The local-tree transcript is canonical and injective, also through an archive. -/
theorem transcript_iff (children children' : List (String × Node))
    (wf : (Node.directory children).WellFormed) (wf' : (Node.directory children').WellFormed) :
    (∃ bytes bytes', transcript ownMode (.directory children) = .ok bytes ∧
      transcript ownMode (.directory children') = .ok bytes' ∧
      (Fits ((Node.directory children).entries "") → Fits ((Node.directory children').entries "") →
        (bytes = bytes' ↔ ∀ e, e ∈ (Node.directory children).entries "" ↔
          e ∈ (Node.directory children').entries ""))) ∧
    ∀ relative files, (Node.directory children).Archivable → (Node.directory children').Archivable →
      Keyed InventoryFile.path files →
      (∀ f ∈ inventoryOf relative (.directory children), f ∈ files) →
      (∀ path content,
        (∃ mode, ⟨path, .file content mode⟩ ∈ (Node.directory children).entries "") ↔
          ∃ mode, ⟨path, .file content mode⟩ ∈ (Node.directory children').entries "") →
      transcript (archivedMode files relative) (.directory children') =
        transcript ownMode (.directory children) := by
  constructor
  · obtain ⟨_, -, -, ran⟩ := transcript_ok ownMode wf
    obtain ⟨_, -, -, ran'⟩ := transcript_ok ownMode wf'
    refine ⟨_, _, ran, ran', fun fits fits' => ?_⟩
    constructor
    · intro same e
      have sets := transcript_eq wf wf' fits fits' (ran.trans (same ▸ ran'.symm)) e
      rwa [map_under_ownMode, map_under_ownMode] at sets
    · intro same
      have sets : transcript ownMode (.directory children) =
          transcript ownMode (.directory children') :=
        transcript_congr wf wf' (by rwa [map_under_ownMode, map_under_ownMode])
      exact Except.ok.inj (ran.symm.trans (sets.trans ran'))
  · intro relative files archivable archivable' keyed inventoried same
    exact archived_transcript wf wf' archivable archivable' keyed inventoried same

/-! A directory beside a file whose name sorts between the directory and its contents. -/

section Study

def studyTree : List (String × Node) :=
  [("a", .directory [("b", .file [1, 2] true)]), ("a!", .file [0, 0, 0, 0, 0, 0, 0, 3] false)]

def listedTree : List (String × Node) :=
  [("a!", .file [0, 0, 0, 0, 0, 0, 0, 3] true), ("a", .directory [("b", .file [1, 2] false)])]

theorem transcript_iff_study :
    ∃ bytes bytes', transcript ownMode (.directory studyTree) = .ok bytes ∧
      transcript ownMode (.directory listedTree) = .ok bytes' ∧ bytes ≠ bytes' ∧
      transcript (archivedMode [⟨"data/run/a!", false⟩, ⟨"data/run/a/b", true⟩] "run")
        (.directory listedTree) = .ok bytes := by
  have wf : (Node.directory studyTree).WellFormed := by
    simp [studyTree, Node.WellFormed, ChildrenWellFormed, Keyed]
  have wf' : (Node.directory listedTree).WellFormed := by
    simp [listedTree, Node.WellFormed, ChildrenWellFormed, Keyed]
  have archivable : (Node.directory studyTree).Archivable := by
    simp [studyTree, Node.Archivable, ChildrenArchivable]
  have archivable' : (Node.directory listedTree).Archivable := by
    simp [listedTree, Node.Archivable, ChildrenArchivable]
  have entries : (Node.directory studyTree).entries "" = [⟨"a", .directory⟩,
      ⟨"a/b", .file [1, 2] true⟩, ⟨"a!", .file [0, 0, 0, 0, 0, 0, 0, 3] false⟩] := by
    decide +kernel
  have entries' : (Node.directory listedTree).entries "" =
      [⟨"a!", .file [0, 0, 0, 0, 0, 0, 0, 3] true⟩, ⟨"a", .directory⟩,
        ⟨"a/b", .file [1, 2] false⟩] := by
    decide +kernel
  have fits : Fits ((Node.directory studyTree).entries "") := by
    rw [entries]
    exact ⟨by decide, by decide, by simp, by simp⟩
  have fits' : Fits ((Node.directory listedTree).entries "") := by
    rw [entries']
    exact ⟨by decide, by decide, by simp, by simp⟩
  obtain ⟨⟨bytes, bytes', ran, ran', iff⟩, archived⟩ := transcript_iff studyTree listedTree wf wf'
  refine ⟨bytes, bytes', ran, ran', fun same => ?_, ?_⟩
  · have sets := (iff fits fits').mp same ⟨"a/b", .file [1, 2] true⟩
    rw [entries, entries'] at sets
    simp at sets
  · rw [← ran]
    refine archived "run" _ archivable archivable' (by unfold Keyed; decide) ?_ ?_
    · rw [inventoryOf, entries]
      decide
    · intro path content
      rw [entries, entries']
      simp
      tauto

end Study

end Metewand.Evidence
