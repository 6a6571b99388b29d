import Metewand.Buffered.Documents
import Metewand.Evidence.LocalTree
import Metewand.Lib.OrderedMap

/-!
# Finalized directories

`runtime/publication.rs`: the inventory of a directory, the completion marker that lists it,
`prepare_directory`, `verify_finalized_directory` and `same_contents`.  A directory is the
tree the file system holds while it is read.  An entry whose name is no UTF-8 text is refused
like one of an unsupported type, and counts as such.

Synchronizing a file or a directory changes no tree.  The public schema of the marker is a
predicate on documents.
-/

namespace Metewand.Publication

open Lib Lib.Check Evidence

inductive PublicationError where
  | unsafeEntry (path : String)
  | inventoryMismatch
  | conflict (path : String)
  | io
  | canonical
  | schema
  | decode
  deriving DecidableEq, Repr

/-! ## Entries -/

structure FileEntry where
  path : String
  sha256 : String
  sizeBytes : Nat
  mediaType : String
  deriving DecidableEq

def FileEntry.json (entry : FileEntry) : Json :=
  .object [("path", .str entry.path), ("sha256", .str entry.sha256), ("size_bytes", .nat entry.sizeBytes),
    ("media_type", .str entry.mediaType)]

/-- Members besides these are passed over. -/
def FileEntry.fromJson (v : Json) : Option FileEntry := do
  return {
    path := ← (v.get "path").asStr?
    sha256 := ← (v.get "sha256").asStr?
    sizeBytes := ← (v.get "size_bytes").asUnsigned? 64
    mediaType := ← (v.get "media_type").asStr? }

def mediaType (path : String) : String :=
  if ".json".toList.isSuffixOf path.toList then "application/json" else "application/octet-stream"

/-- `valid_repository_path` of `core/manifest.rs`. -/
def validRepositoryPath (value : String) : Bool :=
  value ≠ "" && !(value.toList.head?.any fun c => c = '/' ∨ c = '\\') &&
    decide (value.toList.getLast? ≠ some '/') && decide ('\\' ∉ value.toList) &&
    (value.toList.splitOn '/').all fun component =>
      component ≠ [] ∧ component ≠ ['.'] ∧ component ≠ ['.', '.']

/-- A relative path of portable text that a repository may name. -/
def checkPath (path : String) : Except PublicationError Unit := do
  reject ('\\' ∈ path.toList ∨ Char.ofNat 0 ∈ path.toList) (.unsafeEntry path)
  reject (validRepositoryPath path = false) (.unsafeEntry path)

/-! ## Trees -/

/-- The file an entry of a tree is. -/
def regular (e : TreeEntry) : Option (String × List UInt8) :=
  match e.entry with
  | .file content _ => some (e.path, content)
  | _ => none

/-- The regular files below a directory, with their paths. -/
def files (root : Node) : List (String × List UInt8) := (root.entries "").filterMap regular

def readFile (root : Node) (path : String) : Option (List UInt8) :=
  ((files root).find? fun f => f.1 = path).map Prod.snd

/-- An entry of the directory itself. -/
def child (name : String) : Node → Option Node
  | .directory children => lookupEntry name children
  | _ => none

/-- A file that must not be there yet. -/
def createFile (name : String) (data : List UInt8) : Node → Except PublicationError Node
  | .directory children =>
      if (lookupEntry name children).isSome then .error .io
      else .ok (.directory (children ++ [(name, .file data false)]))
  | _ => .error .io

section Inventory

variable (sha256 : List UInt8 → Digest)

def fileEntry (path : String) (content : List UInt8) : FileEntry :=
  ⟨path, (sha256 content).hex, content.length, mediaType path⟩

mutual

/-- `walk`: the files at and below a path.  A directory below the root must not be empty. -/
def walk (relative : String) : Node → Except PublicationError (List FileEntry)
  | .directory children => do
      let found ← walkChildren relative children
      reject (children.isEmpty = true ∧ relative ≠ "") (.unsafeEntry relative)
      return found
  | .file content _ => .ok [fileEntry sha256 relative content]
  | .symlink _ | .unsupported => .error (.unsafeEntry relative)

def walkChildren (relative : String) : List (String × Node) → Except PublicationError (List FileEntry)
  | [] => .ok []
  | (name, node) :: rest => do
      checkPath (join relative name)
      let here ← walk (join relative name) node
      let others ← walkChildren relative rest
      return here ++ others

end

/-- The files of a directory by their paths. -/
def inventory (root : Node) : Except PublicationError (OrderedMap String FileEntry) := do
  reject (root.entry ≠ .directory) (.unsafeEntry "")
  let found ← walk sha256 "" root
  return .ofRows FileEntry.path found

/-! ## The completion marker -/

section Marker

variable (lib : JsonLibrary) (schema : Json → Bool)

def manifestName : String := "manifest.json"

def markerJson (files : List FileEntry) : Json :=
  .object [("schema_version", .nat 1), ("complete", .bool true), ("files", .arr (files.map FileEntry.json))]

def readFiles (v : Json) : Option (List FileEntry) := do
  let items ← (v.get "files").asArray?
  items.mapM FileEntry.fromJson

def readMarker (directory : Node) : Except PublicationError (List FileEntry) := do
  reject (directory.entry ≠ .directory) (.unsafeEntry "")
  match ← expect (child manifestName directory) .io with
  | .file data _ => do
      let document ← expect (lib.fromSlice data) .canonical
      reject (schema document.value = false) .schema
      expect (readFiles document.value) .decode
  | _ => throw (.unsafeEntry "")

/-- The marker lists exactly the files there are. -/
def verifyFinalizedDirectory (directory : Node) : Except PublicationError Unit := do
  let marker ← readMarker lib schema directory
  let actual ← inventory sha256 directory
  reject (marker ≠ (actual.erase manifestName).values) .inventoryMismatch

/-- `prepare_directory`: the stage with its marker written last. -/
def prepareDirectory (stage : Node) : Except PublicationError Node := do
  let files ← inventory sha256 stage
  reject (files.get manifestName).isSome (.conflict manifestName)
  let marker ← (CanonicalValue.tryFrom (markerJson files.values)).mapError fun _ => .canonical
  reject (schema marker.value = false) .schema
  let prepared ← createFile manifestName (lib.encode marker.value) stage
  verifyFinalizedDirectory sha256 lib schema prepared
  return prepared

end Marker

/-! ## Comparing two directories -/

/-- Two files are compared by blocks of the first one. -/
def compareBytes (a b : List UInt8) : Except PublicationError Bool :=
  if a = [] then .ok true
  else if b.length < (a.take 8192).length then .error .io
  else if a.take 8192 ≠ b.take (a.take 8192).length then .ok false
  else compareBytes (a.drop 8192) (b.drop (a.take 8192).length)
termination_by a.length
decreasing_by
  rename_i some _ _
  have := List.length_pos_iff.mpr some
  rw [List.length_drop]
  omega

def compareFiles (left right : Node) : List String → Except PublicationError Bool
  | [] => .ok true
  | path :: rest => do
      let a ← expect (readFile left path) .io
      let b ← expect (readFile right path) .io
      if ← compareBytes a b then compareFiles left right rest else return false

def sameContents (left right : Node) : Except PublicationError Bool := do
  let leftFiles ← inventory sha256 left
  let rightFiles ← inventory sha256 right
  if leftFiles ≠ rightFiles then return false
  else compareFiles left right leftFiles.keys

end Inventory

end Metewand.Publication
