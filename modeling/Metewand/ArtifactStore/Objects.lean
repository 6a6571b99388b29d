import Metewand.Core.Spelling
import Metewand.Lib.Check

/-!
# Completed objects of the artifact cache

An object directory holds a data tree and a `manifest.json`, its completion
marker.  `verifyObject` is `verify_object` of `runtime/artifact_store.rs` and
`stageObject` the part of `import_tree` before its second hold of the cache lock.

Walking and hashing a data tree, the canonical JSON codec and SHA-256 are the
parameter `Trees`.  What the cache relies on is `Trees.CollisionFree`: a tree hash
fixes the inventory.  A verified marker repeats the inventory and nothing else, so
two objects that verify under one digest have one marker (`markerHash_unique`).
-/

namespace Metewand.ArtifactStore

open Lib.Check

/-- Cache publication, integrity, mapping, or lease failure. -/
inductive ArtifactStoreError where
  | invalidTarget (id : String)
  | unknownTarget (id : String)
  | invalidRootName
  | unknownRoot (name : String)
  | catalog (text : String)
  | unsafeEntry
  | changedContent
  | quarantined (digest : Digest)
  | derivationConflict
  | io
  | tree
  | canonical
  | schema
  | json
  | sqlite
  deriving DecidableEq

/-- One line of an inventory. -/
inductive Entry where
  | directory (path : String)
  | file (path : String) (sizeBytes : Nat) (sha256 : String) (executable : Bool)
  deriving DecidableEq, Repr

/-- What the cache uses of data trees, of the canonical codec and of SHA-256. -/
structure Trees (Tree : Type) where
  inventory : Tree → Except ArtifactStoreError (List Entry)
  hashLocalTree : Tree → Except ArtifactStoreError Digest
  sameContents : Tree → Tree → Bool
  repositoryPath : String → Bool
  fromSlice : List UInt8 → Option Json
  toCanonicalBytes : Json → List UInt8
  sha256 : List UInt8 → Digest

/-- The tree hash covers every path, kind, executable bit and content. -/
def Trees.CollisionFree {Tree : Type} (trees : Trees Tree) : Prop :=
  ∀ {left right : Tree} {digest : Digest}, trees.hashLocalTree left = .ok digest →
    trees.hashLocalTree right = .ok digest → trees.inventory left = trees.inventory right

/-- What stands at a path below `objects` or `garbage`. -/
structure Object (Tree : Type) where
  /-- Sorted names of the directory's entries. -/
  names : List String
  /-- The bytes of `manifest.json`, when it is a regular file. -/
  manifest : Option (List UInt8)
  data : Tree

/-! ## Completion markers -/

/-- `ARTIFACT_STORE_VERSION`. -/
def artifactStoreVersion : Nat := 1

/-- `LOCAL_TREE_HASH_VERSION`. -/
def localTreeHashVersion : Nat := 1

/-- A text of 64 lowercase hexadecimal digits. -/
def isSha256 (text : String) : Bool := text.toList.length == 64 && text.toList.all isHexDigit

def Entry.json : Entry → Json
  | .directory path => .object [("kind", .str "directory"), ("path", .str path)]
  | .file path sizeBytes sha256 executable =>
      .object [("kind", .str "file"), ("path", .str path), ("size_bytes", .nat sizeBytes),
        ("sha256", .str sha256), ("executable", .bool executable)]

/-- An item of `entries` in the marker's schema.  Members are in key order and every
property is required, so each alternative is one pattern. -/
def decodeEntry (repositoryPath : String → Bool) : Json → Option Entry
  | .obj [("kind", .str "directory"), ("path", .str path)] =>
      if repositoryPath path = true then some (.directory path) else none
  | .obj [("executable", .bool executable), ("kind", .str "file"), ("path", .str path),
      ("sha256", .str sha256), ("size_bytes", .num (.int (.ofNat sizeBytes)))] =>
      if repositoryPath path = true ∧ isSha256 sha256 = true ∧ sizeBytes ≤ maxSafeInteger then
        some (.file path sizeBytes sha256 executable)
      else none
  | _ => none

def decodeEntries (repositoryPath : String → Bool) : List Json → Option (List Entry)
  | [] => some []
  | item :: rest =>
      match decodeEntry repositoryPath item, decodeEntries repositoryPath rest with
      | some entry, some entries => some (entry :: entries)
      | _, _ => none

/-- The marker `import_tree` writes. -/
def markerDocument (digest : Digest) (entries : List Entry) : Json :=
  .object [("schema_version", .nat artifactStoreVersion), ("complete", .bool true),
    ("tree_hash_version", .nat localTreeHashVersion), ("tree_sha256", .str digest.hex),
    ("entries", .arr (entries.map Entry.json))]

/-- Validation against `artifact-cache-object.schema.json`, returning the stated tree
hash and the entries. -/
def readMarker (repositoryPath : String → Bool) : Json → Option (String × List Entry)
  | .obj [("complete", .bool true), ("entries", .arr items), ("schema_version", .num (.int 1)),
      ("tree_hash_version", .num (.int 1)), ("tree_sha256", .str sha256)] =>
      if isSha256 sha256 = true then
        (decodeEntries repositoryPath items).map fun entries => (sha256, entries)
      else none
  | _ => none

/-! ## Verification -/

section Verification

variable {Tree : Type} (trees : Trees Tree)

/-- `verify_object`: the marker is complete and canonical, names this digest and repeats
the inventory of the data, whose tree hash is the digest. -/
def verifyObject (object : Object Tree) (digest : Digest) : Except ArtifactStoreError Unit := do
  reject (object.names ≠ ["data", "manifest.json"]) .changedContent
  let bytes ← expect object.manifest .unsafeEntry
  let marker ← expect (trees.fromSlice bytes) .canonical
  let (sha256, entries) ← expect (readMarker trees.repositoryPath marker) .schema
  reject (trees.toCanonicalBytes marker ≠ bytes) .changedContent
  reject (sha256 ≠ digest.hex) .changedContent
  let found ← trees.inventory object.data
  reject (entries ≠ found) .changedContent
  let hash ← trees.hashLocalTree object.data
  reject (hash ≠ digest) .changedContent

/-- `marker_hash`. -/
def markerHash (object : Object Tree) : Except ArtifactStoreError Digest := do
  let bytes ← expect object.manifest .unsafeEntry
  return trees.sha256 bytes

/-- `same_bytes`. -/
def sameBytes (left right : Tree) : Except ArtifactStoreError Bool := do
  let entries ← trees.inventory left
  let others ← trees.inventory right
  return decide (entries = others) && trees.sameContents left right

/-- `copy_verified`: the copy of the source has its inventory and the expected hash. -/
def copyVerified (source copy : Tree) (expected : Digest) : Except ArtifactStoreError Unit := do
  let entries ← trees.inventory source
  let hash ← trees.hashLocalTree source
  reject (hash ≠ expected) .changedContent
  let copied ← trees.inventory copy
  reject (copied ≠ entries) .changedContent
  let again ← trees.hashLocalTree copy
  reject (again ≠ expected) .changedContent

/-- The staging of `import_tree`: a verified copy of the source beside its marker. -/
def stageObject (source copy : Tree) (expected : Digest) :
    Except ArtifactStoreError (Object Tree) := do
  copyVerified trees source copy expected
  let entries ← trees.inventory copy
  let marker := markerDocument expected entries
  let _ ← expect (readMarker trees.repositoryPath marker) .schema
  let object : Object Tree :=
    { names := ["data", "manifest.json"], manifest := some (trees.toCanonicalBytes marker),
      data := copy }
  verifyObject trees object expected
  return object

variable {trees}

theorem verifies_of_stageObject {source copy : Tree} {expected : Digest} {object : Object Tree}
    (staged : stageObject trees source copy expected = .ok object) :
    verifyObject trees object expected = .ok () := by
  simp only [stageObject, ok_bind, ok_pure] at staged
  obtain ⟨-, -, entries, -, -, -, ⟨⟩, verified, rfl⟩ := staged
  exact verified

theorem decodeEntry_json {repositoryPath : String → Bool} {item : Json} {entry : Entry}
    (read : decodeEntry repositoryPath item = some entry) : item = entry.json := by
  unfold decodeEntry at read
  split at read
  · split at read
    · cases read
      simp +decide [Entry.json, Json.object, Json.insertMember]
    · cases read
  · split at read
    · cases read
      simp +decide [Entry.json, Json.object, Json.insertMember, Json.nat]
    · cases read
  · cases read

theorem decodeEntries_json {repositoryPath : String → Bool} {items : List Json}
    {entries : List Entry} (read : decodeEntries repositoryPath items = some entries) :
    items = entries.map Entry.json := by
  induction items generalizing entries with
  | nil =>
      cases read
      rfl
  | cons item rest ih =>
      simp only [decodeEntries] at read
      split at read
      · rename_i entry others first remaining
        cases read
        rw [List.map_cons, ← decodeEntry_json first, ← ih remaining]
      · cases read

/-- The schema leaves no freedom beyond the tree hash and the entries. -/
theorem readMarker_document {repositoryPath : String → Bool} {marker : Json} {digest : Digest}
    {entries : List Entry} (read : readMarker repositoryPath marker = some (digest.hex, entries)) :
    marker = markerDocument digest entries := by
  unfold readMarker at read
  split at read
  · split at read
    · obtain ⟨found, decoded, same⟩ := Option.map_eq_some_iff.mp read
      obtain ⟨rfl, rfl⟩ := Prod.mk.inj same
      rw [decodeEntries_json decoded]
      simp +decide [markerDocument, Json.object, Json.insertMember, Json.nat, artifactStoreVersion,
        localTreeHashVersion]
    · cases read
  · cases read

/-- What verification establishes of the marker and the data. -/
theorem verifyObject_ok {object : Object Tree} {digest : Digest}
    (verified : verifyObject trees object digest = .ok ()) :
    ∃ entries, trees.inventory object.data = .ok entries ∧
      trees.hashLocalTree object.data = .ok digest ∧
      object.manifest = some (trees.toCanonicalBytes (markerDocument digest entries)) := by
  simp only [verifyObject, ok_bind, ok_reject, ok_expect, not_not] at verified
  obtain ⟨-, -, bytes, manifest, marker, -, ⟨sha256, entries⟩, read, ⟨⟩, canonical, ⟨⟩, named,
    found, inventory, ⟨⟩, repeated, hash, hashed, correct⟩ := verified
  simp only at named repeated
  subst named
  subst repeated
  subst correct
  refine ⟨entries, inventory, hashed, ?_⟩
  rw [← readMarker_document read, canonical, manifest]

theorem markerHash_of_verifies {object : Object Tree} {digest : Digest}
    (verified : verifyObject trees object digest = .ok ()) :
    ∃ marker, markerHash trees object = .ok marker := by
  obtain ⟨entries, -, -, manifest⟩ := verifyObject_ok verified
  refine ⟨trees.sha256 (trees.toCanonicalBytes (markerDocument digest entries)), ?_⟩
  simp only [markerHash, manifest]
  rfl

/-- Two objects verified under one digest have one marker. -/
theorem markerHash_unique (collisionFree : trees.CollisionFree) {left right : Object Tree}
    {digest : Digest} (first : verifyObject trees left digest = .ok ())
    (second : verifyObject trees right digest = .ok ()) :
    markerHash trees left = markerHash trees right := by
  obtain ⟨entries, inventory, hashed, manifest⟩ := verifyObject_ok first
  obtain ⟨entries', inventory', hashed', manifest'⟩ := verifyObject_ok second
  have same : entries = entries' := by
    have := collisionFree hashed hashed'
    rw [inventory, inventory'] at this
    exact Except.ok.inj this
  subst same
  simp only [markerHash, manifest, manifest']

end Verification

end Metewand.ArtifactStore
