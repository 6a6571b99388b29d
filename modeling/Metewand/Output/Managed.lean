import Metewand.Execution.Session
import Metewand.Lib.Chunks

/-!
# Managed outputs

`runtime/managed_output.rs`: a worker that answers with a draft leaves its output directory to
`finalize`, which checks the draft and the files it declares, writes the documents beside them
and removes the draft.

The directory is the tree at the path the request names.  Before each operation of the call a
`Moment` passes: other parties change the tree, the clock is read, and the operation may fail.
Temporary files and documents that are dropped when the call ends are locals of `World`.
-/

namespace Metewand.Output

open Lib Lib.Check Lib.Effect Execution

/-! ## The directory and what happens to it -/

inductive OutputError where
  | timedOut
  | invalid (message : String)
  | path (reference : String)
  | entries
  | canonical
  | schema
  | decode
  | io
  | stopped
  deriving DecidableEq

/-- What lies at a path below the output directory. -/
inductive Entry where
  | file (content : List UInt8)
  | directory
  /-- A symbolic link, socket or device, or a name that is no text. -/
  | special
  deriving DecidableEq

abbrev Tree : Type := OrderedMap String Entry

/-- What happens before one operation. -/
structure Moment where
  now : Nat
  /-- The operation fails. -/
  fails : Bool
  /-- The name a new temporary file is given. -/
  name : String
  /-- What other parties do to the directory. -/
  others : Tree → Tree

/-- The directory, the response and the locals of the call. -/
structure World where
  time : Nat
  tree : Tree
  response : Json
  /-- Temporary files with the names of the documents they hold. -/
  staged : List (String × String)
  published : List String

/-- A call starts without locals. -/
def World.start (tree : Tree) (response : Json) : World := ⟨0, tree, response, [], []⟩

abbrev Call (α : Type) : Type := Effect World OutputError α

section Operations

variable (env : Nat → Moment) (deadline : Option Nat)

/-- The next moment passes. -/
def moment : Call Moment := fun w =>
  ({ w with time := w.time + 1, tree := (env w.time).others w.tree }, .ok (env w.time))

def Expired (now : Nat) : Prop := ∃ limit ∈ deadline, limit ≤ now

instance (now : Nat) : Decidable (Expired deadline now) := by
  unfold Expired
  infer_instance

def checkDeadline : Call Unit := do
  let m ← moment env
  require (¬Expired deadline m.now) .timedOut

/-- An operation of the file system that may fail. -/
def operate : Call Moment := do
  let m ← moment env
  require (m.fails = false) .io
  pure m

def readFile (path : String) : Call (List UInt8) := do
  let _ ← operate env
  let w ← get
  match w.tree.get path with
  | some (.file content) => pure content
  | _ => fail .io

/-- `OutputTree::inspect` and `output_files`: the regular files, when there are no others. -/
def outputFiles : Call (List String) := do
  let _ ← operate env
  let w ← get
  require (∀ e ∈ w.tree.entries, e.2 ≠ .special) .entries
  pure ((w.tree.entries.filter fun e => e.2 ≠ .directory).map Prod.fst)

/-- The buffer of a read or a write. -/
def bufferSize : Nat := 65536

/-! ## Writing the documents -/

/-- A new temporary file for the document `name`. -/
def createTemp (name : String) : Call String := do
  let m ← operate env
  let w ← get
  require (w.tree.get m.name = none) .io
  modify fun w => { w with
    tree := w.tree.insert m.name (.file []), staged := w.staged ++ [(m.name, name)] }
  pure m.name

/-- A chunk goes to the end of the open file. -/
def appendTo (path : String) (chunk : List UInt8) (tree : Tree) : Tree :=
  match tree.get path with
  | some (.file content) => tree.insert path (.file (content ++ chunk))
  | _ => tree

def writeChunk (temp : String) (chunk : List UInt8) : Call Unit := do
  checkDeadline env deadline
  let _ ← operate env
  modify fun w => { w with tree := appendTo temp chunk w.tree }

def stageDocument (document : String × List UInt8) : Call Unit := do
  checkDeadline env deadline
  let temp ← createTemp env document.1
  forEach (writeChunk env deadline temp) (chunks bufferSize document.2)

/-- `persist_noclobber`: the temporary file is renamed to a path that must be free. -/
def persist (staged : String × String) : Call Unit := do
  checkDeadline env deadline
  let _ ← operate env
  let w ← get
  require (w.tree.get staged.2 = none) .io
  match w.tree.get staged.1 with
  | some entry =>
      modify fun w => { w with
        tree := (w.tree.erase staged.1).insert staged.2 entry
        staged := w.staged.tail
        published := w.published ++ [staged.2] }
  | none => fail .io

def removeDraft (path : String) : Call Unit := do
  let _ ← operate env
  let w ← get
  require ((w.tree.get path).isSome = true) .io
  modify fun w => { w with tree := w.tree.erase path }

/-! ## The response -/

/-- `Value::get`. -/
def member (key : String) : Json → Option Json
  | .obj members => Json.lookupMember key members
  | _ => none

/-- `Map::remove`. -/
def without (key : String) : Json → Json
  | .obj members => .obj (members.filter fun m => m.1 ≠ key)
  | other => other

inductive OutputKind where
  | dataset
  | result
  | metrics
  deriving DecidableEq

def OutputKind.name : OutputKind → String
  | .dataset => "dataset"
  | .result => "result"
  | .metrics => "metrics"

/-- The response without its draft; a dataset or a result names its manifest instead. -/
def answered (kind : OutputKind) (manifest : String) (response : Json) : Json :=
  match kind with
  | .metrics => without "draft" response
  | .dataset | .result =>
      (without "draft" response).set kind.name (.object [("manifest", .str manifest)])

structure PreparedOutput where
  draftPath : String
  expected : OutputKind
  manifest : String
  documents : List (String × List UInt8)

/-- `publish` up to the removal of the draft. -/
def placeDocuments (prepared : PreparedOutput) : Call Unit := do
  forEach (stageDocument env deadline) prepared.documents
  let w ← get
  forEach (persist env deadline) w.staged
  checkDeadline env deadline
  removeDraft env prepared.draftPath

/-- The body of `publish`; the deadline is checked once more when the draft is gone. -/
def publishBody (prepared : PreparedOutput) : Call Unit := do
  placeDocuments env deadline prepared
  checkDeadline env deadline
  modify fun w => { w with
    response := answered prepared.expected prepared.manifest w.response, published := [] }

/-- What the destructors leave: neither temporary files nor published documents. -/
def dropped (w : World) : World := { w with
  tree := (w.staged.map Prod.fst ++ w.published).foldl OrderedMap.erase w.tree
  staged := []
  published := [] }

def publish (prepared : PreparedOutput) : Call Unit := fun w =>
  match publishBody env deadline prepared w with
  | (w', outcome) => (dropped w', outcome)

/-! ## Preparation -/

structure Artifact where
  path : String
  mediaType : String
  representation : Option Json

structure Draft where
  schemaVersion : Nat
  kind : String
  data : Option Json
  files : List Artifact

/-- `Option<Value>` of a member that may be missing. -/
def optional (v : Json) : Option Json := if v = .null then none else some v

/-- Members of the given names only. -/
def onlyFields (names : List String) : Json → Option Unit
  | .obj members => if members.all fun m => names.contains m.1 then some () else none
  | _ => none

def Artifact.fromJson (v : Json) : Option Artifact := do
  onlyFields ["path", "media_type", "representation"] v
  return {
    path := ← (v.get "path").asStr?
    mediaType := ← (v.get "media_type").asStr?
    representation := optional (v.get "representation") }

def Draft.fromJson (v : Json) : Option Draft := do
  onlyFields ["schema_version", "kind", "data", "files"] v
  return {
    schemaVersion := ← (v.get "schema_version").asUnsigned? 32
    kind := ← (v.get "kind").asStr?
    data := optional (v.get "data")
    files := ← (← (v.get "files").asArray?).mapM Artifact.fromJson }

/-- One entry of a manifest. -/
structure FileRecord where
  path : String
  mediaType : String
  sha256 : String
  sizeBytes : Nat
  representation : Option Json
  deriving DecidableEq

def FileRecord.json (record : FileRecord) : Json :=
  let entry := Json.object [("path", .str record.path), ("media_type", .str record.mediaType),
    ("sha256", .str record.sha256), ("size_bytes", .nat record.sizeBytes)]
  match record.representation with
  | some representation => entry.set "representation" representation
  | none => entry

/-- `Path::file_name`, for a path of text. -/
def fileName (path : String) : Option String :=
  match ((path.toList.splitOn '/').filter fun part => part ≠ [] ∧ part ≠ ['.']).getLast? with
  | some name => if name = ['.', '.'] then none else some (String.ofList name)
  | none => none

/-- `Path::parent` is `None`: the path is empty or a root. -/
def parentless (path : String) : Bool :=
  ((path.toList.splitOn '/').all fun part => part = [] ∨ part = ['.']) &&
    (path.toList = [] || path.toList.head? = some '/')

/-- The kind of output an operation leaves and the name of its document. -/
def target (request : Json) : Except OutputError (OutputKind × String) := do
  let method ← expect (request.get "method").asStr? (.invalid "missing operation")
  if method = "execute" then do
    let _ ← expect (request.get "result_dir").asStr? (.invalid "missing result directory")
    return (.result, "result.json")
  else if method = "materialize" then do
    let _ ← expect (request.get "output_dir").asStr? (.invalid "missing dataset directory")
    return (.dataset, "dataset-manifest.json")
  else if method = "evaluate" then do
    let path ← expect (request.get "metrics_path").asStr? (.invalid "missing metrics path")
    reject (parentless path = true) (.invalid "missing metrics directory")
    let name ← expect (fileName path) (.invalid "invalid metrics filename")
    return (.metrics, name)
  else .error (.invalid "operation cannot return a managed output draft")

section Preparation

variable (lib : JsonLibrary) (sha256 : List UInt8 → Digest) (schema : Json → Bool) (realRoot : Bool)

/-- `document_bytes`. -/
def documentBytes (value : Json) : Call (List UInt8) := do
  checkDeadline env deadline
  let value ← answer (match value.normalize with
    | .ok value => .ok value
    | .error _ => .error .canonical)
  checkDeadline env deadline
  checkDeadline env deadline
  pure (lib.encode value)

/-- Declare a file: not an invalid, reserved or declared path. -/
def declare (manifest : String) (declared : List String) (file : Artifact) :
    Except OutputError (List String) := do
  let _ ← expect (validateRelativePath file.path) (.path file.path)
  reject (file.mediaType = "" ∨ file.path = manifest ∨ file.path ∈ declared)
    (.invalid "duplicate, reserved, or invalid artifact declaration")
  return file.path :: declared

def declareAll (manifest : String) : List String → List Artifact → Call (List String)
  | declared, [] => pure declared
  | declared, file :: rest => do
      checkDeadline env deadline
      let declared ← answer (declare manifest declared file)
      declareAll manifest declared rest

/-- The record of a file with the given content. -/
def fileRecord (file : Artifact) (content : List UInt8) : FileRecord :=
  ⟨file.path, file.mediaType, (sha256 content).hex, content.length, file.representation⟩

/-- A declared file is read in buffers; its signature must not have changed meanwhile. -/
def hashFile (file : Artifact) : Call FileRecord := do
  checkDeadline env deadline
  let content ← readFile env file.path
  forEach (fun _ => checkDeadline env deadline) (chunks bufferSize content)
  checkDeadline env deadline
  let m ← moment env
  require (m.fails = false) (.invalid "artifact changed during hashing")
  pure (fileRecord sha256 file content)

def hashFiles : List Artifact → Call (List FileRecord)
  | [] => pure []
  | file :: rest => do
      let record ← hashFile env deadline sha256 file
      let records ← hashFiles rest
      pure (record :: records)

/-- `files.sort_by`. -/
def sortRecords (records : List FileRecord) : List FileRecord :=
  records.insertionSort fun a b => a.path ≤ b.path

/-- The record of the data of a dataset. -/
def dataRecord (bytes : List UInt8) : FileRecord :=
  ⟨"data.json", "application/json", (sha256 bytes).hex, bytes.length, none⟩

def recordsJson (records : List FileRecord) : Json :=
  .arr ((sortRecords records).map FileRecord.json)

/-- The document of a dataset. -/
def datasetJson (records : List FileRecord) : Json :=
  .object [("schema_version", .nat 1), ("complete", .bool true), ("files", recordsJson records)]

/-- The document of a result. -/
def resultJson (data : Json) (records : List FileRecord) : Json :=
  .object [("schema_version", .nat 1), ("data", data), ("files", recordsJson records)]

/-- The document of metrics. -/
def metricsJson (data : Json) : Json := .object [("schema_version", .nat 1), ("data", data)]

/-- The documents of a draft whose files have these records. -/
def draftDocuments (kind : OutputKind) (manifest : String) (declared : List String)
    (data : Option Json) (records : List FileRecord) : Call (List (String × List UInt8)) :=
  match kind, data with
  | .dataset, some data => do
      require (data.isObject = true ∧ "data.json" ∉ declared)
        (.invalid "dataset JSON data must be an object and cannot replace a declared file")
      let bytes ← documentBytes env deadline lib data
      let document ← documentBytes env deadline lib
        (datasetJson (records ++ [dataRecord sha256 bytes]))
      pure [("data.json", bytes), (manifest, document)]
  | .dataset, none => do
      let document ← documentBytes env deadline lib (datasetJson records)
      pure [(manifest, document)]
  | _, none => fail (.invalid "scientific data is required")
  | .result, some data => do
      require (data.isObject = true) (.invalid "scientific data must be an object")
      let document ← documentBytes env deadline lib (resultJson data records)
      pure [(manifest, document)]
  | .metrics, some data => do
      require (data.isObject = true) (.invalid "scientific data must be an object")
      let document ← documentBytes env deadline lib (metricsJson data)
      pure [(manifest, document)]

/-- Read the draft and decode it. -/
def readDraft (path : String) : Call Draft := do
  let document ← readFile env path
  checkDeadline env deadline
  let value ← answer (expect (lib.fromSlice document) .canonical)
  checkDeadline env deadline
  require (schema value.value = true) .schema
  checkDeadline env deadline
  let draft ← answer (expect (Draft.fromJson value.value) .decode)
  checkDeadline env deadline
  pure draft

def prepare (request : Json) : Call PreparedOutput := do
  checkDeadline env deadline
  let w ← get
  require (w.response.get "id" = request.get "id")
    (.invalid "managed output response ID does not match request")
  let chosen ← answer (target request)
  let draftPath ← answer (expect (w.response.get "draft").asStr? (.invalid "invalid draft reference"))
  let _ ← answer (expect (validateRelativePath draftPath) (.path draftPath))
  let _ ← operate env
  require (realRoot = true) (.invalid "managed output root must be a real directory")
  let actual ← outputFiles env
  checkDeadline env deadline
  let draft ← readDraft env deadline lib schema draftPath
  require (draft.schemaVersion = 1 ∧ draft.kind = chosen.1.name)
    (.invalid "unsupported managed output draft version or kind")
  require (¬(chosen.1 = .metrics ∧ draft.files ≠ []))
    (.invalid "metrics cannot declare artifact files")
  let declared ← declareAll env deadline chosen.2 [draftPath] draft.files
  require ((∀ p ∈ actual, p ∈ declared) ∧ ∀ p ∈ declared, p ∈ actual)
    (.invalid "managed output contains missing or undeclared files")
  let records ← hashFiles env deadline sha256 draft.files
  let documents ← draftDocuments env deadline lib sha256 chosen.1 chosen.2 declared draft.data records
  checkDeadline env deadline
  pure ⟨draftPath, chosen.1, chosen.2, documents⟩

/-- Preparation in a thread of its own: the call waits for its answer until the deadline, and the
thread may end without one. -/
def prepareWithin (request : Json) : Call PreparedOutput :=
  match deadline with
  | none => prepare env deadline lib sha256 schema realRoot request
  | some _ => do
      let _ ← operate env
      let outcome ← capture (prepare env deadline lib sha256 schema realRoot request)
      let waited ← moment env
      require (¬(waited.fails = true ∧ Expired deadline waited.now)) .timedOut
      let received ← moment env
      require (received.fails = false) .stopped
      answer outcome

/-- The response is a success with a draft. -/
def drafted (response : Json) : Prop :=
  response.get "ok" = .bool true ∧ (member "draft" response).isSome = true

instance (response : Json) : Decidable (drafted response) := by
  unfold drafted
  infer_instance

def finalize (request : Json) : Call Unit := do
  checkDeadline env deadline
  let w ← get
  if drafted w.response then do
    let prepared ← prepareWithin env deadline lib sha256 schema realRoot request
    publish env deadline prepared
  else pure ()

end Preparation

end Operations

end Metewand.Output
