import Metewand.Output.Managed

/-!
# What preparation has seen

Preparation only reads: it keeps every condition that the passing of a moment keeps
(`Stable`).  What it returns rests on what it saw in worlds with that condition
(`prepare_holds`); when nobody disturbs the directory, these are all the world it began in.
-/

namespace Metewand.Output

open Lib Lib.Check Lib.Effect Execution

/-! ## Moments -/

/-- The world after a moment. -/
def World.passed (env : Nat → Moment) (w : World) : World :=
  { w with time := w.time + 1, tree := (env w.time).others w.tree }

/-- The passing of a moment keeps the condition. -/
def Stable (env : Nat → Moment) (inv : World → Prop) : Prop := ∀ w, inv w → inv (w.passed env)

/-- Some world with the condition has the fact. -/
def Seen (inv fact : World → Prop) : Prop := ∃ w, inv w ∧ fact w

section Reading

variable {env : Nat → Moment} {deadline : Option Nat} {inv : World → Prop}

theorem moment_keeps (stable : Stable env inv) :
    Holds inv (moment env) (fun _ => inv) (fun _ => inv) :=
  fun w start => stable w start

theorem checkDeadline_keeps (stable : Stable env inv) :
    Holds inv (checkDeadline env deadline) (fun _ => inv) (fun _ => inv) :=
  (moment_keeps stable).bind fun _ => keeps_require fun _ start => start

theorem operate_keeps (stable : Stable env inv) :
    Holds inv (operate env) (fun _ => inv) (fun _ => inv) :=
  (moment_keeps stable).bind fun _ =>
    Holds.bind (keeps_require fun _ start => start) fun _ => keeps_pure

/-- A step followed by another that may use a fact the first returned. -/
theorem holds_then {α β : Type} {step : Call α} {next : α → Call β} {fact : α → Prop}
    {post : β → World → Prop} {fails : OutputError → World → Prop}
    (first : Holds inv step (fun a w => inv w ∧ fact a) fails)
    (second : ∀ a, fact a → Holds inv (next a) post fails) : Holds inv (step >>= next) post fails := by
  refine first.bind fun a => ?_
  rintro w ⟨start, known⟩
  exact second a known w start

/-- `require` and what it has checked. -/
theorem require_holds {p : Prop} [Decidable p] {e : OutputError} :
    Holds inv (require p e : Call Unit) (fun _ w => inv w ∧ p) (fun _ => inv) :=
  holds_require (fun holds _ start => ⟨start, holds⟩) fun _ _ start => start

theorem answer_holds {α : Type} {x : Except OutputError α} :
    Holds inv (answer x : Call α) (fun a w => inv w ∧ x = .ok a) (fun _ => inv) :=
  holds_answer (fun _ _ same start => ⟨start, same⟩) fun _ _ _ start => start

theorem pure_holds {α : Type} {a : α} {fact : α → Prop} {fails : OutputError → World → Prop}
    (known : fact a) : Holds inv (pure a : Call α) (fun a w => inv w ∧ fact a) fails :=
  holds_pure fun _ start => ⟨start, known⟩

/-- A look at the world. -/
theorem get_holds : Holds inv (get : Call World) (fun v w => inv w ∧ inv v) (fun _ => inv) :=
  holds_get fun _ start => ⟨start, start⟩

theorem fail_holds {α : Type} {e : OutputError} {post : α → World → Prop} :
    Holds inv (fail e : Call α) post (fun _ => inv) :=
  holds_fail fun _ start => start

theorem readFile_holds (stable : Stable env inv) (path : String) :
    Holds inv (readFile env path)
      (fun c w => inv w ∧ Seen inv fun v => v.tree.get path = some (.file c)) (fun _ => inv) := by
  refine (operate_keeps stable).bind fun _ => holds_then get_holds fun w start => ?_
  cases found : w.tree.get path with
  | none => exact fail_holds
  | some entry =>
      cases entry with
      | file content => exact pure_holds ⟨w, start, found⟩
      | directory => exact fail_holds
      | special => exact fail_holds

/-- The names of the regular files of a tree. -/
def regularFiles (tree : Tree) : List String :=
  (tree.entries.filter fun e => e.2 ≠ .directory).map Prod.fst

theorem outputFiles_holds (stable : Stable env inv) :
    Holds inv (outputFiles env)
      (fun names w => inv w ∧ Seen inv fun v =>
        (∀ e ∈ v.tree.entries, e.2 ≠ .special) ∧ names = regularFiles v.tree) (fun _ => inv) := by
  refine (operate_keeps stable).bind fun _ => holds_then get_holds fun w start => ?_
  refine holds_then require_holds fun _ regular => ?_
  exact pure_holds ⟨w, start, regular, rfl⟩

variable {lib : JsonLibrary} {sha256 : List UInt8 → Digest} {schema : Json → Bool} {realRoot : Bool}

theorem documentBytes_holds (stable : Stable env inv) (value : Json) :
    Holds inv (documentBytes env deadline lib value)
      (fun bytes w => inv w ∧ lib.bytes value = .ok bytes) (fun _ => inv) := by
  refine (checkDeadline_keeps stable).bind fun _ => holds_then answer_holds fun normal found => ?_
  refine (checkDeadline_keeps stable).bind fun _ => (checkDeadline_keeps stable).bind fun _ => ?_
  refine pure_holds ?_
  unfold JsonLibrary.bytes
  cases normalized : value.normalize with
  | error e =>
      rw [normalized] at found
      cases found
  | ok v =>
      rw [normalized] at found
      cases found
      rfl

/-! ## The declared files -/

theorem declare_ok {manifest : String} {declared declared' : List String} {file : Artifact}
    (accepted : declare manifest declared file = .ok declared') :
    declared' = file.path :: declared ∧ file.path ∉ declared ∧ file.path ≠ manifest := by
  simp only [declare, ok_bind, ok_reject, ok_expect, ok_pure] at accepted
  obtain ⟨_, -, _, fresh, rfl⟩ := accepted
  exact ⟨rfl, fun listed => fresh (.inr (.inr listed)), fun same => fresh (.inr (.inl same))⟩

/-- The declared paths, of which none is named twice. -/
structure Declares (manifest : String) (declared : List String) (files : List Artifact)
    (all : List String) : Prop where
  members : ∀ p, p ∈ all ↔ p ∈ declared ∨ p ∈ files.map Artifact.path
  fresh : ∀ f ∈ files, f.path ∉ declared ∧ f.path ≠ manifest
  distinct : (files.map Artifact.path).Nodup

theorem declareAll_holds (stable : Stable env inv) (manifest : String) (files : List Artifact) :
    ∀ declared, Holds inv (declareAll env deadline manifest declared files)
      (fun all w => inv w ∧ Declares manifest declared files all) (fun _ => inv) := by
  induction files with
  | nil =>
      intro declared
      exact pure_holds ⟨by simp, by simp, .nil⟩
  | cons file rest ih =>
      intro declared
      refine (checkDeadline_keeps stable).bind fun _ => holds_then answer_holds fun more found => ?_
      obtain ⟨rfl, new, other⟩ := declare_ok found
      refine (ih (file.path :: declared)).weaken (fun _ start => start) ?_ fun _ _ stop => stop
      rintro all w ⟨kept, tail⟩
      refine ⟨kept, fun p => ?_, ?_, ?_⟩
      · rw [tail.members p]
        simp only [List.mem_cons, List.map_cons]
        tauto
      · intro f listed
        rcases List.mem_cons.mp listed with rfl | later
        · exact ⟨new, other⟩
        · exact ⟨fun old => (tail.fresh f later).1 (List.mem_cons_of_mem _ old),
            (tail.fresh f later).2⟩
      · rw [List.map_cons, List.nodup_cons]
        refine ⟨fun listed => ?_, tail.distinct⟩
        obtain ⟨f, later, same⟩ := List.mem_map.mp listed
        exact (tail.fresh f later).1 (same ▸ List.mem_cons_self)

/-! ## The records -/

/-- The record is that of the file's content in a world with the condition. -/
def Recorded (sha256 : List UInt8 → Digest) (inv : World → Prop) (file : Artifact)
    (record : FileRecord) : Prop :=
  ∃ content, (Seen inv fun w => w.tree.get file.path = some (.file content)) ∧
    record = fileRecord sha256 file content

theorem hashFile_holds (stable : Stable env inv) (file : Artifact) :
    Holds inv (hashFile env deadline sha256 file)
      (fun record w => inv w ∧ Recorded sha256 inv file record) (fun _ => inv) := by
  refine (checkDeadline_keeps stable).bind fun _ => ?_
  refine holds_then (readFile_holds stable file.path) fun content seen => ?_
  refine Holds.bind (Holds.forEach inv (fun _ => checkDeadline_keeps stable) _) fun _ => ?_
  refine (checkDeadline_keeps stable).bind fun _ => (moment_keeps stable).bind fun m => ?_
  exact Holds.bind (keeps_require fun _ start => start) fun _ => pure_holds ⟨content, seen, rfl⟩

theorem hashFiles_holds (stable : Stable env inv) (files : List Artifact) :
    Holds inv (hashFiles env deadline sha256 files)
      (fun records w => inv w ∧ List.Forall₂ (Recorded sha256 inv) files records)
      (fun _ => inv) := by
  induction files with
  | nil => exact pure_holds .nil
  | cons file rest ih =>
      refine holds_then (hashFile_holds stable file) fun record head => ?_
      refine holds_then ih fun records tail => ?_
      exact pure_holds (.cons head tail)

/-! ## The documents -/

/-- The documents of a draft whose files have these records. -/
def DocumentsOf (lib : JsonLibrary) (sha256 : List UInt8 → Digest) (kind : OutputKind)
    (manifest : String) (declared : List String) (data : Option Json) (records : List FileRecord)
    (documents : List (String × List UInt8)) : Prop :=
  match kind, data with
  | .dataset, some data => "data.json" ∉ declared ∧ ∃ bytes document, lib.bytes data = .ok bytes ∧
      lib.bytes (datasetJson (records ++ [dataRecord sha256 bytes])) = .ok document ∧
      documents = [("data.json", bytes), (manifest, document)]
  | .dataset, none => ∃ document, lib.bytes (datasetJson records) = .ok document ∧
      documents = [(manifest, document)]
  | .result, some data => ∃ document, lib.bytes (resultJson data records) = .ok document ∧
      documents = [(manifest, document)]
  | .metrics, some data => ∃ document, lib.bytes (metricsJson data) = .ok document ∧
      documents = [(manifest, document)]
  | _, none => False

theorem draftDocuments_holds (stable : Stable env inv) (kind : OutputKind) (manifest : String)
    (declared : List String) (data : Option Json) (records : List FileRecord) :
    Holds inv (draftDocuments env deadline lib sha256 kind manifest declared data records)
      (fun documents w => inv w ∧
        DocumentsOf lib sha256 kind manifest declared data records documents) (fun _ => inv) := by
  cases data with
  | none =>
      cases kind with
      | dataset =>
          refine holds_then (documentBytes_holds stable _) fun document written => ?_
          exact pure_holds ⟨document, written, rfl⟩
      | result => exact fail_holds
      | metrics => exact fail_holds
  | some data =>
      cases kind with
      | dataset =>
          refine holds_then require_holds fun _ allowed => ?_
          refine holds_then (documentBytes_holds stable _) fun bytes content => ?_
          refine holds_then (documentBytes_holds stable _) fun document written => ?_
          exact pure_holds ⟨allowed.2, bytes, document, content, written, rfl⟩
      | result =>
          refine holds_then require_holds fun _ _ => ?_
          refine holds_then (documentBytes_holds stable _) fun document written => ?_
          exact pure_holds ⟨document, written, rfl⟩
      | metrics =>
          refine holds_then require_holds fun _ _ => ?_
          refine holds_then (documentBytes_holds stable _) fun document written => ?_
          exact pure_holds ⟨document, written, rfl⟩

/-! ## The draft -/

/-- The draft that a content spells. -/
structure Spells (lib : JsonLibrary) (schema : Json → Bool) (content : List UInt8) (draft : Draft) :
    Prop where
  reads : ∃ value, lib.fromSlice content = some value ∧ schema value.value = true ∧
    Draft.fromJson value.value = some draft

theorem readDraft_holds (stable : Stable env inv) (path : String) :
    Holds inv (readDraft env deadline lib schema path)
      (fun draft w => inv w ∧ ∃ content, (Seen inv fun v => v.tree.get path = some (.file content)) ∧
        Spells lib schema content draft) (fun _ => inv) := by
  refine holds_then (readFile_holds stable path) fun content seen => ?_
  refine (checkDeadline_keeps stable).bind fun _ => holds_then answer_holds fun value parsed => ?_
  refine (checkDeadline_keeps stable).bind fun _ => holds_then require_holds fun _ valid => ?_
  refine (checkDeadline_keeps stable).bind fun _ => holds_then answer_holds fun draft decoded => ?_
  refine (checkDeadline_keeps stable).bind fun _ => ?_
  exact pure_holds ⟨content, seen, value, ok_expect.mp parsed, valid, ok_expect.mp decoded⟩

/-- What a prepared output rests on. -/
structure IsPrepared (lib : JsonLibrary) (sha256 : List UInt8 → Digest) (schema : Json → Bool)
    (inv : World → Prop) (request : Json) (prepared : PreparedOutput) (draft : Draft)
    (declared : List String) (records : List FileRecord) : Prop where
  target : target request = .ok (prepared.expected, prepared.manifest)
  reference : Seen inv fun w => (w.response.get "draft").asStr? = some prepared.draftPath
  spelled : ∃ content, (Seen inv fun w => w.tree.get prepared.draftPath = some (.file content)) ∧
    Spells lib schema content draft
  kind : draft.schemaVersion = 1 ∧ draft.kind = prepared.expected.name
  listed : Seen inv fun w => (∀ e ∈ w.tree.entries, e.2 ≠ .special) ∧
    ∀ p, p ∈ regularFiles w.tree ↔ p ∈ declared
  declares : Declares prepared.manifest [prepared.draftPath] draft.files declared
  metrics : prepared.expected = .metrics → draft.files = []
  recorded : List.Forall₂ (Recorded sha256 inv) draft.files records
  documents : DocumentsOf lib sha256 prepared.expected prepared.manifest declared draft.data records
    prepared.documents

theorem prepare_holds (stable : Stable env inv) (request : Json) :
    Holds inv (prepare env deadline lib sha256 schema realRoot request)
      (fun prepared w => inv w ∧ ∃ draft declared records,
        IsPrepared lib sha256 schema inv request prepared draft declared records) (fun _ => inv) := by
  refine (checkDeadline_keeps stable).bind fun _ => holds_then get_holds fun seen start => ?_
  refine holds_then require_holds fun _ _ => ?_
  refine holds_then answer_holds fun chosen named => ?_
  refine holds_then answer_holds fun draftPath reference => ?_
  refine holds_then answer_holds fun _ _ => ?_
  refine (operate_keeps stable).bind fun _ => holds_then require_holds fun _ _ => ?_
  refine holds_then (outputFiles_holds stable) fun actual listing => ?_
  refine (checkDeadline_keeps stable).bind fun _ => ?_
  refine holds_then (readDraft_holds stable draftPath) fun draft spelled => ?_
  refine holds_then require_holds fun _ kind => holds_then require_holds fun _ metrics => ?_
  refine holds_then (declareAll_holds stable chosen.2 draft.files [draftPath]) fun declared all => ?_
  refine holds_then require_holds fun _ same => ?_
  refine holds_then (hashFiles_holds stable draft.files) fun records recorded => ?_
  refine holds_then (draftDocuments_holds stable chosen.1 chosen.2 declared draft.data records)
    fun documents written => ?_
  refine (checkDeadline_keeps stable).bind fun _ => pure_holds ⟨draft, declared, records, ?_⟩
  obtain ⟨v, inside, regular, rfl⟩ := listing
  exact {
    target := named
    reference := ⟨seen, start, ok_expect.mp reference⟩
    spelled := spelled
    kind := kind
    listed := ⟨v, inside, regular, fun p => ⟨same.1 p, same.2 p⟩⟩
    declares := all
    metrics := fun is => by
      by_contra some_
      exact metrics ⟨is, some_⟩
    recorded := recorded
    documents := written }

theorem prepareWithin_holds (stable : Stable env inv) (request : Json) :
    Holds inv (prepareWithin env deadline lib sha256 schema realRoot request)
      (fun prepared w => inv w ∧ ∃ draft declared records,
        IsPrepared lib sha256 schema inv request prepared draft declared records) (fun _ => inv) := by
  unfold prepareWithin
  cases deadline with
  | none => exact prepare_holds stable request
  | some limit =>
      refine (operate_keeps stable).bind fun _ => ?_
      have captured : Holds inv
          (capture (prepare env (some limit) lib sha256 schema realRoot request))
          (fun outcome w => inv w ∧ ∀ prepared, outcome = .ok prepared →
            ∃ draft declared records,
              IsPrepared lib sha256 schema inv request prepared draft declared records)
          (fun _ => inv) := by
        refine (prepare_holds stable request).capture ?_ ?_
        · rintro prepared w ⟨start, facts⟩
          refine ⟨start, fun other same => ?_⟩
          cases same
          exact facts
        · intro e w start
          exact ⟨start, fun _ failed => by cases failed⟩
      refine holds_then captured fun outcome known => ?_
      refine (moment_keeps stable).bind fun _ => holds_then require_holds fun _ _ => ?_
      refine (moment_keeps stable).bind fun _ => holds_then require_holds fun _ _ => ?_
      exact answer_holds.weaken (fun _ start => start)
        (fun prepared w found => ⟨found.1, known prepared found.2⟩) fun _ _ stop => stop

end Reading

end Metewand.Output
