import Mathlib.Data.Finset.Lattice.Lemmas
import Metewand.Core.Deserializer
import Metewand.Core.SchemaUris

/-!
# The walk of schema documents

`schema_resources` of `core/schema.rs`.  The walk descends by the keywords of Draft 2020-12 that hold
subschemas, resolves the `$id`, `$ref` and `$dynamicRef` of each schema against the nearest `$id` around
it, and writes them back.  `SchemaAt` says where the schemas of a document stand; `ownUris_ok` says what
the walk finds at one of them.
-/

namespace Metewand

open Lib Lib.Check

/-- A step into a value. -/
inductive Token where
  | key (name : String)
  | index (place : Nat)
  deriving DecidableEq, Repr

namespace Json

def child : Token → Json → Option Json
  | .key name, .obj members => lookupMember name members
  | .index place, .arr items => items[place]?
  | _, _ => none

def valueAt : List Token → Json → Option Json
  | [], v => some v
  | token :: rest, v => (v.child token).bind (valueAt rest)

/-- A value without what stands inside its parts: its kind, its keys or length, its text or number. -/
def outline : Json → Json
  | .arr items => .arr (items.map fun _ => .null)
  | .obj members => .obj (members.map fun member => (member.1, .null))
  | value => value

end Json

namespace Schema

/-- Where a keyword holds subschemas. -/
inductive Position where
  | members
  | items
  | schema
  deriving DecidableEq, Repr

def position (keyword : String) : Option Position :=
  if ["$defs", "definitions", "dependentSchemas", "patternProperties", "properties"].contains keyword then
    some .members
  else if ["allOf", "anyOf", "oneOf", "prefixItems"].contains keyword then some .items
  else if ["additionalProperties", "unevaluatedProperties", "propertyNames", "items", "contains",
      "unevaluatedItems", "not", "if", "then", "else", "contentSchema"].contains keyword then some .schema
  else none

/-- URIs collected by the walk. -/
structure SchemaUris where
  identifiers : Finset String
  references : Finset String

namespace SchemaUris

def none : SchemaUris := ⟨∅, ∅⟩

def union (a b : SchemaUris) : SchemaUris := ⟨a.identifiers ∪ b.identifiers, a.references ∪ b.references⟩

end SchemaUris

/-- A URI up to its fragment. -/
def withoutFragment (uri : String) : String := String.ofList (uri.toList.takeWhile (· ≠ '#'))

/-- The base inside a schema: what its `$id` resolves to, or the base around it. -/
def ownBase (library : UriLibrary) (base : String) (schema : Json) : Except String String :=
  match schema.child (.key "$id") with
  | some (.str id) => resolveUri library id base
  | _ => .ok base

/-- The URIs of a schema itself, and the texts to write at its keywords. -/
structure OwnUris where
  base : String
  found : SchemaUris
  written : List (String × String)

def ownIdentifier (library : UriLibrary) (base : String) (schema : Json) : Except String OwnUris :=
  match schema.child (.key "$id") with
  | some (.str id) => do
      let own ← resolveUri library id base
      return ⟨own, ⟨{own}, ∅⟩, [("$id", own)]⟩
  | _ => .ok ⟨base, .none, []⟩

def ownReference (library : UriLibrary) (schema : Json) (own : OwnUris) (keyword : String) : Except String OwnUris :=
  match schema.child (.key keyword) with
  | some (.str reference) => do
      let resolved ← resolveUri library reference own.base
      let found := own.found.union ⟨∅, {withoutFragment resolved}⟩
      -- Local fragments belong to this schema regardless of its catalog key.
      return { own with
        found := found
        written := if startsWith "#" reference then own.written else own.written ++ [(keyword, resolved)] }
  | _ => .ok own

def ownUris (library : UriLibrary) (base : String) (schema : Json) : Except String OwnUris := do
  let own ← ownIdentifier library base schema
  thread (ownReference library schema) own ["$ref", "$dynamicRef"]

/-- Write texts at their keywords. -/
def assign (written : List (String × String)) (members : List (String × Json)) : List (String × Json) :=
  members.map fun member => (member.1, ((lookupEntry member.1 written).map Json.str).getD member.2)

mutual

/-- `normalize_schema_uris`.  The texts are written back after the walk, which does not enter them. -/
def normalizeSchemaUris (library : UriLibrary) (base : String) : Json → Except String (Json × SchemaUris)
  | .obj members => do
      let own ← ownUris library base (.obj members)
      let walked ← visitMembers library own.base members
      return (.obj (assign own.written walked.1), own.found.union walked.2)
  | value => .ok (value, .none)

def visitMembers (library : UriLibrary) (base : String) :
    List (String × Json) → Except String (List (String × Json) × SchemaUris)
  | [] => .ok ([], .none)
  | (keyword, child) :: rest => do
      let visited ← match position keyword with
        | some .members => visitObject library base child
        | some .items => visitArray library base child
        | some .schema => normalizeSchemaUris library base child
        | none => .ok (child, .none)
      let others ← visitMembers library base rest
      return ((keyword, visited.1) :: others.1, visited.2.union others.2)

def visitObject (library : UriLibrary) (base : String) : Json → Except String (Json × SchemaUris)
  | .obj children => do
      let walked ← visitChildren library base children
      return (.obj walked.1, walked.2)
  | value => .ok (value, .none)

def visitArray (library : UriLibrary) (base : String) : Json → Except String (Json × SchemaUris)
  | .arr items => do
      let walked ← visitItems library base items
      return (.arr walked.1, walked.2)
  | value => .ok (value, .none)

def visitChildren (library : UriLibrary) (base : String) :
    List (String × Json) → Except String (List (String × Json) × SchemaUris)
  | [] => .ok ([], .none)
  | (name, child) :: rest => do
      let visited ← normalizeSchemaUris library base child
      let others ← visitChildren library base rest
      return ((name, visited.1) :: others.1, visited.2.union others.2)

def visitItems (library : UriLibrary) (base : String) : List Json → Except String (List Json × SchemaUris)
  | [] => .ok ([], .none)
  | item :: rest => do
      let visited ← normalizeSchemaUris library base item
      let others ← visitItems library base rest
      return (visited.1 :: others.1, visited.2.union others.2)

end

structure SchemaResources where
  identifiers : Finset String
  references : Finset String
  normalized : Json

def schemaResources (library : UriLibrary) (path : String) (document : Json) :
    Except SchemaCatalogError SchemaResources := do
  let walked ← (normalizeSchemaUris library (repositoryUri path) document).mapError fun message =>
    SchemaCatalogError.compilation path message
  return ⟨insert (repositoryUri path) walked.2.identifiers, walked.2.references, walked.1⟩

/-! ## Where schemas stand -/

/-- A subschema of a value, and the steps to it. -/
inductive Subschema (v : Json) : List Token → Json → Prop
  | schema {keyword : String} {x : Json} : position keyword = some .schema → v.child (.key keyword) = some x →
      Subschema v [.key keyword] x
  | items {keyword : String} {items : List Json} {place : Nat} {x : Json} : position keyword = some .items →
      v.child (.key keyword) = some (.arr items) → items[place]? = some x →
      Subschema v [.key keyword, .index place] x
  | members {keyword name : String} {members : List (String × Json)} {x : Json} : position keyword = some .members →
      v.child (.key keyword) = some (.obj members) → Json.lookupMember name members = some x →
      Subschema v [.key keyword, .key name] x

/-- The schemas of a document, each with the steps to it and the base around it. -/
inductive SchemaAt (library : UriLibrary) : String → Json → List Token → String → Json → Prop
  | here {base : String} {v : Json} : SchemaAt library base v [] base v
  | nested {base own around : String} {v x schema : Json} {steps rest : List Token} :
      ownBase library base v = .ok own → Subschema v steps x → SchemaAt library own x rest around schema →
      SchemaAt library base v (steps ++ rest) around schema

/-- A schema declares an identifier. -/
def Declares (library : UriLibrary) (base : String) (schema : Json) (uri : String) : Prop :=
  ∃ id, schema.child (.key "$id") = some (.str id) ∧ resolveUri library id base = .ok uri

/-- A keyword of a schema refers to a target. -/
def Refers (library : UriLibrary) (base : String) (schema : Json) (keyword reference target : String) : Prop :=
  (keyword = "$ref" ∨ keyword = "$dynamicRef") ∧ schema.child (.key keyword) = some (.str reference) ∧
    ∃ own, ownBase library base schema = .ok own ∧ resolveUri library reference own = .ok target

/-- The text that a keyword of a schema gets. -/
def Written (library : UriLibrary) (base : String) (schema : Json) (keyword text : String) : Prop :=
  keyword = "$id" ∧ Declares library base schema text ∨
    ∃ reference, Refers library base schema keyword reference text ∧ startsWith "#" reference = false

/-- A URI of a schema does not resolve. -/
def Unresolved (library : UriLibrary) (base : String) (schema : Json) (message : String) : Prop :=
  ownBase library base schema = .error message ∨
    ∃ keyword reference own, (keyword = "$ref" ∨ keyword = "$dynamicRef") ∧
      schema.child (.key keyword) = some (.str reference) ∧ ownBase library base schema = .ok own ∧
      resolveUri library reference own = .error message

section

variable {library : UriLibrary} {base : String}

/-! ## The URIs of a schema itself -/

theorem declares_unique {schema : Json} {a b : String} (left : Declares library base schema a)
    (right : Declares library base schema b) : a = b := by
  obtain ⟨id, here, resolves⟩ := left
  obtain ⟨id', here', resolves'⟩ := right
  cases here.symm.trans here'
  exact same_result rfl resolves resolves'

theorem refers_unique {schema : Json} {keyword reference reference' a b : String}
    (left : Refers library base schema keyword reference a) (right : Refers library base schema keyword reference' b) :
    a = b := by
  obtain ⟨-, here, own, based, resolves⟩ := left
  obtain ⟨-, here', own', based', resolves'⟩ := right
  cases here.symm.trans here'
  cases same_result rfl based based'
  exact same_result rfl resolves resolves'

theorem written_unique {schema : Json} {keyword a b : String} (left : Written library base schema keyword a)
    (right : Written library base schema keyword b) : a = b := by
  have apart : ∀ {reference target}, ¬Refers library base schema "$id" reference target := by
    rintro reference target ⟨is | is, -⟩
    · exact absurd is (by decide)
    · exact absurd is (by decide)
  rcases left with ⟨rfl, declared⟩ | ⟨reference, refers, -⟩
  · rcases right with ⟨-, declared'⟩ | ⟨reference', refers', -⟩
    · exact declares_unique declared declared'
    · exact absurd refers' apart
  · rcases right with ⟨rfl, -⟩ | ⟨reference', refers', -⟩
    · exact absurd refers apart
    · exact refers_unique refers refers'

theorem ownIdentifier_ok {schema : Json} {own : OwnUris} (ran : ownIdentifier library base schema = .ok own) :
    ownBase library base schema = .ok own.base ∧
      (∀ id, id ∈ own.found.identifiers ↔ Declares library base schema id) ∧ own.found.references = ∅ ∧
      ∀ keyword text, (keyword, text) ∈ own.written ↔ keyword = "$id" ∧ Declares library base schema text := by
  unfold ownIdentifier at ran
  split at ran
  · rename_i id here
    simp only [ok_bind, ok_pure] at ran
    obtain ⟨uri, resolves, rfl⟩ := ran
    have only : ∀ other, Declares library base schema other ↔ other = uri :=
      fun other => ⟨fun declared => declares_unique declared ⟨id, here, resolves⟩,
        fun same => ⟨id, here, same ▸ resolves⟩⟩
    refine ⟨?_, fun other => ?_, rfl, fun keyword text => ?_⟩
    · rw [ownBase, here]
      exact resolves
    · rw [only]
      exact Finset.mem_singleton
    · rw [only]
      simp
  · rename_i none
    cases ran
    have nothing : ∀ other, ¬Declares library base schema other := by
      rintro other ⟨id, here, -⟩
      exact none id here
    refine ⟨?_, fun other => ?_, rfl, fun keyword text => ?_⟩
    · unfold ownBase
      split
      · rename_i id here
        exact absurd here (none id)
      · rfl
    · simp [SchemaUris.none, nothing other]
    · simp [nothing text]

theorem ownReference_ok {schema : Json} {own next : OwnUris} {keyword : String}
    (ran : ownReference library schema own keyword = .ok next) :
    next.base = own.base ∧ next.found.identifiers = own.found.identifiers ∧
      (∀ uri, uri ∈ next.found.references ↔ uri ∈ own.found.references ∨ ∃ reference target,
        schema.child (.key keyword) = some (.str reference) ∧ resolveUri library reference own.base = .ok target ∧
          uri = withoutFragment target) ∧
      ∀ other text, (other, text) ∈ next.written ↔ (other, text) ∈ own.written ∨ other = keyword ∧ ∃ reference,
        schema.child (.key keyword) = some (.str reference) ∧ resolveUri library reference own.base = .ok text ∧
          startsWith "#" reference = false := by
  unfold ownReference at ran
  split at ran
  · rename_i reference here
    simp only [ok_bind, ok_pure] at ran
    obtain ⟨target, resolves, rfl⟩ := ran
    refine ⟨rfl, ?_, fun uri => ?_, fun other text => ?_⟩
    · exact Finset.union_empty _
    · change uri ∈ _ ∪ _ ↔ _
      rw [Finset.mem_union, Finset.mem_singleton, here]
      constructor
      · rintro (before | rfl)
        · exact .inl before
        · exact .inr ⟨reference, target, rfl, resolves, rfl⟩
      · rintro (before | ⟨reference', target', same, resolves', rfl⟩)
        · exact .inl before
        · cases same
          cases same_result rfl resolves resolves'
          exact .inr rfl
    · change (other, text) ∈ (if _ then _ else _) ↔ _
      rw [here]
      constructor
      · intro member
        split at member
        · exact .inl member
        · rename_i notLocal
          rcases List.mem_append.mp member with before | now
          · exact .inl before
          · cases List.mem_singleton.mp now
            exact .inr ⟨rfl, reference, rfl, resolves, Bool.eq_false_iff.mpr notLocal⟩
      · rintro (before | ⟨rfl, reference', same, resolves', notLocal⟩)
        · split
          · exact before
          · exact List.mem_append_left _ before
        · cases same
          cases same_result rfl resolves resolves'
          rw [if_neg (Bool.eq_false_iff.mp notLocal)]
          exact List.mem_append_right _ List.mem_cons_self
  · rename_i none
    cases ran
    have nothing : ∀ reference, schema.child (.key keyword) ≠ some (.str reference) := none
    exact ⟨rfl, rfl, fun uri => by simp [nothing], fun other text => by simp [nothing]⟩

theorem ownUris_ok {schema : Json} {own : OwnUris} (ran : ownUris library base schema = .ok own) :
    ownBase library base schema = .ok own.base ∧
      (∀ id, id ∈ own.found.identifiers ↔ Declares library base schema id) ∧
      (∀ uri, uri ∈ own.found.references ↔ ∃ keyword reference target,
        Refers library base schema keyword reference target ∧ uri = withoutFragment target) ∧
      ∀ keyword text, lookupEntry keyword own.written = some text ↔ Written library base schema keyword text := by
  simp only [ownUris, thread, ok_bind] at ran
  obtain ⟨first, identified, second, referred, third, dynamic, last⟩ := ran
  cases last
  obtain ⟨based, identifiers, noReferences, writtenFirst⟩ := ownIdentifier_ok identified
  obtain ⟨base₂, identifiers₂, references₂, written₂⟩ := ownReference_ok referred
  obtain ⟨base₃, identifiers₃, references₃, written₃⟩ := ownReference_ok dynamic
  have same : ∀ {own}, ownBase library base schema = .ok own ↔ own = first.base :=
    ⟨fun other => same_result rfl other based, fun is => is ▸ based⟩
  have written : ∀ keyword text, (keyword, text) ∈ own.written ↔ Written library base schema keyword text := by
    intro keyword text
    rw [written₃, written₂, writtenFirst, base₂]
    constructor
    · rintro ((declared | ⟨rfl, reference, here, resolves, notLocal⟩) | ⟨rfl, reference, here, resolves, notLocal⟩)
      · exact .inl declared
      · exact .inr ⟨reference, ⟨.inl rfl, here, _, based, resolves⟩, notLocal⟩
      · exact .inr ⟨reference, ⟨.inr rfl, here, _, based, resolves⟩, notLocal⟩
    · rintro (declared | ⟨reference, ⟨rfl | rfl, here, own, owned, resolves⟩, notLocal⟩)
      · exact .inl (.inl declared)
      · cases same.mp owned
        exact .inl (.inr ⟨rfl, reference, here, resolves, notLocal⟩)
      · cases same.mp owned
        exact .inr ⟨rfl, reference, here, resolves, notLocal⟩
  refine ⟨?_, fun id => ?_, fun uri => ?_, fun keyword text => ⟨fun found => ?_, fun is => ?_⟩⟩
  · rw [base₃, base₂]
    exact based
  · rw [identifiers₃, identifiers₂]
    exact identifiers id
  · rw [references₃, references₂, noReferences, base₂]
    constructor
    · rintro ((impossible | ⟨reference, target, here, resolves, rfl⟩) | ⟨reference, target, here, resolves, rfl⟩)
      · exact absurd impossible (Finset.notMem_empty _)
      · exact ⟨_, reference, target, ⟨.inl rfl, here, _, based, resolves⟩, rfl⟩
      · exact ⟨_, reference, target, ⟨.inr rfl, here, _, based, resolves⟩, rfl⟩
    · rintro ⟨_, reference, target, ⟨rfl | rfl, here, own, owned, resolves⟩, rfl⟩
      · cases same.mp owned
        exact .inl (.inr ⟨reference, target, here, resolves, rfl⟩)
      · cases same.mp owned
        exact .inr ⟨reference, target, here, resolves, rfl⟩
  · exact (written keyword text).mp (mem_of_lookup found)
  · have member := (written keyword text).mpr is
    obtain ⟨other, found⟩ := exists_lookup member
    rw [found, written_unique ((written keyword other).mp (mem_of_lookup found)) is]

theorem ownUris_error {schema : Json} {message : String} (failed : ownUris library base schema = .error message) :
    Unresolved library base schema message := by
  rcases error_bind.mp failed with identifier | ⟨first, identified, rest⟩
  · refine .inl ?_
    unfold ownIdentifier at identifier
    split at identifier
    · rename_i id here
      rcases error_bind.mp identifier with unresolved | ⟨_, _, impossible⟩
      · rw [ownBase, here]
        exact unresolved
      · cases impossible
    · cases identifier
  · have based := (ownIdentifier_ok identified).1
    have one : ∀ {own : OwnUris} {keyword}, own.base = first.base → (keyword = "$ref" ∨ keyword = "$dynamicRef") →
        ownReference library schema own keyword = .error message → Unresolved library base schema message := by
      intro own keyword same is unresolved
      unfold ownReference at unresolved
      split at unresolved
      · rename_i reference here
        rcases error_bind.mp unresolved with unresolved | ⟨_, _, impossible⟩
        · exact .inr ⟨keyword, reference, first.base, is, here, based, same ▸ unresolved⟩
        · cases impossible
      · cases unresolved
    rcases error_bind.mp rest with unresolved | ⟨second, referred, rest⟩
    · exact one rfl (.inl rfl) unresolved
    · rcases error_bind.mp rest with unresolved | ⟨third, _, impossible⟩
      · exact one (ownReference_ok referred).1 (.inr rfl) unresolved
      · cases impossible

end

end Schema

end Metewand
