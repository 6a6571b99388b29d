import Metewand.Core.SchemaWalk

/-!
# Resources of schema documents

A walk collects exactly the URIs of the schemas of a document and leaves everything else as it is
(`Resources`), by induction over the document: `Collects` is kept by each member and each item.  With the
references of `resolveUri`, this says that schemas stay inside the repository
(`schema_references_inside`).
-/

namespace Metewand

open Lib Lib.Check

namespace Schema

section

variable {library : UriLibrary} {base : String}

/-! ## Walks -/

/-- Places in a value: steps, a base and the schema there. -/
abbrev Places := List Token → String → Json → Prop

/-- What a walk collects from the schemas at some places of a value, and what becomes of the value. -/
structure Collects (library : UriLibrary) (places : Places) (v v' : Json) (found : SchemaUris) : Prop where
  identifiers : ∀ id, id ∈ found.identifiers ↔ ∃ steps around schema, places steps around schema ∧
    Declares library around schema id
  references : ∀ uri, uri ∈ found.references ↔ ∃ steps around schema, places steps around schema ∧
    ∃ keyword reference target, Refers library around schema keyword reference target ∧ uri = withoutFragment target
  written : ∀ steps around schema keyword text, places steps around schema →
    Written library around schema keyword text → v'.valueAt (steps ++ [.key keyword]) = some (.str text)
  unchanged : ∀ steps, (∀ inner around schema keyword text, places inner around schema →
    Written library around schema keyword text → steps ≠ inner ++ [.key keyword]) →
    (v'.valueAt steps).map Json.outline = (v.valueAt steps).map Json.outline

/-- Places below the children of a value. -/
def Node (v : Json) (places : Token → Json → Places) : Places := fun steps around schema =>
  ∃ token x rest, v.child token = some x ∧ steps = token :: rest ∧ places token x rest around schema

/-- A value without places stays. -/
theorem Collects.nowhere {places : Places} (none : ∀ steps around schema, ¬places steps around schema) (v : Json) :
    Collects library places v v .none :=
  ⟨fun id => by simp [SchemaUris.none, none], fun uri => by simp [SchemaUris.none, none],
    fun steps around schema keyword text is => absurd is (none steps around schema), fun _ _ => rfl⟩

/-- The children of a value are walked one by one. -/
theorem Collects.node {places : Token → Json → Places} {v v' : Json} {found : SchemaUris}
    (same : v'.outline = v.outline)
    (absent : ∀ token, v.child token = none → v'.child token = none)
    (each : ∀ token x, v.child token = some x → ∃ x' part, v'.child token = some x' ∧
      Collects library (places token x) x x' part ∧ part.identifiers ⊆ found.identifiers ∧
      part.references ⊆ found.references)
    (covered : (∀ id ∈ found.identifiers, ∃ token x x' part, v.child token = some x ∧
        Collects library (places token x) x x' part ∧ id ∈ part.identifiers) ∧
      ∀ uri ∈ found.references, ∃ token x x' part, v.child token = some x ∧
        Collects library (places token x) x x' part ∧ uri ∈ part.references) :
    Collects library (Node v places) v v' found := by
  refine ⟨fun id => ⟨fun member => ?_, ?_⟩, fun uri => ⟨fun member => ?_, ?_⟩, ?_, fun steps apart => ?_⟩
  · obtain ⟨token, x, x', part, here, collects, inside⟩ := covered.1 id member
    obtain ⟨steps, around, schema, at_, declares⟩ := (collects.identifiers id).mp inside
    exact ⟨token :: steps, around, schema, ⟨token, x, steps, here, rfl, at_⟩, declares⟩
  · rintro ⟨steps, around, schema, ⟨token, x, rest, here, rfl, at_⟩, declares⟩
    obtain ⟨x', part, -, collects, within, -⟩ := each token x here
    exact within ((collects.identifiers id).mpr ⟨rest, around, schema, at_, declares⟩)
  · obtain ⟨token, x, x', part, here, collects, inside⟩ := covered.2 uri member
    obtain ⟨steps, around, schema, at_, refers⟩ := (collects.references uri).mp inside
    exact ⟨token :: steps, around, schema, ⟨token, x, steps, here, rfl, at_⟩, refers⟩
  · rintro ⟨steps, around, schema, ⟨token, x, rest, here, rfl, at_⟩, refers⟩
    obtain ⟨x', part, -, collects, -, within⟩ := each token x here
    exact within ((collects.references uri).mpr ⟨rest, around, schema, at_, refers⟩)
  · rintro steps around schema keyword text ⟨token, x, rest, here, rfl, at_⟩ is
    obtain ⟨x', part, there, collects, -⟩ := each token x here
    rw [List.cons_append, Json.valueAt, there, Option.bind_some]
    exact collects.written rest around schema keyword text at_ is
  · cases steps with
    | nil => exact congrArg some same
    | cons token rest =>
        rw [Json.valueAt, Json.valueAt]
        cases here : v.child token with
        | none => rw [absent token here]
        | some x =>
            obtain ⟨x', part, there, collects, -⟩ := each token x here
            rw [there, Option.bind_some, Option.bind_some]
            refine collects.unchanged rest fun inner around schema keyword text at_ is equal => ?_
            exact apart (token :: inner) around schema keyword text ⟨token, x, inner, here, rfl, at_⟩ is
              (by rw [equal]; rfl)

/-! ## Visits -/

/-- What is found in several parts. -/
def SchemaUris.unions : List SchemaUris → SchemaUris
  | [] => .none
  | found :: rest => found.union (unions rest)

theorem mem_unions {founds : List SchemaUris} :
    (∀ id, id ∈ (SchemaUris.unions founds).identifiers ↔ ∃ found ∈ founds, id ∈ found.identifiers) ∧
      ∀ uri, uri ∈ (SchemaUris.unions founds).references ↔ ∃ found ∈ founds, uri ∈ found.references := by
  induction founds with
  | nil => exact ⟨fun id => by simp [SchemaUris.unions, SchemaUris.none], fun uri => by simp [SchemaUris.unions, SchemaUris.none]⟩
  | cons found rest ih =>
      refine ⟨fun id => ?_, fun uri => ?_⟩
      · rw [SchemaUris.unions, SchemaUris.union, Finset.mem_union, ih.1]
        simp
      · rw [SchemaUris.unions, SchemaUris.union, Finset.mem_union, ih.2]
        simp

/-- Parts and what was found in each. -/
def gathered {α : Type} (parts : List (α × SchemaUris)) : List α × SchemaUris :=
  (parts.map Prod.fst, .unions (parts.map Prod.snd))

/-- The visit of what stands at a keyword. -/
def visitValue (library : UriLibrary) (base : String) : Option Position → Json → Except String (Json × SchemaUris)
  | some .members, child => visitObject library base child
  | some .items, child => visitArray library base child
  | some .schema, child => normalizeSchemaUris library base child
  | none, child => .ok (child, .none)

def visitMember (library : UriLibrary) (base : String) (member : String × Json) :
    Except String ((String × Json) × SchemaUris) :=
  (visitValue library base (position member.1) member.2).map fun visited => ((member.1, visited.1), visited.2)

theorem visitItems_eq (items : List Json) :
    visitItems library base items = (traverseAll (normalizeSchemaUris library base) items).map gathered := by
  induction items with
  | nil => rfl
  | cons item rest ih =>
      rw [visitItems, ih, traverseAll]
      cases normalizeSchemaUris library base item with
      | error message => rfl
      | ok visited =>
          cases traverseAll (normalizeSchemaUris library base) rest with
          | error message => rfl
          | ok others => rfl

theorem visitChildren_eq (children : List (String × Json)) :
    visitChildren library base children = (traverseAll (fun child =>
      (normalizeSchemaUris library base child.2).map fun visited => ((child.1, visited.1), visited.2)) children).map
        gathered := by
  induction children with
  | nil => rfl
  | cons child rest ih =>
      obtain ⟨name, child⟩ := child
      rw [visitChildren, ih, traverseAll]
      dsimp only
      cases normalizeSchemaUris library base child with
      | error message => rfl
      | ok visited =>
          cases traverseAll (fun child => (normalizeSchemaUris library base child.2).map
              fun visited => ((child.1, visited.1), visited.2)) rest with
          | error message => rfl
          | ok others => rfl

theorem visitMembers_eq (members : List (String × Json)) :
    visitMembers library base members = (traverseAll (visitMember library base) members).map gathered := by
  induction members with
  | nil => rfl
  | cons member rest ih =>
      obtain ⟨keyword, child⟩ := member
      have step : visitMembers library base ((keyword, child) :: rest) = (do
          let visited ← visitValue library base (position keyword) child
          let others ← visitMembers library base rest
          return ((keyword, visited.1) :: others.1, visited.2.union others.2)) := by
        rw [visitMembers]
        cases position keyword with
        | none => rfl
        | some place => cases place <;> rfl
      rw [step, ih, traverseAll, visitMember]
      dsimp only
      cases visitValue library base (position keyword) child with
      | error message => rfl
      | ok visited =>
          cases traverseAll (visitMember library base) rest with
          | error message => rfl
          | ok others => rfl

/-! ## Collecting from members and items -/

theorem lookup_keys {members others : List (String × Json)} (keys : others.map Prod.fst = members.map Prod.fst)
    {name : String} : Json.lookupMember name members = none → Json.lookupMember name others = none := by
  induction members generalizing others with
  | nil =>
      intro _
      rw [List.map_eq_nil_iff.mp keys]
      rfl
  | cons member rest ih =>
      obtain ⟨k, v⟩ := member
      cases others with
      | nil => cases keys
      | cons other others =>
          obtain ⟨k', v'⟩ := other
          obtain ⟨rfl, tail⟩ := List.cons.inj keys
          intro absent
          rw [Json.lookupMember] at absent ⊢
          split at absent
          · cases absent
          · rename_i apart
            rw [if_neg apart]
            exact ih tail absent

theorem outline_keys {members others : List (String × Json)} (keys : others.map Prod.fst = members.map Prod.fst) :
    (Json.obj others).outline = (Json.obj members).outline := by
  have only : ∀ members : List (String × Json), (Json.obj members).outline =
      .obj ((members.map Prod.fst).map fun key => (key, .null)) := by
    intro members
    rw [List.map_map]
    rfl
  rw [only, only, keys]

theorem Collects.object {members : List (String × Json)} (ascending : Ascending members)
    {visit : String × Json → Except String ((String × Json) × SchemaUris)} {places : Token → Json → Places}
    {parts : List ((String × Json) × SchemaUris)} (ran : traverseAll visit members = .ok parts)
    (each : ∀ member ∈ members, ∀ part, visit member = .ok part → part.1.1 = member.1 ∧
      Collects library (places (.key member.1) member.2) member.2 part.1.2 part.2) :
    (parts.map Prod.fst).map Prod.fst = members.map Prod.fst ∧
      Collects library (Node (.obj members) places) (.obj members) (.obj (parts.map Prod.fst))
        (.unions (parts.map Prod.snd)) := by
  have keys : (parts.map Prod.fst).map Prod.fst = members.map Prod.fst := by
    have related := ok_traverseAll.mp ran
    clear ran
    induction related with
    | nil => rfl
    | cons head _ ih =>
        rw [List.map_cons, List.map_cons, List.map_cons, (each _ List.mem_cons_self _ head).1,
          ih (List.pairwise_cons.mp ascending).2 fun member inside => each member (List.mem_cons_of_mem _ inside)]
  have ascending' : Ascending (parts.map Prod.fst) := by
    have sorted : (members.map Prod.fst).Pairwise (· < ·) := List.pairwise_map.mpr ascending
    rw [← keys] at sorted
    exact List.pairwise_map.mp sorted
  refine ⟨keys, .node (outline_keys keys) ?_ ?_ ⟨?_, ?_⟩⟩
  · rintro (name | place) absent
    · exact lookup_keys keys absent
    · rfl
  · rintro (name | place) x here
    · have found : lookupEntry name members = some x := (Json.lookupMember_eq name members).symm.trans here
      have member := mem_of_lookup found
      obtain ⟨i, at_⟩ := List.getElem?_of_mem member
      obtain ⟨part, there, visited⟩ := getElem?_of_traverseAll ran at_
      obtain ⟨key, collects⟩ := each _ member _ visited
      have inside : part ∈ parts := List.mem_of_getElem? there
      refine ⟨part.1.2, part.2, ?_, collects, fun id more => ?_, fun uri more => ?_⟩
      · refine (Json.lookupMember_eq name _).trans (ascending'.lookup_of_mem (List.mem_map.mpr ⟨part, inside, ?_⟩))
        exact Prod.ext key rfl
      · exact (mem_unions.1 id).mpr ⟨part.2, List.mem_map_of_mem inside, more⟩
      · exact (mem_unions.2 uri).mpr ⟨part.2, List.mem_map_of_mem inside, more⟩
    · cases here
  · intro id member
    obtain ⟨found, inside, more⟩ := (mem_unions.1 id).mp member
    obtain ⟨part, among, rfl⟩ := List.mem_map.mp inside
    obtain ⟨source, here, visited⟩ := exists_of_traverseAll ran among
    refine ⟨.key source.1, source.2, part.1.2, part.2, ?_, (each source here part visited).2, more⟩
    exact (Json.lookupMember_eq source.1 members).trans (ascending.lookup_of_mem here)
  · intro uri member
    obtain ⟨found, inside, more⟩ := (mem_unions.2 uri).mp member
    obtain ⟨part, among, rfl⟩ := List.mem_map.mp inside
    obtain ⟨source, here, visited⟩ := exists_of_traverseAll ran among
    refine ⟨.key source.1, source.2, part.1.2, part.2, ?_, (each source here part visited).2, more⟩
    exact (Json.lookupMember_eq source.1 members).trans (ascending.lookup_of_mem here)

theorem Collects.array {items : List Json} {visit : Json → Except String (Json × SchemaUris)} {places : Json → Places}
    {parts : List (Json × SchemaUris)} (ran : traverseAll visit items = .ok parts)
    (each : ∀ item ∈ items, ∀ part, visit item = .ok part → Collects library (places item) item part.1 part.2) :
    Collects library (Node (.arr items) fun _ => places) (.arr items) (.arr (parts.map Prod.fst))
      (.unions (parts.map Prod.snd)) := by
  have size : parts.length = items.length := (ok_traverseAll.mp ran).length_eq.symm
  refine .node ?_ ?_ ?_ ⟨?_, ?_⟩
  · change Json.arr _ = Json.arr _
    rw [List.map_const', List.map_const', List.length_map, size]
  · rintro (name | place) absent
    · rfl
    · change (parts.map Prod.fst)[place]? = none
      have beyond := List.getElem?_eq_none_iff.mp absent
      rw [List.getElem?_eq_none_iff, List.length_map, size]
      exact beyond
  · rintro (name | place) x here
    · cases here
    · obtain ⟨part, there, visited⟩ := getElem?_of_traverseAll ran here
      have inside : part ∈ parts := List.mem_of_getElem? there
      refine ⟨part.1, part.2, ?_, each x (List.mem_of_getElem? here) part visited, fun id more => ?_,
        fun uri more => ?_⟩
      · change (parts.map Prod.fst)[place]? = some part.1
        rw [List.getElem?_map, there]
        rfl
      · exact (mem_unions.1 id).mpr ⟨part.2, List.mem_map_of_mem inside, more⟩
      · exact (mem_unions.2 uri).mpr ⟨part.2, List.mem_map_of_mem inside, more⟩
  · intro id member
    obtain ⟨found, inside, more⟩ := (mem_unions.1 id).mp member
    obtain ⟨part, among, rfl⟩ := List.mem_map.mp inside
    obtain ⟨source, here, visited⟩ := exists_of_traverseAll ran among
    obtain ⟨place, at_⟩ := List.getElem?_of_mem here
    exact ⟨.index place, source, part.1, part.2, at_, each source here part visited, more⟩
  · intro uri member
    obtain ⟨found, inside, more⟩ := (mem_unions.2 uri).mp member
    obtain ⟨part, among, rfl⟩ := List.mem_map.mp inside
    obtain ⟨source, here, visited⟩ := exists_of_traverseAll ran among
    obtain ⟨place, at_⟩ := List.getElem?_of_mem here
    exact ⟨.index place, source, part.1, part.2, at_, each source here part visited, more⟩

/-! ## Places of schemas -/

/-- The schemas at what stands at a keyword. -/
def At (library : UriLibrary) (own : String) : Option Position → Json → Places
  | some .members, .obj members => Node (.obj members) fun _ => SchemaAt library own
  | some .items, .arr items => Node (.arr items) fun _ => SchemaAt library own
  | some .schema, x => SchemaAt library own x
  | _, _ => fun _ _ _ => False

/-- The schemas at one token of a schema. -/
def AtToken (library : UriLibrary) (own : String) : Token → Json → Places
  | .key keyword, x => At library own (position keyword) x
  | .index _, _ => fun _ _ _ => False

theorem schemaAt_iff {v schema : Json} {steps : List Token} {around : String} :
    SchemaAt library base v steps around schema ↔ (steps = [] ∧ around = base ∧ schema = v) ∨
      ∃ own, ownBase library base v = .ok own ∧ Node v (AtToken library own) steps around schema := by
  constructor
  · intro at_
    cases at_ with
    | here => exact .inl ⟨rfl, rfl, rfl⟩
    | @nested _ own _ _ x _ steps rest based sub deeper =>
        refine .inr ⟨own, based, ?_⟩
        cases sub with
        | @schema keyword x place there =>
            refine ⟨.key keyword, x, rest, there, rfl, ?_⟩
            change At library own (position keyword) x _ _ _
            rw [place]
            exact deeper
        | @items keyword items index x place there item =>
            refine ⟨.key keyword, .arr items, .index index :: rest, there, rfl, ?_⟩
            change At library own (position keyword) _ _ _ _
            rw [place]
            exact ⟨.index index, x, rest, item, rfl, deeper⟩
        | @members keyword name members x place there member =>
            refine ⟨.key keyword, .obj members, .key name :: rest, there, rfl, ?_⟩
            change At library own (position keyword) _ _ _ _
            rw [place]
            exact ⟨.key name, x, rest, member, rfl, deeper⟩
  · rintro (⟨rfl, rfl, rfl⟩ | ⟨own, based, token, x, rest, there, rfl, deeper⟩)
    · exact .here
    · cases token with
      | index place => exact deeper.elim
      | key keyword =>
          change At library own (position keyword) x _ _ _ at deeper
          cases place : position keyword with
          | none =>
              rw [place] at deeper
              exact deeper.elim
          | some p =>
              rw [place] at deeper
              cases p with
              | schema => exact .nested based (.schema place there) deeper
              | items =>
                  cases x with
                  | arr items =>
                      obtain ⟨token, y, rest, item, rfl, deeper⟩ := deeper
                      cases token with
                      | key name => cases item
                      | index index => exact .nested based (.items place there item) deeper
                  | null | bool | num | str | obj => exact deeper.elim
              | members =>
                  cases x with
                  | obj members =>
                      obtain ⟨token, y, rest, member, rfl, deeper⟩ := deeper
                      cases token with
                      | index index => cases member
                      | key name => exact .nested based (.members place there member) deeper
                  | null | bool | num | str | arr => exact deeper.elim

/-! ## The walk -/

/-- A value, the members and the items in it. -/
def Near (motive : Json → Prop) (v : Json) : Prop :=
  motive v ∧ (∀ members, v = .obj members → ∀ member ∈ members, motive member.2) ∧
    ∀ items, v = .arr items → ∀ item ∈ items, motive item

/-- Induction over values in which a schema sees the subschemas two steps below. -/
theorem near_induction {motive : Json → Prop} (leaf : ∀ v : Json, v.isObject = false → motive v)
    (obj : ∀ members, (∀ member ∈ members, Near motive member.2) → motive (.obj members)) : ∀ v, Near motive v := by
  intro v
  induction v using Json.induction with
  | null | bool | num | str => exact ⟨leaf _ rfl, fun _ impossible => (nomatch impossible), fun _ impossible => (nomatch impossible)⟩
  | arr items ih =>
      refine ⟨leaf _ rfl, fun _ impossible => (nomatch impossible), ?_⟩
      rintro _ ⟨⟩ item member
      exact (ih item member).1
  | obj members ih =>
      refine ⟨obj members ih, ?_, fun _ impossible => (nomatch impossible)⟩
      rintro _ ⟨⟩ member inside
      exact (ih member inside).1

theorem ownBase_leaf {v : Json} (leaf : v.isObject = false) (name : String) : v.child (.key name) = none := by
  cases v with
  | obj members => cases leaf
  | null | bool | num | str | arr => rfl

/-- A value that is no object is a schema without URIs. -/
theorem collects_leaf {v : Json} (leaf : v.isObject = false) : Collects library (SchemaAt library base v) v v .none := by
  have childless := ownBase_leaf leaf
  have only : ∀ steps around schema, SchemaAt library base v steps around schema → steps = [] ∧ schema = v := by
    intro steps around schema at_
    rcases schemaAt_iff.mp at_ with ⟨rfl, -, rfl⟩ | ⟨own, -, token, x, rest, there, -, deeper⟩
    · exact ⟨rfl, rfl⟩
    · cases token with
      | key name => exact absurd (there.symm.trans (childless name)) (Option.some_ne_none x)
      | index place => exact deeper.elim
  have undeclared : ∀ around uri, ¬Declares library around v uri := by
    rintro around uri ⟨id, here, -⟩
    exact absurd (here.symm.trans (childless _)) (Option.some_ne_none _)
  have unreferred : ∀ around keyword reference target, ¬Refers library around v keyword reference target := by
    rintro around keyword reference target ⟨-, here, -⟩
    exact absurd (here.symm.trans (childless _)) (Option.some_ne_none _)
  refine ⟨fun id => ⟨fun impossible => absurd impossible (Finset.notMem_empty _), ?_⟩,
    fun uri => ⟨fun impossible => absurd impossible (Finset.notMem_empty _), ?_⟩, ?_, fun _ _ => rfl⟩
  · rintro ⟨steps, around, schema, at_, declares⟩
    obtain ⟨-, rfl⟩ := only _ _ _ at_
    exact absurd declares (undeclared _ _)
  · rintro ⟨steps, around, schema, at_, keyword, reference, target, refers, -⟩
    obtain ⟨-, rfl⟩ := only _ _ _ at_
    exact absurd refers (unreferred _ _ _ _)
  · rintro steps around schema keyword text at_ (⟨-, declares⟩ | ⟨reference, refers, -⟩)
    · obtain ⟨-, rfl⟩ := only _ _ _ at_
      exact absurd declares (undeclared _ _)
    · obtain ⟨-, rfl⟩ := only _ _ _ at_
      exact absurd refers (unreferred _ _ _ _)

theorem written_position {schema : Json} {keyword text : String} (is : Written library base schema keyword text) :
    position keyword = none ∧ ∃ s, schema.child (.key keyword) = some (.str s) := by
  rcases is with ⟨rfl, id, here, -⟩ | ⟨reference, ⟨rfl | rfl, here, -⟩, -⟩
  · exact ⟨by decide, id, here⟩
  · exact ⟨by decide, reference, here⟩
  · exact ⟨by decide, reference, here⟩

theorem child_assign (written : List (String × String)) (members : List (String × Json)) (name : String) :
    (Json.obj (assign written members)).child (.key name) =
      ((Json.obj members).child (.key name)).map fun v => ((lookupEntry name written).map Json.str).getD v := by
  induction members with
  | nil => rfl
  | cons member rest ih =>
      obtain ⟨k, v⟩ := member
      change (if name = k then _ else _) = Option.map _ (if name = k then _ else _)
      split
      · rename_i same
        rw [same]
        rfl
      · exact ih

/-- What a walk below a schema collects, with the URIs of the schema itself. -/
theorem Collects.own {v : Json} {own : OwnUris} (ran : ownUris library base v = .ok own) {walked : List (String × Json)}
    {found : SchemaUris} (collects : Collects library (Node v (AtToken library own.base)) v (.obj walked) found) :
    Collects library (SchemaAt library base v) v (.obj (assign own.written walked)) (own.found.union found) := by
  obtain ⟨based, identifiers, references, written⟩ := ownUris_ok ran
  have places : ∀ {steps around schema}, SchemaAt library base v steps around schema ↔
      (steps = [] ∧ around = base ∧ schema = v) ∨ Node v (AtToken library own.base) steps around schema := by
    intro steps around schema
    rw [schemaAt_iff]
    refine or_congr_right ⟨?_, fun deeper => ⟨own.base, based, deeper⟩⟩
    rintro ⟨other, based', deeper⟩
    rwa [same_result rfl based based']
  -- A keyword that is written holds no schema.
  have apart : ∀ {steps around schema}, Node v (AtToken library own.base) steps around schema →
      ∃ keyword rest, steps = .key keyword :: rest ∧ lookupEntry keyword own.written = none := by
    rintro steps around schema ⟨token, x, rest, there, rfl, deeper⟩
    cases token with
    | index place => exact deeper.elim
    | key keyword =>
        refine ⟨keyword, rest, rfl, ?_⟩
        cases here : lookupEntry keyword own.written with
        | none => rfl
        | some text =>
            have nowhere := (written_position ((written keyword text).mp here)).1
            change At library own.base (position keyword) x _ _ _ at deeper
            rw [nowhere] at deeper
            exact deeper.elim
  have kept : ∀ {keyword}, lookupEntry keyword own.written = none → ∀ rest,
      (Json.obj (assign own.written walked)).valueAt (.key keyword :: rest) =
        (Json.obj walked).valueAt (.key keyword :: rest) := by
    intro keyword none rest
    rw [Json.valueAt, Json.valueAt, child_assign, none]
    simp
  refine ⟨fun id => ?_, fun uri => ?_, ?_, fun steps outside => ?_⟩
  · change id ∈ _ ∪ _ ↔ _
    rw [Finset.mem_union, identifiers, collects.identifiers]
    constructor
    · rintro (declares | ⟨steps, around, schema, at_, declares⟩)
      · exact ⟨[], base, v, .here, declares⟩
      · exact ⟨steps, around, schema, places.mpr (.inr at_), declares⟩
    · rintro ⟨steps, around, schema, at_, declares⟩
      rcases places.mp at_ with ⟨-, rfl, rfl⟩ | deeper
      · exact .inl declares
      · exact .inr ⟨steps, around, schema, deeper, declares⟩
  · change uri ∈ _ ∪ _ ↔ _
    rw [Finset.mem_union, references, collects.references]
    constructor
    · rintro (refers | ⟨steps, around, schema, at_, refers⟩)
      · exact ⟨[], base, v, .here, refers⟩
      · exact ⟨steps, around, schema, places.mpr (.inr at_), refers⟩
    · rintro ⟨steps, around, schema, at_, refers⟩
      rcases places.mp at_ with ⟨-, rfl, rfl⟩ | deeper
      · exact .inl refers
      · exact .inr ⟨steps, around, schema, deeper, refers⟩
  · intro steps around schema keyword text at_ is
    rcases places.mp at_ with ⟨rfl, rfl, rfl⟩ | deeper
    · have entry := (written keyword text).mpr is
      obtain ⟨-, s, here⟩ := written_position is
      have same := collects.unchanged [.key keyword] (by
        intro inner around' schema' keyword' text' deeper is' equal
        obtain ⟨first, rest, rfl, none⟩ := apart deeper
        have fewer := congrArg List.length equal
        simp at fewer)
      rw [Json.valueAt, Json.valueAt, here] at same
      change (Json.obj (assign own.written walked)).valueAt [.key keyword] = _
      rw [Json.valueAt, child_assign, entry]
      cases there : (Json.obj walked).child (.key keyword) with
      | none =>
          rw [there] at same
          cases same
      | some x => rfl
    · obtain ⟨first, rest, rfl, none⟩ := apart deeper
      rw [List.cons_append, kept none]
      exact collects.written _ around schema keyword text deeper is
  · have within : ∀ inner around schema keyword text, Node v (AtToken library own.base) inner around schema →
        Written library around schema keyword text → steps ≠ inner ++ [.key keyword] :=
      fun inner around schema keyword text deeper is => outside inner around schema keyword text (places.mpr (.inr deeper)) is
    have inner := collects.unchanged steps within
    cases steps with
    | nil =>
        refine Eq.trans (congrArg some (outline_keys ?_)) inner
        rw [assign, List.map_map]
        rfl
    | cons token rest =>
        cases token with
        | index place => exact inner
        | key keyword =>
            cases entry : lookupEntry keyword own.written with
            | none => rwa [kept entry]
            | some text =>
                have is := (written keyword text).mp entry
                obtain ⟨-, s, here⟩ := written_position is
                cases rest with
                | nil => exact absurd rfl (outside [] base v keyword text .here is)
                | cons next rest =>
                    have scalar : ∀ text : String, (Json.str text).child next = none := by
                      intro text
                      cases next <;> rfl
                    rw [Json.valueAt, Json.valueAt, here, child_assign, entry]
                    cases (Json.obj walked).child (.key keyword) with
                    | none => simp [Json.valueAt, scalar]
                    | some x => simp [Json.valueAt, scalar]

/-- The walk of a value collects what stands at its schemas. -/
def Walks (library : UriLibrary) (v : Json) : Prop := v.Ordered → ∀ base walked,
  normalizeSchemaUris library base v = .ok walked → Collects library (SchemaAt library base v) v walked.1 walked.2

theorem visitObject_collects {v : Json} (near : Near (Walks library) v) (ordered : v.Ordered) {walked : Json × SchemaUris}
    (ran : visitObject library base v = .ok walked) :
    Collects library (At library base (some .members) v) v walked.1 walked.2 := by
  cases v with
  | obj members =>
      simp only [visitObject, ok_bind, ok_pure] at ran
      obtain ⟨children, visited, rfl⟩ := ran
      rw [visitChildren_eq] at visited
      obtain ⟨parts, traversed, rfl⟩ := ok_map.mp visited
      obtain ⟨ascending, each⟩ := ordered
      refine (@Collects.object _ _ ascending _ (fun _ => SchemaAt library base) _ traversed ?_).2
      intro member inside part one
      obtain ⟨visited, own, rfl⟩ := ok_map.mp one
      exact ⟨rfl, near.2.1 members rfl member inside (Json.orderedMembers_iff.mp each member inside) base visited own⟩
  | null | bool | num | str | arr =>
      cases ran
      exact .nowhere (fun _ _ _ impossible => impossible) _

theorem visitArray_collects {v : Json} (near : Near (Walks library) v) (ordered : v.Ordered) {walked : Json × SchemaUris}
    (ran : visitArray library base v = .ok walked) :
    Collects library (At library base (some .items) v) v walked.1 walked.2 := by
  cases v with
  | arr items =>
      simp only [visitArray, ok_bind, ok_pure] at ran
      obtain ⟨children, visited, rfl⟩ := ran
      rw [visitItems_eq] at visited
      obtain ⟨parts, traversed, rfl⟩ := ok_map.mp visited
      refine @Collects.array _ _ _ (SchemaAt library base) _ traversed fun item inside part one => ?_
      exact near.2.2 items rfl item inside (Json.orderedItems_iff.mp ordered item inside) base part one
  | null | bool | num | str | obj =>
      cases ran
      exact .nowhere (fun _ _ _ impossible => impossible) _

/-- By the members of a schema, each of which walks, as do its own children. -/
theorem walks (v : Json) : Near (Walks library) v := by
  refine near_induction ?_ ?_ v
  · intro v leaf _ base walked ran
    cases v with
    | obj members => cases leaf
    | null | bool | num | str | arr =>
        cases ran
        exact collects_leaf rfl
  · intro members ih ordered base walked ran
    simp only [normalizeSchemaUris, ok_bind, ok_pure] at ran
    obtain ⟨own, identified, walked, visited, rfl⟩ := ran
    rw [visitMembers_eq] at visited
    obtain ⟨parts, traversed, rfl⟩ := ok_map.mp visited
    obtain ⟨ascending, each⟩ := ordered
    refine .own identified (@Collects.object _ _ ascending _ (AtToken library own.base) _ traversed ?_).2
    intro member inside part one
    obtain ⟨visited, valued, rfl⟩ := ok_map.mp one
    have near := ih member inside
    have ordered := Json.orderedMembers_iff.mp each member inside
    refine ⟨rfl, ?_⟩
    change Collects library (At library own.base (position member.1) member.2) _ _ _
    cases place : position member.1 with
    | none =>
        rw [place] at valued
        cases valued
        exact .nowhere (fun _ _ _ impossible => impossible) _
    | some p =>
        rw [place] at valued
        cases p with
        | members => exact visitObject_collects near ordered valued
        | items => exact visitArray_collects near ordered valued
        | schema => exact near.1 ordered own.base visited valued

/-- A walk that fails has met a URI that does not resolve. -/
def Fails (library : UriLibrary) (v : Json) : Prop := v.Ordered → ∀ base message,
  normalizeSchemaUris library base v = .error message →
    ∃ steps around schema, SchemaAt library base v steps around schema ∧ Unresolved library around schema message

theorem error_of_map {ε α β : Type} {x : Except ε α} {f : α → β} {e : ε} (mapped : x.map f = .error e) : x = .error e := by
  cases x with
  | error d => exact congrArg Except.error (Except.error.inj mapped)
  | ok a => cases mapped

theorem visitObject_fails {v : Json} (near : Near (Fails library) v) (ordered : v.Ordered) {message : String}
    (failed : visitObject library base v = .error message) : ∃ steps around schema,
      At library base (some .members) v steps around schema ∧ Unresolved library around schema message := by
  cases v with
  | obj members =>
      rcases error_bind.mp failed with failed | ⟨_, _, impossible⟩
      · rw [visitChildren_eq] at failed
        obtain ⟨member, inside, one⟩ := error_traverseAll (error_of_map failed)
        obtain ⟨ascending, each⟩ := ordered
        obtain ⟨steps, around, schema, at_, unresolved⟩ := near.2.1 members rfl member inside
          (Json.orderedMembers_iff.mp each member inside) base message (error_of_map one)
        have there : (Json.obj members).child (.key member.1) = some member.2 :=
          (Json.lookupMember_eq member.1 members).trans (ascending.lookup_of_mem inside)
        exact ⟨.key member.1 :: steps, around, schema, ⟨_, _, steps, there, rfl, at_⟩, unresolved⟩
      · cases impossible
  | null | bool | num | str | arr => cases failed

theorem visitArray_fails {v : Json} (near : Near (Fails library) v) (ordered : v.Ordered) {message : String}
    (failed : visitArray library base v = .error message) : ∃ steps around schema,
      At library base (some .items) v steps around schema ∧ Unresolved library around schema message := by
  cases v with
  | arr items =>
      rcases error_bind.mp failed with failed | ⟨_, _, impossible⟩
      · rw [visitItems_eq] at failed
        obtain ⟨item, inside, one⟩ := error_traverseAll (error_of_map failed)
        obtain ⟨steps, around, schema, at_, unresolved⟩ := near.2.2 items rfl item inside
          (Json.orderedItems_iff.mp ordered item inside) base message one
        obtain ⟨place, there⟩ := List.getElem?_of_mem inside
        exact ⟨.index place :: steps, around, schema, ⟨.index place, item, steps, there, rfl, at_⟩, unresolved⟩
      · cases impossible
  | null | bool | num | str | obj => cases failed

theorem fails (v : Json) : Near (Fails library) v := by
  refine near_induction ?_ ?_ v
  · intro v leaf _ base message failed
    cases v with
    | obj members => cases leaf
    | null | bool | num | str | arr => cases failed
  · intro members ih ordered base message failed
    rw [normalizeSchemaUris] at failed
    rcases error_bind.mp failed with own | ⟨own, identified, failed⟩
    · exact ⟨[], base, _, .here, ownUris_error own⟩
    rcases error_bind.mp failed with failed | ⟨_, _, impossible⟩
    · rw [visitMembers_eq] at failed
      obtain ⟨member, inside, one⟩ := error_traverseAll (error_of_map failed)
      have valued := error_of_map one
      obtain ⟨ascending, each⟩ := ordered
      have near := ih member inside
      have ordered := Json.orderedMembers_iff.mp each member inside
      have below : ∃ steps around schema, At library own.base (position member.1) member.2 steps around schema ∧
          Unresolved library around schema message := by
        cases place : position member.1 with
        | none =>
            rw [place] at valued
            cases valued
        | some p =>
            rw [place] at valued
            cases p with
            | members => exact visitObject_fails near ordered valued
            | items => exact visitArray_fails near ordered valued
            | schema => exact near.1 ordered own.base message valued
      obtain ⟨steps, around, schema, at_, unresolved⟩ := below
      have there : (Json.obj members).child (.key member.1) = some member.2 :=
        (Json.lookupMember_eq member.1 members).trans (ascending.lookup_of_mem inside)
      exact ⟨.key member.1 :: steps, around, schema, schemaAt_iff.mpr
        (.inr ⟨own.base, (ownUris_ok identified).1, _, _, steps, there, rfl, at_⟩), unresolved⟩
    · cases impossible

/-- The bases around and inside the schemas of a document are reached from its own URI. -/
theorem SchemaAt.reached {path : String} {v schema : Json} {steps : List Token} {around : String}
    (at_ : SchemaAt library base v steps around schema) (start : Reached library path base) :
    Reached library path around ∧ ∀ own, ownBase library around schema = .ok own → Reached library path own := by
  have inner : ∀ {base own : String} {v : Json}, Reached library path base → ownBase library base v = .ok own →
      Reached library path own := by
    intro base own v reached based
    unfold ownBase at based
    split at based
    · exact .nested reached based
    · cases based
      exact reached
  induction at_ with
  | here => exact ⟨start, fun own => inner start⟩
  | nested based _ _ ih => exact ih (inner start based)

/-- What `schema_resources` returns for a document. -/
structure Resources (library : UriLibrary) (path : String) (document : Json) (resources : SchemaResources) : Prop where
  identifiers : ∀ uri, uri ∈ resources.identifiers ↔ uri = repositoryUri path ∨ ∃ steps around schema,
    SchemaAt library (repositoryUri path) document steps around schema ∧ Declares library around schema uri
  references : ∀ uri, uri ∈ resources.references ↔ ∃ steps around schema,
    SchemaAt library (repositoryUri path) document steps around schema ∧ ∃ keyword reference target,
      Refers library around schema keyword reference target ∧ uri = withoutFragment target
  written : ∀ steps around schema keyword text, SchemaAt library (repositoryUri path) document steps around schema →
    Written library around schema keyword text →
      resources.normalized.valueAt (steps ++ [.key keyword]) = some (.str text)
  unchanged : ∀ steps, (∀ inner around schema keyword text,
    SchemaAt library (repositoryUri path) document inner around schema → Written library around schema keyword text →
      steps ≠ inner ++ [.key keyword]) →
    (resources.normalized.valueAt steps).map Json.outline = (document.valueAt steps).map Json.outline

/-- References stay inside the repository, and a document yields exactly the URIs of its schemas. -/
theorem schema_references_inside (rfc : library.Rfc3986) {path : String} (valid : validateRepositoryPath path = .ok ()) :
    (∀ base, Reached library path base → startsWith repositorySchemaBaseUri base = true →
      ∀ reference text, resolveUri library reference base = .ok text →
        (Uri.split reference.toList).scheme = none → (Uri.split reference.toList).authority = none →
          Uri.dropped (Uri.split base.toList) (Uri.split reference.toList) = 0 ∧
            startsWith repositorySchemaBaseUri text = true) ∧
    ∀ document : Json, document.Ordered →
      (∀ steps around schema, SchemaAt library (repositoryUri path) document steps around schema →
        Reached library path around ∧ ∀ own, ownBase library around schema = .ok own → Reached library path own) ∧
      (∀ resources, schemaResources library path document = .ok resources → Resources library path document resources) ∧
      ∀ error, schemaResources library path document = .error error → ∃ steps around schema message,
        SchemaAt library (repositoryUri path) document steps around schema ∧
          Unresolved library around schema message ∧ error = .compilation path message := by
  refine ⟨fun base reached starts reference text accepted noScheme noAuthority => ?_, fun document ordered =>
    ⟨fun steps around schema at_ => at_.reached .document, fun resources ran => ?_, fun error failed => ?_⟩⟩
  · have clean := reached.clean rfc valid (inside_of_starts starts)
    exact resolveUri_inside rfc starts clean accepted noScheme noAuthority
  · simp only [schemaResources, ok_bind, ok_mapError, ok_pure] at ran
    obtain ⟨walked, normalized, rfl⟩ := ran
    have collects := (walks document).1 ordered _ walked normalized
    refine ⟨fun uri => ?_, collects.references, collects.written, collects.unchanged⟩
    rw [← collects.identifiers]
    exact Finset.mem_insert
  · rcases error_bind.mp failed with failed | ⟨_, _, impossible⟩
    · obtain ⟨message, walk, rfl⟩ := error_mapError.mp failed
      obtain ⟨steps, around, schema, at_, unresolved⟩ := (fails document).1 ordered _ message walk
      exact ⟨steps, around, schema, message, at_, unresolved, rfl⟩
    · cases impossible

end

/-- A library that parses every text. -/
def plainLibrary : UriLibrary where
  parseReference text := .ok (Uri.split text.toList)
  parse text := if (Uri.split text.toList).scheme.isSome then .ok (Uri.split text.toList) else .error "no scheme"
  resolve reference base := .ok (String.ofList (Uri.recompose (Uri.apart (Uri.resolved base reference))))

theorem plainLibrary_rfc : plainLibrary.Rfc3986 where
  reference := by
    intro text reference parsed
    exact (Except.ok.inj parsed).symm
  absolute := by
    intro text base parsed
    change (if _ then _ else _) = _ at parsed
    split at parsed
    · rename_i absolute
      cases parsed
      exact ⟨rfl, absolute⟩
    · cases parsed
  resolution := by
    intro reference base text resolves
    rw [← Except.ok.inj resolves, String.toList_ofList]

/-- A reference to the directory above stays inside. -/
theorem sibling_reference_inside : ∃ text,
    resolveUri plainLibrary "../b.json" (repositoryUri "schemas/a.json") = .ok text ∧
      Uri.dropped (Uri.split (repositoryUri "schemas/a.json").toList) (Uri.split "../b.json".toList) = 0 ∧
        startsWith repositorySchemaBaseUri text = true := by
  have valid : validateRepositoryPath "schemas/a.json" = .ok () := by decide
  have inside := (schema_references_inside plainLibrary_rfc valid).1 _ .document (repositoryUri_inside _) "../b.json" _
    rfl rfl rfl
  exact ⟨_, rfl, inside⟩

/-- The URI of the document itself is collected, also where no `$id` declares it. -/
theorem own_uri_undeclared : plainLibrary.Rfc3986 ∧ validateRepositoryPath "a.json" = .ok () ∧
    ∃ resources, schemaResources plainLibrary "a.json" (.obj []) = .ok resources ∧
      repositoryUri "a.json" ∈ resources.identifiers ∧
        ¬∃ steps around schema, SchemaAt plainLibrary (repositoryUri "a.json") (.obj []) steps around schema ∧
          Declares plainLibrary around schema (repositoryUri "a.json") := by
  refine ⟨plainLibrary_rfc, by decide, _, rfl, Finset.mem_insert_self _ _, ?_⟩
  rintro ⟨steps, around, schema, at_, id, here, -⟩
  rcases schemaAt_iff.mp at_ with ⟨-, -, rfl⟩ | ⟨own, -, token, x, rest, there, -⟩
  · cases here
  · cases token <;> cases there

end Schema

end Metewand
