import Metewand.Core.Text
import Metewand.Export.Table
import Metewand.Protocol.Wire

/-!
# Types of metric cells

A `metric_value` cell is always canonical JSON, so it keeps the type of its value.  The
`provisional_metric_value` cell is not: a string stands there as it is, and null is empty.
`keepsTypes_iff` says when that still tells values apart.
-/

namespace Metewand.Export

open Lib Lib.Check

variable (lib : JsonLibrary)

/-- The field of a column in the line of a row. -/
def field (row : TidyRow) (column : String) : Except Json.CanonicalValueViolation String :=
  (cellText lib column (columnValue row.value column)).map csvCell

/-- Equal as JSON values: numbers count by what they denote. -/
def SameJson (v w : Json) : Prop := v.normalize = w.normalize

/-- The fields of a name and of its value tell values apart. -/
def KeepsTypes (records : List ExportRecord) : Prop :=
  ∀ a ∈ records.flatMap ExportRecord.tidyRows, ∀ b ∈ records.flatMap ExportRecord.tidyRows,
    ∀ name value : String,
    (field lib a "metric_name" = .ok name → field lib b "metric_name" = .ok name →
      field lib a "metric_value" = .ok value → field lib b "metric_value" = .ok value →
      SameJson a.metricValue b.metricValue) ∧
    (a.provisionalMetricName.isSome → field lib a "provisional_metric_name" = .ok name →
      field lib b "provisional_metric_name" = .ok name → field lib a "provisional_metric_value" = .ok value →
      field lib b "provisional_metric_value" = .ok value →
      SameJson (a.provisionalMetricValue.getD .null) (b.provisionalMetricValue.getD .null))

/-- A value that is no object with members. -/
def IsLeaf (v : Json) : Prop := ∀ members, v = .obj members → members = []

/-- What the cell of a value that is no string shows. -/
def Shown (v : Json) (text : String) : Prop :=
  (∀ s, v ≠ .str s) ∧ (v = .null ∧ text = "" ∨ v ≠ .null ∧ canonicalText lib v = .ok text)

/-- Under one path, a trace has a string and a trace has another value that is shown as that string. -/
def Collides (records : List ExportRecord) : Prop :=
  ∃ r ∈ records, ∃ r' ∈ records, r.recordType = .trace ∧ r'.recordType = .trace ∧
    ∃ key path text v, atPath (key :: path) r.provisionalMetrics = some (.str text) ∧
      atPath (key :: path) r'.provisionalMetrics = some v ∧ IsLeaf v ∧ Shown lib v text

/-- The values of a record are what the source's values can be. -/
def ExportRecord.Ordered (record : ExportRecord) : Prop :=
  record.metrics.Ordered ∧ ∀ profile ∈ record.profile, profile.Ordered

/-! ## Columns -/

theorem get_optional {α : Type} (f : α → Json) (key k : String) (value : Option α) (rest : List (String × Json)) :
    (Json.object (optional f key value ++ rest)).get k =
      if k = key then value.elim ((Json.object rest).get k) f else (Json.object rest).get k := by
  cases value with
  | none => simp [optional]
  | some v => simp [optional]

variable {lib}

theorem columnValue_metricName (row : TidyRow) :
    columnValue row.value "metric_name" = nullableText row.metricName := by
  simp [columnValue, compatibilityColumns, TidyRow.value, TidyRow.fields, ExportRecord.fields, optionalJson,
    get_optional]

theorem columnValue_metricValue (row : TidyRow) : columnValue row.value "metric_value" = row.metricValue := by
  simp [columnValue, compatibilityColumns, TidyRow.value, TidyRow.fields, ExportRecord.fields, optionalJson,
    get_optional]

theorem columnValue_provisionalName (row : TidyRow) :
    columnValue row.value "provisional_metric_name" = nullableText row.provisionalMetricName := by
  cases h : row.provisionalMetricName <;>
  simp [columnValue, compatibilityColumns, TidyRow.value, TidyRow.fields, ExportRecord.fields, optionalJson,
    get_optional, h, nullableText, Json.ofOption]

theorem columnValue_provisionalValue (row : TidyRow) :
    columnValue row.value "provisional_metric_value" = row.provisionalMetricValue.getD .null := by
  cases h : row.provisionalMetricValue <;>
  simp [columnValue, compatibilityColumns, TidyRow.value, TidyRow.fields, ExportRecord.fields, optionalJson,
    get_optional, h]

/-! ## Cells -/

theorem csvCell_injective {a b : String} (same : csvCell a = csvCell b) : a = b := by
  have left := csvCell_spells a
  have right := csvCell_spells b
  rw [same] at left
  exact String.toList_inj.mp (left.unique right)

/-- A field that shows a text comes from the cell with that text. -/
theorem field_eq {row : TidyRow} {column shown : String} (is : field lib row column = .ok shown) :
    ∃ text, cellText lib column (columnValue row.value column) = .ok text ∧ csvCell text = shown :=
  ok_map.mp is

/-- Equal fields have equal cells. -/
theorem cells_eq {a b : TidyRow} {column shown : String} (left : field lib a column = .ok shown)
    (right : field lib b column = .ok shown) :
    ∃ text, cellText lib column (columnValue a.value column) = .ok text ∧
      cellText lib column (columnValue b.value column) = .ok text := by
  obtain ⟨text, cell, rfl⟩ := field_eq left
  obtain ⟨text', cell', same⟩ := field_eq right
  exact ⟨text, cell, csvCell_injective same ▸ cell'⟩

/-- Canonical text keeps the value. -/
theorem sameJson_of_canonicalText (spelled : lib.Spelled) {v w : Json} (ordered : v.Ordered) (ordered' : w.Ordered)
    {text : String} (left : canonicalText lib v = .ok text) (right : canonicalText lib w = .ok text) :
    SameJson v w := by
  obtain ⟨normal, normalized, rfl⟩ := ok_map.mp left
  obtain ⟨normal', normalized', same⟩ := ok_map.mp right
  have shape := (Json.normalize_shape v normalized).2 ordered
  have shape' := (Json.normalize_shape w normalized').2 ordered'
  have texts := String.ofList_injective same
  have equal := JsonLibrary.text_injective spelled (Json.normalize_idempotent normalized)
    (Json.normalize_idempotent normalized') shape shape' texts.symm
  rw [SameJson, normalized, normalized', equal]

theorem canonicalText_ne_empty (spelled : lib.Spelled) {v : Json} {text : String}
    (shown : canonicalText lib v = .ok text) : text ≠ "" := by
  obtain ⟨normal, normalized, rfl⟩ := ok_map.mp shown
  intro empty
  have none := congrArg String.toList empty
  rw [String.toList_ofList] at none
  exact (JsonLibrary.text_starts spelled (Json.normalize_idempotent normalized) []).1 none

theorem cellText_metricValue (v : Json) : cellText lib "metric_value" v = canonicalText lib v := by
  unfold cellText
  exact if_pos rfl

/-- The cell of any other column: a string as it is, or a shown value. -/
theorem cellText_cases {column text : String} {v : Json} (other : column ≠ "metric_value")
    (cell : cellText lib column v = .ok text) : v = .str text ∨ Shown lib v text := by
  unfold cellText at cell
  rw [if_neg other] at cell
  cases v with
  | null =>
      cases cell
      exact .inr ⟨fun _ same => (by cases same), .inl ⟨rfl, rfl⟩⟩
  | str s =>
      cases cell
      exact .inl rfl
  | bool | num | arr | obj =>
      exact .inr ⟨fun _ same => (by cases same), .inr ⟨fun same => (by cases same), cell⟩⟩

theorem cellText_shown {column text : String} {v : Json} (other : column ≠ "metric_value")
    (shown : Shown lib v text) : cellText lib column v = .ok text := by
  unfold cellText
  rw [if_neg other]
  obtain ⟨notText, ⟨rfl, rfl⟩ | ⟨notNull, canonical⟩⟩ := shown
  · rfl
  · cases v with
    | null => exact absurd rfl notNull
    | str s => exact absurd rfl (notText s)
    | bool | num | arr | obj => exact canonical

/-- Two shown values with one text are the same. -/
theorem Shown.same (spelled : lib.Spelled) {v w : Json} (ordered : v.Ordered) (ordered' : w.Ordered) {text : String}
    (left : Shown lib v text) (right : Shown lib w text) : SameJson v w := by
  obtain ⟨-, ⟨rfl, rfl⟩ | ⟨-, canonical⟩⟩ := left
  · obtain ⟨-, ⟨rfl, -⟩ | ⟨-, canonical⟩⟩ := right
    · rfl
    · exact absurd rfl (canonicalText_ne_empty spelled canonical)
  · obtain ⟨-, ⟨rfl, rfl⟩ | ⟨-, canonical'⟩⟩ := right
    · exact absurd rfl (canonicalText_ne_empty spelled canonical)
    · exact sameJson_of_canonicalText spelled ordered ordered' canonical canonical'

/-! ## Rows -/

theorem mem_leaves_of_atPath {leaf : Json} (is : IsLeaf leaf) (path : List String) : ∀ {v : Json},
    atPath path v = some leaf → (path, leaf) ∈ leaves v := by
  induction path with
  | nil =>
      intro v found
      cases found
      cases leaf with
      | obj members =>
          obtain rfl := is members rfl
          exact List.mem_singleton_self _
      | null | bool | num | str | arr => exact List.mem_singleton_self _
  | cons key path ih =>
      intro v found
      cases v with
      | obj members =>
          obtain ⟨next, member, rest⟩ := Option.bind_eq_some_iff.mp found
          rw [Json.lookupMember_eq] at member
          have inside := mem_of_lookup member
          rw [leaves, if_neg]
          · exact mem_memberLeaves.mpr ⟨_, inside, path, rfl, ih rest⟩
          · rw [List.isEmpty_iff]
            exact List.ne_nil_of_mem inside
      | null | bool | num | str | arr => cases found

theorem isLeaf_of_mem_leaves {v : Json} : ∀ {path : List String} {leaf : Json},
    (path, leaf) ∈ leaves v → IsLeaf leaf := by
  induction v using Json.induction with
  | null | bool | num | str | arr =>
      intro path leaf member
      cases List.mem_singleton.mp member
      intro members same
      cases same
  | obj members ih =>
      intro path leaf member
      rw [leaves] at member
      split at member
      · rename_i none
        cases List.mem_singleton.mp member
        intro members same
        cases same
        exact List.isEmpty_iff.mp none
      · obtain ⟨first, inside, rest, rfl, there⟩ := mem_memberLeaves.mp member
        exact ih first inside there

/-- A metric value is a leaf at a path of at least one key. -/
theorem mem_metricValues {v : Json} (ordered : v.Ordered) {name : String} {leaf : Json} :
    (name, leaf) ∈ metricValues v ↔
      ∃ key path, name = pointerOf (key :: path) ∧ atPath (key :: path) v = some leaf ∧ IsLeaf leaf := by
  constructor
  · intro member
    cases v with
    | obj members =>
        cases members with
        | nil => exact absurd member List.not_mem_nil
        | cons first rest =>
            have visited := visit_eq ordered ""
            have rows : (name, leaf) ∈ visit "" (.obj (first :: rest)) := member
            rw [visited] at rows
            obtain ⟨⟨path, leaf⟩, there, same⟩ := List.mem_map.mp rows
            simp only [String.empty_append, Prod.mk.injEq] at same
            obtain ⟨rfl, rfl⟩ := same
            have found := atPath_of_leaf ordered there
            have is := isLeaf_of_mem_leaves there
            cases path with
            | nil =>
                cases found
                cases is _ rfl
            | cons key path => exact ⟨key, path, rfl, found, is⟩
    | null | bool | num | str | arr => exact absurd member List.not_mem_nil
  · rintro ⟨key, path, rfl, found, is⟩
    have there := mem_leaves_of_atPath is _ found
    cases v with
    | obj members =>
        cases members with
        | nil => cases found
        | cons first rest =>
            change _ ∈ visit "" (.obj (first :: rest))
            rw [visit_eq ordered]
            exact List.mem_map.mpr ⟨_, there, by rw [String.empty_append]⟩
    | null | bool | num | str | arr => cases found

/-- The entries of a record are its metric values, or one null without a name. -/
theorem mem_namedValues {record : ExportRecord} {name : Option String} {value : Json}
    (member : (name, value) ∈ record.namedValues) :
    name = none ∧ value = .null ∨
      ∃ text, name = some text ∧ (text, value) ∈
        metricValues (if record.recordType = .trace then record.provisionalMetrics else record.metrics) := by
  have entries : record.namedValues =
      if (metricValues (if record.recordType = .trace then record.provisionalMetrics else record.metrics)).isEmpty
      then [(none, .null)]
      else (metricValues (if record.recordType = .trace then record.provisionalMetrics else record.metrics)).map
        fun row => (some row.1, row.2) := by
    rw [ExportRecord.namedValues, apply_ite metricValues]
  rw [entries] at member
  generalize (if record.recordType = .trace then record.provisionalMetrics else record.metrics) = whole at member ⊢
  split at member
  · cases List.mem_singleton.mp member
    exact .inl ⟨rfl, rfl⟩
  · obtain ⟨⟨text, value⟩, inside, same⟩ := List.mem_map.mp member
    cases same
    exact .inr ⟨text, rfl, inside⟩

theorem namedValues_of_mem {record : ExportRecord} (trace : record.recordType = .trace) {name : String} {value : Json}
    (member : (name, value) ∈ metricValues record.provisionalMetrics) :
    (some name, value) ∈ record.namedValues := by
  rw [ExportRecord.namedValues, if_pos trace, if_neg]
  · exact List.mem_map.mpr ⟨_, member, rfl⟩
  · rw [List.isEmpty_iff]
    exact List.ne_nil_of_mem member

theorem get_ordered {v : Json} (ordered : v.Ordered) (key : String) : (v.get key).Ordered := by
  cases v with
  | obj members =>
      cases found : Json.lookupMember key members with
      | none => simp only [Json.get, found, Option.getD_none, Json.Ordered]
      | some w =>
          rw [Json.lookupMember_eq] at found
          have each := Json.orderedMembers_iff.mp ordered.2 _ (mem_of_lookup found)
          rw [← Json.lookupMember_eq] at found
          simpa only [Json.get, found, Option.getD_some] using each
  | null | bool | num | str | arr => trivial

theorem ExportRecord.Ordered.provisional {record : ExportRecord} (ordered : record.Ordered) :
    record.provisionalMetrics.Ordered := by
  rw [ExportRecord.provisionalMetrics]
  refine get_ordered ?_ _
  cases present : record.profile with
  | none => trivial
  | some profile => exact ordered.2 profile present

theorem atPath_ordered (path : List String) : ∀ {v leaf : Json}, v.Ordered → atPath path v = some leaf →
    leaf.Ordered := by
  induction path with
  | nil =>
      intro v leaf ordered found
      cases found
      exact ordered
  | cons key path ih =>
      intro v leaf ordered found
      cases v with
      | obj members =>
          obtain ⟨next, member, rest⟩ := Option.bind_eq_some_iff.mp found
          rw [Json.lookupMember_eq] at member
          exact ih (Json.orderedMembers_iff.mp ordered.2 _ (mem_of_lookup member)) rest
      | null | bool | num | str | arr => cases found

/-- Values of ordered records are ordered. -/
theorem namedValue_ordered {record : ExportRecord} (ordered : record.Ordered) {name : Option String} {value : Json}
    (member : (name, value) ∈ record.namedValues) : value.Ordered := by
  rcases mem_namedValues member with ⟨-, rfl⟩ | ⟨text, -, inside⟩
  · trivial
  · have whole : (if record.recordType = .trace then record.provisionalMetrics else record.metrics).Ordered := by
      split
      · exact ordered.provisional
      · exact ordered.1
    obtain ⟨key, path, -, found, -⟩ := (mem_metricValues whole).mp inside
    exact atPath_ordered _ whole found

/-! ## When types are kept -/

theorem mem_rows {records : List ExportRecord} {row : TidyRow}
    (member : row ∈ records.flatMap ExportRecord.tidyRows) :
    ∃ record ∈ records, ∃ name value,
      (name, value) ∈ record.namedValues ∧ row = record.tidyRow name value := by
  obtain ⟨record, inside, there⟩ := List.mem_flatMap.mp member
  obtain ⟨⟨name, value⟩, entry, rfl⟩ := List.mem_map.mp there
  exact ⟨record, inside, name, value, entry, rfl⟩

theorem metricValue_ordered {record : ExportRecord} (ordered : record.Ordered) {name : Option String} {value : Json}
    (member : (name, value) ∈ record.namedValues) : (record.tidyRow name value).metricValue.Ordered := by
  rw [ExportRecord.tidyRow]
  dsimp only
  split
  · trivial
  · exact namedValue_ordered ordered member

/-- The metric column keeps types whatever the records hold. -/
theorem metricValue_same (spelled : lib.Spelled) {a b : TidyRow} (ordered : a.metricValue.Ordered)
    (ordered' : b.metricValue.Ordered) {shown : String} (left : field lib a "metric_value" = .ok shown)
    (right : field lib b "metric_value" = .ok shown) : SameJson a.metricValue b.metricValue := by
  obtain ⟨text, cell, cell'⟩ := cells_eq left right
  rw [columnValue_metricValue, cellText_metricValue] at cell cell'
  exact sameJson_of_canonicalText spelled ordered ordered' cell cell'

/-- A row with a provisional name is the row of a value of a trace, under the path of its name. -/
theorem provisional_row {record : ExportRecord} (ordered : record.Ordered) {name : Option String} {value : Json}
    (member : (name, value) ∈ record.namedValues) {text : String}
    (named : (record.tidyRow name value).provisionalMetricName = some text) :
    record.recordType = .trace ∧ (record.tidyRow name value).provisionalMetricValue = some value ∧
      ∃ key path, text = pointerOf (key :: path) ∧ atPath (key :: path) record.provisionalMetrics = some value ∧
        IsLeaf value := by
  rw [ExportRecord.tidyRow] at named ⊢
  dsimp only at named ⊢
  by_cases trace : record.recordType = .trace
  · rw [if_pos trace] at named ⊢
    subst named
    rcases mem_namedValues member with ⟨impossible, -⟩ | ⟨_, same, inside⟩
    · cases impossible
    · cases same
      rw [if_pos trace] at inside
      exact ⟨trace, rfl, (mem_metricValues ordered.provisional).mp inside⟩
  · rw [if_neg trace] at named
    cases named

theorem pointerOf_ne_empty (key : String) (path : List String) : pointerOf (key :: path) ≠ "" := by
  intro empty
  have none := congrArg String.toList empty
  rw [pointerOf, String.toList_ofList, List.map_cons, Pointer.text_cons] at none
  cases none

/-- Only a string is the same as a string. -/
theorem normalize_str {v : Json} {text : String} (same : SameJson v (.str text)) : v = .str text := by
  rw [SameJson] at same
  cases v with
  | null | bool => cases same
  | str s =>
      cases same
      rfl
  | num n =>
      obtain ⟨m, -, impossible⟩ := ok_map.mp same
      cases impossible
  | arr items =>
      obtain ⟨m, -, impossible⟩ := ok_map.mp same
      cases impossible
  | obj members =>
      obtain ⟨m, -, impossible⟩ := ok_map.mp same
      cases impossible

/-- A present name has a field of its own. -/
theorem named_of_field {a b : TidyRow} {text shown : String} (named : a.provisionalMetricName = some text)
    (filled : text ≠ "") (left : field lib a "provisional_metric_name" = .ok shown)
    (right : field lib b "provisional_metric_name" = .ok shown) : b.provisionalMetricName = some text := by
  obtain ⟨cell, read, read'⟩ := cells_eq left right
  rw [columnValue_provisionalName] at read read'
  rw [named] at read
  obtain rfl : text = cell := Except.ok.inj read
  cases other : b.provisionalMetricName with
  | none =>
      rw [other] at read'
      exact absurd (Except.ok.inj read').symm filled
  | some text' =>
      rw [other] at read'
      rw [Except.ok.inj read']

/-- A string and a value that is shown as it share a name and a cell. -/
theorem not_keeps_of_collides {records : List ExportRecord} (ordered : ∀ record ∈ records, record.Ordered)
    (collides : Collides lib records) : ¬ KeepsTypes lib records := by
  intro keeps
  obtain ⟨r, inside, r', inside', trace, trace', key, path, text, v, found, found', leaf, shown⟩ := collides
  have textLeaf : IsLeaf (.str text) := fun _ same => by cases same
  have entry := namedValues_of_mem trace
    ((mem_metricValues (ordered r inside).provisional).mpr ⟨key, path, rfl, found, textLeaf⟩)
  have entry' := namedValues_of_mem trace'
    ((mem_metricValues (ordered r' inside').provisional).mpr ⟨key, path, rfl, found', leaf⟩)
  have row : r.tidyRow (some (pointerOf (key :: path))) (.str text) ∈ records.flatMap ExportRecord.tidyRows :=
    List.mem_flatMap.mpr ⟨r, inside, List.mem_map.mpr ⟨_, entry, rfl⟩⟩
  have row' : r'.tidyRow (some (pointerOf (key :: path))) v ∈ records.flatMap ExportRecord.tidyRows :=
    List.mem_flatMap.mpr ⟨r', inside', List.mem_map.mpr ⟨_, entry', rfl⟩⟩
  have name : ∀ record : ExportRecord, record.recordType = .trace → ∀ value,
      (record.tidyRow (some (pointerOf (key :: path))) value).provisionalMetricName =
        some (pointerOf (key :: path)) := by
    intro record is value
    rw [ExportRecord.tidyRow]
    exact if_pos is
  have value : ∀ record : ExportRecord, record.recordType = .trace → ∀ value,
      (record.tidyRow (some (pointerOf (key :: path))) value).provisionalMetricValue = some value := by
    intro record is value
    rw [ExportRecord.tidyRow]
    exact if_pos is
  have nameField : ∀ record : ExportRecord, record.recordType = .trace → ∀ value,
      field lib (record.tidyRow (some (pointerOf (key :: path))) value) "provisional_metric_name" =
        .ok (csvCell (pointerOf (key :: path))) := by
    intro record is value
    rw [field, columnValue_provisionalName, name record is value]
    rfl
  have same := (keeps _ row _ row' (csvCell (pointerOf (key :: path))) (csvCell text)).2
    (by rw [name r trace]; rfl) (nameField r trace _) (nameField r' trace' _)
    (by rw [field, columnValue_provisionalValue, value r trace]; rfl)
    (by
      rw [field, columnValue_provisionalValue, value r' trace', Option.getD_some,
        cellText_shown (by decide) shown]
      rfl)
  rw [value r trace, value r' trace', Option.getD_some, Option.getD_some] at same
  exact shown.1 text (normalize_str (Eq.symm same))

theorem keeps_of_apart (spelled : lib.Spelled) {records : List ExportRecord}
    (ordered : ∀ record ∈ records, record.Ordered) (apart : ¬ Collides lib records) : KeepsTypes lib records := by
  intro a row b row' shownName shownValue
  obtain ⟨r, inside, name, v, entry, rfl⟩ := mem_rows row
  obtain ⟨r', inside', name', v', entry', rfl⟩ := mem_rows row'
  refine ⟨fun _ _ left right => ?_, fun present left right valueLeft valueRight => ?_⟩
  · exact metricValue_same spelled (metricValue_ordered (ordered r inside) entry)
      (metricValue_ordered (ordered r' inside') entry') left right
  · obtain ⟨text, named⟩ := Option.isSome_iff_exists.mp present
    obtain ⟨trace, value, key, path, rfl, found, leaf⟩ := provisional_row (ordered r inside) entry named
    have named' := named_of_field named (pointerOf_ne_empty key path) left right
    obtain ⟨trace', value', key', path', same, found', leaf'⟩ := provisional_row (ordered r' inside') entry' named'
    obtain ⟨rfl, rfl⟩ := List.cons.inj (pointerOf_injective same)
    obtain ⟨cell, read, read'⟩ := cells_eq valueLeft valueRight
    rw [columnValue_provisionalValue, value, Option.getD_some] at read
    rw [columnValue_provisionalValue, value', Option.getD_some] at read'
    rw [value, value', Option.getD_some, Option.getD_some]
    rcases cellText_cases (by decide) read with rfl | shown
    · rcases cellText_cases (by decide) read' with rfl | shown'
      · rfl
      · exact absurd
          ⟨r, inside, r', inside', trace, trace', key, path, cell, v', found, found', leaf', shown'⟩ apart
    · rcases cellText_cases (by decide) read' with rfl | shown'
      · exact absurd ⟨r', inside', r, inside, trace', trace, key, path, cell, v, found', found, leaf, shown⟩ apart
      · exact shown.same spelled (namedValue_ordered (ordered r inside) entry)
          (namedValue_ordered (ordered r' inside') entry') shown'

/-- The metric columns always keep the types of their values; the provisional ones do exactly when no
trace has a string where a trace has another value that is shown as that string. -/
theorem keepsTypes_iff (spelled : lib.Spelled) {records : List ExportRecord}
    (ordered : ∀ record ∈ records, record.Ordered) : KeepsTypes lib records ↔ ¬ Collides lib records := by
  constructor
  · intro keeps collides
    exact not_keeps_of_collides ordered collides keeps
  · exact keeps_of_apart spelled ordered

/-! A trace with one provisional metric. -/

def traceRecord (score : Json) : ExportRecord where
  profile := some (.object [("provisional_metrics", .object [("score", score)])])
  schemaVersion := 1
  recordType := .trace
  id := "trace"
  candidateId := "candidate"
  logicalRunId := none
  resolvedRunId := none
  logicalSlotId := none
  resolvedSlotId := none
  logicalObservationSlotId := none
  resolvedObservationSlotId := none
  attemptId := none
  retryIndex := none
  attemptState := none
  outcome := none
  valid := none
  selected := none
  completion := none
  failureCode := none
  warmup := none
  compatibilityId := "compatibility"
  compatibility :=
    { profile := none
      executionSemanticsVersion := none
      timingScope := none
      primaryTime := none
      environmentClass := none
      controlClass := "local"
      controlEvidence := "reported"
      controls := .null
      executionPolicy := .null
      measurementsVersion := none
      accounting := .null
      unclassifiedRecord := none }
  timing := .null
  metrics := .null
  metricSchema := none
  resultSchema := none
  provenance := .null
  evidence := .null

theorem traceRecord_ordered {score : Json} (ordered : score.Ordered) : (traceRecord score).Ordered := by
  refine ⟨trivial, ?_⟩
  intro profile member
  cases member
  exact ⟨List.pairwise_singleton _ _, ⟨List.pairwise_singleton _ _, ordered, trivial⟩, trivial⟩

theorem traceRecords_collide :
    Collides Protocol.sampleText [traceRecord (.str "1"), traceRecord (.nat 1)] := by
  refine ⟨traceRecord (.str "1"), by simp, traceRecord (.nat 1), by simp, rfl, rfl, "score", [], "1", .nat 1,
    rfl, rfl, ?_, ?_, .inr ⟨?_, rfl⟩⟩
  · intro members same
    cases same
  · intro s same
    cases same
  · intro same
    cases same

theorem traceRecords_ordered :
    ∀ record ∈ [traceRecord (.str "1"), traceRecord (.nat 1)], record.Ordered := by
  intro record member
  rcases List.mem_cons.mp member with rfl | member
  · exact traceRecord_ordered trivial
  · obtain rfl := List.mem_singleton.mp member
    exact traceRecord_ordered trivial

theorem keepsTypes_iff_traceRecords :
    ¬ KeepsTypes Protocol.sampleText [traceRecord (.str "1"), traceRecord (.nat 1)] := by
  intro keeps
  have apart := (keepsTypes_iff Protocol.sampleText_spelled traceRecords_ordered).mp keeps
  exact apart traceRecords_collide

/-- The string `1` and the number 1 have one field. -/
theorem provisional_types_lost :
    ¬ ∀ records : List ExportRecord, (∀ record ∈ records, record.Ordered) →
      KeepsTypes Protocol.sampleText records := by
  intro all
  exact not_keeps_of_collides traceRecords_ordered traceRecords_collide (all _ traceRecords_ordered)

end Metewand.Export
