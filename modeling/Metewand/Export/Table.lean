import Metewand.Core.Encoding
import Metewand.Export.Records
import Metewand.Lib.Csv

/-!
# The CSV table

`csv` of `runtime/export.rs`: a header and one line for each tidy row, with a cell for each column.
`csv_read` says that reading the bytes gives back the unescaped cells.
-/

namespace Metewand.Export

open Lib Lib.Check

/-- Escapes a cell without changing its contents. -/
def csvCell (value : String) : String :=
  if value.toList.any fun c => c == ',' || c == Csv.quoteMark || c == '\r' || c == '\n' then
    String.ofList (Csv.quoteMark :: Pointer.replaceChar Csv.quoteMark [Csv.quoteMark, Csv.quoteMark] value.toList ++
      [Csv.quoteMark])
  else value

def columns : List String := [
  "schema_version",
  "record_type",
  "id",
  "candidate_id",
  "logical_run_id",
  "resolved_run_id",
  "logical_slot_id",
  "resolved_slot_id",
  "logical_observation_slot_id",
  "resolved_observation_slot_id",
  "attempt_id",
  "retry_index",
  "attempt_state",
  "outcome",
  "valid",
  "selected",
  "completion",
  "failure_code",
  "warmup",
  "compatibility_id",
  "timing_scope",
  "primary_time",
  "environment_class",
  "control_class",
  "control_evidence",
  "metric_name",
  "metric_value",
  "metric_unit",
  "metric_direction",
  "instrumented_time_ns",
  "active_time_ns",
  "elapsed_wall_time_ns",
  "checkpoint_sequence",
  "instrumented_total_time_ns",
  "provisional_metric_name",
  "provisional_metric_value",
  "profile",
  "timed_wall_time_ns",
  "timed_wall_time_status",
  "implementation_time_ns",
  "evaluation_time_ns",
  "cpu_time_ns",
  "cpu_time_status",
  "peak_rss_bytes",
  "peak_rss_status",
  "metric_schema",
  "result_schema",
  "timing",
  "compatibility",
  "provenance",
  "evidence"]

/-- Columns that stand in the compatibility class of a row. -/
def compatibilityColumns : List String :=
  ["timing_scope", "primary_time", "environment_class", "control_class", "control_evidence"]

def columnValue (row : Json) (column : String) : Json :=
  if column ∈ compatibilityColumns then (row.get "compatibility").get column else row.get column

variable (lib : JsonLibrary)

/-- The canonical text of a value. -/
def canonicalText (value : Json) : Except Json.CanonicalValueViolation String :=
  value.normalize.map fun normal => String.ofList (lib.text normal)

/-- The text of a cell before it is escaped. -/
def cellText (column : String) (value : Json) : Except Json.CanonicalValueViolation String :=
  if column = "metric_value" then canonicalText lib value
  else
    match value with
    | .null => .ok ""
    | .str text => .ok text
    | value => canonicalText lib value

def rowCells (row : TidyRow) : Except Json.CanonicalValueViolation (List String) :=
  traverseAll (fun column => cellText lib column (columnValue row.value column)) columns

def csvLine (cells : List String) : List Char := Csv.line (cells.map String.toList)

def csv (rows : List TidyRow) : Except Json.CanonicalValueViolation (List UInt8) := do
  let lines ← traverseAll (fun row => do
    let cells ← rowCells lib row
    return csvLine (cells.map csvCell)) rows
  return utf8 (String.ofList (csvLine columns ++ lines.flatten))

/-! ## Reading -/

theorem replaceChar_quote (text : List Char) :
    Pointer.replaceChar Csv.quoteMark [Csv.quoteMark, Csv.quoteMark] text = text.flatMap Csv.double := by
  rw [Pointer.replaceChar]
  congr 1
  funext c
  rw [Csv.double]
  split
  · rename_i quote
    rw [quote]
  · rfl

theorem csvCell_spells (value : String) : Csv.Spells value.toList (csvCell value).toList := by
  unfold csvCell
  split
  · rw [String.toList_ofList, replaceChar_quote]
    exact .quoted
  · rename_i plain
    refine .bare fun c member => ?_
    rw [Bool.not_eq_true, List.any_eq_false] at plain
    have special := plain c member
    simpa [Csv.Plain, and_assoc] using special

theorem columns_plain : ∀ column ∈ columns, ∀ c ∈ column.toList, Csv.Plain c := by
  have all : columns.all (fun column => column.toList.all fun c => decide (Csv.Plain c)) = true := by
    decide +kernel
  intro column member c inside
  have plain := List.all_eq_true.mp (List.all_eq_true.mp all column member) c inside
  exact of_decide_eq_true plain

theorem columns_spells (names : List String) (plain : ∀ column ∈ names, ∀ c ∈ column.toList, Csv.Plain c) :
    List.Forall₂ Csv.Spells (names.map String.toList) (names.map String.toList) := by
  induction names with
  | nil => exact .nil
  | cons name rest ih =>
      exact .cons (.bare (plain name List.mem_cons_self)) (ih fun column member =>
        plain column (List.mem_cons_of_mem _ member))

theorem cells_spells (cells : List String) :
    List.Forall₂ Csv.Spells (cells.map String.toList) ((cells.map csvCell).map String.toList) := by
  induction cells with
  | nil => exact .nil
  | cons cell rest ih => exact .cons (csvCell_spells cell) ih

/-- Reading the table gives back the column names and, for each row, its unescaped cells. -/
theorem csv_read {rows : List TidyRow} {output : List UInt8} (written : csv lib rows = .ok output) :
    ∃ table, List.Forall₂ (fun row cells => rowCells lib row = .ok cells) rows table ∧
      (∀ cells ∈ table, cells.length = columns.length) ∧
      ∃ text, output = utf8 (String.ofList text) ∧ Csv.read text = some (columns :: table) := by
  simp only [csv, ok_bind, ok_pure] at written
  obtain ⟨lines, traversed, rfl⟩ := written
  have each := ok_traverseAll.mp traversed
  simp only [ok_bind, ok_pure] at each
  obtain ⟨table, cells, same⟩ : ∃ table,
      List.Forall₂ (fun row cells => rowCells lib row = .ok cells) rows table ∧
        lines = table.map fun cells => csvLine (cells.map csvCell) := by
    clear traversed
    induction each with
    | nil => exact ⟨[], .nil, rfl⟩
    | cons head _ ih =>
        obtain ⟨cells, wrote, rfl⟩ := head
        obtain ⟨table, others, rfl⟩ := ih
        exact ⟨cells :: table, .cons wrote others, rfl⟩
  have full : ∀ cells ∈ table, cells.length = columns.length := by
    clear each traversed same
    induction cells with
    | nil => exact fun cells member => absurd member List.not_mem_nil
    | cons wrote _ ih =>
        intro cells member
        rcases List.mem_cons.mp member with rfl | later
        · exact (ok_traverseAll.mp wrote).length_eq.symm
        · exact ih cells later
  refine ⟨table, cells, full, _, rfl, ?_⟩
  have read := @Csv.read_table (columns.map String.toList :: table.map fun cells => cells.map String.toList)
    (columns.map String.toList :: table.map fun cells => (cells.map csvCell).map String.toList) ?_ ?_
  · rw [same, csvLine, ← List.flatMap_def]
    rw [List.flatMap_cons, List.flatMap_map] at read
    simpa [csvLine, Function.comp_def] using read
  · intro fields member
    rcases List.mem_cons.mp member with rfl | later
    · exact List.cons_ne_nil _ _
    · obtain ⟨cells, inside, rfl⟩ := List.mem_map.mp later
      intro none
      have length := full cells inside
      rw [List.map_eq_nil_iff.mp none] at length
      cases length
  · refine .cons (columns_spells columns columns_plain) ?_
    clear each traversed same cells full
    induction table with
    | nil => exact .nil
    | cons cells rest ih => exact .cons (cells_spells cells) ih

/-- The tidy export keeps its structure.  The metric values of any object have distinct pointers in the
order of their keys, each leading to its value, and rebuild the object; the table of any rows reads
back as a header and one record for each row, with the unescaped cell of each column. -/
theorem tidy_lossless :
    (∀ members, (Json.obj members).Ordered →
      ∃ paths : List (List String), (metricValues (.obj members)).map Prod.fst = paths.map pointerOf ∧
        paths.Pairwise (· < ·) ∧ ((metricValues (.obj members)).map Prod.fst).Nodup ∧
        (∀ row ∈ metricValues (.obj members), pointer (.obj members) row.1 = some row.2) ∧
        rebuild (metricValues (.obj members)) = .obj members) ∧
    ∀ rows output, csv lib rows = .ok output →
      ∃ table, List.Forall₂ (fun row cells => rowCells lib row = .ok cells) rows table ∧
        (∀ cells ∈ table, cells.length = columns.length) ∧
        ∃ text, output = utf8 (String.ofList text) ∧ Csv.read text = some (columns :: table) :=
  ⟨fun _ ordered => metricValues_lossless ordered, fun _ _ written => csv_read lib written⟩

end Metewand.Export
