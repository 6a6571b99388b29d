import Mathlib.Data.String.Basic

/-!
# Reading comma-separated values

A reader of RFC 4180 records, one character at a time.  A field is bare, without commas, quotes and
line breaks, or stands in quotes with every quote inside doubled; `Spells` are these two ways, and
`read_table` gives back a table from any spelling of its fields.
-/

namespace Metewand.Lib.Csv

def quoteMark : Char := Char.ofNat 34

/-- Where the reader is in a record. -/
inductive Mode where
  /-- Before the first character of a field. -/
  | fresh
  | bare
  | quoted
  /-- After a quote inside quotes: the end of the field, or the first of two. -/
  | closed
  /-- After the carriage return of a line break. -/
  | returned
  deriving DecidableEq, Repr

structure Reader where
  rows : List (List String) := []
  record : List String := []
  field : List Char := []
  mode : Mode := .fresh

/-- What a bare field holds. -/
def Plain (c : Char) : Prop := c ≠ ',' ∧ c ≠ quoteMark ∧ c ≠ '\r' ∧ c ≠ '\n'

instance (c : Char) : Decidable (Plain c) := inferInstanceAs (Decidable (_ ∧ _))

namespace Reader

variable (reader : Reader)

def add (c : Char) (mode : Mode) : Reader := { reader with field := reader.field ++ [c], mode }

def endField : Reader :=
  { reader with record := reader.record ++ [String.ofList reader.field], field := [], mode := .fresh }

def endRecord : Reader :=
  { rows := reader.rows ++ [reader.record ++ [String.ofList reader.field]] }

/-- What follows a whole field. -/
def follow (c : Char) : Option Reader :=
  if c = ',' then some reader.endField
  else if c = '\r' then some { reader with mode := .returned }
  else none

def step (c : Char) : Option Reader :=
  match reader.mode with
  | .fresh =>
      if c = quoteMark then some { reader with mode := .quoted }
      else if Plain c then some (reader.add c .bare)
      else reader.follow c
  | .bare => if Plain c then some (reader.add c .bare) else reader.follow c
  | .quoted => if c = quoteMark then some { reader with mode := .closed } else some (reader.add c .quoted)
  | .closed => if c = quoteMark then some (reader.add c .quoted) else reader.follow c
  | .returned => if c = '\n' then some reader.endRecord else none

def run : List Char → Reader → Option Reader
  | [], reader => some reader
  | c :: rest, reader => (reader.step c).bind (run rest)

/-- The rows at the end of a text, whose last line break may be missing. -/
def finish : Option (List (List String)) :=
  match reader.mode with
  | .fresh => if reader.record = [] then some reader.rows else some reader.endRecord.rows
  | .bare | .closed => some reader.endRecord.rows
  | .quoted | .returned => none

end Reader

/-- The records of a text; none when it is not well formed. -/
def read (text : List Char) : Option (List (List String)) := (Reader.run text {}).bind Reader.finish

/-! ## Spellings -/

/-- A character inside quotes. -/
def double (c : Char) : List Char := if c = quoteMark then [c, c] else [c]

/-- A text that stands for a field: the field itself when it is bare, or the field in quotes. -/
inductive Spells (field : List Char) : List Char → Prop
  | bare (plain : ∀ c ∈ field, Plain c) : Spells field field
  | quoted : Spells field (quoteMark :: field.flatMap double ++ [quoteMark])

/-- A record: the texts of its fields with commas between them, and a line break. -/
def line (texts : List (List Char)) : List Char := [','].intercalate texts ++ ['\r', '\n']

namespace Reader

variable {reader : Reader}

theorem run_append (text rest : List Char) : ∀ reader : Reader,
    run (text ++ rest) reader = (run text reader).bind (run rest) := by
  induction text with
  | nil => exact fun _ => rfl
  | cons c text ih =>
      intro reader
      rw [List.cons_append, run, run, Option.bind_assoc]
      congr 1
      funext next
      exact ih next

theorem run_bare (field : List Char) : ∀ reader : Reader, reader.mode = .bare → (∀ c ∈ field, Plain c) →
    run field reader = some { reader with field := reader.field ++ field } := by
  induction field with
  | nil =>
      intro reader _ _
      rw [run, List.append_nil]
  | cons c field ih =>
      intro reader mode plain
      have first := plain c List.mem_cons_self
      have stepped : reader.step c = some (reader.add c .bare) := by
        rw [step, mode]
        exact if_pos first
      rw [run, stepped, Option.bind_some,
        ih (reader.add c .bare) rfl fun d member => plain d (List.mem_cons_of_mem _ member)]
      simp [add, mode]

theorem run_quoted (field : List Char) : ∀ reader : Reader, reader.mode = .quoted →
    run (field.flatMap double) reader = some { reader with field := reader.field ++ field } := by
  induction field with
  | nil =>
      intro reader _
      rw [List.flatMap_nil, run, List.append_nil]
  | cons c field ih =>
      intro reader mode
      have read : run (double c) reader = some (reader.add c .quoted) := by
        by_cases quote : c = quoteMark
        · simp [double, quote, run, step, mode, add]
        · simp [double, quote, run, step, mode]
      rw [List.flatMap_cons, run_append, read, Option.bind_some, ih (reader.add c .quoted) rfl]
      simp [add, mode]

/-- The modes in which a field can end. -/
def Complete (reader : Reader) : Prop := reader.mode = .fresh ∨ reader.mode = .bare ∨ reader.mode = .closed

/-- Reading a spelling of a field leaves the field. -/
theorem run_spells {field text : List Char} (spells : Spells field text) (fresh : reader.mode = .fresh)
    (empty : reader.field = []) :
    ∃ mode, run text reader = some { reader with field, mode } ∧ Complete { reader with field, mode } := by
  cases spells with
  | bare plain =>
      cases field with
      | nil => exact ⟨.fresh, by rw [run, ← empty, ← fresh], .inl rfl⟩
      | cons c field =>
          have first := plain c List.mem_cons_self
          have stepped : reader.step c = some (reader.add c .bare) := by
            rw [step, fresh]
            dsimp only
            rw [if_neg first.2.1, if_pos first]
          refine ⟨.bare, ?_, .inr (.inl rfl)⟩
          rw [run, stepped, Option.bind_some,
            run_bare field (reader.add c .bare) rfl fun d member => plain d (List.mem_cons_of_mem _ member)]
          simp [add, empty]
  | quoted =>
      refine ⟨.closed, ?_, .inr (.inr rfl)⟩
      have opened : reader.step quoteMark = some { reader with mode := .quoted } := by
        rw [step, fresh]
        exact if_pos rfl
      rw [List.cons_append, run, opened, Option.bind_some, run_append, run_quoted _ _ rfl, Option.bind_some, run, step]
      simp [run, empty]

theorem step_follow (complete : Complete reader) {c : Char} (ends : c = ',' ∨ c = '\r') :
    reader.step c = reader.follow c := by
  have notQuote : c ≠ quoteMark := by rcases ends with rfl | rfl <;> decide
  have special : ¬ Plain c := by rcases ends with rfl | rfl <;> decide
  unfold step
  rcases complete with mode | mode | mode
  · rw [mode]
    dsimp only
    rw [if_neg notQuote, if_neg special]
  · rw [mode]
    exact if_neg special
  · rw [mode]
    exact if_neg notQuote

/-- A line gives one record. -/
theorem run_line {fields texts : List (List Char)} (spells : List.Forall₂ Spells fields texts) :
    ∀ reader : Reader, fields ≠ [] → reader.mode = .fresh → reader.field = [] →
      run (line texts) reader =
        some { rows := reader.rows ++ [reader.record ++ fields.map String.ofList] } := by
  induction spells with
  | nil => exact fun _ filled => absurd rfl filled
  | @cons field text fields texts first rest ih =>
      intro reader _ fresh empty
      obtain ⟨mode, read, complete⟩ := run_spells first fresh empty
      cases rest with
      | nil =>
          have ended : ({ reader with field, mode } : Reader).step '\r' =
              some { reader with field, mode := .returned } := by
            rw [step_follow complete (.inr rfl), follow]
            simp
          rw [line, List.intercalate_singleton, run_append, read, Option.bind_some, run, ended, Option.bind_some, run]
          simp [step, endRecord, run]
      | @cons next nextText fields texts second rest =>
          have ended : ({ reader with field, mode } : Reader).step ',' =
              some ({ reader with field, mode } : Reader).endField := by
            rw [step_follow complete (.inl rfl), follow]
            exact if_pos rfl
          have split : line (text :: nextText :: texts) = text ++ ',' :: line (nextText :: texts) := by
            simp [line, List.intercalate_cons_cons]
          rw [split, run_append, read, Option.bind_some, run, ended, Option.bind_some,
            ih _ (List.cons_ne_nil _ _) rfl rfl]
          simp [endField]

end Reader

/-- The lines of a table are read back as its records. -/
theorem read_table {table spelled : List (List (List Char))} (filled : ∀ fields ∈ table, fields ≠ [])
    (spells : List.Forall₂ (List.Forall₂ Spells) table spelled) :
    read (spelled.flatMap line) = some (table.map fun fields => fields.map String.ofList) := by
  have whole : ∀ rows, Reader.run (spelled.flatMap line) { rows } =
      some { rows := rows ++ table.map fun fields => fields.map String.ofList } := by
    induction spells with
    | nil =>
        intro rows
        rw [List.flatMap_nil, Reader.run, List.map_nil, List.append_nil]
    | cons first _ ih =>
        intro rows
        have record := Reader.run_line first { rows } (filled _ List.mem_cons_self) rfl rfl
        rw [List.flatMap_cons, Reader.run_append, record, Option.bind_some,
          ih (fun fields member => filled fields (List.mem_cons_of_mem _ member))]
        simp
  rw [read, whole [], Option.bind_some, List.nil_append]
  rfl

/-- A field has one reading. -/
theorem Spells.unique {field other text : List Char} (spells : Spells field text) (spells' : Spells other text) :
    field = other := by
  have left := @read_table [[field]] [[text]] (by simp) (.cons (.cons spells .nil) .nil)
  have right := @read_table [[other]] [[text]] (by simp) (.cons (.cons spells' .nil) .nil)
  have same := left.symm.trans right
  simp only [List.map_cons, List.map_nil, Option.some.injEq, List.cons.injEq, and_true] at same
  exact String.ofList_injective same

end Metewand.Lib.Csv
