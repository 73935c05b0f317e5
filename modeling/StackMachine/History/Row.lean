import StackMachine.History.Run

/-!
# Runs as rows of a table

A store keeps every run as a row of a table. A row is inserted by naming columns and giving a value
for each, and it is read by naming columns and scanning the values that come back. Values are
matched with names, and scanned values with the fields of a run, by their position alone.
-/

namespace StackMachine.History

open Text

/-- A value in a column. -/
inductive Cell where
  | text (t : Bytes)
  | integer (n : Int64)
  deriving DecidableEq, Repr

/-- A row: values by the names of their columns. -/
abbrev Row := List (String × Cell)

namespace Row

/-- The columns that are named when a row is inserted. -/
def insertedColumns : List String :=
  ["id", "created_at", "program_hash", "program", "result", "output", "fault_kind",
    "fault_message", "steps"]

/-- The values that are given when the row of a run is inserted. -/
def insertedValues (r : Run) : List Cell :=
  [.text r.id, .integer r.createdAt, .text r.programHash, .text r.program, .integer r.result,
    .text r.output, .text r.faultKind, .text r.faultMessage, .integer r.steps]

/-- The row that a run is inserted as. -/
def ofRun (r : Run) : Row := insertedColumns.zip (insertedValues r)

/-- The columns that are named when rows are read. -/
def selectedColumns : List String :=
  ["id", "created_at", "program_hash", "program", "result", "output", "fault_kind",
    "fault_message", "steps"]

/-- The values that come back from a row, unless it lacks a column. -/
def select? (row : Row) : Option (List Cell) :=
  selectedColumns.mapM fun column => List.lookup column row

/-- The run that values are scanned into. -/
def scan? : List Cell → Option Run
  | [.text id, .integer createdAt, .text programHash, .text program, .integer result, .text output,
      .text faultKind, .text faultMessage, .integer steps] =>
    some { id, createdAt, programHash, program, result, output, faultKind, faultMessage, steps }
  | _ => none

/-- The run that a row is read as. -/
def run? (row : Row) : Option Run := row.select?.bind scan?

/-- A run is read back from its row as it was inserted. -/
theorem run?_ofRun (r : Run) : (ofRun r).run? = some r := rfl

/-- Values that are scanned into a run are those that it is inserted with. -/
theorem scan?_eq_some_iff {values : List Cell} {r : Run} :
    scan? values = some r ↔ values = insertedValues r := by
  constructor
  · intro h
    unfold scan? at h
    split at h
    · cases h
      rfl
    · cases h
  · rintro rfl
    rfl

end Row

end StackMachine.History
