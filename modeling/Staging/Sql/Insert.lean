import Staging.Session

/-!
# Batched insertion

Tuples are gathered into INSERT statements. A statement that has grown past the threshold is
executed before the next tuple is added, so none is longer than the threshold by more than its last
tuple.
-/

namespace Staging.Sql

/-- An INSERT statement being gathered, and what was executed so far. -/
structure Batch where
  /-- The text without its end. -/
  text : String := ""
  size : Nat := 0
  /-- How many tuples the text holds. -/
  pending : Nat := 0
  statements : Nat := 0
  rows : Nat := 0
  deriving DecidableEq, Repr

/-- What all batches of a table have in common. -/
structure Inserter where
  executor : Executor
  table : String
  loadingTable : String
  threshold : Int
  deriving DecidableEq, Repr

namespace Batch

/-- The end of every statement. -/
def terminator : String := ";\n"

/-- A new statement that begins with `lead`. -/
def start (b : Batch) (lead : String) : Batch :=
  { b with text := lead, size := lead.length, pending := 0 }

/-- A statement with one tuple more. -/
def append (b : Batch) (row : String) : Batch :=
  let comma := if 0 < b.pending then "," else ""
  { b with
    text := b.text ++ comma ++ row
    size := b.size + comma.length + row.length
    pending := b.pending + 1 }

/-- No statement: its text is dropped. -/
def clear (b : Batch) : Batch := { b with text := "", size := 0 }

/-- What is left after execution. -/
def executed (b : Batch) : Batch :=
  { text := ""
    size := 0
    pending := 0
    statements := b.statements + 1
    rows := b.rows + b.pending }

end Batch

namespace Inserter

/-- The channel of the records of insertion. -/
def channel : String := "jsonstage.ingest.insert_writer"

/-- The beginning of every statement. -/
def lead (w : Inserter) : String := "INSERT INTO " ++ w.loadingTable ++ " VALUES "

/-- Begins a statement. -/
def begin (w : Inserter) (b : Batch) : Batch := b.start w.lead

variable {σ : Type}

/-- Executes the statement. -/
def flush (w : Inserter) (b : Batch) : Run σ Batch := do
  Run.log channel Log.Level.detail ("Loading data for table: " ++ w.table)
    [("rows", .int b.pending), ("size", .int b.size)]
  Run.execute w.executor (b.text ++ Batch.terminator)
  Run.count (.insertStatements w.table) 1
  Run.count (.insertedRows w.table) b.pending
  return b.executed

/-- Adds a tuple, to a new statement if the current one has grown past the threshold. -/
def write (w : Inserter) (b : Batch) (row : String) : Run σ Batch := do
  if w.threshold < b.size then
    return (w.begin (← w.flush b)).append row
  else
    return b.append row

/-- Executes the statement if it holds any tuple. -/
def finish (w : Inserter) (b : Batch) : Run σ Batch := do
  if 0 < b.pending then
    return (← w.flush b).clear
  else
    return b.clear

end Inserter

end Staging.Sql
