import Staging.Schema.Inference
import Staging.Session

/-!
# Reports on statistics and schemas

The log records that show what pass one found, and inference as a step of a run: it shows each
column it found, also those before a fault.
-/

namespace Staging.Schema

variable {σ : Type}

/-- The channel of the records about statistics. -/
def Statistics.channel : String := "jsonstage.ingest.schema_analyzer"

/-- The fields of the record about a field's statistics. -/
def Counts.logFields (table field : String) (c : Counts) : Members :=
  [("table", .str table), ("field", .str field)] ++ c.entries.map fun (name, n) => (name, .int n)

/-- Shows the statistics of all fields by name. -/
def Statistics.report (s : Statistics) (table : String) : Run σ Unit :=
  s.fields.sorted.forM fun (field, c) =>
    Run.log Statistics.channel Log.Level.detail ("Stats: in field: " ++ field)
      (c.logFields table field)

/-- The channel of the records about columns. -/
def Column.channel : String := "jsonstage.ingest.schema_decider"

/-- Shows a column of a table. -/
def Column.report (table : String) (c : Column) : Run σ Unit :=
  Run.log Column.channel Log.Level.detail ("Column: " ++ c.name ++ " " ++ c.type.sql)
    [("table", .str table), ("field", .str c.source)]

/-- The columns of a table whose records gave these statistics. -/
def inferColumns (t : Table) (fields : FieldCounts) : Run σ (List Column) := do
  let inferred := infer t fields
  inferred.columns.forM (Column.report t.name)
  match inferred.fault with
  | some fault => throw (.schema fault)
  | none => return inferred.columns

end Staging.Schema
