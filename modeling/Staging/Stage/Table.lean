import Staging.Schema.Report
import Staging.Sql.Definition
import Staging.Stage.Pass

/-!
# Staging one table

Nothing is created before pass one has gone through all pages and found a schema. A table without
pages is skipped. A failure of the data marks the table as failed; whatever else fails passes
through.
-/

namespace Staging.Stage

namespace Stager

def definer (s : Stager) : Sql.Definer := ⟨s.dialect, s.settings⟩

/-- Marks the table as one for which nothing was extracted. -/
def skip : Run Progress Unit := do
  Run.modifyOwn fun p => { p with table.skip := true }
  enter .skipped
  Run.count (.tablesStaged Phase.skipped.name) 1

/-- Finds the columns of the table and adds them to it. -/
def buildSchema (statistics : Schema.Statistics) : Run Progress Unit := do
  let p ← Run.own
  let columns ← Schema.inferColumns p.table statistics.fields
  Run.modifyOwn fun p => { p with table.columns := p.table.columns ++ columns }

/-- Both passes and what lies between and after them. -/
def takePasses (s : Stager) : Run Progress Unit := do
  enter .analyze
  let statistics ← timedPass .analyze s.analyze
  statistics.report (← Run.own).table.name
  enter .buildSchema
  buildSchema statistics
  enter .createTable
  s.definer.createTable s.executor (← Run.own).table
  enter .load
  let records ← timedPass .load s.load
  Run.modifyOwn fun p => { p with records := records }
  enter .index
  s.definer.indexTable s.executor (← Run.own).table
  enter .done
  Run.count (.tablesStaged Phase.done.name) 1

/-- Stages the table from its count file on. -/
def proceed (s : Stager) : Run Progress Unit := do
  let name := (← Run.own).table.name
  let count ← readPageCount s.files s.loadDir name
  Run.modifyOwn fun p => { p with pageCount := count }
  Run.log channel Log.Level.detail
    ("Staging: " ++ name ++ ": page count: " ++ Files.decimal count) []
  if count = 0 then skip else s.takePasses

/-- Stages the table and reports on it. -/
def stage (s : Stager) : Run Progress Result := do
  Run.focus (some (← Run.own).table.name)
  match ← Run.attempt s.proceed with
  | .ok () => do
    Run.focus none
    return (← Run.own).result
  | .error failure => do
    if failure.isStaging then
      enter .failed
      Run.count (.tablesStaged Phase.failed.name) 1
    Run.focus none
    throw failure

end Stager

end Staging.Stage
