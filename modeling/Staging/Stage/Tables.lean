import Staging.Stage.Table

/-!
# Staging many tables

Each table has a transaction of its own, in which everything about it happens. A table that fails on
its data is rolled back and reported, and the run goes on with the next one or ends there, as the
settings say. The tables are told apart by their places in a list, so that one and the same table
can come up more than once.
-/

namespace Staging.Stage

open Schema

/-- What staging many tables depends on. -/
structure Plan where
  files : Directory
  executor : Executor
  loadDir : String
  settings : Settings
  policy : Option Redaction.Policy := none

namespace Plan

/-- The name of the dialect: that of the settings, and of the database if they give none. -/
def dialectName (p : Plan) : String :=
  match p.settings.databaseDialect with
  | some name => if name.isEmpty then p.executor.dialectName else name
  | none => p.executor.dialectName

/-- The policy: the one that was given, else that of the settings. -/
def activePolicy (p : Plan) : Redaction.Policy :=
  p.policy.getD { tables := p.settings.anonymizeTables }

/-- How a table is staged in a dialect. -/
def stagerIn (p : Plan) (d : Sql.Dialect) : Stager where
  files := p.files
  executor := p.executor
  loadDir := p.loadDir
  dialect := d
  settings := p.settings
  policy := p.activePolicy

/-- How a table is staged, if the dialect is known. -/
def stager (p : Plan) : Except Failure Stager :=
  (Sql.Dialect.ofName p.dialectName).map p.stagerIn

/-- Stages a table in its transaction. -/
def stageWithin (p : Plan) : Run Progress Result :=
  Run.transaction do (← liftExcept p.stager).stage

/-- Stages the table at a place of the list. What becomes of the table is kept there, also when the
run ends. -/
def stageTable (p : Plan) (place : Nat) (t : Table) : Run (List Table) Result := do
  Run.log channel Log.Level.info ("Staging table: " ++ t.name) []
  let (outcome, progress) ← Run.within { table := t } p.stageWithin
  Run.modifyOwn (·.set place progress.table)
  match outcome with
  | .ok result => return result
  | .error failure =>
    if failure.isStaging then
      Run.log channel Log.Level.error ("Staging failed: " ++ t.name ++ ": " ++ failure.message)
        [("table", .str t.name), ("error", .str failure.message)]
      if p.settings.continueOnTableFailure then return progress.failedResult failure
    throw failure

/-- Stages the tables at these places in turn, but for those that are to be skipped when their turn
comes. A place that comes up again holds its table as it was left. -/
def stagePlaces (p : Plan) : List Nat → Run (List Table) (List Result)
  | [] => return []
  | place :: rest => do
    match (← Run.own)[place]? with
    | none => p.stagePlaces rest
    | some t =>
      if t.skip then p.stagePlaces rest
      else
        let result ← p.stageTable place t
        return result :: (← p.stagePlaces rest)

/-- Stages each of the tables once, in order. -/
def stageTables (p : Plan) (tables : List Table) : Run (List Table) (List Result) := do
  Run.modifyOwn fun _ => tables
  p.stagePlaces (List.range tables.length)

/-- The tables after a run that may not have come to them. -/
def tablesAfter (tables held : List Table) : List Table :=
  held ++ tables.drop held.length

end Plan

end Staging.Stage
