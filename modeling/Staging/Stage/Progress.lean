import Staging.Files
import Staging.Redaction
import Staging.Session
import Staging.Sql.Dialect

/-!
# Progress of a table

What staging a table depends on, how far it has come, and what is reported about it. Progress
outlives a failure, so that it can be told how far a table had come.
-/

namespace Staging.Stage

open Schema

/-- What staging a table depends on. -/
structure Stager where
  files : Directory
  executor : Executor
  loadDir : String
  dialect : Sql.Dialect
  settings : Settings
  policy : Redaction.Policy

/-- How far a table has come. -/
structure Progress where
  table : Table
  phase : Phase := .awaitPageCount
  pageCount : Int := 0
  records : Nat := 0
  statements : Nat := 0
  deriving DecidableEq, Repr

/-- What is reported about a table. -/
structure Result where
  table : String
  phase : Phase
  pageCount : Int := 0
  records : Nat := 0
  statements : Nat := 0
  columns : List Column := []
  error : Option String := none
  deriving DecidableEq, Repr

/-- The report on a table as far as it has come. -/
def Progress.result (p : Progress) : Result where
  table := p.table.name
  phase := p.phase
  pageCount := p.pageCount
  records := p.records
  statements := p.statements
  columns := p.table.columns

/-- The report on a table that failed. -/
def Progress.failedResult (p : Progress) (failure : Failure) : Result where
  table := p.table.name
  phase := .failed
  pageCount := p.pageCount
  error := some failure.message

/-- The channel of the records about the course of staging. -/
def channel : String := "jsonstage.ingest.orchestrator"

/-- Goes on to a phase. -/
def enter (phase : Phase) : Run Progress Unit := do
  let p ← Run.own
  Run.log channel Log.Level.debug ("Staging state: " ++ p.phase.name ++ " -> " ++ phase.name)
    [("table", .str p.table.name)]
  Run.note (.entered phase)
  Run.modifyOwn fun p => { p with phase := phase }

/-- The number of pages extracted for a table; zero if its count file does not exist. -/
def readPageCount {σ : Type} (files : Directory) (dir table : String) : Run σ Int :=
  let path := Files.countFile dir table
  match files path with
  | .missing => do
    Run.log channel Log.Level.warning ("File not found: " ++ path) [("table", .str table)]
    return 0
  | .folder => throw (.unreadableCount path)
  | .file octets =>
    match Files.pageCount? octets with
    | some n => return n
    | none => throw (.unreadableCount path)

end Staging.Stage
