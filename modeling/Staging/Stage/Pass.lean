import Staging.Page.Reading
import Staging.Schema.Statistics
import Staging.Sql.Insert
import Staging.Sql.Row
import Staging.Stage.Progress

/-!
# The two passes

Pass one reads every page for the statistics of its fields. Pass two reads every page again and
inserts each record, in canonical form and redacted where the policy says so. Every page has a batch
of its own, which begins with each array of records and is finished at its end.
-/

namespace Staging.Stage

open Schema

/-- The passes over the pages. -/
inductive Pass
  | analyze
  | load
  deriving DecidableEq, Repr

def Pass.name : Pass → String
  | .analyze => "analyze"
  | .load => "load"

namespace Stager

/-- The pages of the table, as many as were counted. -/
def pages (s : Stager) (p : Progress) : List String :=
  Files.pages s.files s.loadDir p.table.name p.pageCount

/-- Shows which page is read. -/
def reportPage (pass : Pass) (path : String) : Run Progress Unit := do
  let p ← Run.own
  Run.log channel Log.Level.detail
    ("Staging: " ++ p.table.name ++ ": " ++ pass.name ++ ": page: " ++ Files.baseName path)
    [("page", .str path)]

/-! ## Pass one -/

/-- The statistics with those of one more page. -/
def analyzePage (s : Stager) (statistics : Statistics) (path : String) :
    Run Progress Statistics := do
  reportPage .analyze path
  Page.read s.files path statistics fun statistics item => match item with
    | .record r => return statistics.observe r
    | _ => return statistics

/-- The statistics of all records. -/
def analyze (s : Stager) : Run Progress Statistics := do
  let p ← Run.own
  let statistics ← (s.pages p).foldlM s.analyzePage {}
  Run.count (.recordsProcessed p.table.name Pass.analyze.name) statistics.observed
  return statistics

/-! ## Pass two -/

def inserter (s : Stager) (t : Table) : Sql.Inserter where
  executor := s.executor
  table := t.name
  loadingTable := s.settings.loadingTable t.name
  threshold := s.settings.insertFlushThreshold

def encoder (s : Stager) (t : Table) : Sql.Encoder := ⟨t, s.dialect, s.settings⟩

/-- The row of a record of the table. -/
def row (s : Stager) (t : Table) (record : Json) : Run Progress String :=
  (s.encoder t).encodeRow (Redaction.apply (s.policy.forTable t.name) record)

/-- Takes an item of a page into the batch of the page; counts the records. -/
def loadItem (s : Stager) (t : Table) (state : Sql.Batch × Nat) (item : Page.Item Json) :
    Run Progress (Sql.Batch × Nat) := do
  let (batch, count) := state
  match item with
  | .arrayStart => return ((s.inserter t).begin batch, count)
  | .record r => return (← (s.inserter t).write batch (← s.row t r), count + 1)
  | .arrayEnd => return (← (s.inserter t).finish batch, count)

/-- Inserts the records of a page; counts them with those before. -/
def loadPage (s : Stager) (t : Table) (count : Nat) (path : String) : Run Progress Nat := do
  reportPage .load path
  let (batch, count) ← Page.read s.files path ({}, count) (s.loadItem t)
  Run.modifyOwn fun p => { p with statements := p.statements + batch.statements }
  return count

/-- Inserts all records, and returns how many there were. -/
def load (s : Stager) : Run Progress Nat := do
  let p ← Run.own
  let count ← (s.pages p).foldlM (s.loadPage p.table) 0
  Run.count (.recordsProcessed p.table.name Pass.load.name) count
  return count

/-- Takes a pass, timed; its duration is kept only if it came to its end. -/
def timedPass {α : Type} (pass : Pass) (x : Run Progress α) : Run Progress α := do
  let p ← Run.own
  let result ← Run.timed ⟨channel, pass.name, Log.Level.detail, [("table", .str p.table.name)]⟩ x
  Run.time (.passDuration pass.name) Run.elapsed
  return result

end Stager

end Staging.Stage
