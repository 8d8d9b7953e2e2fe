import Staging.Failure
import Staging.Log.Span
import Staging.Metrics.Registry
import Staging.Text.Blank

/-!
# Sessions

What a run does to the world, as a journal in order: transactions, statements, opened files, log
records and metrics. A run is a pure function of the files and of the statement at which the
database fails, if it does; its clock stands still, so all durations are zero. A failure ends what
runs but keeps the journal.
-/

namespace Staging

/-- The phases of staging a table. -/
inductive Phase
  | awaitPageCount
  | analyze
  | buildSchema
  | createTable
  | load
  | index
  | done
  | skipped
  | failed
  deriving DecidableEq, Repr, Inhabited

def Phase.name : Phase → String
  | .awaitPageCount => "await_page_count"
  | .analyze => "pass1_analyze"
  | .buildSchema => "pass1_build_schema"
  | .createTable => "pass1_create_table"
  | .load => "pass2_load"
  | .index => "pass2_index"
  | .done => "done"
  | .skipped => "skipped"
  | .failed => "failed"

/-- One thing that a run did. -/
inductive Note
  /-- A connection was opened to see whether the database answers. -/
  | connected
  | closed
  | began
  | committed
  | rolledBack
  | executed (sql : String)
  /-- The database failed at a statement. -/
  | refused (sql : String)
  | opened (path : String)
  | entered (phase : Phase)
  | logged (record : Log.Record)
  | counted (series : Series) (amount : Nat)
  | timed (series : Series) (seconds : Float)

/-- A run under way: what it has done, how many statements it has sent to the database, the table
being staged, and what belongs to whoever runs. -/
structure Session (σ : Type) where
  journal : Array Note := #[]
  sent : Nat := 0
  table : Option String := none
  own : σ

/-- A step of a run. -/
abbrev Run (σ α : Type) : Type := ExceptT Failure (StateM (Session σ)) α

/-- The outcome of a run that begins with nothing done, and what it did. -/
def Run.start {σ α : Type} (x : Run σ α) (own : σ) : Except Failure α × Session σ :=
  x.run { own := own }

/-- Where statements go: the name of the database's dialect, whether executions are timed, and the
statement of the session, counted from one, at which the database fails. -/
structure Executor where
  dialectName : String
  measured : Bool
  failAt : Option Nat := none
  deriving DecidableEq, Repr

namespace Run

variable {σ α : Type}

/-! ## Steps -/

def note (n : Note) : Run σ Unit :=
  modify fun s => { s with journal := s.journal.push n }

/-- What belongs to whoever runs. -/
def own : Run σ σ := do return (← get).own

def modifyOwn (f : σ → σ) : Run σ Unit :=
  modify fun s => { s with own := f s.own }

/-- Sets the table being staged. -/
def focus (table : Option String) : Run σ Unit :=
  modify fun s => { s with table := table }

/-- Makes a log record of staging. -/
def log (channel : String) (level : Log.Level) (message : String) (fields : Members) :
    Run σ Unit := do
  note (.logged (Log.staged (← get).table channel level message fields))

def count (series : Series) (amount : Nat) : Run σ Unit :=
  note (.counted series amount)

def time (series : Series) (seconds : Float) : Run σ Unit :=
  note (.timed series seconds)

/-- Takes a step to its end and hands on its outcome, even if that is a failure. -/
def attempt (x : Run σ α) : Run σ (Except Failure α) :=
  ExceptT.mk do return .ok (← x.run)

/-- Takes a step with something of its own, and returns its outcome and what became of that. -/
def within {τ : Type} (own : τ) (x : Run τ α) : Run σ (Except Failure α × τ) :=
  ExceptT.mk fun s =>
    let (outcome, t) := x.run { journal := s.journal, sent := s.sent, table := s.table, own := own }
    (.ok (outcome, t.own), { s with journal := t.journal, sent := t.sent, table := t.table })

/-! ## Timed operations -/

/-- How long an operation takes while the clock stands still. -/
def elapsed : Float := 0.0

/-- Runs an operation between the records of its start and of its end. -/
def timed (span : Log.Span) (x : Run σ α) : Run σ α := do
  note (.logged (span.started (← get).table))
  match ← attempt x with
  | .ok result => do
    note (.logged (span.completed (← get).table elapsed))
    return result
  | .error failure => do
    note (.logged (span.failed (← get).table elapsed failure))
    throw failure

/-! ## Statements -/

/-- The kind of a statement, as executions are counted. -/
def statementKind (sql : String) : String :=
  let start := Text.upperAsciiAll (String.ofList (sql.toList.dropWhile Text.isBlank))
  if start.startsWith "INSERT" then "insert" else "ddl"

/-- Sends a statement to the database. -/
def execute (executor : Executor) (sql : String) : Run σ Unit := do
  modify fun s => { s with sent := s.sent + 1 }
  let sent := (← get).sent
  let timing : Run σ Unit :=
    if executor.measured then time (.sqlDuration (statementKind sql)) elapsed else pure ()
  if executor.failAt = some sent then
    note (.refused sql)
    timing
    throw (.database sent)
  else
    note (.executed sql)
    timing

/-- Runs within a transaction, which is committed unless the step fails. -/
def transaction (x : Run σ α) : Run σ α := do
  note .began
  match ← attempt x with
  | .ok result => do
    note .committed
    return result
  | .error failure => do
    note .rolledBack
    throw failure

end Run

/-! ## Views of a journal -/

namespace Journal

/-- The statements that were executed. -/
def statements (journal : List Note) : List String :=
  journal.filterMap fun
    | .executed sql => some sql
    | _ => none

/-- The log records. -/
def records (journal : List Note) : List Log.Record :=
  journal.filterMap fun
    | .logged r => some r
    | _ => none

/-- What a note adds to the integer total of a series: an amount, or one for a duration. -/
def tally? : Note → Option (Series × Nat)
  | .counted s n => some (s, n)
  | .timed s _ => some (s, 1)
  | _ => none

/-- The series that were touched, in order of first use. -/
def touched (journal : List Note) : List Series :=
  ((journal.filterMap tally?).map (·.1)).eraseDups

/-- The total of a series. -/
def total (journal : List Note) (s : Series) : Nat :=
  ((journal.filterMap tally?).filter (·.1 == s)).foldl (fun n t => n + t.2) 0

/-- The totals for the text format. -/
def registry (journal : List Note) : Metrics.Registry :=
  journal.foldl (fun r n => match n with
    | .counted s amount => r.add s amount.toFloat
    | .timed s seconds => r.add s seconds
    | _ => r) []

end Journal

end Staging
