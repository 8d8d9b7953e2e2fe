import Staging.Log.Hierarchy
import Staging.Settings.Environment
import Staging.Stage.Tables

/-!
# The program

A run over the whole catalog, told by the environment: its settings, logging, a look whether the
database answers, the tables, and a summary. The exit code tells whether every table could be
staged.
-/

namespace Staging

/-- A database: the name of its dialect, whether it answers, and the statement at which it fails. -/
structure Database where
  dialectName : String
  connectable : Bool := true
  failAt : Option Nat := none
  deriving DecidableEq, Repr

/-- How the database is to be connected to. -/
structure ConnectionOptions where
  url : String
  /-- Whether the engine shows the statements. -/
  echo : Bool
  /-- Whether the engine's later interface is used. -/
  future : Bool := true
  maxOverflow : Int
  /-- Whether a pooled connection is tried before use. -/
  prePing : Bool := true
  poolSize : Int
  deriving DecidableEq, Repr

def ConnectionOptions.ofSettings (s : Settings) : ConnectionOptions where
  url := s.databaseUrl
  echo := s.debug
  maxOverflow := s.maxOverflow
  poolSize := s.poolSize

/-- What transactions send their statements to. -/
def Database.executor (d : Database) : Executor := ⟨d.dialectName, true, d.failAt⟩

/-- The statement that is tried to see whether a database answers. -/
def Database.probe : String := "SELECT 1"

/-- Whether the database answers. -/
def Database.check {σ : Type} (d : Database) : Run σ Bool := do
  if d.connectable then
    Run.note .connected
    Run.note (.executed Database.probe)
    Run.note .closed
  return d.connectable

namespace Program

/-- What is settled before the run. -/
structure Setup where
  settings : Settings
  logging : Log.Hierarchy

/-- The settings and the logging that an environment asks for. -/
def setup (environment : List (String × String)) : Except Failure Setup := do
  let settings ← (Settings.ofEnvironment environment).mapError Failure.environment
  match Log.Level.ofName? settings.logLevel with
  | none => throw (.unknownLevel settings.logLevel)
  | some level =>
    let format := if settings.jsonLogs then Log.Format.structured else .plain
    return ⟨settings, ({} : Log.Hierarchy).setUp level format⟩

/-- The channel of the records of the run as a whole. -/
def channel : String := "jsonstage.main"

/-- Makes a record of the run as a whole. -/
def announce {σ : Type} (level : Log.Level) (message : String) : Run σ Unit := do
  Run.note (.logged ⟨channel, level, message, .general, (← get).table, none⟩)

/-- What is said about a table at the end. -/
def summary (r : Stage.Result) : String :=
  r.table ++ ": " ++ r.phase.name ++ ": " ++ toString r.records ++ " records, "
    ++ toString r.statements ++ " statements"

/-- The exit code for what became of the tables. -/
def exitCode (results : List Stage.Result) : Nat :=
  if results.any (·.phase == .failed) then 1 else 0

/-- Stages the catalog and sums up; returns the exit code. -/
def stageCatalog (files : Directory) (database : Database) (settings : Settings) :
    Run (List Schema.Table) Nat := do
  announce Log.Level.info ("Staging tables from: " ++ settings.loadDir)
  let plan : Stage.Plan := ⟨files, database.executor, settings.loadDir, settings, none⟩
  match ← Run.attempt (plan.stageTables Schema.catalog) with
  | .ok results => do
    results.forM fun r => announce Log.Level.info (summary r)
    return exitCode results
  | .error failure => do
    if failure.isStaging then
      announce Log.Level.error ("Staging stopped: " ++ failure.message)
      return 1
    throw failure

/-- The run, once settings and logging are settled. -/
def runWith (files : Directory) (database : Database) (settings : Settings) :
    Run (List Schema.Table) Nat := do
  if ← database.check then stageCatalog files database settings
  else
    announce Log.Level.error "Unable to connect to database"
    return 2

/-- What became of a run: its exit code, or the failure that ended it, what it did, and what was
settled before it, if that was possible. -/
structure Outcome where
  exit : Except Failure Nat
  journal : List Note := []
  setup : Option Setup := none

/-- The run that an environment asks for. -/
def run (environment : List (String × String)) (files : Directory) (database : Database) :
    Outcome :=
  match setup environment with
  | .error failure => { exit := .error failure }
  | .ok setup =>
    let (exit, session) := (runWith files database setup.settings).start []
    ⟨exit, session.journal.toList, some setup⟩

namespace Outcome

/-- How the database was connected to, if it came to that. -/
def connection? (o : Outcome) : Option ConnectionOptions :=
  o.setup.map fun s => .ofSettings s.settings

/-- The lines written to the console. -/
def logLines (o : Outcome) (stamp : Log.Stamp) : List String :=
  match o.setup with
  | none => []
  | some setup => (Journal.records o.journal).filterMap (setup.logging.handle stamp)

/-- Whether the database answered. -/
def isConnected (o : Outcome) : Bool :=
  o.journal.any fun
    | .connected => true
    | _ => false

/-- The file that the metrics go to, if they are written: whenever the database answered, whatever
the run came to, unless the settings say otherwise. -/
def metricsFile? (o : Outcome) : Option String := do
  let settings := (← o.setup).settings
  let path ← settings.metricsFile
  if o.isConnected && settings.metricsEnabled && !path.isEmpty then some path else none

/-- The lines of the metrics. -/
def metricsLines (o : Outcome) : List String := (Journal.registry o.journal).lines

end Outcome

end Program

end Staging
