import Staging.Program

/-!
# Command line

Stages the catalog as the environment says. The statements go to standard output as a script in
which every table is a transaction; log lines go to standard error.
-/

namespace Staging.CommandLine

/-- What is found at a path. -/
def look (path : String) : IO Entry := do
  try
    return .file (← IO.FS.readBinFile path).toList
  catch
    | .noFileOrDirectory .. => return .missing
    | _ => return .folder

/-- The variables that concern settings. -/
def environment : IO (List (String × String)) :=
  Settings.fields.filterMapM fun f => do
    let name := (Settings.variableLead ++ f.name).toUpper
    return (← IO.getEnv name).map (name, ·)

/-- The pages of a table from number `page` on, up to the first that is missing. -/
def lookAtPages (dir table : String) (count page : Nat) : IO (List (String × Entry)) := do
  match count with
  | 0 => return []
  | count + 1 =>
    let path := Files.pageFile dir table page
    match ← look path with
    | .missing => return []
    | entry => return (path, entry) :: (← lookAtPages dir table count (page + 1))

/-- The files of a table. -/
def lookAtTable (dir table : String) : IO (List (String × Entry)) := do
  let countFile := Files.countFile dir table
  let testFile := Files.testFile dir table
  let count ← look countFile
  let pages := match count with
    | .file octets => ((Files.pageCount? octets).getD 0).toNat
    | _ => 0
  return (countFile, count) :: (testFile, ← look testFile) :: (← lookAtPages dir table pages 0)

/-- The files of all tables of the catalog. -/
def lookAt (dir : String) : IO Directory := do
  let found ← Schema.catalog.mapM fun t => lookAtTable dir t.name
  return fun path => (found.flatten.lookup path).getD .missing

/-- The line of the script for a note, if there is one. The probe changes nothing and is left out.
-/
def scriptLine? : Note → Option String
  | .began => some "BEGIN;"
  | .committed => some "COMMIT;"
  | .rolledBack => some "ROLLBACK;"
  | .executed sql => if sql == Database.probe then none else some sql
  | _ => none

/-- The instant that log lines show, as the clock of a run stands still. -/
def stamp : Log.Stamp := ⟨"1970-01-01T00:00:00+00:00", "1970-01-01 00:00:00,000"⟩

/-- The exit code of a run that a failure ended. -/
def failedExit : Nat := 1

/-- Stages the catalog; returns the exit code. -/
def run : IO UInt32 := do
  let environment ← environment
  let settings := ((Program.setup environment).toOption.map (·.settings)).getD {}
  let files ← lookAt settings.loadDir
  let outcome := Program.run environment files { dialectName := settings.backend }
  for line in outcome.logLines stamp do
    IO.eprintln line
  for line in (outcome.journal.filterMap scriptLine?) do
    IO.println line
  if let some path := outcome.metricsFile? then
    IO.FS.writeFile path ("\n".intercalate outcome.metricsLines ++ "\n")
  match outcome.exit with
  | .ok code => return code.toUInt32
  | .error failure =>
    IO.eprintln (failure.label ++ ": " ++ failure.message)
    return failedExit.toUInt32

end Staging.CommandLine

def main : IO UInt32 := Staging.CommandLine.run
