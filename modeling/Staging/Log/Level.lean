import Staging.Text.Cased

/-!
# Levels of logging

Levels are integers, so that loggers can be set between the named ones. Two names below `INFO` are
for SQL text and for single records.
-/

namespace Staging.Log

/-- How important a record is. -/
abbrev Level := Int

namespace Level

def trace : Level := 5

def debug : Level := 10

def detail : Level := 15

def info : Level := 20

def warning : Level := 30

def error : Level := 40

def critical : Level := 50

/-- The levels that have a name. -/
def names : List (Level × String) :=
  [(0, "NOTSET"), (trace, "TRACE"), (debug, "DEBUG"), (detail, "DETAIL"), (info, "INFO"),
    (warning, "WARNING"), (error, "ERROR"), (critical, "CRITICAL")]

/-- Further names by which a level can be asked for. -/
def aliases : List (String × Level) := [("WARN", warning), ("FATAL", critical)]

/-- The name that a record shows for its level. -/
def name (l : Level) : String :=
  match names.lookup l with
  | some n => n
  | none => "Level " ++ toString l

/-- The level of a name in any mixture of cases. -/
def ofName? (text : String) : Option Level :=
  let wanted := Text.upperAsciiAll text
  match names.find? (·.2 == wanted) with
  | some (l, _) => some l
  | none => aliases.lookup wanted

end Level

end Staging.Log
