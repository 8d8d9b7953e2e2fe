import Staging.Failure
import Staging.Log.Record
import Staging.Number.Rounded

/-!
# Timed operations

The records around an operation: one when it starts, and one when it ends, with how long it took.
-/

namespace Staging.Log

/-- An operation to be timed. -/
structure Span where
  channel : String
  operation : String
  /-- The level of the record of a completed operation. -/
  level : Level := Level.detail
  fields : Members := []

namespace Span

/-- A duration in milliseconds, to two decimal places. -/
def milliseconds (seconds : Float) : Json :=
  .float ((Double.ofFloat (seconds * 1000)).rounded 2)

def record (s : Span) (table : Option String) (level : Level) (what : String) (fields : Members) :
    Record :=
  ⟨s.channel, level, what ++ ": " ++ s.operation, .general, table, some fields⟩

/-- The record of the start. -/
def started (s : Span) (table : Option String) : Record :=
  s.record table Level.debug "Starting operation"
    (Members.update [("operation", .str s.operation)] s.fields)

/-- The fields that tell how long the operation took. -/
def timing (s : Span) (seconds : Float) : Members :=
  Members.update [("operation", .str s.operation), ("duration_ms", milliseconds seconds)] s.fields

/-- The record of an operation that was completed. -/
def completed (s : Span) (table : Option String) (seconds : Float) : Record :=
  s.record table s.level "Operation completed" (s.timing seconds)

/-- The record of an operation that failed. -/
def failed (s : Span) (table : Option String) (seconds : Float) (failure : Failure) : Record :=
  s.record table Level.error "Operation failed"
    (((s.timing seconds).put "error" (.str failure.message)).put "error_type" (.str failure.label))

end Span

end Staging.Log
