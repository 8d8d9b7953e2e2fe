import Staging.Json.Printer
import Staging.Log.Level

/-!
# Log records

A record and its two written forms: one JSON object on a line, for aggregation, and plain text. The
object begins with the record's own members; the table being staged and the extra fields follow, and
an extra field of the same name takes the place of a member.
-/

namespace Staging.Log

/-- Where in the program a record was made, as far as it is shown. -/
structure Origin where
  unit : Option String
  function : Option String
  line : Int
  deriving DecidableEq, Repr

/-- The origin of records that staging makes. -/
def Origin.staging : Origin := ⟨some "(unknown file)", none, 0⟩

/-- The origin of all other records. -/
def Origin.general : Origin := ⟨some "-", some "-", 0⟩

structure Record where
  channel : String
  level : Level
  message : String
  origin : Origin
  /-- The table being staged when the record was made. -/
  table : Option String
  /-- Extra fields, if the record can have any. -/
  fields : Option Members
  deriving Repr

/-- An instant as the two forms show it. -/
structure Stamp where
  structured : String
  plain : String
  deriving DecidableEq, Repr

/-- A text or null. -/
def textOrNull : Option String → Json
  | some s => .str s
  | none => .null

/-- The record as an object. -/
def Record.toJson (r : Record) (stamp : Stamp) : Json :=
  let own : Members :=
    [("timestamp", .str stamp.structured), ("level", .str r.level.name), ("logger", .str r.channel),
      ("message", .str r.message), ("module", textOrNull r.origin.unit),
      ("function", textOrNull r.origin.function), ("line", .int r.origin.line)]
  let table : Members := match r.table with
    | some t => if t.isEmpty then [] else [("table", .str t)]
    | none => []
  .obj (Members.update (own ++ table) (r.fields.getD []))

/-- The two forms of a log line. -/
inductive Format
  | structured
  | plain
  deriving DecidableEq, Repr

/-- The line for a record. -/
def Record.line (r : Record) (format : Format) (stamp : Stamp) : String :=
  match format with
  | .structured => (r.toJson stamp).render .spaced
  | .plain => stamp.plain ++ " - " ++ r.channel ++ " - " ++ r.level.name ++ " - " ++ r.message

/-- The extra fields of a staging record: those given, and the current table if they name none. -/
def withTable (table : Option String) (fields : Members) : Members :=
  match table with
  | some t =>
    if t.isEmpty || (Members.get? fields "table").isSome then fields
    else fields ++ [("table", .str t)]
  | none => fields

/-- A record that staging makes. -/
def staged (table : Option String) (channel : String) (level : Level) (message : String)
    (fields : Members) : Record :=
  ⟨channel, level, message, .staging, table, some (withTable table fields)⟩

end Staging.Log
