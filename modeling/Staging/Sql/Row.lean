import Staging.Json.Numeric
import Staging.Json.Plain
import Staging.Json.Printer
import Staging.Session
import Staging.Sql.Dialect

/-!
# Rows

The tuple of SQL literals for a record: its identifier, a value for each further column, the whole
document and the tenant. What the database cannot hold is replaced and the substitution reported; a
value that its column cannot take at all ends the row, with what was reported until then.
-/

namespace Staging.Sql

open Schema

/-- The literal for what is absent. -/
def null : String := "NULL"

/-! ## Substitutions -/

/-- A value that the database cannot hold, by the limit that it breaks. -/
inductive Substitution
  | stringLength (column : String) (length : Nat)
  | numericRange (column : String) (value : Double)
  | documentSize (length : Nat)
  deriving DecidableEq, Repr

namespace Substitution

/-- The limit, as substitutions are counted. -/
def reason : Substitution → String
  | .stringLength _ _ => "string_length"
  | .numericRange _ _ => "numeric_range"
  | .documentSize _ => "document_size"

/-- The warning about a substitution in the record `id` of a table. -/
def message (table id : String) : Substitution → String
  | .stringLength column _ =>
    "String length exceeds database limit:\n    Table: " ++ table ++ "\n    Column: " ++ column
      ++ "\n    ID: " ++ id ++ "\n    Action: Value set to NULL"
  | .numericRange column value =>
    "Numeric value exceeds 10^10:\n    Table: " ++ table ++ "\n    Column: " ++ column
      ++ "\n    ID: " ++ id ++ "\n    Value: " ++ value.text ++ "\n    Action: Value set to 0"
  | .documentSize _ =>
    "JSON object size exceeds database limit:\n    Table: " ++ table ++ "\n    ID: " ++ id
      ++ "\n    Action: Value for column \"data\" set to NULL"

/-- The fields of the warning. -/
def fields (table id : String) : Substitution → Members
  | .stringLength column length =>
    [("table", .str table), ("column", .str column), ("id", .str id), ("length", .int length)]
  | .numericRange column value =>
    [("table", .str table), ("column", .str column), ("id", .str id), ("value", .float value)]
  | .documentSize length => [("table", .str table), ("id", .str id), ("length", .int length)]

end Substitution

/-- A literal, and what it is a substitute for, if it is one. -/
structure Cell where
  text : String
  substitution : Option Substitution := none
  deriving DecidableEq, Repr

/-! ## Cells -/

/-- What the literals of a table's rows depend on. -/
structure Encoder where
  table : Table
  dialect : Dialect
  settings : Settings

namespace Encoder

/-- The text that a value is stored as: a string as it is, all else as JSON. -/
def storedText : Json → String
  | .str s => s
  | v => v.compact

/-- The literal of a value stored as text. Literals as long as the limit are too long already. -/
def encodeText (e : Encoder) (column : Column) (v : Json) : Cell :=
  let text := e.dialect.literal (storedText v)
  if e.settings.maxStringLength ≤ text.length then
    ⟨null, some (.stringLength column.name text.length)⟩
  else ⟨text, none⟩

/-- The literal of a floating point number. -/
def encodeNumber (e : Encoder) (column : Column) (x : Double) : Cell :=
  if x.exceeds e.settings.numericLimit then ⟨"0", some (.numericRange column.name x)⟩
  else ⟨x.text, none⟩

/-- The literal of a value in its column; null is stored as such in every column. -/
def encodeValue (e : Encoder) (column : Column) (v : Json) : Except Failure Cell :=
  match v, column.type with
  | .null, _ => .ok ⟨null, none⟩
  | v, .bigint =>
    (v.toInteger.mapError Failure.number).map fun n => ⟨String.ofList (Json.intChars n), none⟩
  | v, .boolean => .ok ⟨if v.isTruthy then "TRUE" else "FALSE", none⟩
  | v, .numeric => (v.toDouble.mapError Failure.number).map (e.encodeNumber column)
  | v, _ => .ok (e.encodeText column v)

/-- The literal of the whole record: indented if it fits, else without spaces, and null if that does
not fit either. -/
def encodeDocument (e : Encoder) (record : Json) : Cell :=
  let indented := e.dialect.literal (record.render .pretty)
  if indented.length ≤ e.settings.maxStringLength then ⟨indented, none⟩
  else
    let compact := e.dialect.literal record.compact
    if compact.length ≤ e.settings.maxStringLength then ⟨compact, none⟩
    else ⟨null, some (.documentSize compact.length)⟩

/-! ## Rows -/

/-- The columns of a row between the identifier and the document. -/
def valueColumns (e : Encoder) : List Column := e.table.columns.filter (·.type != .id)

/-- The identifier of a record, as text; none if it is absent or null. -/
def recordId? (record : Json) : Option String :=
  match record.member? idField with
  | none => none
  | some .null => none
  | some v => some v.plain

/-- The text of a row with its substitutions. If a cell has none, the row ends there. -/
structure Row where
  substitutions : List Substitution
  outcome : Except Failure (List String)

/-- A row that begins with a cell. -/
def Row.cons : Except Failure Cell → Row → Row
  | .error failure, _ => ⟨[], .error failure⟩
  | .ok cell, rest =>
    ⟨cell.substitution.toList ++ rest.substitutions, rest.outcome.map (cell.text :: ·)⟩

/-- The cells of a record, in the order of the loading table's columns. -/
def cells (e : Encoder) (record : Json) (id : String) : List (Except Failure Cell) :=
  .ok ⟨e.dialect.literal id, none⟩
    :: e.valueColumns.map (fun c => e.encodeValue c ((record.member? c.source).getD .null))
    ++ [.ok (e.encodeDocument record),
      .ok ⟨String.ofList (Json.intChars e.settings.tenantId), none⟩]

/-- The row of the record `id`. -/
def encodeCells (e : Encoder) (record : Json) (id : String) : Row :=
  (e.cells record id).foldr Row.cons ⟨[], .ok []⟩

/-- A tuple of literals. -/
def tuple (literals : List String) : String := "(" ++ ",".intercalate literals ++ ")"

/-! ## Reporting -/

/-- The channel of the warnings. -/
def channel : String := "jsonstage.ingest.value_encoder"

variable {σ : Type}

/-- Reports a substitution in the record `id`. -/
def report (e : Encoder) (id : String) (s : Substitution) : Run σ Unit := do
  Run.log channel Log.Level.warning (s.message e.table.name id) (s.fields e.table.name id)
  Run.count (.valueSubstitutions e.table.name s.reason) 1

/-- The text of a cell of the record `id`. -/
def writeCell (e : Encoder) (id : String) (cell : Except Failure Cell) : Run σ String := do
  let cell ← liftExcept cell
  if let some s := cell.substitution then e.report id s
  return cell.text

/-- The row of a record. -/
def encodeRow (e : Encoder) (record : Json) : Run σ String :=
  match recordId? record with
  | none => throw (.missingId e.table.name)
  | some id => do
    let row := e.encodeCells record id
    row.substitutions.forM (e.report id)
    return tuple (← liftExcept row.outcome)

end Encoder

end Staging.Sql
