import Staging.Schema.Naming
import Staging.Schema.Statistics
import Staging.Schema.Table

/-!
# Schema inference

A column for each field, typed by what the records held. The identifier comes first and the other
fields follow by name, so the columns depend on the statistics alone.
-/

namespace Staging.Schema

/-- A field whose values are of kinds that no column type holds, with how many there were of each.
-/
structure KindConflict where
  field : String
  tallies : List (String × Int)
  deriving DecidableEq, Repr

def KindConflict.message (c : KindConflict) : String :=
  "Inconsistent data types in field \"" ++ c.field ++ "\": "
    ++ ", ".intercalate (c.tallies.map fun (kind, n) => kind ++ "=" ++ toString n)

/-- Those of some tallies that counted anything. -/
def positive (tallies : List (String × Int)) : List (String × Int) :=
  tallies.filter (0 < ·.2)

/-- The column type of a field. The identifier has its own; of other fields all typed values must be
of one kind, booleans, numbers or strings, and only strings go together with nested values, which
are then stored as text. -/
def selectType (field : String) (c : Counts) : Except KindConflict ColumnType :=
  if field = idField then .ok .id
  else
    let kinds := positive [("boolean", c.boolean), ("number", c.number), ("string", c.string)]
    if 1 < kinds.length ∨ c.nested ≠ 0 ∧ kinds ≠ [] ∧ c.string ≤ 0 then
      .error ⟨field, kinds ++ positive [("object", c.object), ("array", c.array)]⟩
    else if 0 < c.boolean then .ok .boolean
    else if 0 < c.number then .ok (if 0 < c.floating then .numeric else .bigint)
    else if 0 < c.string ∧ c.dateTime = c.string ∧ c.nested = 0 then .ok .timestamptz
    else .ok .varchar

/-! ## Columns -/

/-- Why a table has no schema. -/
inductive InferenceFault
  | kinds (table sourcePath : String) (conflict : KindConflict)
  | sameColumn (table first second column : String)
  deriving DecidableEq, Repr

def InferenceFault.message : InferenceFault → String
  | .kinds table sourcePath conflict => table ++ " (" ++ sourcePath ++ "): " ++ conflict.message
  | .sameColumn table first second column =>
    table ++ ": fields \"" ++ first ++ "\" and \"" ++ second ++ "\" both map to column \"" ++ column
      ++ "\""

/-- The columns that every loading table has besides the inferred ones and the identifier. -/
def reservedColumns : List String := ["data", "tenant_id"]

/-- The columns found until all fields were typed, or until one could not be. -/
structure Inferred where
  columns : List Column
  fault : Option InferenceFault
  deriving DecidableEq, Repr

/-- The columns of `fields`; `taken` are the column names in use and the fields they belong to. -/
def inferFrom (t : Table) (taken : List (String × String)) : FieldCounts → Inferred
  | [] => ⟨[], none⟩
  | (field, counts) :: rest =>
    match selectType field counts with
    | .error conflict => ⟨[], some (.kinds t.name t.sourcePath conflict)⟩
    | .ok type =>
      let name := columnName field
      match taken.lookup name with
      | some first => ⟨[], some (.sameColumn t.name first field name)⟩
      | none =>
        let more := inferFrom t ((name, field) :: taken) rest
        ⟨⟨name, field, type⟩ :: more.columns, more.fault⟩

/-- The columns of a table whose records gave these statistics. -/
def infer (t : Table) (fields : FieldCounts) : Inferred :=
  inferFrom t (reservedColumns.map (·, "(reserved)")) (Json.sortMembers fields)

end Staging.Schema
