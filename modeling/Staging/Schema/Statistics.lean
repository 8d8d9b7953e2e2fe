import Staging.Json.Order
import Staging.Schema.Pattern

/-!
# Field statistics

What pass one learns about a table: for each top-level field, in how many records it occurred and
with values of which kind. Statistics are tallies, so they do not depend on where in the records a
value was found.
-/

namespace Staging.Schema

/-- The tallies of one field. Counting gives natural numbers, but a type is selected for any. -/
structure Counts where
  records : Int := 0
  null : Int := 0
  boolean : Int := 0
  number : Int := 0
  integer : Int := 0
  floating : Int := 0
  string : Int := 0
  uuid : Int := 0
  dateTime : Int := 0
  object : Int := 0
  array : Int := 0
  deriving DecidableEq, Repr, Inhabited

/-- Values that hold further values. -/
def Counts.nested (c : Counts) : Int := c.object + c.array

/-- Counts one value of the field. -/
def Counts.add (c : Counts) (v : Json) : Counts :=
  let c := { c with records := c.records + 1 }
  match v with
  | .null => { c with null := c.null + 1 }
  | .bool _ => { c with boolean := c.boolean + 1 }
  | .int _ => { c with number := c.number + 1, integer := c.integer + 1 }
  | .float _ => { c with number := c.number + 1, floating := c.floating + 1 }
  | .str s =>
    { c with
      string := c.string + 1
      uuid := c.uuid + if isUuid s then 1 else 0
      dateTime := c.dateTime + if looksLikeDateTime s then 1 else 0 }
  | .arr _ => { c with array := c.array + 1 }
  | .obj _ => { c with object := c.object + 1 }

/-- The tallies under their names. -/
def Counts.entries (c : Counts) : List (String × Int) :=
  [("records", c.records), ("null", c.null), ("boolean", c.boolean), ("number", c.number),
    ("integer", c.integer), ("floating", c.floating), ("string", c.string), ("uuid", c.uuid),
    ("date_time", c.dateTime), ("object", c.object), ("array", c.array)]

/-- Tallies by their names; a name that is not there counts nothing. -/
def Counts.ofEntries (entries : List (String × Int)) : Counts :=
  let tally := fun name => (entries.lookup name).getD 0
  { records := tally "records", null := tally "null", boolean := tally "boolean"
    number := tally "number", integer := tally "integer", floating := tally "floating"
    string := tally "string", uuid := tally "uuid", dateTime := tally "date_time"
    object := tally "object", array := tally "array" }

/-! ## All fields -/

/-- The tallies of fields, in the order in which the fields were first seen. -/
abbrev FieldCounts := List (String × Counts)

/-- Changes the tallies of a field. A new one comes last and has counted nothing. -/
def FieldCounts.change : FieldCounts → String → (Counts → Counts) → FieldCounts
  | [], field, f => [(field, f {})]
  | (name, c) :: rest, field, f =>
    if name = field then (name, f c) :: rest else (name, c) :: change rest field f

/-- Counts one value of a field. -/
def FieldCounts.add (fields : FieldCounts) (field : String) (v : Json) : FieldCounts :=
  fields.change field (·.add v)

/-- The fields in order of their names. -/
def FieldCounts.sorted (fields : FieldCounts) : FieldCounts :=
  fields.mergeSort fun a b => decide (a.1 ≤ b.1)

/-- What the records of a table hold. -/
structure Statistics where
  fields : FieldCounts := []
  observed : Nat := 0
  deriving DecidableEq, Repr, Inhabited

/-- Counts the fields of a record. -/
def Statistics.observe (s : Statistics) (record : Json) : Statistics :=
  { observed := s.observed + 1
    fields := match record with
      | .obj members => members.foldl (fun fields (name, v) => fields.add name v) s.fields
      | _ => s.fields }

end Staging.Schema
