import Staging.Number.Double

/-!
# JSON values

A value keeps the difference between integers and floating point numbers, and the order of an
object's members. The type itself allows a member name to repeat, as documents do; `Members.put`
and `Members.ofPairs` say what becomes of repeated names when a text is read.
-/

namespace Staging

/-- A JSON value. -/
inductive Json
  | null
  | bool (b : Bool)
  | int (n : Int)
  | float (x : Double)
  | str (s : String)
  | arr (items : List Json)
  | obj (members : List (String × Json))
  deriving Inhabited, Repr

/-- The members of an object, in order. -/
abbrev Members := List (String × Json)

/-! ## Kinds -/

namespace Json

/-- The kinds of JSON value. -/
inductive Kind
  | null
  | boolean
  | integer
  | float
  | string
  | array
  | object
  deriving DecidableEq, Repr

def Kind.name : Kind → String
  | .null => "null"
  | .boolean => "boolean"
  | .integer => "integer"
  | .float => "float"
  | .string => "string"
  | .array => "array"
  | .object => "object"

def kind : Json → Kind
  | .null => .null
  | .bool _ => .boolean
  | .int _ => .integer
  | .float _ => .float
  | .str _ => .string
  | .arr _ => .array
  | .obj _ => .object

/-- Whether a value counts as true where a boolean is asked for: all but null, false, zero of either
sort, and whatever is empty. -/
def isTruthy : Json → Bool
  | .null => false
  | .bool b => b
  | .int n => n != 0
  | .float x => !x.isZero
  | .str s => !s.isEmpty
  | .arr items => !items.isEmpty
  | .obj members => !members.isEmpty

end Json

/-! ## Members -/

namespace Members

/-- The value of the first member of that name. -/
def get? (members : Members) (name : String) : Option Json :=
  members.lookup name

/-- Gives a member a value: in its place if the name is there already, otherwise at the end. -/
def put : Members → String → Json → Members
  | [], name, value => [(name, value)]
  | (n, v) :: rest, name, value =>
    if n = name then (n, value) :: rest else (n, v) :: put rest name value

/-- Members written one after the other: a repeated name keeps its first place and its last
value. -/
def ofPairs (pairs : List (String × Json)) : Members :=
  pairs.foldl (fun members (name, value) => put members name value) []

/-- Members brought up to date by further ones. -/
def update (members more : Members) : Members :=
  more.foldl (fun members (name, value) => put members name value) members

end Members

/-- The member of that name, if the value is an object that has one. -/
def Json.member? : Json → String → Option Json
  | .obj members, name => Members.get? members name
  | _, _ => none

end Staging
