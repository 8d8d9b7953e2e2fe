import Staging.Failure
import Staging.Text.Cased

/-!
# SQL dialects

What differs between the databases: the form of string literals, the type of the document column,
and how tables are distributed and indexed. Inside a literal a quote is written twice and so is a
backslash, in every dialect.
-/

namespace Staging.Sql

inductive Dialect
  | postgres
  | redshift
  deriving DecidableEq, Repr

namespace Dialect

def name : Dialect → String
  | .postgres => "postgresql"
  | .redshift => "redshift"

/-- The type of the column for the whole document. -/
def jsonType : Dialect → String
  | .postgres => "JSON"
  | .redshift => "VARCHAR(65535)"

/-- Whether columns besides the primary key can be indexed. -/
def hasSecondaryIndexes : Dialect → Bool
  | .postgres => true
  | .redshift => false

/-- How a table is distributed and sorted by its columns, after the list of columns. -/
def distribution (d : Dialect) (distKey sortKey : String) : String :=
  match d with
  | .postgres => ""
  | .redshift => " DISTKEY(" ++ distKey ++ ") COMPOUND SORTKEY(" ++ sortKey ++ ")"

/-! ## Literals -/

/-- A character inside a string literal. -/
def escapeChar (c : Char) : List Char :=
  if c = '\\' then ['\\', '\\'] else if c = '\x27' then ['\x27', '\x27'] else [c]

/-- What stands before the opening quote, so that a backslash escapes. -/
def literalMark : Dialect → List Char
  | .postgres => ['E']
  | .redshift => []

/-- The string literal of a text. -/
def literal (d : Dialect) (s : String) : String :=
  String.ofList (d.literalMark ++ '\x27' :: s.toList.flatMap escapeChar ++ ['\x27'])

/-! ## Names -/

/-- The names by which the dialects are asked for. -/
def names : List (String × Dialect) :=
  [("postgresql", .postgres), ("postgres", .postgres), ("redshift", .redshift)]

/-- The dialect of a name in any mixture of cases. -/
def ofName (name : String) : Except Failure Dialect :=
  match names.lookup (Text.lowerAll name) with
  | some d => .ok d
  | none => .error (.unsupportedDialect name)

end Dialect

end Staging.Sql
