import Staging.Json.Basic
import Staging.Number.Notation
import Staging.Text.Quoted

/-!
# Values shown plainly

The text of a value outside JSON, as record ids and stray scalars are written: a string is its own
text, numbers and words stand for themselves, and inside a container strings are quoted.
-/

namespace Staging.Json

/-- The words for the values that are neither numbers nor text. -/
structure Words where
  null : List Char
  yes : List Char
  no : List Char

/-- The words of plain text. -/
def words : Words := ⟨"None".toList, "True".toList, "False".toList⟩

/-- A value that is no container, its text quoted or not. -/
def plainScalar (quoted : Bool) : Json → List Char
  | .null => words.null
  | .bool b => if b then words.yes else words.no
  | .int n => (if n < 0 then ['-'] else []) ++ Nat.toDigits 10 n.natAbs
  | .float x => x.chars .plain
  | .str s => if quoted then Text.quoteChars s.toList else s.toList
  | .arr _ => []
  | .obj _ => []

mutual

/-- A value inside a container. -/
def plainChars : Json → List Char
  | .arr [] => ['[', ']']
  | .arr (v :: items) => '[' :: plainChars v ++ plainItems items ++ [']']
  | .obj [] => ['\x7b', '\x7d']
  | .obj ((name, v) :: members) =>
    '\x7b' :: Text.quoteChars name.toList ++ ':' :: ' ' :: plainChars v ++ plainMembers members
      ++ ['\x7d']
  | v => plainScalar true v

def plainItems : List Json → List Char
  | [] => []
  | v :: items => ',' :: ' ' :: plainChars v ++ plainItems items

def plainMembers : List (String × Json) → List Char
  | [] => []
  | (name, v) :: members =>
    ',' :: ' ' :: Text.quoteChars name.toList ++ ':' :: ' ' :: plainChars v ++ plainMembers members

end

/-- The plain text of a value. -/
def plain : Json → String
  | .str s => s
  | v => String.ofList (plainChars v)

end Staging.Json
