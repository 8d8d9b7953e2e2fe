import Staging.Text.Cased
import Staging.Text.Digit

/-!
# Column names

A field written in mixed case becomes a column name in lower case with words separated by
underscores. Only characters that are upper case change: each is lower-cased, and a separator goes
before it where a word begins.
-/

namespace Staging.Schema

open Text

/-- Whether a word begins at an upper-case character: after a lower-case letter or a digit, and
after an upper-case letter when a lower-case one follows, as the last of a run of capitals belongs
to the next word. -/
def beginsWord (before after : Option Char) : Bool :=
  match before with
  | none => false
  | some p => isLower p || isDigit p || (isUpper p && after.any isLower)

/-- The column name of the characters that follow `before`. -/
def snakeFrom (before : Option Char) : List Char → List Char
  | [] => []
  | c :: rest =>
    if isUpper c then
      (if beginsWord before rest.head? then ['_'] else []) ++ lower c ++ snakeFrom (some c) rest
    else c :: snakeFrom (some c) rest

/-- The column name of a field. -/
def columnName (field : String) : String := String.ofList (snakeFrom none field.toList)

end Staging.Schema
