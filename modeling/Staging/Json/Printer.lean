import Staging.Json.Basic
import Staging.Json.Escape
import Staging.Number.Notation

/-!
# Writing JSON

One printer, directed by a layout. Members are written in order, containers without items as a pair
of brackets, and doubles by their shortest text.
-/

namespace Staging

namespace Json

/-- The choices of a printer. -/
structure Layout where
  /-- Written between items, before any new line. -/
  comma : List Char
  /-- Written between a member's name and its value. -/
  colon : List Char
  /-- The indentation of one level, when each item stands on a line of its own. -/
  indent : Option Nat
  /-- How a character is written in a string. -/
  escape : Char → List Char

/-- No space anywhere. -/
def Layout.compact : Layout := ⟨[','], [':'], none, escapeControl⟩

/-- Each item on a line of its own, four spaces further in than its container. -/
def Layout.pretty : Layout := ⟨[','], [':', ' '], some 4, escapeControl⟩

/-- On one line with a space after each comma and colon, in ASCII. -/
def Layout.spaced : Layout := ⟨[',', ' '], [':', ' '], none, escapeAscii⟩

/-- The start of a line at a depth of nesting; nothing when all is on one line. -/
def Layout.lineBreak (l : Layout) (depth : Nat) : List Char :=
  match l.indent with
  | none => []
  | some width => '\n' :: List.replicate (width * depth) ' '

/-- An integer in decimal. -/
def intChars (n : Int) : List Char :=
  (if n < 0 then ['-'] else []) ++ Nat.toDigits 10 n.natAbs

/-- A string between quotes. -/
def stringChars (l : Layout) (s : String) : List Char :=
  '\x22' :: s.toList.flatMap l.escape ++ ['\x22']

mutual

/-- The text of a value at a depth of nesting. -/
def chars (l : Layout) (depth : Nat) : Json → List Char
  | .null => ['n', 'u', 'l', 'l']
  | .bool true => ['t', 'r', 'u', 'e']
  | .bool false => ['f', 'a', 'l', 's', 'e']
  | .int n => intChars n
  | .float x => x.chars .json
  | .str s => stringChars l s
  | .arr [] => ['[', ']']
  | .arr (v :: items) =>
    '[' :: l.lineBreak (depth + 1) ++ chars l (depth + 1) v ++ itemsChars l (depth + 1) items
      ++ l.lineBreak depth ++ [']']
  | .obj [] => ['\x7b', '\x7d']
  | .obj ((name, v) :: members) =>
    '\x7b' :: l.lineBreak (depth + 1) ++ stringChars l name ++ l.colon ++ chars l (depth + 1) v
      ++ membersChars l (depth + 1) members ++ l.lineBreak depth ++ ['\x7d']

/-- The text of the items of an array after the first. -/
def itemsChars (l : Layout) (depth : Nat) : List Json → List Char
  | [] => []
  | v :: items => l.comma ++ l.lineBreak depth ++ chars l depth v ++ itemsChars l depth items

/-- The text of the members of an object after the first. -/
def membersChars (l : Layout) (depth : Nat) : List (String × Json) → List Char
  | [] => []
  | (name, v) :: members =>
    l.comma ++ l.lineBreak depth ++ stringChars l name ++ l.colon ++ chars l depth v
      ++ membersChars l depth members

end

/-- The text of a value. -/
def render (l : Layout) (v : Json) : String := String.ofList (v.chars l 0)

/-- The text of a value without spaces. -/
def compact (v : Json) : String := v.render .compact

end Json

end Staging
