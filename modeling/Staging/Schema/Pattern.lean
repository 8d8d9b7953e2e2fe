import Staging.Text.Digit
import Staging.Text.Hex

/-!
# Shapes of strings

A shape is a list of character classes, matched from the start of a text: the shape of a UUID must
take the whole text but for one line end, that of a date and time may be followed by anything.
-/

namespace Staging.Schema

open Text

/-- A class of characters. -/
abbrev CharClass := Char → Bool

/-- What is left of a text that begins with a character of each class in turn. -/
def afterShape? : List CharClass → List Char → Option (List Char)
  | [], s => some s
  | _ :: _, [] => none
  | p :: shape, c :: s => if p c then afterShape? shape s else none

def hexClass : CharClass := fun c => (hexValue? c.toNat).isSome

def exactly (c : Char) : CharClass := (· == c)

/-- Hexadecimal digits in groups of 8, 4, 4, 4 and 12 with hyphens between. -/
def uuidShape : List CharClass :=
  List.replicate 8 hexClass ++ exactly '-' :: List.replicate 4 hexClass
    ++ exactly '-' :: List.replicate 4 hexClass ++ exactly '-' :: List.replicate 4 hexClass
    ++ exactly '-' :: List.replicate 12 hexClass

/-- A date, `T` and a time, in decimal digits of any script. -/
def dateTimeShape : List CharClass :=
  List.replicate 4 isDecimal ++ exactly '-' :: List.replicate 2 isDecimal
    ++ exactly '-' :: List.replicate 2 isDecimal ++ exactly 'T' :: List.replicate 2 isDecimal
    ++ exactly ':' :: List.replicate 2 isDecimal ++ exactly ':' :: List.replicate 2 isDecimal

def isUuid (s : String) : Bool :=
  match afterShape? uuidShape s.toList with
  | some [] => true
  | some ['\n'] => true
  | _ => false

/-- Whether a text begins with a date and time. -/
def looksLikeDateTime (s : String) : Bool :=
  (afterShape? dateTimeShape s.toList).isSome

end Staging.Schema
