import Staging.Number.Shortest

/-!
# The text of a double

The shortest digits, set positionally for magnitudes from `10 ^ -4` up to `10 ^ 16`, with at least
one digit on either side of the point, and otherwise with an exponent of a sign and at least two
digits. The two styles differ in the words for infinity and for what is not a number.
-/

namespace Staging

/-- The words for the doubles that have no digits. -/
structure DoubleWords where
  notANumber : String
  infinite : String
  deriving Repr

/-- The words of SQL text and of values shown plainly. -/
def DoubleWords.plain : DoubleWords := ⟨"nan", "inf"⟩

/-- The words of JSON text. -/
def DoubleWords.json : DoubleWords := ⟨"NaN", "Infinity"⟩

namespace Double

/-- The greatest place of the decimal point, counted from the first digit, that is written
positionally. -/
def lastPositional : Int := 16

/-- The place of the decimal point up to which an exponent is written. -/
def lastSmallExponent : Int := -4

/-- An exponent: its sign, and at least two digits. -/
def exponentChars (e : Int) : List Char :=
  let digits := Nat.toDigits 10 e.natAbs
  'e' :: (if e < 0 then '-' else '+') :: (if digits.length < 2 then '0' :: digits else digits)

/-- Digits with the decimal point `point` places after the first. -/
def layOut (digits : List Char) (point : Int) : List Char :=
  if lastSmallExponent < point ∧ point ≤ lastPositional then
    if point ≤ 0 then '0' :: '.' :: List.replicate point.natAbs '0' ++ digits
    else if point < digits.length then
      digits.take point.natAbs ++ '.' :: digits.drop point.natAbs
    else digits ++ List.replicate (point.natAbs - digits.length) '0' ++ ['.', '0']
  else match digits with
    | [] => []
    | [d] => d :: exponentChars (point - 1)
    | d :: rest => d :: '.' :: rest ++ exponentChars (point - 1)

/-- The text of the magnitude of a finite double. -/
def magnitudeChars (x : Double) : List Char :=
  if x.isZero then ['0', '.', '0']
  else
    let d := x.shortest
    let digits := Nat.toDigits 10 d.coefficient
    layOut (digits.reverse.dropWhile (· == '0')).reverse (digits.length + d.exponent)

/-- The text of a double. -/
def chars (words : DoubleWords) (x : Double) : List Char :=
  if x.isNaN then words.notANumber.toList
  else (if x.negative then ['-'] else [])
    ++ (if x.isInfinite then words.infinite.toList else x.magnitudeChars)

/-- The text of a double outside JSON. -/
def text (x : Double) : String := String.ofList (x.chars .plain)

end Double

end Staging
