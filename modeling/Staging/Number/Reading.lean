import Staging.Number.Double
import Staging.Text.Blank
import Staging.Text.Digit
import Staging.Text.Quoted

/-!
# Reading numbers from free text

A liberal reading of integers and of floating point numbers: blanks around the number and a sign are
allowed, digits may be of any script, and a single underscore may stand between two digits.
-/

namespace Staging.Number

open Text

/-- How many digits an integer may have. -/
def maxDigits : Nat := 4300

/-- Why a value cannot be taken as a number. -/
inductive Fault
  | notAnInteger (text : String)
  | notANumber (text : String)
  | tooManyDigits (count : Nat)
  | nanToInteger
  | infinityToInteger
  | integerTooLarge
  | containerAsInteger (isObject : Bool)
  | containerAsDouble (isObject : Bool)
  deriving DecidableEq, Repr

/-- The count of digits in the complaint about a number with too many. -/
def tooManyDigitsMessage (count : Nat) : String :=
  "Exceeds the limit (" ++ toString maxDigits
    ++ " digits) for integer string conversion: value has " ++ toString count
    ++ " digits; use sys.set_int_max_str_digits() to increase the limit"

/-- How much of a quoted text the complaint about an integer shows. -/
def shownQuote : Nat := 200

def Fault.message : Fault → String
  | .notAnInteger text =>
    "invalid literal for int() with base 10: "
      ++ String.ofList ((quote text).toList.take shownQuote)
  | .notANumber text => "could not convert string to float: " ++ quote text
  | .tooManyDigits count => tooManyDigitsMessage count
  | .nanToInteger => "cannot convert float NaN to integer"
  | .infinityToInteger => "cannot convert float infinity to integer"
  | .integerTooLarge => "int too large to convert to float"
  | .containerAsInteger isObject =>
    "int() argument must be a string, a bytes-like object or a real number, not "
      ++ if isObject then "'dict'" else "'list'"
  | .containerAsDouble isObject =>
    "float() argument must be a string or a real number, not "
      ++ if isObject then "'dict'" else "'list'"

/-- The blanks that may surround a number: all but the separators among the control characters. -/
def isMargin (c : Char) : Bool :=
  isBlank c && !(0x1C ≤ c.toNat && c.toNat ≤ 0x1F)

/-- The number that a list of decimal digits stands for. -/
def ofDigits (ds : List Nat) : Nat := ds.foldl (fun n d => 10 * n + d) 0

/-- Whether a character may stand in a run of grouped digits. -/
def inGroup (c : Char) : Bool := c == '_' || isDecimal c

/-- The digits of a nonempty run in which single underscores may stand between digits. -/
def grouped? : List Char → Option (List Nat)
  | [] => none
  | [c] => (decimalValue? c).map ([·])
  | c :: '_' :: rest => do return (← decimalValue? c) :: (← grouped? rest)
  | c :: rest => do return (← decimalValue? c) :: (← grouped? rest)

/-- A leading sign and what follows it; the sign is true for minus. -/
def sign : List Char → Bool × List Char
  | '-' :: rest => (true, rest)
  | '+' :: rest => (false, rest)
  | s => (false, s)

/-- Reads an integer. The digits are counted before it matters what follows them. -/
def readInt (text : String) : Except Fault Int :=
  let (negative, body) := sign (trimBy isMargin text.toList)
  match grouped? (body.takeWhile inGroup) with
  | none => .error (.notAnInteger text)
  | some ds =>
    if maxDigits < ds.length then .error (.tooManyDigits ds.length)
    else if body.all inGroup then .ok (if negative then -(ofDigits ds : Int) else ofDigits ds)
    else .error (.notAnInteger text)

/-! ## Floating point -/

/-- The digits of a run that may be empty. -/
def groupedOrEmpty? : List Char → Option (List Nat)
  | [] => some []
  | s => grouped? s

/-- The exponent at the end of a numeral; zero where there is none. -/
def exponent? : List Char → Option Int
  | [] => some 0
  | e :: rest =>
    if e = 'e' ∨ e = 'E' then
      let (negative, body) := sign rest
      (grouped? body).map fun ds => if negative then -(ofDigits ds : Int) else ofDigits ds
    else none

/-- An unsigned numeral with an optional fraction and an optional exponent, as a coefficient and a
power of ten. -/
def numeral? (s : List Char) : Option (Nat × Int) := do
  let (whole, rest) := (s.takeWhile inGroup, s.dropWhile inGroup)
  let (fraction, tail) := match rest with
    | '.' :: rest => (rest.takeWhile inGroup, rest.dropWhile inGroup)
    | _ => ([], rest)
  let wholeDigits ← groupedOrEmpty? whole
  let fractionDigits ← groupedOrEmpty? fraction
  if wholeDigits.isEmpty && fractionDigits.isEmpty then failure
  let e ← exponent? tail
  return (ofDigits (wholeDigits ++ fractionDigits), e - fractionDigits.length)

/-- Reads a floating point number; the words for infinity and for what is not a number count in any
mixture of cases. -/
def readDouble (text : String) : Except Fault Double :=
  let (negative, body) := sign (trimBy isMargin text.toList)
  let word := String.ofList (body.map Char.toLower)
  if word == "inf" || word == "infinity" then .ok (.infinity negative)
  else if word == "nan" then .ok .nan
  else match numeral? body with
    | some (coefficient, e) => .ok (.ofDecimal negative coefficient e)
    | none => .error (.notANumber text)

end Staging.Number
