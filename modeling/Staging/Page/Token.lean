import Staging.Json.Parser
import Staging.Text.Utf8

/-!
# Tokens of a page

A page is scanned octet by octet under the strict grammar of JSON. An octet is taken as the
character of the same code: the grammar names ASCII characters only, and within strings the octets
are kept as they are. Integers must fit in 64 bits and doubles must be finite, so every number of a
page can be stored.
-/

namespace Staging.Page

open Text Number

/-- A token. The content of a string is in octets, as it need not be text. -/
inductive Token
  | openObject
  | closeObject
  | openArray
  | closeArray
  | comma
  | colon
  | null
  | boolean (b : Bool)
  | number (value : Json)
  | string (content : List UInt8)

/-! ## Blanks and numerals -/

def isSpace (c : Char) : Bool := c == ' ' || (0x09 ≤ c.toNat && c.toNat ≤ 0x0D)

def skipSpace (s : List Char) : List Char := s.dropWhile isSpace

/-- The greatest magnitude of an integer. -/
def maxInteger : Nat := Nat.pow 2 63 - 1

/-- The integer of these digits. -/
def integer? (negative : Bool) (digits : List Char) : Option Json :=
  let n := ofDigits (Json.digitValues digits)
  if maxInteger < n then none else some (.int (if negative then -(n : Int) else n))

/-- A double that is not too large. -/
def double? (negative : Bool) (digits : List Char) (exponent : Int) : Option Json :=
  let x := Double.ofDecimal negative (ofDigits (Json.digitValues digits)) exponent
  if x.isInfinite then none else some (.float x)

/-- The fraction that a text begins with; no digits if it begins with no point. -/
def fraction? (s : List Char) : Option (List Char × List Char) :=
  if s.head? = some '.' then Json.takeFraction? s else some ([], s)

/-- The exponent that a text begins with, if it begins with the mark of one. -/
def exponent? (s : List Char) : Option (Option Int × List Char) :=
  if s.head? = some 'e' ∨ s.head? = some 'E' then
    (Json.takeExponent? s).map fun (e, rest) => (some e, rest)
  else some (none, s)

/-- Scans an unsigned numeral. What begins as a fraction or an exponent must be one. -/
def numeral? (negative : Bool) (s : List Char) : Option (Json × List Char) := do
  let (whole, rest) ← Json.takeWhole? s
  let (fraction, rest) ← fraction? rest
  let (exponent, rest) ← exponent? rest
  let value ←
    if fraction.isEmpty && exponent.isNone then integer? negative whole
    else double? negative (whole ++ fraction) (exponent.getD 0 - fraction.length)
  return (value, rest)

/-! ## Strings -/

/-- The octet that a character stands for. -/
def octet (c : Char) : UInt8 := c.toNat.toUInt8

/-- The code point of two escapes, the first for a high surrogate. The second supplies the last ten
bits whatever it stands for. -/
def joined (high second : Nat) : Nat := ofSurrogates high (0xDC00 + second % 0x400)

/-- What stands for a high surrogate without a second escape. -/
def unpaired : Nat := '?'.toNat

/-- The code point that an escape stands for, and how many characters after the backslash it takes.
An escape by code point for a high surrogate is joined with the one that follows at once. -/
def escaped? : List Char → Option (Nat × Nat)
  | 'u' :: a :: b :: c :: d :: rest => do
    let high ← Json.hexChars4? a b c d
    if isHighSurrogate high then
      match rest with
      | '\\' :: 'u' :: e :: f :: g :: h :: _ => do
        return (joined high (← Json.hexChars4? e f g h), 11)
      | '\\' :: 'u' :: _ => none
      | _ => return (unpaired, 5)
    else return (high, 5)
  | letter :: _ => (Json.shortEscaped? letter).map fun c => (c.toNat, 1)
  | [] => none

/-- How many octets must follow a first octet, by its leading bits alone. -/
def trailing? (n : Nat) : Option Nat :=
  if n < 0x80 then some 0
  else if n < 0xC0 then none
  else if n < 0xE0 then some 1
  else if n < 0xF0 then some 2
  else if n < 0xF8 then some 3
  else none

/-- Why no string can be scanned. -/
inductive StringFault
  | malformed
  /-- The text ends within the string. -/
  | unclosed
  deriving DecidableEq, Repr

/-- Scans the rest of a string up to its closing quote. -/
def stringBody (s : List Char) : Except StringFault (List UInt8 × List Char) :=
  match s with
  | [] => .error .unclosed
  | c :: rest =>
    if c = '\x22' then .ok ([], rest)
    else if c = '\\' then
      match escaped? rest with
      | none => .error .malformed
      | some (n, taken) =>
        (stringBody (rest.drop taken)).map fun (s, tail) => (Utf8.encodePoint n ++ s, tail)
    else if c.toNat < 0x20 then .error .malformed
    else match trailing? c.toNat with
      | none => .error .malformed
      | some n =>
        let more := rest.take n
        if more.length = n && more.all (Utf8.isContinuation ·.toNat) then
          (stringBody (rest.drop n)).map fun (s, tail) => (octet c :: more.map octet ++ s, tail)
        else .error .malformed
termination_by s.length
decreasing_by all_goals simp only [List.length_drop, List.length_cons]; omega

/-- Whether a text is a string that begins and does not end. -/
def isUnclosedString : List Char → Bool
  | '\x22' :: rest => match stringBody rest with
    | .error .unclosed => true
    | _ => false
  | _ => false

/-! ## Tokens -/

/-- Scans the token that begins at once. -/
def scan? : List Char → Option (Token × List Char)
  | '\x7b' :: rest => some (.openObject, rest)
  | '\x7d' :: rest => some (.closeObject, rest)
  | '[' :: rest => some (.openArray, rest)
  | ']' :: rest => some (.closeArray, rest)
  | ',' :: rest => some (.comma, rest)
  | ':' :: rest => some (.colon, rest)
  | 'n' :: 'u' :: 'l' :: 'l' :: rest => some (.null, rest)
  | 't' :: 'r' :: 'u' :: 'e' :: rest => some (.boolean true, rest)
  | 'f' :: 'a' :: 'l' :: 's' :: 'e' :: rest => some (.boolean false, rest)
  | '\x22' :: rest => (stringBody rest).toOption.map fun (s, tail) => (.string s, tail)
  | '-' :: rest => (numeral? true rest).map fun (v, tail) => (.number v, tail)
  | s => (numeral? false s).map fun (v, tail) => (.number v, tail)

end Staging.Page
