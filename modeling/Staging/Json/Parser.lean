import Staging.Json.Basic
import Staging.Number.Reading
import Staging.Text.Hex

/-!
# Reading JSON

A reader of whole texts that says where a text goes wrong. Besides the standard it reads `NaN`,
`Infinity` and `-Infinity`; a numeral without fraction and exponent is an integer of any size, all
others are doubles. Readers of parts take the rest of the text and return what they leave of it, and
a fault carries the rest that begins where it lies, so positions are measured once, at the end.
-/

namespace Staging.Json

open Text Number

/-- What is wrong with a text. -/
inductive Complaint
  | byteOrderMark
  | expectingValue
  | extraData
  | expectingName
  | expectingColon
  | expectingComma
  | controlCharacter
  | unterminatedString
  | invalidEscape
  | invalidUnicodeEscape
  deriving DecidableEq, Repr

def Complaint.message : Complaint → String
  | .byteOrderMark => "Unexpected UTF-8 BOM (decode using utf-8-sig)"
  | .expectingValue => "Expecting value"
  | .extraData => "Extra data"
  | .expectingName => "Expecting property name enclosed in double quotes"
  | .expectingColon => "Expecting ':' delimiter"
  | .expectingComma => "Expecting ',' delimiter"
  | .controlCharacter => "Invalid control character at"
  | .unterminatedString => "Unterminated string starting at"
  | .invalidEscape => "Invalid \\escape"
  | .invalidUnicodeEscape => "Invalid \\uXXXX escape"

/-- Why reading stopped: a complaint about the text that begins with `rest`, or a numeral with too
many digits. -/
inductive Stop
  | complaint (c : Complaint) (rest : List Char)
  | tooManyDigits (count : Nat)
  deriving DecidableEq, Repr

/-- A part that was read, and what was left. -/
abbrev Reader (α : Type) := List Char → Except Stop (α × List Char)

/-! ## Blanks and numerals -/

def isSpace (c : Char) : Bool := c == ' ' || c == '\t' || c == '\n' || c == '\r'

def skipSpace (s : List Char) : List Char := s.dropWhile isSpace

def digitValues (s : List Char) : List Nat := s.map fun c => c.toNat - 0x30

/-- The exponent that a text begins with: the value, and the rest after it. -/
def takeExponent? : List Char → Option (Int × List Char)
  | [] => none
  | e :: rest =>
    if e = 'e' ∨ e = 'E' then
      let (negative, body) := sign rest
      match body.takeWhile Char.isDigit with
      | [] => none
      | ds =>
        let n : Nat := ofDigits (digitValues ds)
        some (if negative then -n else n, body.dropWhile Char.isDigit)
    else none

/-- The fraction that a text begins with: its digits, and the rest after them. -/
def takeFraction? : List Char → Option (List Char × List Char)
  | '.' :: rest =>
    match rest.takeWhile Char.isDigit with
    | [] => none
    | ds => some (ds, rest.dropWhile Char.isDigit)
  | _ => none

/-- The whole digits that a text begins with: a zero, or a run that does not begin with one. -/
def takeWhole? : List Char → Option (List Char × List Char)
  | '0' :: rest => some (['0'], rest)
  | s =>
    match s.takeWhile Char.isDigit with
    | [] => none
    | ds => some (ds, s.dropWhile Char.isDigit)

/-- Reads an unsigned numeral; `s` is where the value began, for the complaint. -/
def numeral (s : List Char) (negative : Bool) (body : List Char) : Except Stop (Json × List Char) :=
  match takeWhole? body with
  | none => .error (.complaint .expectingValue s)
  | some (whole, rest) =>
    let (fraction, afterFraction) := (takeFraction? rest).getD ([], rest)
    let exponent := takeExponent? afterFraction
    if fraction.isEmpty && exponent.isNone then
      if maxDigits < whole.length then .error (.tooManyDigits whole.length)
      else
        let n : Nat := ofDigits (digitValues whole)
        .ok (.int (if negative then -n else n), rest)
    else
      let (e, tail) := exponent.getD (0, afterFraction)
      .ok (.float (.ofDecimal negative (ofDigits (digitValues (whole ++ fraction)))
        (e - fraction.length)), tail)

/-! ## Strings -/

/-- The character of a short escape. -/
def shortEscaped? (letter : Char) : Option Char :=
  if letter = '\x22' ∨ letter = '\\' ∨ letter = '/' then some letter
  else if letter = 'n' then some '\n'
  else if letter = 'r' then some '\r'
  else if letter = 't' then some '\t'
  else if letter = 'b' then some '\x08'
  else if letter = 'f' then some '\x0C'
  else none

/-- A code point as a character; a surrogate that has no partner becomes the replacement
character. -/
def charOfPoint (n : Nat) : Char :=
  if isHighSurrogate n || isLowSurrogate n then '\ufffd' else Char.ofNat n

def hexChars4? (a b c d : Char) : Option Nat := hexValue4? a.toNat b.toNat c.toNat d.toNat

/-- The character that an escape stands for, and how many characters of `s`, the text after the
backslash, it takes; `start` is the text from the opening quote on. An escape by code point wants a
further character after it, and one for a high surrogate is joined with one for a low surrogate that
follows at once. -/
def escaped (start s : List Char) : Except Stop (Char × Nat) :=
  match s with
  | [] => .error (.complaint .unterminatedString start)
  | 'u' :: a :: b :: c :: d :: next :: rest =>
    match hexChars4? a b c d with
    | none => .error (.complaint .invalidUnicodeEscape s)
    | some high =>
      match isHighSurrogate high, next, rest with
      | true, '\\', 'u' :: e :: f :: g :: h :: _ :: _ =>
        match hexChars4? e f g h with
        | none => .error (.complaint .invalidUnicodeEscape rest)
        | some low =>
          if isLowSurrogate low then .ok (charOfPoint (ofSurrogates high low), 11)
          else .ok (charOfPoint high, 5)
      | _, _, _ => .ok (charOfPoint high, 5)
  | 'u' :: _ => .error (.complaint .invalidUnicodeEscape s)
  | letter :: _ =>
    match shortEscaped? letter with
    | none => .error (.complaint .invalidEscape ('\\' :: s))
    | some c => .ok (c, 1)

/-- Reads the rest of a string up to its closing quote. -/
def stringBody (start : List Char) (s : List Char) : Except Stop (List Char × List Char) :=
  match s with
  | [] => .error (.complaint .unterminatedString start)
  | c :: rest =>
    if c = '\x22' then .ok ([], rest)
    else if c = '\\' then
      match escaped start rest with
      | .error e => .error e
      | .ok (c, taken) => (stringBody start (rest.drop taken)).map fun (s, tail) => (c :: s, tail)
    else if c.toNat < 0x20 then .error (.complaint .controlCharacter s)
    else (stringBody start rest).map fun (s, tail) => (c :: s, tail)
termination_by s.length
decreasing_by all_goals simp only [List.length_drop, List.length_cons]; omega

/-- Reads a member's name. -/
def memberName : Reader String
  | '\x22' :: rest => do
    let (name, tail) ← stringBody ('\x22' :: rest) rest
    return (String.ofList name, tail)
  | s => .error (.complaint .expectingName s)

/-- Passes over a colon. -/
def colon (s : List Char) : Except Stop (List Char) :=
  match skipSpace s with
  | ':' :: rest => .ok (skipSpace rest)
  | s => .error (.complaint .expectingColon s)

/-! ## Values -/

/-- Reads a value that begins with a letter, or else a numeral. -/
def scalar (s : List Char) : Except Stop (Json × List Char) :=
  match s with
  | 'n' :: 'u' :: 'l' :: 'l' :: rest => .ok (.null, rest)
  | 't' :: 'r' :: 'u' :: 'e' :: rest => .ok (.bool true, rest)
  | 'f' :: 'a' :: 'l' :: 's' :: 'e' :: rest => .ok (.bool false, rest)
  | 'N' :: 'a' :: 'N' :: rest => .ok (.float .nan, rest)
  | 'I' :: 'n' :: 'f' :: 'i' :: 'n' :: 'i' :: 't' :: 'y' :: rest =>
    .ok (.float (.infinity false), rest)
  | '-' :: 'I' :: 'n' :: 'f' :: 'i' :: 'n' :: 'i' :: 't' :: 'y' :: rest =>
    .ok (.float (.infinity true), rest)
  | '-' :: rest => numeral s true rest
  | _ => numeral s false s

mutual

/-- Reads a value that begins at once. Each call that a reader makes spends one of its steps. -/
def value : Nat → List Char → Except Stop (Json × List Char)
  | 0, s => .error (.complaint .expectingValue s)
  | steps + 1, s =>
    match s with
    | '\x22' :: rest => do
      let (text, tail) ← stringBody s rest
      return (.str (String.ofList text), tail)
    | '[' :: rest =>
      match skipSpace rest with
      | ']' :: tail => .ok (.arr [], tail)
      | body => do
        let (items, tail) ← elements steps body
        return (.arr items, tail)
    | '\x7b' :: rest =>
      match skipSpace rest with
      | '\x7d' :: tail => .ok (.obj [], tail)
      | body => do
        let (pairs, tail) ← members steps body
        return (.obj (Members.ofPairs pairs), tail)
    | _ => scalar s

/-- Reads the items of an array from the first on, and the closing bracket. -/
def elements : Nat → List Char → Except Stop (List Json × List Char)
  | 0, s => .error (.complaint .expectingValue s)
  | steps + 1, s => do
    let (v, rest) ← value steps s
    match skipSpace rest with
    | ']' :: tail => return ([v], tail)
    | ',' :: tail => do
      let (items, tail) ← elements steps (skipSpace tail)
      return (v :: items, tail)
    | rest => .error (.complaint .expectingComma rest)

/-- Reads the members of an object from the first on, and the closing brace. -/
def members : Nat → List Char → Except Stop (List (String × Json) × List Char)
  | 0, s => .error (.complaint .expectingName s)
  | steps + 1, s => do
    let (name, rest) ← memberName s
    let rest ← colon rest
    let (v, rest) ← value steps rest
    match skipSpace rest with
    | '\x7d' :: tail => return ([(name, v)], tail)
    | ',' :: tail => do
      let (pairs, tail) ← members steps (skipSpace tail)
      return ((name, v) :: pairs, tail)
    | rest => .error (.complaint .expectingComma rest)

end

/-- Reads a text that is one value between blanks. Two steps for each character are enough: a call
that takes no character is always made by one that took some. -/
def readText (s : List Char) : Except Stop Json :=
  match s with
  | '\ufeff' :: _ => .error (.complaint .byteOrderMark s)
  | _ => do
    let (v, rest) ← value (2 * s.length + 2) (skipSpace s)
    match skipSpace rest with
    | [] => return v
    | rest => .error (.complaint .extraData rest)

/-! ## Positions -/

/-- Why a text is not JSON, with the offset of the fault in it. -/
inductive ParseFault
  | malformed (complaint : Complaint) (line column offset : Nat)
  | tooManyDigits (count : Nat)
  deriving DecidableEq, Repr

/-- Where offset `n` lies in a text: its line and column, both counted from one. -/
def lineAndColumn (s : List Char) (n : Nat) : Nat × Nat :=
  let before := s.take n
  (before.count '\n' + 1, (before.reverse.takeWhile (· != '\n')).length + 1)

/-- The fault that a stop means in the text `s`. -/
def Stop.inText (s : List Char) : Stop → ParseFault
  | .complaint c rest =>
    let offset := s.length - rest.length
    let (line, column) := lineAndColumn s offset
    .malformed c line column offset
  | .tooManyDigits count => .tooManyDigits count

/-- Reads a JSON text. -/
def parse (text : String) : Except ParseFault Json :=
  (readText text.toList).mapError (·.inText text.toList)

end Staging.Json
