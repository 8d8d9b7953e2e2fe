import Staging.Text.Hex
import Staging.Text.Printable

/-!
# Escapes in JSON strings

Three ways to write a character between the quotes of a JSON string. They agree on the quote, the
backslash and the named control characters, and differ in what else is escaped: the other control
characters only, everything beyond printable ASCII, or every unprintable character. The last is
written in capital letters and is used for the texts of records.
-/

namespace Staging.Json

open Text

/-- The letter of a short escape. -/
def shortEscape? (c : Char) : Option Char :=
  if c = '\x22' then some '\x22'
  else if c = '\\' then some '\\'
  else if c = '\n' then some 'n'
  else if c = '\r' then some 'r'
  else if c = '\t' then some 't'
  else if c = '\x08' then some 'b'
  else if c = '\x0C' then some 'f'
  else none

/-- A character by its code point, as one escape or as a pair for its surrogates. -/
def codeEscape (n : Nat) : List Char :=
  if n < 0x10000 then '\\' :: 'u' :: hex 4 n
  else '\\' :: 'u' :: hex 4 (highSurrogate n) ++ '\\' :: 'u' :: hex 4 (lowSurrogate n)

/-- A character with only control characters escaped. -/
def escapeControl (c : Char) : List Char :=
  match shortEscape? c with
  | some letter => ['\\', letter]
  | none => if c.toNat < 0x20 then codeEscape c.toNat else [c]

/-- A character in printable ASCII. -/
def escapeAscii (c : Char) : List Char :=
  match shortEscape? c with
  | some letter => ['\\', letter]
  | none => if 0x20 ≤ c.toNat ∧ c.toNat ≤ 0x7E then [c] else codeEscape c.toNat

/-! ## Unprintable characters -/

/-- An escape by code point, its digits in capital letters. -/
def capitalEscape (n : Nat) : List Char :=
  if n < 0x10000 then '\\' :: 'u' :: (hex 4 n).map Char.toUpper
  else '\\' :: 'u' :: (hex 4 (highSurrogate n)).map Char.toUpper
    ++ '\\' :: 'u' :: (hex 4 (lowSurrogate n)).map Char.toUpper

/-- A character in printable characters. -/
def escapeUnprintable (c : Char) : List Char :=
  match shortEscape? c with
  | some letter => ['\\', letter]
  | none => if isPrintable c then [c] else capitalEscape c.toNat

/-- Whether a character stands for itself between the quotes of a printable string. -/
def isVerbatim (c : Char) : Bool :=
  isPrintable c && c != '\x22' && c != '\\'

/-- Text in printable characters, for between the quotes of a JSON string. A text that needs no
escape, as most do, is taken over whole. -/
def escapeText (s : String) : String :=
  if s.toList.all isVerbatim then s
  else String.ofList (s.toList.flatMap escapeUnprintable)

end Staging.Json
