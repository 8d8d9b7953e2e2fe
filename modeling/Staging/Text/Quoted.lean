import Staging.Text.Hex
import Staging.Text.Printable

/-!
# Quoted text

Text shown between quotes on one line: in messages about the text, and for strings inside a list
or an object that is shown plainly. Single quotes are used unless the text holds a single quote and
no double quote; unprintable characters are shown by code point.
-/

namespace Staging.Text

/-- The shown form of one character between quotes `q`. -/
def quoteChar (q : Char) (c : Char) : List Char :=
  if c = '\\' then ['\\', '\\']
  else if c = q then ['\\', c]
  else if c = '\n' then ['\\', 'n']
  else if c = '\r' then ['\\', 'r']
  else if c = '\t' then ['\\', 't']
  else if isPrintable c then [c]
  else if c.toNat < 0x100 then '\\' :: 'x' :: hex 2 c.toNat
  else if c.toNat < 0x10000 then '\\' :: 'u' :: hex 4 c.toNat
  else '\\' :: 'U' :: hex 8 c.toNat

/-- The quote that surrounds `s`. -/
def quoteFor (s : List Char) : Char :=
  if s.contains '\x27' && !s.contains '\x22' then '\x22' else '\x27'

/-- Text between quotes. -/
def quoteChars (s : List Char) : List Char :=
  quoteFor s :: s.flatMap (quoteChar (quoteFor s)) ++ [quoteFor s]

/-- Text between quotes, as a string. -/
def quote (s : String) : String :=
  String.ofList (quoteChars s.toList)

end Staging.Text
