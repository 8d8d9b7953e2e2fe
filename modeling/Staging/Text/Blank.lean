import Staging.Text.Stride

/-!
# Blank characters

White space in the wide sense: the Unicode spaces and the separators among the control characters.
-/

namespace Staging.Text

/-- The white space characters. -/
def blanks : List Stride := [
  ⟨0x09, 0x0D, 1⟩, ⟨0x1C, 0x20, 1⟩, ⟨0x85, 0x85, 1⟩, ⟨0xA0, 0xA0, 1⟩, ⟨0x1680, 0x1680, 1⟩,
  ⟨0x2000, 0x200A, 1⟩, ⟨0x2028, 0x2029, 1⟩, ⟨0x202F, 0x202F, 1⟩, ⟨0x205F, 0x205F, 1⟩,
  ⟨0x3000, 0x3000, 1⟩]

def isBlank (c : Char) : Bool := onStrides blanks c

/-- The first run of characters that are not blank, if there is one. -/
def firstWord? (s : List Char) : Option (List Char) :=
  match (s.dropWhile isBlank).takeWhile (!isBlank ·) with
  | [] => none
  | word => some word

/-- A list without the elements at either end that satisfy `p`. -/
def trimBy (p : Char → Bool) (s : List Char) : List Char :=
  ((s.dropWhile p).reverse.dropWhile p).reverse

end Staging.Text
