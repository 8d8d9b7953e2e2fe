/-!
# Classes of code points

A property of characters is data: strides of code points, and one membership test. The tables of
the other modules in this folder list Unicode 14.0 properties this way, and a law about a property
is a law about its list.
-/

namespace Staging.Text

/-- The code points `first`, `first + step`, `first + 2 * step`, … up to `last`. -/
structure Stride where
  first : Nat
  last : Nat
  step : Nat
  deriving DecidableEq, Repr

/-- Whether code point `n` lies on the stride. -/
def Stride.holds (s : Stride) (n : Nat) : Bool :=
  s.first ≤ n && n ≤ s.last && (n - s.first) % s.step == 0

/-- Whether `c` lies on one of the strides. -/
def onStrides (table : List Stride) (c : Char) : Bool :=
  table.any (·.holds c.toNat)

end Staging.Text
