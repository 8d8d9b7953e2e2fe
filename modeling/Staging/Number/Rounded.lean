import Staging.Number.Double

/-!
# Rounding to decimal places

The exact value of a double is rounded to a number of decimal places, a half to the even neighbour,
and the decimal is read back as the nearest double.
-/

namespace Staging.Double

/-- The double nearest to `x` rounded to `places` decimal places. -/
def rounded (places : Nat) (x : Double) : Double :=
  if x.isFinite then
    .ofDecimal x.negative (roundHalfEven (x.units * Nat.pow 10 places) (Nat.pow 2 1074))
      (-(places : Int))
  else x

end Staging.Double
