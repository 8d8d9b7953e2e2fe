/-!
# Doubles

Double precision numbers by their place on the number line. The doubles of one sign are counted
from zero upward, so a double is a sign and a rank; the finite ones come first, infinity next, and
what lies beyond is not a number. Comparing magnitudes is comparing ranks, and a finite double is a
whole number of units of `2 ^ -1074`, so all arithmetic here is on naturals. Rounding is to the
nearest double, of two equally near ones to the one of even rank.
-/

namespace Staging

/-- A double: its sign, and how many doubles of that sign lie nearer to zero. -/
structure Double where
  negative : Bool
  rank : Nat
  deriving DecidableEq, Repr

namespace Double

/-- The rank of infinity: 2046 binades of normal numbers, and one of subnormal ones, come before. -/
def infinityRank : Nat := 2047 * Nat.pow 2 52

def zero : Double := ⟨false, 0⟩

def infinity (negative : Bool) : Double := ⟨negative, infinityRank⟩

def nan : Double := ⟨false, infinityRank + 1⟩

instance : Inhabited Double := ⟨zero⟩

def isFinite (x : Double) : Bool := x.rank < infinityRank

def isInfinite (x : Double) : Bool := x.rank == infinityRank

def isNaN (x : Double) : Bool := infinityRank < x.rank

def isZero (x : Double) : Bool := x.rank == 0

/-! ## Exact value -/

/-- The binary place of the last digit of a finite double, counted from that of the smallest one. -/
def place (x : Double) : Nat := x.rank / Nat.pow 2 52 - 1

/-- The digits of a finite double as a natural number: from rank `2 ^ 52` on they begin with a one
that is not stored. -/
def significand (x : Double) : Nat :=
  if x.rank < Nat.pow 2 52 then x.rank else Nat.pow 2 52 + x.rank % Nat.pow 2 52

/-- The magnitude of a finite double in units of `2 ^ -1074`. -/
def units (x : Double) : Nat := x.significand * Nat.pow 2 x.place

/-- The whole part of a finite double. -/
def truncate (x : Double) : Int :=
  let whole : Nat := x.units / Nat.pow 2 1074
  if x.negative then -whole else whole

/-- Whether the magnitude of `x` is greater than `limit`; never when either is not a number. -/
def exceeds (x limit : Double) : Bool :=
  !x.isNaN && !limit.isNaN && ((limit.negative && !limit.isZero) || limit.rank < x.rank)

/-! ## Rounding -/

/-- The quotient to the nearest natural number, a half to the even neighbour. -/
def roundHalfEven (n d : Nat) : Nat :=
  let q := n / d
  let r := n % d
  if 2 * r < d then q else if d < 2 * r then q + 1 else q + q % 2

/-- The rank of the double nearest to `n / d`: the quotient in units is rounded to 53 binary digits,
and a carry out of them moves into the next binade by itself. -/
def nearestRank (n d : Nat) : Nat :=
  let scaled := n * Nat.pow 2 1074
  let place := Nat.log2 (scaled / d) - 52
  min infinityRank (roundHalfEven scaled (d * Nat.pow 2 place) + place * Nat.pow 2 52)

/-- The double nearest to an integer, if it is not too large for one. -/
def ofInt? (n : Int) : Option Double :=
  let rank := nearestRank n.natAbs 1
  if rank < infinityRank then some ⟨n < 0, rank⟩ else none

/-- The double nearest to `± coefficient * 10 ^ exponent`. The first two cases give what the last
would, without computing a power of ten that no double can tell from zero or infinity. -/
def ofDecimal (negative : Bool) (coefficient : Nat) (exponent : Int) : Double :=
  if coefficient = 0 ∨ exponent < 0 ∧ coefficient.log2 + 1100 < 3 * exponent.natAbs then
    ⟨negative, 0⟩
  else if 400 < exponent then infinity negative
  else if 0 ≤ exponent then ⟨negative, nearestRank (coefficient * Nat.pow 10 exponent.natAbs) 1⟩
  else ⟨negative, nearestRank coefficient (Nat.pow 10 exponent.natAbs)⟩

/-! ## Machine floats -/

/-- The machine float with these bits. -/
def toFloat (x : Double) : Float :=
  Float.ofBits ((if x.negative then Nat.pow 2 63 else 0) + x.rank).toUInt64

/-- The double with the bits of a machine float. -/
def ofFloat (x : Float) : Double :=
  let bits := x.toBits.toNat
  if infinityRank < bits % Nat.pow 2 63 then nan else ⟨Nat.pow 2 63 ≤ bits, bits % Nat.pow 2 63⟩

end Double

end Staging
