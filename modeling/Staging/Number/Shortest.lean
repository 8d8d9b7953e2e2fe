import Staging.Number.Double

/-!
# The shortest decimal that reads back

For a finite double other than zero: the decimal numeral of fewest digits that lies nearer to it
than to any other double, and of those the one nearest to the exact value. One after the other the
grids of decimals with one, two, … seventeen digits are searched; on a grid only the two neighbours
of the exact value can do, because if any point of the grid lies close enough, one of them does.
-/

namespace Staging

/-- The number `coefficient * 10 ^ exponent`. -/
structure Decimal where
  coefficient : Nat
  exponent : Int
  deriving DecidableEq, Repr

namespace Double

/-- Decimal places of the finest grid: all doubles, and the halves of their distances, are compared
with decimals in units of `2 ^ -1076 * 10 ^ -345`. -/
def gridPlaces : Nat := 345

/-- The exact magnitude in grid units. -/
def gridValue (x : Double) : Nat := 4 * x.units * Nat.pow 10 gridPlaces

/-- Half the distance to the next double, in grid units. -/
def gridAbove (x : Double) : Nat := 2 * Nat.pow 2 x.place * Nat.pow 10 gridPlaces

/-- Half the distance to the double before, in grid units: the binade below is twice as fine. -/
def gridBelow (x : Double) : Nat :=
  if x.significand = Nat.pow 2 52 ∧ 0 < x.place then Nat.pow 2 x.place * Nat.pow 10 gridPlaces
  else 2 * Nat.pow 2 x.place * Nat.pow 10 gridPlaces

/-- Whether a magnitude in grid units rounds to `x`: the midpoints do when the rank of `x` is even.
-/
def roundsTo (x : Double) (g : Nat) : Bool :=
  if x.rank % 2 = 0 then x.gridValue ≤ g + x.gridBelow && g ≤ x.gridValue + x.gridAbove
  else x.gridValue < g + x.gridBelow && g < x.gridValue + x.gridAbove

/-- Of the two multiples of `cell` around `x`, the one that rounds to `x`, as a count of cells; of
two such the nearer, and of two equally near ones the even. -/
def neighbour? (x : Double) (cell : Nat) : Option Nat :=
  let low := x.gridValue / cell
  let below := x.gridValue % cell
  match x.roundsTo (low * cell), x.roundsTo ((low + 1) * cell) with
  | false, false => none
  | true, false => some low
  | false, true => some (low + 1)
  | true, true =>
    if 2 * below < cell then some low
    else if cell < 2 * below then some (low + 1)
    else some (low + low % 2)

/-- How many decimal digits the whole part of the magnitude has, in units of `10 ^ -345`. -/
def gridDigits (x : Double) : Nat :=
  (Nat.toDigits 10 (x.gridValue / Nat.pow 2 1076)).length

/-- The decimal on the grid of `count` digits that rounds to `x`. -/
def onGrid? (x : Double) (digits count : Nat) : Option Decimal :=
  (x.neighbour? (Nat.pow 10 (digits - count) * Nat.pow 2 1076)).map fun c =>
    ⟨c, ((digits - count : Nat) : Int) - gridPlaces⟩

/-- The shortest decimal that rounds to `x`. Seventeen digits always do; the exact value stands for
the search's end. -/
def shortest (x : Double) : Decimal :=
  let digits := x.gridDigits
  match (List.range 17).findSome? fun k => x.onGrid? digits (k + 1) with
  | some d => d
  | none => ⟨x.units * Nat.pow 5 1074, -1074⟩

end Double

end Staging
