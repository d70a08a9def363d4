import PrefixCalc.Decimal.Basic

/-!
# PrefixCalc.Decimal.Shortest

The fewest digits that identify a magnitude. For one, two, … digits the two neighbours of the exact
value on that decimal grid are rounded back; the first grid with a neighbour that comes back to the
magnitude wins, of two such neighbours the nearer one, and the upper one on a tie.

* `Magnitude.expansion` — the exact value, cut off 340 places after the point. Its leading digits
  are the lower neighbours on all grids.
* `Magnitude.shortestOn?` — the choice on one grid.
* `Magnitude.shortest` — the choice on the first grid that has one, without trailing zeros.
-/

namespace PrefixCalc
namespace Magnitude

/-- Places kept after the point: the least magnitude has its first digit at place 324, and 16 more
digits follow it. -/
def places : Nat := 340

/-- The value times `10 ^ places`, without its fraction. -/
def expansion (m : Magnitude) : Nat := m.units * Nat.pow 10 places / unitsPerOne

/-- The number of digits of the expansion. -/
def width (m : Magnitude) : Nat := (Nat.toDigits 10 m.expansion).length

/-- The greatest decimal of `n` digits that is at most the value. -/
def below (m : Magnitude) (n : Nat) : Decimal :=
  { digits := m.expansion / Nat.pow 10 (m.width - n), exp := ((m.width - n : Nat) : Int) - places }

/-- The next decimal on the same grid. -/
def above (m : Magnitude) (n : Nat) : Decimal :=
  { m.below n with digits := (m.below n).digits + 1 }

/-- Whether the value is at or beyond the middle between its two neighbours. -/
def upperHalf (m : Magnitude) (n : Nat) : Bool :=
  decide ((2 * (m.below n).digits + 1) * Nat.pow 10 (m.width - n) * unitsPerOne ≤
    2 * (m.units * Nat.pow 10 places))

/-- The decimal of at most `n` digits that stands for the magnitude, if one of the two neighbours on
that grid rounds back to it. -/
def shortestOn? (m : Magnitude) (n : Nat) : Option Decimal :=
  if (m.below n).nearest? = some m then
    if (m.above n).nearest? = some m ∧ m.upperHalf n = true then some (m.above n)
    else some (m.below n)
  else if (m.above n).nearest? = some m then some (m.above n)
  else none

/-- The exact value as a decimal: a unit is `5 ^ 1074` times `10 ^ (-1074)`. -/
def exactDecimal (m : Magnitude) : Decimal := { digits := m.units * Nat.pow 5 1074, exp := -1074 }

/-- The shortest decimal that rounds back to the magnitude. -/
def shortest (m : Magnitude) : Decimal :=
  (((List.range' 1 17).findSome? m.shortestOn?).getD m.exactDecimal).dropZeros

end Magnitude
end PrefixCalc
