import PrefixCalc.Decimal.Shortest

/-!
# PrefixCalc.Decimal.Layout

How a number is written once its digits are chosen. The digits and the place of the point come from
`Magnitude.shortest`; a `Layout` holds every decision of a format, and `Layout.write` applies it.

* `positional` — the digits with the point in front of, inside or behind them.
* `scientific` — one digit before the point, and an exponent.
-/

namespace PrefixCalc

/-- A run of zeros. -/
def zeros (n : Nat) : List Char := List.replicate n '0'

/-- The decisions of a number format. -/
structure Layout where
  /-- The least magnitude that is written positionally. -/
  positionalFrom : Magnitude
  /-- The least magnitude above those that are written positionally. -/
  positionalBelow : Magnitude
  /-- Whether an integral value in positional form ends in a point and a zero. -/
  pointZero : Bool
  /-- Whether an exponent that is not negative has a plus sign. -/
  exponentPlus : Bool
  /-- Whether negative zero shows its sign. -/
  zeroSign : Bool
  infinity : String

namespace Layout

/-- The digits `ds` in positional form, where the value is `0.ds` times `10 ^ point`. -/
def positional (f : Layout) (ds : List Char) (point : Int) : List Char :=
  if point ≤ 0 then '0' :: '.' :: (zeros (-point).toNat ++ ds)
  else if point < ds.length then ds.take point.toNat ++ '.' :: ds.drop point.toNat
  else ds ++ zeros (point.toNat - ds.length) ++ (if f.pointZero then ['.', '0'] else [])

/-- An exponent with its sign, for a number whose point stands after its first digit. -/
def exponent (f : Layout) (e : Int) : List Char :=
  if e < 0 then '-' :: Nat.toDigits 10 e.natAbs
  else (if f.exponentPlus then ['+'] else []) ++ Nat.toDigits 10 e.natAbs

/-- The digits `ds` in scientific form, where the value is `0.ds` times `10 ^ point`. -/
def scientific (f : Layout) (ds : List Char) (point : Int) : List Char :=
  ds.take 1 ++ (if ds.length ≤ 1 then [] else '.' :: ds.drop 1) ++ 'e' :: f.exponent (point - 1)

/-- Whether a magnitude lies between the two ends of positional writing. -/
def isPositional (f : Layout) (m : Magnitude) : Bool :=
  decide (f.positionalFrom.units ≤ m.units) && decide (m.units < f.positionalBelow.units)

/-- A magnitude other than zero. -/
def magnitude (f : Layout) (m : Magnitude) : List Char :=
  let d := m.shortest
  if f.isPositional m then f.positional d.numerals d.point else f.scientific d.numerals d.point

def sign (negative : Bool) : List Char := if negative then ['-'] else []

def chars (f : Layout) : Binary64 → List Char
  | .nan _ => ['N', 'a', 'N']
  | .infinite s => sign s ++ f.infinity.toList
  | .finite s m =>
    if m.isZero then sign (s && f.zeroSign) ++ '0' :: (if f.pointZero then ['.', '0'] else [])
    else sign s ++ f.magnitude m

/-- A number as text. -/
def write (f : Layout) (x : Binary64) : String := String.ofList (f.chars x)

end Layout
end PrefixCalc
