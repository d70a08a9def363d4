import PrefixCalc.Binary64.Rounding

/-!
# PrefixCalc.Decimal.Basic

Decimals `digits * 10 ^ exp`, and the binary64 value nearest to one. The value of a decimal is the
quotient `unitNumer / unitDenom` counted in units, so that it is rounded exactly once.
-/

namespace PrefixCalc

structure Decimal where
  digits : Nat
  exp : Int
  deriving DecidableEq

namespace Decimal

/-- The numerator of the value, counted in units. -/
def unitNumer (d : Decimal) : Nat := d.digits * Nat.pow 10 d.exp.toNat * Magnitude.unitsPerOne

/-- The denominator of the value, counted in units. -/
def unitDenom (d : Decimal) : Nat := Nat.pow 10 (-d.exp).toNat

theorem unitDenom_pos (d : Decimal) : 0 < d.unitDenom := Nat.pow_pos (by decide)

/-- The magnitude nearest the decimal, if it is not too large for one. -/
def nearest? (d : Decimal) : Option Magnitude := Magnitude.nearest? d.unitNumer d.unitDenom

/-- The signed decimal as a binary64 value: correctly rounded, too large ones infinite, and the sign
kept on zero. -/
def toBinary64 (negative : Bool) (d : Decimal) : Binary64 :=
  .rounded negative d.unitNumer d.unitDenom

/-- Moves trailing zeros of the digits into the exponent. -/
def dropZeros (d : Decimal) : Decimal :=
  if _h : 0 < d.digits ∧ d.digits % 10 = 0 then
    dropZeros { digits := d.digits / 10, exp := d.exp + 1 }
  else d
termination_by d.digits
decreasing_by exact Nat.div_lt_self _h.1 (by decide)

/-- The digits as they are written, most significant first. -/
def numerals (d : Decimal) : List Char := Nat.toDigits 10 d.digits

/-- Where the point stands, counted from the left end of the digits: the value is `0.d₁d₂…` times
ten to this power. -/
def point (d : Decimal) : Int := d.numerals.length + d.exp

end Decimal
end PrefixCalc
