import PrefixCalc.Decimal.Basic

/-!
# PrefixCalc.Numeral.Basic

Numerals: an optional sign, then either the word for infinity or a decimal literal with an optional
fraction and an optional exponent.

* `Numeral.spelling` — the text of a numeral, character by character.
* `Numeral.WellFormed` — the grammar: digits where digits belong, a digit in front of or behind the
  point, and a digit in every exponent.
* `Numeral.value` — the binary64 value nearest to what the numeral denotes.
-/

namespace PrefixCalc

inductive Sign where
  | plus
  | minus
  deriving DecidableEq

namespace Sign

def char : Sign → Char
  | .plus => '+'
  | .minus => '-'

def spelling : Option Sign → List Char
  | none => []
  | some s => [s.char]

def isNegative : Option Sign → Bool
  | some .minus => true
  | _ => false

end Sign

/-- The exponent of a decimal literal, with the letter that marks it. -/
structure ExponentPart where
  mark : Char
  sign : Option Sign
  digits : List Char
  deriving DecidableEq

namespace ExponentPart

def spelling (e : ExponentPart) : List Char := e.mark :: (Sign.spelling e.sign ++ e.digits)

/-- One more digit of an exponent. An exponent that has passed 65535 grows no further. -/
def grow (e : Nat) (c : Char) : Nat := if e < 65536 then 10 * e + (c.toNat - '0'.toNat) else e

def magnitude (e : ExponentPart) : Nat := e.digits.foldl grow 0

def value (e : ExponentPart) : Int :=
  if Sign.isNegative e.sign then -e.magnitude else e.magnitude

structure WellFormed (e : ExponentPart) : Prop where
  mark : e.mark = 'e' ∨ e.mark = 'E'
  digits : ∀ c ∈ e.digits, c.isDigit = true
  some_digit : e.digits ≠ []

end ExponentPart

/-- What follows the sign of a numeral. A fraction is there when a point is, even without digits. -/
inductive Unsigned where
  | infinity
  | decimal (whole : List Char) (fraction : Option (List Char)) (exponent : Option ExponentPart)
  deriving DecidableEq

namespace Unsigned

def infinityWord : List Char := ['I', 'n', 'f', 'i', 'n', 'i', 't', 'y']

def fractionSpelling : Option (List Char) → List Char
  | none => []
  | some ds => '.' :: ds

def spelling : Unsigned → List Char
  | .infinity => infinityWord
  | .decimal whole fraction exponent =>
    whole ++ fractionSpelling fraction ++ (exponent.map ExponentPart.spelling).getD []

/-- The digits of the literal as one number, and the power of ten of its last digit. -/
def toDecimal (whole : List Char) (fraction : Option (List Char))
    (exponent : Option ExponentPart) : Decimal :=
  let places := fraction.getD []
  { digits := Nat.ofDigitChars 10 (whole ++ places) 0
    exp := (exponent.map ExponentPart.value).getD 0 - places.length }

inductive WellFormed : Unsigned → Prop where
  | infinity : WellFormed .infinity
  | decimal {whole : List Char} {fraction : Option (List Char)} {exponent : Option ExponentPart} :
    (∀ c ∈ whole ++ fraction.getD [], c.isDigit = true) →
    whole ++ fraction.getD [] ≠ [] →
    (∀ e, exponent = some e → e.WellFormed) →
    WellFormed (.decimal whole fraction exponent)

def value (negative : Bool) : Unsigned → Binary64
  | .infinity => .infinite negative
  | .decimal whole fraction exponent =>
    (toDecimal whole fraction exponent).toBinary64 negative

end Unsigned

structure Numeral where
  sign : Option Sign
  unsigned : Unsigned
  deriving DecidableEq

namespace Numeral

def spelling (n : Numeral) : List Char := Sign.spelling n.sign ++ n.unsigned.spelling

def WellFormed (n : Numeral) : Prop := n.unsigned.WellFormed

def value (n : Numeral) : Binary64 := n.unsigned.value (Sign.isNegative n.sign)

end Numeral
end PrefixCalc
