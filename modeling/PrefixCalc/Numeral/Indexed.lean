import PrefixCalc.Numeral.Scan
import PrefixCalc.Text.Access

/-!
# PrefixCalc.Numeral.Indexed

The numeral at the start of a text, found by counting bytes. An index moves over the sign, the
digits, the point and the exponent; what is in front of it in the end is parsed as a whole. Each
access to the text checks its index, and all indices are part of the result.

* `parse?`   — a text that is a numeral as a whole, or one of the words for values without digits.
* `readBytes` — the search by bytes.
-/

namespace PrefixCalc
namespace Numeral

/-! ## Whole texts -/

/-- The value of a word in any case. -/
def wordValue? (negative : Bool) (cs : List Char) : Option Binary64 :=
  match String.ofList (cs.map Char.toLower) with
  | "inf" => some (.infinite negative)
  | "infinity" => some (.infinite negative)
  | "nan" => some .quietNaN
  | _ => none

def parse? (cs : List Char) : Option Binary64 :=
  let sign := scanSign cs
  let negative := Sign.isNegative sign.1
  match scanDecimal sign.2 with
  | some (u, []) => some (u.value negative)
  | _ => wordValue? negative sign.2

/-! ## The search -/

def countDigits (bytes : List UInt8) : Nat :=
  (bytes.takeWhile fun b => (Char.ofUInt8 b).isDigit).length

def digitsFrom (bytes : List UInt8) (i : Nat) : Except IndexFault Nat :=
  (Text.bytesFrom bytes i).map countDigits

def signWidth (bytes : List UInt8) (i : Nat) : Nat :=
  if Text.charAt? bytes i = some '+' ∨ Text.charAt? bytes i = some '-' then 1 else 0

/-- The digits on both sides of the point, and the indices behind the ones, the point, if there is
one, and the whole. -/
structure Mantissa where
  wholeDigits : Nat
  wholeEnd : Nat
  pointEnd : Option Nat
  places : Nat
  stop : Nat

namespace Mantissa

def digits (m : Mantissa) : Nat := m.wholeDigits + m.places

def indices (m : Mantissa) : List Nat := m.wholeEnd :: m.pointEnd.toList ++ [m.stop]

def pointless (start wholeDigits : Nat) : Mantissa :=
  { wholeDigits
    wholeEnd := start + wholeDigits
    pointEnd := none
    places := 0
    stop := start + wholeDigits }

/-- A point without a digit on either side is not passed. -/
def pointed (start wholeDigits places : Nat) : Mantissa :=
  let wholeEnd := start + wholeDigits
  { wholeDigits, wholeEnd, places
    pointEnd := some (wholeEnd + 1)
    stop := if 0 < wholeDigits + places then wholeEnd + (1 + places) else wholeEnd }

theorem pointed_stop {start k l : Nat} (h : 0 < (pointed start k l).digits) :
    (pointed start k l).stop = start + k + (1 + l) := if_pos h

end Mantissa

def findMantissa (bytes : List UInt8) (start : Nat) : Except IndexFault Mantissa := do
  let wholeDigits ← digitsFrom bytes start
  if Text.charAt? bytes (start + wholeDigits) = some '.' then
    let places ← digitsFrom bytes (start + wholeDigits + 1)
    return .pointed start wholeDigits places
  else return .pointless start wholeDigits

/-- The digits behind the mark of an exponent. The index that is wanted for them is cut down to the
length of the text. -/
structure ExponentDigits where
  wanted : Nat
  start : Nat
  count : Nat

def findExponent (bytes : List UInt8) (i : Nat) : Except IndexFault (Option ExponentDigits) :=
  if Text.charAt? bytes i = some 'e' ∨ Text.charAt? bytes i = some 'E' then do
    let wanted := i + 1 + signWidth bytes (i + 1)
    let start := min wanted bytes.length
    let count ← digitsFrom bytes start
    return some { wanted, start, count }
  else return none

/-- The index behind an exponent that has digits, and the one in front of it otherwise. -/
def exponentStop (i : Nat) : Option ExponentDigits → Nat
  | some e => if 0 < e.count then e.start + e.count else i
  | none => i

section Find

variable {bytes : List UInt8} {i k l : Nat}

theorem findMantissa_pointed (hk : digitsFrom bytes i = .ok k)
    (hpoint : Text.charAt? bytes (i + k) = some '.') (hl : digitsFrom bytes (i + k + 1) = .ok l) :
    findMantissa bytes i = .ok (.pointed i k l) := by
  simp only [findMantissa, hk, bind, Except.bind, if_pos hpoint, hl]
  rfl

theorem findMantissa_pointless (hk : digitsFrom bytes i = .ok k)
    (hpoint : Text.charAt? bytes (i + k) ≠ some '.') :
    findMantissa bytes i = .ok (.pointless i k) := by
  simp only [findMantissa, hk, bind, Except.bind, if_neg hpoint]
  rfl

theorem findExponent_marked
    (hmark : Text.charAt? bytes i = some 'e' ∨ Text.charAt? bytes i = some 'E')
    (hle : i + 1 + signWidth bytes (i + 1) ≤ bytes.length)
    (hk : digitsFrom bytes (i + 1 + signWidth bytes (i + 1)) = .ok k) :
    findExponent bytes i = .ok (some {
      wanted := i + 1 + signWidth bytes (i + 1)
      start := i + 1 + signWidth bytes (i + 1)
      count := k }) := by
  simp only [findExponent, if_pos hmark, Nat.min_eq_left hle, hk, bind, Except.bind]
  rfl

theorem findExponent_unmarked
    (hmark : ¬ (Text.charAt? bytes i = some 'e' ∨ Text.charAt? bytes i = some 'E')) :
    findExponent bytes i = .ok none := by
  rw [findExponent, if_neg hmark]
  rfl

end Find

/-! ## The whole reading -/

inductive Reading where
  | infinity (signEnd : Nat) (first : UInt8)
  | noDigit (signEnd : Nat) (mantissa : Mantissa)
  | literal (signEnd : Nat) (mantissa : Mantissa) (exponent : Option ExponentDigits) (stop : Nat)
      (spelling : String)

namespace Reading

def indices : Reading → List Nat
  | infinity signEnd _ => [signEnd]
  | noDigit signEnd m => signEnd :: m.indices
  | literal signEnd m exponent stop _ =>
    signEnd :: m.indices ++ (exponent.toList.flatMap fun e => [e.wanted, e.start]) ++ [stop]

def mantissa? : Reading → Option Mantissa
  | infinity _ _ => none
  | noDigit _ m => some m
  | literal _ m _ _ _ => some m

def exponent? : Reading → Option ExponentDigits
  | literal _ _ exponent _ _ => exponent
  | _ => none

def spelling? : Reading → Option String
  | literal _ _ _ _ spelling => some spelling
  | _ => none

def value : Reading → Option Binary64
  | infinity _ first => some (.infinite (Char.ofUInt8 first == '-'))
  | noDigit _ _ => none
  | literal _ _ _ _ spelling => parse? spelling.toList

end Reading

def readBytes (t : String) : Except IndexFault Reading := do
  let bytes := Text.encode t
  let signEnd := signWidth bytes 0
  let unsigned ← Text.textFrom t signEnd
  if Unsigned.infinityWord.isPrefixOf unsigned.toList then
    return .infinity signEnd (← Text.byteAt bytes 0)
  else
    let mantissa ← findMantissa bytes signEnd
    if mantissa.digits = 0 then
      return .noDigit signEnd mantissa
    else
      let exponent ← findExponent bytes mantissa.stop
      let stop := exponentStop mantissa.stop exponent
      return .literal signEnd mantissa exponent stop (← Text.textUpTo t stop)

section Read

variable {t u : String} {m : Mantissa} (hu : Text.textFrom t (signWidth (Text.encode t) 0) = .ok u)

include hu

theorem readBytes_infinity (hword : Unsigned.infinityWord.isPrefixOf u.toList = true) {b : UInt8}
    (hb : Text.byteAt (Text.encode t) 0 = .ok b) :
    readBytes t = .ok (.infinity (signWidth (Text.encode t) 0) b) := by
  simp only [readBytes, hu, bind, Except.bind, if_pos hword, hb]
  rfl

variable (hword : Unsigned.infinityWord.isPrefixOf u.toList = false)
  (hm : findMantissa (Text.encode t) (signWidth (Text.encode t) 0) = .ok m)

include hword hm

theorem readBytes_noDigit (hdigits : m.digits = 0) :
    readBytes t = .ok (.noDigit (signWidth (Text.encode t) 0) m) := by
  simp only [readBytes, hu, bind, Except.bind, hword, hm, if_pos hdigits]
  rfl

theorem readBytes_literal (hdigits : m.digits ≠ 0) {e : Option ExponentDigits}
    (he : findExponent (Text.encode t) m.stop = .ok e) {s : String}
    (hs : Text.textUpTo t (exponentStop m.stop e) = .ok s) :
    readBytes t =
      .ok (.literal (signWidth (Text.encode t) 0) m e (exponentStop m.stop e) s) := by
  simp only [readBytes, hu, bind, Except.bind, hword, hm, if_neg hdigits, he, hs]
  rfl

end Read

end Numeral
end PrefixCalc
