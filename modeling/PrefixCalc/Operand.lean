import PrefixCalc.Numeral.Scan
import PrefixCalc.Text.Blank

/-!
# PrefixCalc.Operand

How a word is read as an operand. Reading never fails: padding in front is passed over, then the
longest numeral counts, and whatever stands behind it is ignored. A word without a numeral is not a
number.
-/

namespace PrefixCalc

def readOperand (s : String) : Binary64 :=
  match Numeral.scan (s.toList.dropWhile Text.isPadding) with
  | some (n, _) => n.value
  | none => .quietNaN

theorem readOperand_of_scan {s : String} {n : Numeral} {rest : List Char}
    (h : Numeral.scan (s.toList.dropWhile Text.isPadding) = some (n, rest)) :
    readOperand s = n.value := by
  simp only [readOperand, h]

theorem readOperand_of_none {s : String}
    (h : Numeral.scan (s.toList.dropWhile Text.isPadding) = none) : readOperand s = .quietNaN := by
  simp only [readOperand, h]

end PrefixCalc
