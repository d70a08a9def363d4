import PrefixCalc.Decimal.Layout

/-!
# PrefixCalc.Result

How a result is written: positionally from `1e-6` up to but not including `1e21`, otherwise with an
exponent that always has a sign. An integral value has no point, and the two zeros look the same.
-/

namespace PrefixCalc

def resultLayout : Layout where
  positionalFrom := { sig := 0x10C6F7A0B5ED8D, exp := 1002 }
  positionalBelow := { sig := 0x1B1AE4D6E2EF50, exp := 1091 }
  pointZero := false
  exponentPlus := true
  zeroSign := false
  infinity := "Infinity"

def writeResult (x : Binary64) : String := resultLayout.write x

theorem writeResult_nan (signaling : Bool) : writeResult (.nan signaling) = "NaN" := rfl

theorem writeResult_infinite (s : Bool) :
    writeResult (.infinite s) = if s then "-Infinity" else "Infinity" := by
  cases s <;> decide +kernel

/-- The sign of zero is not written. -/
theorem writeResult_zero (s : Bool) : writeResult (.finite s .zero) = "0" := by
  cases s <;> rfl

end PrefixCalc
