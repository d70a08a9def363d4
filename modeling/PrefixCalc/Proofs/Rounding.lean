import PrefixCalc.Proofs.Numeral.Literal

/-!
# PrefixCalc.Proofs.Rounding

Operands are correctly rounded.

* `readOperand_rounds`: a word that starts with a literal counts for the magnitude nearest the exact
  value of the literal, ties to the even significand, and has the sign of the literal.
-/

namespace PrefixCalc

open Grammar Magnitude

theorem Unsigned.length_digits_le (s : Option Sign) (whole : List Char)
    (fraction : Option (List Char)) (exponent : Option ExponentPart) :
    (whole ++ fraction.getD []).length ≤
      (Sign.spelling s ++ spelling (.decimal whole fraction exponent)).length := by
  simp only [spelling, List.length_append]
  cases fraction with
  | none =>
    rw [Option.getD_none, List.length_nil]
    omega
  | some ds =>
    rw [Option.getD_some, fractionSpelling, List.length_cons]
    omega

/-- The exact value of a literal, however many digits it has and however large its exponent is,
decides what is read: too large a value is infinite, and any other one is rounded to its only
nearest magnitude, which is zero up to half the least one. The sign is always that of the literal,
on zero too. -/
theorem readOperand_rounds {t : String} {p ds : List Char} {negative : Bool} {q : ℚ}
    (hp : IsLongest (afterPadding t) p) (hq : Literal p negative ds q) (hlen : p.length < 60000) :
    ((2 : ℚ) ^ 1024 - 2 ^ 970 ≤ q → readOperand t = .infinite negative) ∧
      (q < (2 : ℚ) ^ 1024 - 2 ^ 970 → ∃ m, readOperand t = .finite negative m ∧
        IsNearest q m ∧ ∀ n, IsNearest q n → n = m) ∧
      (q ≤ (2 : ℚ) ^ (-1075 : ℤ) → readOperand t = .finite negative .zero) := by
  cases hq with
  | @decimal s whole fraction exponent hwf =>
    have hread := readOperand_decimal hwf hp
    have hnearest := Unsigned.nearest?_writtenDecimal whole fraction exponent hwf.isDigit
      ((Unsigned.length_digits_le s whole fraction exponent).trans_lt hlen)
    generalize Unsigned.writtenDecimal whole fraction exponent = written at *
    generalize Unsigned.toDecimal whole fraction exponent = read at *
    rw [hread]
    refine ⟨?_, ?_, ?_⟩
    · intro hlarge
      rw [Decimal.nearest?_eq_none_iff.mpr hlarge] at hnearest
      exact Binary64.rounded_of_none hnearest.symm _
    · intro hlt
      cases hm : written.nearest? with
      | none => exact absurd hlt (not_lt.mpr (Decimal.nearest?_eq_none_iff.mp hm))
      | some m =>
        refine ⟨m, Decimal.toBinary64_of_nearest? _ (hnearest ▸ hm), Decimal.isNearest hm, ?_⟩
        intro n hn
        have hnm := Decimal.nearest?_eq_some_iff.mpr ⟨hlt, hn⟩
        rw [hm] at hnm
        exact (Option.some.inj hnm).symm
    · intro hsmall
      rw [Decimal.nearest?_of_le hsmall] at hnearest
      exact Decimal.toBinary64_of_nearest? _ hnearest.symm

/-- A literal that underflows keeps its sign, and what stands behind it does not count. -/
theorem readOperand_rounds_underflow :
    IsLongest (afterPadding "-1e-400 px") ['-', '1', 'e', '-', '4', '0', '0'] ∧
      Literal ['-', '1', 'e', '-', '4', '0', '0'] true ['1'] (1 * 10 ^ (-400 : ℤ)) ∧
      readOperand "-1e-400 px" = .finite true .zero := by
  have hscan : Numeral.scan (afterPadding "-1e-400 px") = some
      ({ sign := some .minus
         unsigned := .decimal ['1'] none
          (some { mark := 'e', sign := some .minus, digits := ['4', '0', '0'] }) },
        [' ', 'p', 'x']) := by decide
  have hp := isLongest_of_scan hscan
  have hq := Literal.decimal (some .minus) (Numeral.scan_wellFormed hscan)
  have hvalue : (Unsigned.writtenDecimal ['1'] none
      (some { mark := 'e', sign := some .minus, digits := ['4', '0', '0'] })).toRat =
        1 * 10 ^ (-400 : ℤ) := by
    rw [Decimal.toRat]
    congr
  rw [hvalue] at hq
  have hsmall : 1 * (10 : ℚ) ^ (-400 : ℤ) ≤ 2 ^ (-1075 : ℤ) := by
    have hpow : 2 ^ 1075 ≤ 10 ^ 400 := by decide +kernel
    rw [one_mul, zpow_neg, zpow_neg]
    exact inv_anti₀ (by positivity) (by exact_mod_cast hpow)
  exact ⟨hp, hq, (readOperand_rounds hp hq (by decide)).2.2 hsmall⟩

end PrefixCalc
