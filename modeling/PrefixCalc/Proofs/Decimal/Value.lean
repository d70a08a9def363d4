import Mathlib.Algebra.Order.Field.Power
import Mathlib.Algebra.Order.Field.Rat
import Mathlib.Tactic.FieldSimp
import Mathlib.Tactic.Linarith
import Mathlib.Tactic.Positivity
import Mathlib.Tactic.Ring
import PrefixCalc.Decimal.Basic
import PrefixCalc.Proofs.Binary64.Nearest

/-!
# PrefixCalc.Proofs.Decimal.Value

The rational number that a decimal stands for.

* `nearest?_eq_of_toRat_eq`: decimals of the same value have the same nearest magnitude.
* `toRat_dropZeros`: trailing zeros do not matter.
* `point_bounds`: the point of a decimal that rounds to a magnitude other than zero stands near the
  digits, as it must for an exponent that is written out to be read back.
-/

namespace PrefixCalc
namespace Decimal

def toRat (d : Decimal) : ℚ := d.digits * 10 ^ d.exp

theorem toRat_nonneg (d : Decimal) : 0 ≤ d.toRat := by
  rw [toRat]
  positivity

theorem ten_zpow (e : ℤ) : (10 : ℚ) ^ e = 10 ^ e.toNat / 10 ^ (-e).toNat := by
  obtain ⟨n, rfl | rfl⟩ := e.eq_nat_or_neg
  · simp
  · simp

/-- The two ways to say what a decimal is worth. -/
theorem toRat_mul_unitDenom (d : Decimal) :
    d.toRat * Magnitude.unitsPerOne * d.unitDenom = d.unitNumer := by
  rw [toRat, unitNumer, unitDenom, ten_zpow, Nat.pow_eq, Nat.pow_eq]
  generalize Magnitude.unitsPerOne = u
  push_cast
  field_simp

theorem nearest?_eq_of_toRat_eq {d d' : Decimal} (h : d.toRat = d'.toRat) :
    d.nearest? = d'.nearest? := by
  apply Magnitude.nearest?_congr d.unitDenom_pos d'.unitDenom_pos
  have hcross : (d.unitNumer : ℚ) * d'.unitDenom = d'.unitNumer * d.unitDenom := by
    rw [← toRat_mul_unitDenom, ← toRat_mul_unitDenom, h]
    ring
  exact_mod_cast hcross

theorem toBinary64_eq_of_toRat_eq (negative : Bool) {d d' : Decimal} (h : d.toRat = d'.toRat) :
    d.toBinary64 negative = d'.toBinary64 negative := by
  have hn : Magnitude.nearest? d.unitNumer d.unitDenom =
      Magnitude.nearest? d'.unitNumer d'.unitDenom := nearest?_eq_of_toRat_eq h
  rw [toBinary64, toBinary64, Binary64.rounded, Binary64.rounded, hn]

theorem toBinary64_of_nearest? (negative : Bool) {d : Decimal} {m : Magnitude}
    (h : d.nearest? = some m) : d.toBinary64 negative = .finite negative m :=
  Binary64.rounded_of_some h negative

theorem toRat_dropZeros (d : Decimal) : d.dropZeros.toRat = d.toRat := by
  fun_induction dropZeros d with
  | case1 d h ih =>
    have hdigits : (d.digits : ℚ) = (d.digits / 10 : ℕ) * 10 := by
      exact_mod_cast (Nat.div_mul_cancel (Nat.dvd_of_mod_eq_zero h.2)).symm
    rw [ih, toRat, toRat, hdigits, zpow_add_one₀ (by norm_num)]
    ring
  | case2 d h => rfl

/-! ## Where the point stands -/

theorem length_numerals_pos (d : Decimal) : 0 < d.numerals.length := Nat.length_toDigits_pos

theorem digits_lt (d : Decimal) : d.digits < 10 ^ d.numerals.length :=
  (Nat.length_toDigits_le_iff (by decide) d.length_numerals_pos).mp (Nat.le_refl _)

theorem le_digits {d : Decimal} (h : 0 < d.digits) : 10 ^ (d.numerals.length - 1) ≤ d.digits := by
  rcases Nat.eq_zero_or_pos (d.numerals.length - 1) with hz | hpos
  · rw [hz, Nat.pow_zero]
    exact h
  · apply Nat.le_of_not_lt
    intro hlt
    have := (Nat.length_toDigits_le_iff (by decide) hpos).mpr hlt
    have hl := d.length_numerals_pos
    simp only [numerals] at this hl
    omega

theorem toRat_lt (d : Decimal) : d.toRat < 10 ^ d.point := by
  have hlt : (d.digits : ℚ) < 10 ^ d.numerals.length := by exact_mod_cast d.digits_lt
  rw [point, zpow_add₀ (by norm_num), zpow_natCast]
  exact mul_lt_mul_of_pos_right hlt (by positivity)

theorem le_toRat {d : Decimal} (h : 0 < d.digits) : (10 : ℚ) ^ (d.point - 1) ≤ d.toRat := by
  have hle : (10 : ℚ) ^ (d.numerals.length - 1) ≤ d.digits := by exact_mod_cast le_digits h
  have hp : d.point - 1 = ((d.numerals.length - 1 : ℕ) : ℤ) + d.exp := by
    have := d.length_numerals_pos
    rw [point]
    omega
  rw [hp, zpow_add₀ (by norm_num), zpow_natCast]
  exact mul_le_mul_of_nonneg_right hle (by positivity)

theorem digits_pos_of_nearest? {d : Decimal} {m : Magnitude} (h : d.nearest? = some m)
    (hm : m.isZero = false) : 0 < d.digits := by
  apply Nat.pos_of_ne_zero
  intro hz
  have hle := Magnitude.le_of_nearest? h hm
  have := d.unitDenom_pos
  simp only [unitNumer, hz, Nat.zero_mul] at hle
  omega

/-- The exponent is kept out of sight, so that nothing tries to compute the power. -/
theorem two_mul_unitsPerOne_le : ∃ k ≤ 1075, 2 * Magnitude.unitsPerOne ≤ 10 ^ k :=
  ⟨1075, Nat.le_refl _, by decide +kernel⟩

/-- Neither bound is sharp: powers of two are compared with powers of ten of the same exponent. -/
theorem point_bounds {d : Decimal} {m : Magnitude} (h : d.nearest? = some m)
    (hm : m.isZero = false) : -1075 < d.point ∧ d.point < 2100 := by
  have hdenom : (0 : ℚ) < d.unitDenom := by exact_mod_cast d.unitDenom_pos
  have hone : (1 : ℚ) ≤ Magnitude.unitsPerOne := Nat.one_le_cast.mpr Magnitude.one_le_unitsPerOne
  have hunits := d.toRat_mul_unitDenom
  constructor
  · obtain ⟨k, hk, hpow⟩ := two_mul_unitsPerOne_le
    have hpow : 2 * (Magnitude.unitsPerOne : ℚ) ≤ 10 ^ k := by exact_mod_cast hpow
    have hle : (d.unitDenom : ℚ) ≤ 2 * d.unitNumer := by
      exact_mod_cast Magnitude.le_of_nearest? h hm
    have hhalf : 1 ≤ 2 * Magnitude.unitsPerOne * d.toRat := by
      refine le_of_mul_le_mul_right ?_ hdenom
      linarith
    have hlt : (10 : ℚ) ^ (0 : ℤ) < 10 ^ (k + d.point) := by
      calc (10 : ℚ) ^ (0 : ℤ) ≤ 2 * Magnitude.unitsPerOne * d.toRat := by rwa [zpow_zero]
        _ < 2 * Magnitude.unitsPerOne * 10 ^ d.point :=
            mul_lt_mul_of_pos_left d.toRat_lt (by linarith)
        _ ≤ 10 ^ k * 10 ^ d.point := mul_le_mul_of_nonneg_right hpow (by positivity)
        _ = 10 ^ (k + d.point) := by rw [zpow_add₀ (by norm_num), zpow_natCast]
    have := (zpow_lt_zpow_iff_right₀ (by norm_num)).mp hlt
    omega
  · obtain ⟨p, hp, hlt⟩ := Magnitude.lt_of_nearest? d.unitDenom_pos h
    have hlt : (d.unitNumer : ℚ) < 2 ^ (53 + p) * d.unitDenom := by
      rw [mul_comm]
      exact_mod_cast hlt
    rw [← hunits] at hlt
    have hlt : (10 : ℚ) ^ (d.point - 1) < 10 ^ ((53 + p : ℕ) : ℤ) := by
      calc (10 : ℚ) ^ (d.point - 1) ≤ d.toRat := le_toRat (digits_pos_of_nearest? h hm)
        _ ≤ d.toRat * Magnitude.unitsPerOne :=
            le_mul_of_one_le_right d.toRat_nonneg hone
        _ < 2 ^ (53 + p) := lt_of_mul_lt_mul_right hlt hdenom.le
        _ ≤ 10 ^ (53 + p) := pow_le_pow_left₀ (by norm_num) (by norm_num) _
        _ = 10 ^ ((53 + p : ℕ) : ℤ) := (zpow_natCast _ _).symm
    have := (zpow_lt_zpow_iff_right₀ (by norm_num)).mp hlt
    omega

end Decimal
end PrefixCalc
