import PrefixCalc.Proofs.Binary64.TiesToEven
import PrefixCalc.Proofs.Decimal.Shortest

/-!
# PrefixCalc.Proofs.Decimal.Nearest

Rounding decimals.

* `nearest?_eq_none_iff`, `nearest?_eq_some_iff`: a decimal is rounded like the rational number that
  it stands for.
* `nearest?_mono`, `nearest?_between`: rounding keeps the order, so what lies between two decimals
  that are rounded to the same magnitude is rounded to it as well.
* `abs_toRat_sub_le`: a decimal is off its magnitude by at most half of it.
* `nearest?_of_le`, `nearest?_of_large`, `nearest?_of_small`: decimals that are too small or too
  large, by their values or by their exponents.
-/

namespace PrefixCalc
namespace Decimal

open Magnitude

theorem toRat_eq_div (d : Decimal) : d.toRat = d.unitNumer / d.unitDenom / unitsPerOne := by
  have hdenom : (d.unitDenom : ℚ) ≠ 0 := (Nat.cast_pos.mpr d.unitDenom_pos).ne'
  rw [div_div, eq_div_iff (mul_ne_zero hdenom unitsPerOne_pos.ne'), ← toRat_mul_unitDenom]
  ring

theorem nearest?_eq_none_iff {d : Decimal} : d.nearest? = none ↔ overflow ≤ d.toRat := by
  rw [nearest?, Magnitude.nearest?_eq_none_iff d.unitDenom_pos, toRat_eq_div]

theorem nearest?_eq_some_iff {d : Decimal} {m : Magnitude} :
    d.nearest? = some m ↔ d.toRat < overflow ∧ IsNearest d.toRat m := by
  rw [nearest?, Magnitude.nearest?_eq_some_iff d.unitDenom_pos, toRat_eq_div]

theorem lt_overflow {d : Decimal} {m : Magnitude} (h : d.nearest? = some m) : d.toRat < overflow :=
  (nearest?_eq_some_iff.mp h).1

theorem isNearest {d : Decimal} {m : Magnitude} (h : d.nearest? = some m) : IsNearest d.toRat m :=
  (nearest?_eq_some_iff.mp h).2

theorem toRat_exactDecimal (m : Magnitude) : m.exactDecimal.toRat = m.toRat := by
  rw [exactDecimal, Decimal.toRat, Magnitude.toRat, unitsPerOne_eq]
  rw [show (-1074 : ℤ) = -((1074 : ℕ) : ℤ) from rfl]
  -- The power of five is too large to be computed in passing.
  generalize 1074 = k
  rw [Nat.pow_eq, zpow_neg, zpow_natCast, show (10 : ℚ) = 2 * 5 by norm_num, mul_pow]
  push_cast
  field_simp

/-! ## Order -/

/-- The greater of two numbers is the closer one only from their middle on. -/
theorem middle_le {a b x : ℚ} (hlt : a < b) (h : |b - x| ≤ |a - x|) : a + b ≤ 2 * x := by
  rcases abs_cases (b - x) with ⟨hb, hb'⟩ | ⟨hb, hb'⟩ <;>
    rcases abs_cases (a - x) with ⟨ha, ha'⟩ | ⟨ha, ha'⟩ <;> linarith

theorem le_middle {a b x : ℚ} (hlt : a < b) (h : |a - x| ≤ |b - x|) : 2 * x ≤ a + b := by
  rcases abs_cases (b - x) with ⟨hb, hb'⟩ | ⟨hb, hb'⟩ <;>
    rcases abs_cases (a - x) with ⟨ha, ha'⟩ | ⟨ha, ha'⟩ <;> linarith

/-- Only at a common middle could two magnitudes change places, and it is rounded to one of them. -/
theorem nearest?_mono {d e : Decimal} {m n : Magnitude} (hle : d.toRat ≤ e.toRat)
    (hd : d.nearest? = some m) (he : e.nearest? = some n) : m.toRat ≤ n.toRat := by
  by_contra hlt
  rw [not_le] at hlt
  have hlow := middle_le hlt ((isNearest hd).closest n)
  have hhigh := le_middle hlt ((isNearest he).closest m)
  have hmiddle : d.toRat = e.toRat := by linarith
  rw [nearest?_eq_of_toRat_eq hmiddle, he] at hd
  cases hd
  exact lt_irrefl _ hlt

theorem nearest?_between {d e f : Decimal} {m : Magnitude} (hde : d.toRat ≤ e.toRat)
    (hef : e.toRat ≤ f.toRat) (hd : d.nearest? = some m) (hf : f.nearest? = some m) :
    e.nearest? = some m := by
  cases he : e.nearest? with
  | none => exact absurd (hef.trans_lt (lt_overflow hf)) (not_lt.mpr (nearest?_eq_none_iff.mp he))
  | some n =>
    rw [eq_of_toRat_eq (le_antisymm (nearest?_mono hef he hf) (nearest?_mono hde hd he))]

/-! ## Bounds -/

theorem abs_toRat_sub_le {d : Decimal} {m : Magnitude} (h : d.nearest? = some m)
    (hm : m.isZero = false) : |m.toRat - d.toRat| ≤ m.toRat / 2 := by
  have hplace : (2 : ℚ) ^ m.exp ≤ m.units := by exact_mod_cast two_pow_le_units hm
  have hhalf := Magnitude.abs_units_sub_le d.unitDenom_pos h
  rw [toRat_eq_div, abs_toRat_sub, Magnitude.toRat, div_right_comm,
    div_le_div_iff_of_pos_right unitsPerOne_pos]
  linarith

/-- Up to the middle between zero and the least magnitude, zero is nearest; in the middle because it
is even. -/
theorem nearest?_of_le {d : Decimal} (h : d.toRat ≤ 2 ^ (-1075 : ℤ)) :
    d.nearest? = some .zero := by
  have hzero : Magnitude.zero.toRat = 0 := by
    rw [Magnitude.toRat, show Magnitude.zero.units = 0 from rfl, Nat.cast_zero, zero_div]
  have hhalf : (2 : ℚ) ^ (-1075 : ℤ) = 1 / unitsPerOne / 2 := by
    rw [unitsPerOne_eq, show (-1075 : ℤ) = -((1074 : ℕ) : ℤ) - 1 by rfl]
    generalize 1074 = k
    rw [zpow_sub_one₀ (by norm_num), zpow_neg, zpow_natCast, one_div, div_eq_mul_inv]
  have hpos := d.toRat_nonneg
  rw [nearest?_eq_some_iff]
  refine ⟨h.trans_lt ?_, ?_, fun _ _ _ => rfl⟩
  · calc (2 : ℚ) ^ (-1075 : ℤ) < 2 ^ (0 : ℤ) := zpow_lt_zpow_right₀ (by norm_num) (by norm_num)
      _ = 2 ^ 0 := by rfl
      _ ≤ 2 ^ 970 := pow_le_pow_right₀ (by norm_num) (by norm_num)
      _ ≤ overflow := by
        rw [overflow, show 1024 = 54 + 970 by rfl]
        generalize 970 = k
        rw [pow_add, le_sub_iff_add_le]
        linarith [show (0 : ℚ) < 2 ^ k by positivity]
  · intro n
    rw [hzero, zero_sub, abs_neg, abs_of_nonneg hpos]
    cases hn : n.isZero with
    | true => rw [eq_zero_of_isZero hn, hzero, zero_sub, abs_neg, abs_of_nonneg hpos]
    | false =>
      have hone : 1 / (unitsPerOne : ℚ) ≤ n.toRat :=
        div_le_div_of_nonneg_right (Nat.one_le_cast.mpr (units_pos hn)) unitsPerOne_pos.le
      rw [hhalf] at h
      exact (by linarith : d.toRat ≤ n.toRat - d.toRat).trans (le_abs_self _)

/-- A bound that no magnitude reaches, far from the least such bound. -/
theorem nearest?_of_large {d : Decimal} (hdigits : 0 < d.digits) (hexp : 1024 ≤ d.exp) :
    d.nearest? = none := by
  rw [nearest?_eq_none_iff]
  have hone : (1 : ℚ) ≤ d.digits := Nat.one_le_cast.mpr hdigits
  calc overflow ≤ 2 ^ 1024 := sub_le_self _ (by positivity)
    _ ≤ 10 ^ 1024 := pow_le_pow_left₀ (by norm_num) (by norm_num) _
    _ = 10 ^ (1024 : ℤ) := rfl
    _ ≤ 10 ^ d.exp := zpow_le_zpow_right₀ (by norm_num) hexp
    _ ≤ d.toRat := le_mul_of_one_le_left (by positivity) hone

theorem nearest?_of_small {d : Decimal} {k : ℕ} (hdigits : d.digits < 10 ^ k)
    (hexp : k + d.exp ≤ -1075) : d.nearest? = some .zero := by
  have hlt : (d.digits : ℚ) ≤ 10 ^ k := by exact_mod_cast hdigits.le
  apply nearest?_of_le
  calc d.toRat ≤ 10 ^ k * 10 ^ d.exp := mul_le_mul_of_nonneg_right hlt (by positivity)
    _ = 10 ^ (k + d.exp) := by rw [zpow_add₀ (by norm_num), zpow_natCast]
    _ ≤ 10 ^ (-1075 : ℤ) := zpow_le_zpow_right₀ (by norm_num) hexp
    _ ≤ 2 ^ (-1075 : ℤ) := by
      rw [show (-1075 : ℤ) = -((1075 : ℕ) : ℤ) from rfl]
      generalize 1075 = j
      rw [zpow_neg, zpow_neg, zpow_natCast, zpow_natCast]
      exact inv_anti₀ (by positivity) (pow_le_pow_left₀ (by norm_num) (by norm_num) _)

/-- The same digits with a greater exponent are worth ten times as much or more. -/
theorem ten_mul_toRat_le {d e : Decimal} (hdigits : d.digits = e.digits) (hexp : d.exp < e.exp) :
    10 * d.toRat ≤ e.toRat := by
  have hle : (10 : ℚ) ^ (1 + d.exp) ≤ 10 ^ e.exp := zpow_le_zpow_right₀ (by norm_num) (by omega)
  rw [zpow_add₀ (by norm_num), zpow_one] at hle
  rw [toRat, toRat, hdigits, mul_left_comm]
  exact mul_le_mul_of_nonneg_left hle (Nat.cast_nonneg _)

end Decimal
end PrefixCalc
