import Mathlib.Algebra.Order.Floor.Semifield
import Mathlib.Data.Rat.Floor
import PrefixCalc.Proofs.Decimal.Nearest

/-!
# PrefixCalc.Proofs.Decimal.Grid

The decimals of at most `n` digits around a magnitude.

* `le_below`, `above_le`: the two neighbours are the last of them up to the magnitude and the first
  behind it.
* `exists_shortestOn?`: if any of them is rounded to the magnitude, one is chosen on the grid, and
  none that is rounded to it is closer.
-/

namespace PrefixCalc
namespace Magnitude

theorem toRat_pos {m : Magnitude} (hm : m.isZero = false) : 0 < m.toRat :=
  div_pos (Nat.cast_pos.mpr (units_pos hm)) unitsPerOne_pos

/-! ## The neighbours of a magnitude -/

theorem expansion_eq (m : Magnitude) : m.expansion = m.units * 10 ^ places / unitsPerOne := by
  rw [expansion, Nat.pow_eq]

theorem expansion_eq_floor (m : Magnitude) : m.expansion = ⌊m.toRat * 10 ^ places⌋₊ := by
  rw [expansion_eq, ← Nat.floor_div_eq_div (K := ℚ), toRat]
  push_cast
  rw [div_mul_eq_mul_div]

/-- The scale of a grid, as a rational number. -/
theorem ten_zpow_below (m : Magnitude) (n : Nat) :
    (10 : ℚ) ^ (m.below n).exp = 10 ^ (m.width - n) / 10 ^ places := by
  rw [below, zpow_sub₀ (by norm_num), zpow_natCast, zpow_natCast]

theorem below_digits_eq_floor (m : Magnitude) (n : Nat) :
    (m.below n).digits = ⌊m.toRat / 10 ^ (m.below n).exp⌋₊ := by
  rw [ten_zpow_below, below, Nat.pow_eq, expansion_eq_floor, ← Nat.floor_div_natCast]
  push_cast
  rw [div_div_eq_mul_div]

theorem toRat_above (m : Magnitude) (n : Nat) :
    (m.above n).toRat = (m.below n).toRat + 10 ^ (m.below n).exp := by
  rw [above, Decimal.toRat, Decimal.toRat]
  push_cast
  ring

theorem below_le (m : Magnitude) (n : Nat) : (m.below n).toRat ≤ m.toRat := by
  have hfloor := Nat.floor_le (a := m.toRat / 10 ^ (m.below n).exp)
    (div_nonneg m.toRat_nonneg (by positivity))
  rwa [← below_digits_eq_floor, le_div_iff₀ (by positivity)] at hfloor

theorem lt_above (m : Magnitude) (n : Nat) : m.toRat < (m.above n).toRat := by
  have hfloor := Nat.lt_floor_add_one (m.toRat / 10 ^ (m.below n).exp)
  rw [← below_digits_eq_floor, div_lt_iff₀ (by positivity)] at hfloor
  exact_mod_cast hfloor

theorem abs_below_sub (m : Magnitude) (n : Nat) :
    |(m.below n).toRat - m.toRat| = m.toRat - (m.below n).toRat := by
  rw [abs_sub_comm, abs_of_nonneg (sub_nonneg.mpr (below_le m n))]

theorem abs_above_sub (m : Magnitude) (n : Nat) :
    |(m.above n).toRat - m.toRat| = (m.above n).toRat - m.toRat :=
  abs_of_pos (sub_pos.mpr (lt_above m n))

theorem upperHalf_iff (m : Magnitude) (n : Nat) :
    m.upperHalf n = true ↔ (m.below n).toRat + (m.above n).toRat ≤ 2 * m.toRat := by
  have hplaces : (0 : ℚ) < 10 ^ places := by positivity
  have hunits := unitsPerOne_pos
  have hleft : (m.below n).toRat + (m.above n).toRat =
      ((2 * (m.below n).digits + 1) * 10 ^ (m.width - n) * unitsPerOne : ℕ) /
        (unitsPerOne * 10 ^ places) := by
    rw [toRat_above, Decimal.toRat, ten_zpow_below]
    push_cast
    field_simp
    ring
  have hright : 2 * m.toRat =
      ((2 * (m.units * 10 ^ places) : ℕ) : ℚ) / (unitsPerOne * 10 ^ places) := by
    rw [toRat]
    push_cast
    field_simp
  rw [hleft, hright, div_le_div_iff_of_pos_right (mul_pos hunits hplaces), Nat.cast_le, upperHalf,
    decide_eq_true_iff, Nat.pow_eq, Nat.pow_eq]

/-! ## The grid -/

theorem ten_pow_le_expansion {m : Magnitude} (hm : m.isZero = false) :
    10 ^ 16 ≤ m.expansion := by
  have hpow : 10 ^ 16 * unitsPerOne ≤ 10 ^ places := by decide +kernel
  rw [expansion_eq, Nat.le_div_iff_mul_le one_le_unitsPerOne]
  exact hpow.trans (Nat.le_mul_of_pos_left _ (units_pos hm))

/-- The expansion as a decimal, for what is known about the digits of those. -/
theorem width_eq (m : Magnitude) :
    m.width = (Decimal.numerals { digits := m.expansion, exp := 0 }).length := rfl

theorem le_width {m : Magnitude} (hm : m.isZero = false) : 17 ≤ m.width := by
  have hlt := Decimal.digits_lt { digits := m.expansion, exp := 0 }
  rw [← width_eq] at hlt
  have hpow := (ten_pow_le_expansion hm).trans_lt hlt
  have := (Nat.pow_lt_pow_iff_right (by decide)).mp hpow
  omega

section Grid

variable {m : Magnitude} (hm : m.isZero = false) {n : Nat} (hn : 1 ≤ n) (hn' : n ≤ 17)

include hm hn hn'

theorem ten_pow_le_below : 10 ^ (n - 1) ≤ (m.below n).digits := by
  have hwidth := le_width hm
  have hle := Decimal.le_digits (d := { digits := m.expansion, exp := 0 })
    (Nat.lt_of_lt_of_le (by decide) (ten_pow_le_expansion hm))
  rw [below, Nat.pow_eq, Nat.le_div_iff_mul_le (by positivity), ← Nat.pow_add]
  rwa [← width_eq, show m.width - 1 = n - 1 + (m.width - n) by omega] at hle

theorem below_lt : (m.below n).digits < 10 ^ n := by
  have hwidth := le_width hm
  have hlt := Decimal.digits_lt { digits := m.expansion, exp := 0 }
  rw [below, Nat.pow_eq, Nat.div_lt_iff_lt_mul (by positivity), ← Nat.pow_add]
  rwa [← width_eq, show m.width = n + (m.width - n) by omega] at hlt

/-- A decimal of at most `n` digits lies on the grid or below all of it. -/
theorem grid_cases {c : Decimal} (hc : c.digits < 10 ^ n) :
    (∃ k : ℕ, c.toRat = k * 10 ^ (m.below n).exp) ∨ c.toRat < (m.below n).toRat := by
  rcases le_or_gt (m.below n).exp c.exp with hexp | hexp
  · obtain ⟨i, hi⟩ := Int.eq_ofNat_of_zero_le (sub_nonneg.mpr hexp)
    refine .inl ⟨c.digits * 10 ^ i, ?_⟩
    rw [Decimal.toRat, show c.exp = i + (m.below n).exp by omega, zpow_add₀ (by norm_num),
      zpow_natCast]
    push_cast
    ring
  · right
    have hfull : (10 : ℚ) ^ (n - 1) ≤ (m.below n).digits := by
      exact_mod_cast ten_pow_le_below hm hn hn'
    have hdigits : (c.digits : ℚ) < 10 ^ n := by exact_mod_cast hc
    calc c.toRat < 10 ^ n * 10 ^ c.exp := mul_lt_mul_of_pos_right hdigits (by positivity)
      _ = 10 ^ (n + c.exp) := by rw [zpow_add₀ (by norm_num), zpow_natCast]
      _ ≤ 10 ^ (((n - 1 : ℕ) : ℤ) + (m.below n).exp) :=
        zpow_le_zpow_right₀ (by norm_num) (by omega)
      _ = 10 ^ (n - 1) * 10 ^ (m.below n).exp := by rw [zpow_add₀ (by norm_num), zpow_natCast]
      _ ≤ (m.below n).toRat := mul_le_mul_of_nonneg_right hfull (by positivity)

theorem le_below {c : Decimal} (hc : c.digits < 10 ^ n) (h : c.toRat ≤ m.toRat) :
    c.toRat ≤ (m.below n).toRat := by
  rcases grid_cases hm hn hn' hc with ⟨k, hk⟩ | hlt
  · rw [hk, ← le_div_iff₀ (by positivity)] at h
    rw [hk, Decimal.toRat, below_digits_eq_floor]
    refine mul_le_mul_of_nonneg_right ?_ (by positivity)
    exact_mod_cast Nat.le_floor h
  · exact hlt.le

theorem above_le {c : Decimal} (hc : c.digits < 10 ^ n) (h : m.toRat < c.toRat) :
    (m.above n).toRat ≤ c.toRat := by
  rcases grid_cases hm hn hn' hc with ⟨k, hk⟩ | hlt
  · rw [hk, ← div_lt_iff₀ (by positivity),
      ← Nat.floor_lt (div_nonneg m.toRat_nonneg (by positivity)), ← below_digits_eq_floor] at h
    rw [hk, Decimal.toRat]
    refine mul_le_mul_of_nonneg_right ?_ (by positivity)
    exact_mod_cast h
  · exact absurd (below_le m n) (not_le.mpr (h.trans hlt))

end Grid

/-! ## The choice -/

theorem shortestOn?_cases (m : Magnitude) (n : Nat) :
    m.shortestOn? n = some (m.below n) ∧
        ((m.above n).nearest? = some m → m.upperHalf n = false) ∨
      m.shortestOn? n = some (m.above n) ∧
        ((m.below n).nearest? = some m → m.upperHalf n = true) ∨
      m.shortestOn? n = none ∧
        (m.below n).nearest? ≠ some m ∧ (m.above n).nearest? ≠ some m := by
  unfold shortestOn?
  split
  · split
    · rename_i habove
      exact .inr (.inl ⟨rfl, fun _ => habove.2⟩)
    · rename_i hnot
      exact .inl ⟨rfl, fun habove => Bool.eq_false_iff.mpr fun hupper => hnot ⟨habove, hupper⟩⟩
  · rename_i hbelow
    split
    · exact .inr (.inl ⟨rfl, fun h => absurd h hbelow⟩)
    · rename_i habove
      exact .inr (.inr ⟨rfl, hbelow, habove⟩)

theorem exists_shortestOn?_of_neighbour {m : Magnitude} {n : Nat}
    (h : (m.below n).nearest? = some m ∨ (m.above n).nearest? = some m) :
    ∃ d, m.shortestOn? n = some d := by
  rcases m.shortestOn?_cases n with ⟨hd, -⟩ | ⟨hd, -⟩ | ⟨-, hbelow, habove⟩
  · exact ⟨_, hd⟩
  · exact ⟨_, hd⟩
  · exact absurd h (not_or.mpr ⟨hbelow, habove⟩)

section Chosen

variable {m : Magnitude} (hm : m.isZero = false) {n : Nat} (hn : 1 ≤ n) (hn' : n ≤ 17)

include hm hn hn'

theorem digits_le_of_shortestOn? {d : Decimal} (h : m.shortestOn? n = some d) :
    d.digits ≤ 10 ^ n := by
  have hlt := below_lt hm hn hn'
  rcases m.shortestOn?_cases n with ⟨hd, -⟩ | ⟨hd, -⟩ | ⟨hd, -, -⟩
  · rw [hd] at h
    cases h
    exact hlt.le
  · rw [hd] at h
    cases h
    exact hlt
  · rw [hd] at h
    cases h

/-- Whatever decimal of at most `n` digits is rounded to the magnitude, the neighbour on its side is
rounded to it too, and of the neighbours the closer one is chosen. -/
theorem exists_shortestOn? {c : Decimal} (hc : c.digits < 10 ^ n) (h : c.nearest? = some m) :
    ∃ d, m.shortestOn? n = some d ∧ |d.toRat - m.toRat| ≤ |c.toRat - m.toRat| := by
  have hexact := m.nearest?_exactDecimal
  have hbelow := below_le m n
  have habove := lt_above m n
  have hupper := upperHalf_iff m n
  rcases le_or_gt c.toRat m.toRat with hle | hlt
  · have hcb := le_below hm hn hn' hc hle
    have hb : (m.below n).nearest? = some m :=
      Decimal.nearest?_between hcb (by rwa [Decimal.toRat_exactDecimal]) h hexact
    rw [abs_sub_comm c.toRat, abs_of_nonneg (sub_nonneg.mpr hle)]
    rcases m.shortestOn?_cases n with ⟨hd, -⟩ | ⟨hd, hhalf⟩ | ⟨-, hnot, -⟩
    · refine ⟨_, hd, ?_⟩
      rw [abs_below_sub]
      linarith
    · have := hupper.mp (hhalf hb)
      refine ⟨_, hd, ?_⟩
      rw [abs_above_sub]
      linarith
    · exact absurd hb hnot
  · have hac := above_le hm hn hn' hc hlt
    have ha : (m.above n).nearest? = some m :=
      Decimal.nearest?_between (by rw [Decimal.toRat_exactDecimal]; exact habove.le) hac hexact h
    rw [abs_of_pos (sub_pos.mpr hlt)]
    rcases m.shortestOn?_cases n with ⟨hd, hhalf⟩ | ⟨hd, -⟩ | ⟨-, -, hnot⟩
    · have := not_le.mp (mt hupper.mpr (Bool.eq_false_iff.mp (hhalf ha)))
      refine ⟨_, hd, ?_⟩
      rw [abs_below_sub]
      linarith
    · refine ⟨_, hd, ?_⟩
      rw [abs_above_sub]
      linarith
    · exact absurd ha hnot

end Chosen

end Magnitude
end PrefixCalc
