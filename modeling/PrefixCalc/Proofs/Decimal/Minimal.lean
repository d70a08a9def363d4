import Mathlib.Data.List.Range
import PrefixCalc.Proofs.Decimal.Grid

/-!
# PrefixCalc.Proofs.Decimal.Minimal

The digits of a magnitude are as few and as close as they can be.

* `le_gap`: magnitudes are apart by at least one part in `2 ^ 53`.
* `nearest?_of_close`: a decimal that is off by less than half of that is rounded to the magnitude,
  so that seventeen digits are always enough.
* `length_shortest_le`: no decimal with fewer digits is rounded to the magnitude.
* `shortest_closest`: no decimal with as many digits that is rounded to it is closer.
-/

namespace PrefixCalc
namespace Magnitude

/-! ## How far magnitudes are apart -/

/-- A magnitude counted in steps to the next lower one, of which it has `2 ^ 53` if it is a power of
two. -/
theorem exists_steps (m : Magnitude) :
    ∃ p j, m.units = j * 2 ^ p ∧ j ≤ 2 ^ 53 ∧ (0 < p → 2 ^ 52 < j) := by
  have hlt := m.sig_lt
  have hfull := m.full
  rw [units_eq]
  rcases Nat.eq_zero_or_pos m.exp with hexp | hexp
  · exact ⟨m.exp, m.sig, rfl, by omega, by omega⟩
  · rcases Nat.lt_or_ge (2 ^ 52) m.sig with hsig | hsig
    · exact ⟨m.exp, m.sig, rfl, by omega, by omega⟩
    · obtain ⟨p, hp⟩ : ∃ p, m.exp = p + 1 := ⟨m.exp - 1, by omega⟩
      have hsig : m.sig = 2 ^ 52 := by omega
      refine ⟨p, 2 ^ 53, ?_, le_rfl, fun _ => by decide⟩
      rw [hsig, hp]
      ring

theorem units_le_gap {m n : Magnitude} (h : n ≠ m) :
    (m.units : ℚ) ≤ 2 ^ 53 * |(n.units : ℚ) - m.units| := by
  obtain ⟨p, j, hm, hj, hlow⟩ := m.exists_steps
  have hstep : (0 : ℚ) < 2 ^ p := by positivity
  have hj : (j : ℚ) ≤ 2 ^ 53 := by exact_mod_cast hj
  have hgap : (2 : ℚ) ^ p ≤ |(n.units : ℚ) - m.units| := by
    rcases n.units_multiple p with ⟨k, hn, -⟩ | ⟨hp, hlt⟩
    · have hkj : k ≠ j := by
        rintro rfl
        exact h (eq_of_units_eq (hn.trans hm.symm))
      rw [hn, hm]
      push_cast
      rw [← sub_mul, abs_mul, abs_of_pos hstep]
      exact le_mul_of_one_le_left hstep.le (one_le_abs_sub hkj)
    · have hlt : (n.units : ℚ) < 2 ^ 52 * 2 ^ p := by exact_mod_cast hlt
      have hj' : (2 : ℚ) ^ 52 + 1 ≤ j := by exact_mod_cast hlow hp
      have hle := mul_le_mul_of_nonneg_right hj' hstep.le
      rw [hm, abs_sub_comm]
      push_cast
      refine le_trans ?_ (le_abs_self _)
      linarith
  rw [hm] at hgap ⊢
  push_cast at hgap ⊢
  exact mul_le_mul hj hgap hstep.le (by positivity)

theorem le_gap {m n : Magnitude} (h : n ≠ m) : m.toRat ≤ 2 ^ 53 * |n.toRat - m.toRat| := by
  have hgap := units_le_gap h
  have habs := n.abs_toRat_sub m.units
  rw [← toRat] at habs
  rw [habs, toRat, ← mul_div_assoc, div_le_div_iff_of_pos_right unitsPerOne_pos]
  exact hgap

/-- The greatest magnitude is as far from what is too large as from its neighbour. -/
theorem toRat_lt_overflow (m : Magnitude) : (2 ^ 54 + 1) * m.toRat < 2 ^ 54 * overflow := by
  have hsig : (m.sig : ℚ) ≤ 2 ^ 53 - 1 := by
    have hlt : m.sig + 1 ≤ 2 ^ 53 := m.sig_lt
    have hlt : (m.sig : ℚ) + 1 ≤ 2 ^ 53 := by exact_mod_cast hlt
    linarith
  have hexp := m.exp_le
  rw [overflow_eq, toRat, units_eq, ← mul_div_assoc, ← mul_div_assoc,
    div_lt_div_iff_of_pos_right unitsPerOne_pos, show 2045 = 2044 + 1 by rfl] at *
  generalize 2044 = k at *
  have hpow : (2 : ℚ) ^ m.exp ≤ 2 ^ (k + 1) := pow_le_pow_right₀ (by norm_num) hexp
  have hpos : (0 : ℚ) < 2 ^ k := by positivity
  push_cast
  calc (2 ^ 54 + 1) * ((m.sig : ℚ) * 2 ^ m.exp)
      ≤ (2 ^ 54 + 1) * ((2 ^ 53 - 1) * 2 ^ (k + 1)) := by
        gcongr
    _ < 2 ^ 54 * ((2 ^ 54 - 1) * 2 ^ k) := by
        rw [pow_succ 2 k]
        linarith

/-- Half of the least distance to another magnitude is not enough to be closer to that one. -/
theorem nearest?_of_close {m : Magnitude} {c : Decimal}
    (h : 2 ^ 54 * |c.toRat - m.toRat| < m.toRat) : c.nearest? = some m := by
  have hcloser : ∀ n, n ≠ m → |m.toRat - c.toRat| < |n.toRat - c.toRat| := by
    intro n hn
    have hgap := le_gap hn
    have htri := abs_sub_le n.toRat c.toRat m.toRat
    rw [abs_sub_comm m.toRat]
    linarith
  rw [Decimal.nearest?_eq_some_iff]
  refine ⟨?_, ?_, ?_⟩
  · have hover := m.toRat_lt_overflow
    have habs := le_abs_self (c.toRat - m.toRat)
    linarith
  · intro n
    by_cases hn : n = m
    · rw [hn]
    · exact (hcloser n hn).le
  · intro n hn htie
    exact absurd htie (hcloser n hn).ne'

/-! ## Seventeen digits -/

theorem exists_shortestOn?_seventeen {m : Magnitude} (hm : m.isZero = false) :
    ∃ d, m.shortestOn? 17 = some d := by
  have hbelow := below_le m 17
  have habove := lt_above m 17
  have hgrid := toRat_above m 17
  have hstep : 10 ^ 16 * (10 : ℚ) ^ (m.below 17).exp ≤ m.toRat := by
    have hdigits : (10 : ℚ) ^ 16 ≤ (m.below 17).digits := by
      exact_mod_cast ten_pow_le_below hm (by decide) (Nat.le_refl 17)
    exact (mul_le_mul_of_nonneg_right hdigits (by positivity)).trans hbelow
  have hpos : (0 : ℚ) < 10 ^ (m.below 17).exp := by positivity
  apply exists_shortestOn?_of_neighbour
  rcases le_total (2 * m.toRat) ((m.below 17).toRat + (m.above 17).toRat) with hlow | hhigh
  · left
    apply nearest?_of_close
    rw [abs_below_sub]
    linarith
  · right
    apply nearest?_of_close
    rw [abs_above_sub]
    linarith

/-! ## The first grid -/

theorem exists_first {m : Magnitude} (hm : m.isZero = false) :
    ∃ n d, 1 ≤ n ∧ n ≤ 17 ∧ m.shortestOn? n = some d ∧
      (∀ k, 1 ≤ k → k < n → m.shortestOn? k = none) ∧ m.shortest = d.dropZeros := by
  have hsome : ((List.range' 1 17).findSome? m.shortestOn?).isSome = true := by
    obtain ⟨d, hd⟩ := exists_shortestOn?_seventeen hm
    rw [List.findSome?_isSome_iff]
    exact ⟨17, by decide, by rw [hd, Option.isSome_some]⟩
  obtain ⟨d, hd⟩ := Option.isSome_iff_exists.mp hsome
  obtain ⟨l, n, r, hrange, hn, hfirst⟩ := List.findSome?_eq_some_iff.mp hd
  have hsorted := List.pairwise_lt_range' (s := 1) (n := 17) 1
  have hmem : n ∈ List.range' 1 17 := by
    rw [hrange]
    exact List.mem_append_right _ List.mem_cons_self
  rw [List.mem_range'_1] at hmem
  refine ⟨n, d, hmem.1, by omega, hn, ?_, by rw [shortest, hd, Option.getD_some]⟩
  intro k hk hkn
  have hkmem : k ∈ List.range' 1 17 := List.mem_range'_1.mpr ⟨hk, by omega⟩
  rw [hrange] at hkmem hsorted
  rcases List.mem_append.mp hkmem with hkl | hkr
  · exact hfirst k hkl
  · rcases List.mem_cons.mp hkr with rfl | hkr
    · exact absurd hkn (lt_irrefl _)
    · have := (List.pairwise_cons.mp (List.pairwise_append.mp hsorted).2.1).1 k hkr
      omega

end Magnitude

namespace Decimal

theorem digits_dropZeros_le (d : Decimal) : d.dropZeros.digits ≤ d.digits := by
  fun_induction dropZeros d with
  | case1 d h ih =>
    dsimp only at ih
    omega
  | case2 d h => exact Nat.le_refl _

/-- A power of ten has one significant digit. -/
theorem digits_dropZeros_lt {d : Decimal} {n : Nat} (hn : 1 ≤ n) (h : d.digits ≤ 10 ^ n) :
    d.dropZeros.digits < 10 ^ n := by
  rcases Nat.lt_or_eq_of_le h with hlt | heq
  · exact d.digits_dropZeros_le.trans_lt hlt
  · obtain ⟨k, rfl⟩ := Nat.exists_eq_add_of_le' hn
    have hzero : 0 < d.digits ∧ d.digits % 10 = 0 := by
      rw [heq, Nat.pow_succ]
      exact ⟨by positivity, Nat.mul_mod_left _ _⟩
    rw [dropZeros, dif_pos hzero]
    refine (digits_dropZeros_le _).trans_lt ?_
    dsimp only
    rw [heq]
    exact Nat.div_lt_self (by positivity) (by decide)

end Decimal

namespace Magnitude

/-! ## The shortest decimal -/

/-- The digits that are left when the trailing zeros are dropped are as many as the grid has,
because a coarser grid would have been found first. -/
theorem exists_grid {m : Magnitude} (hm : m.isZero = false) :
    1 ≤ m.shortest.numerals.length ∧ m.shortest.numerals.length ≤ 17 ∧
      (∃ d, m.shortestOn? m.shortest.numerals.length = some d ∧ m.shortest.toRat = d.toRat) ∧
      ∀ k, 1 ≤ k → k < m.shortest.numerals.length → m.shortestOn? k = none := by
  obtain ⟨n, d, hn, hn', hd, hfirst, hshortest⟩ := exists_first hm
  have hpos := m.shortest.length_numerals_pos
  have hle : m.shortest.numerals.length ≤ n := by
    rw [hshortest]
    exact (Nat.length_toDigits_le_iff (by decide) hn).mpr
      (Decimal.digits_dropZeros_lt hn (digits_le_of_shortestOn? hm hn hn' hd))
  have hge : n ≤ m.shortest.numerals.length := by
    rw [← not_lt]
    intro hlt
    obtain ⟨e, he, -⟩ := exists_shortestOn? hm hpos (by omega) m.shortest.digits_lt
      m.nearest?_shortest
    rw [hfirst _ hpos hlt] at he
    cases he
  obtain rfl := le_antisymm hle hge
  refine ⟨hn, hn', ⟨d, hd, ?_⟩, hfirst⟩
  rw [hshortest, Decimal.toRat_dropZeros]

theorem length_shortest_le {m : Magnitude} (hm : m.isZero = false) {c : Decimal} {k : Nat}
    (hc : c.digits < 10 ^ k) (h : c.nearest? = some m) : m.shortest.numerals.length ≤ k := by
  obtain ⟨-, hle, -, hfirst⟩ := exists_grid hm
  have hk : 1 ≤ k := by
    have hpos := Decimal.digits_pos_of_nearest? h hm
    rcases Nat.eq_zero_or_pos k with rfl | hk
    · rw [Nat.pow_zero] at hc
      omega
    · exact hk
  rw [← not_lt]
  intro hlt
  obtain ⟨d, hd, -⟩ := exists_shortestOn? hm hk (by omega) hc h
  rw [hfirst k hk hlt] at hd
  cases hd

theorem shortest_closest {m : Magnitude} (hm : m.isZero = false) {c : Decimal}
    (hc : c.digits < 10 ^ m.shortest.numerals.length) (h : c.nearest? = some m) :
    |m.shortest.toRat - m.toRat| ≤ |c.toRat - m.toRat| := by
  obtain ⟨hn, hn', ⟨d, hd, hvalue⟩, -⟩ := exists_grid hm
  obtain ⟨e, he, hclose⟩ := exists_shortestOn? hm hn hn' hc h
  rw [hd] at he
  cases he
  rwa [hvalue]

end Magnitude
end PrefixCalc
