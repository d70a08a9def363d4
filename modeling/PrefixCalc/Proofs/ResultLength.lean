import PrefixCalc.Proofs.ResultLayout

/-!
# PrefixCalc.Proofs.ResultLength

How long a result can be.

* `point_range`: where the point of a decimal can stand that is rounded to a magnitude other than
  zero. So an exponent has at most three digits.
* `length_magnitude_le`: with 17 digits and such a point no layout is longer than 24 characters.
* `seventeen_digits_suffice`: the search for digits always ends within 17 of them, and a result has
  at most 25 characters.
-/

namespace PrefixCalc

/-! ## Where the point can stand -/

namespace Decimal

/-- Half of the least magnitude is above the last decimal that is written with 324 places. -/
theorem ten_zpow_le_half_unit : (10 : ℚ) ^ (-324 : ℤ) ≤ 2 ^ (-1075 : ℤ) := by
  have hpow : 2 ^ 1075 ≤ 10 ^ 324 := by decide +kernel
  rw [show (-324 : ℤ) = -((324 : ℕ) : ℤ) from rfl, show (-1075 : ℤ) = -((1075 : ℕ) : ℤ) from rfl]
  -- The powers are too large to be computed in passing.
  generalize 1075 = j at *
  generalize 324 = k at *
  rw [zpow_neg, zpow_neg, zpow_natCast, zpow_natCast]
  exact inv_anti₀ (by positivity) (by exact_mod_cast hpow)

theorem overflow_le_ten_zpow : Magnitude.overflow ≤ (10 : ℚ) ^ (309 : ℤ) := by
  have hpow : 2 ^ 1024 ≤ 10 ^ 309 := by decide +kernel
  have hover : Magnitude.overflow ≤ 2 ^ 1024 := sub_le_self _ (by positivity)
  rw [show (309 : ℤ) = ((309 : ℕ) : ℤ) from rfl]
  generalize 1024 = j at *
  generalize 309 = k at *
  rw [zpow_natCast]
  exact hover.trans (by exact_mod_cast hpow)

theorem point_range {d : Decimal} {m : Magnitude} (h : d.nearest? = some m)
    (hm : m.isZero = false) : -324 < d.point ∧ d.point ≤ 309 := by
  constructor
  · rw [← not_le]
    intro hlow
    have hsmall : d.toRat ≤ 2 ^ (-1075 : ℤ) :=
      calc d.toRat ≤ 10 ^ d.point := d.toRat_lt.le
        _ ≤ 10 ^ (-324 : ℤ) := zpow_le_zpow_right₀ (by norm_num) hlow
        _ ≤ 2 ^ (-1075 : ℤ) := ten_zpow_le_half_unit
    rw [nearest?_of_le hsmall] at h
    cases h
    exact absurd hm (by decide)
  · have hhigh : (10 : ℚ) ^ (d.point - 1) < 10 ^ (309 : ℤ) :=
      calc (10 : ℚ) ^ (d.point - 1) ≤ d.toRat := le_toRat (digits_pos_of_nearest? h hm)
        _ < Magnitude.overflow := lt_overflow h
        _ ≤ 10 ^ (309 : ℤ) := overflow_le_ten_zpow
    have := (zpow_lt_zpow_iff_right₀ (by norm_num)).mp hhigh
    omega

end Decimal

/-! ## The length of a result -/

namespace Layout

theorem length_zeros (n : Nat) : (zeros n).length = n := List.length_replicate

theorem length_sign_le (negative : Bool) : (sign negative).length ≤ 1 := by
  cases negative <;> decide

end Layout

open Magnitude Grammar

section Length

variable {m : Magnitude} (hm : m.isZero = false)

include hm

theorem length_exponent_le : (Nat.toDigits 10 (m.shortest.point - 1).natAbs).length ≤ 3 := by
  have hpoint := Decimal.point_range m.nearest?_shortest hm
  exact (Nat.length_toDigits_le_iff (by decide) (by decide)).mpr (by omega)

theorem length_scientific_le (h : m.shortest.point ≤ -6 ∨ 21 < m.shortest.point) :
    (resultLayout.magnitude m).length ≤ 24 := by
  have hexponent := length_exponent_le hm
  have hdigits := (exists_grid hm).2.1
  have hfraction : (if 1 < m.shortest.numerals.length then '.' :: m.shortest.numerals.drop 1
      else []).length ≤ m.shortest.numerals.length := by
    split
    · rw [List.length_cons, List.length_drop]
      omega
    · exact Nat.zero_le _
  have hfirst : (m.shortest.numerals.take 1).length ≤ 1 := List.length_take_le _ _
  rw [magnitude_scientific hm h, List.length_append, List.length_append, List.length_cons,
    List.length_cons]
  omega

theorem length_magnitude_le : (resultLayout.magnitude m).length ≤ 24 := by
  have hdigits := (exists_grid hm).2.1
  by_cases hfar : m.shortest.point ≤ -6 ∨ 21 < m.shortest.point
  · exact length_scientific_le hm hfar
  · rcases le_or_gt m.shortest.point 0 with hbefore | hpos
    · rw [magnitude_before hm (by omega) hbefore, List.length_append, List.length_cons,
        List.length_cons, Layout.length_zeros]
      omega
    · rcases le_or_gt (m.shortest.numerals.length : Int) m.shortest.point with hbehind | hinside
      · rw [magnitude_behind hm hbehind (by omega), List.length_append, Layout.length_zeros]
        omega
      · rw [magnitude_inside hm hpos (by omega) hinside, List.length_append, List.length_cons,
          List.length_take, List.length_drop]
        omega

end Length

theorem length_writeResult_le (x : Binary64) : (writeResult x).length ≤ 25 := by
  match x with
  | .nan signaling =>
    rw [writeResult_nan]
    decide
  | .infinite s =>
    rw [writeResult_infinite]
    cases s <;> decide
  | .finite s m =>
    cases hm : m.isZero with
    | true =>
      rw [eq_zero_of_isZero hm, writeResult_zero]
      decide
    | false =>
      have hsign := Layout.length_sign_le s
      have hmagnitude := length_magnitude_le hm
      rw [← String.length_toList, toList_writeResult s hm, List.length_append]
      omega

/-- Every number other than zero is read from a literal of at most 17 significant digits: its result
is one, because the search for its digits comes to an end on one of the first 17 grids. No result is
longer than 25 characters. -/
theorem seventeen_digits_suffice :
    (∀ (s : Bool) (m : Magnitude), m.isZero = false →
      (∃ n d, 1 ≤ n ∧ n ≤ 17 ∧ m.shortestOn? n = some d ∧
        (∀ k, 1 ≤ k → k < n → m.shortestOn? k = none) ∧ m.shortest = d.dropZeros) ∧
      ∃ ds q, Literal (writeResult (.finite s m)).toList s ds q ∧ ds.length ≤ 17 ∧
        readOperand (writeResult (.finite s m)) = .finite s m) ∧
    ∀ x, (writeResult x).length ≤ 25 := by
  refine ⟨?_, length_writeResult_le⟩
  intro s m hm
  refine ⟨exists_first hm, m.shortest.numerals, m.shortest.toRat, literal_writeResult s hm,
    (exists_grid hm).2.1, ?_⟩
  rw [readOperand_writeResult, Binary64.written, hm, if_neg Bool.false_ne_true]

/-- Five zeros between the point and 17 digits, and a sign, make the longest result. -/
theorem seventeen_digits_suffice_longest :
    let m : Magnitude := { sig := 0x1167D80248D261, exp := 1003 }
    m.isZero = false ∧
      writeResult (.finite true m) = "-0.0000020749139528992098" ∧
      (writeResult (.finite true m)).length = 25 ∧
      ∃ ds q, Literal (writeResult (.finite true m)).toList true ds q ∧ ds.length ≤ 17 ∧
        readOperand (writeResult (.finite true m)) = .finite true m := by
  intro m
  have hm : m.isZero = false := rfl
  have htext : writeResult (.finite true m) = "-0.0000020749139528992098" := by decide +kernel
  refine ⟨hm, htext, ?_, (seventeen_digits_suffice.1 true m hm).2⟩
  rw [htext]
  decide

end PrefixCalc
