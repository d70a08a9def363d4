import PrefixCalc.Proofs.Digits

/-!
# PrefixCalc.Proofs.ResultLayout

Where the point of a result stands.

* `toRat_le_iff_shortest`: magnitudes stand in the order of their shortest decimals, so that to
  compare with one that is written as a power of ten is to look at the point.
* `writeResult_layout`: the layout of a result is decided by its digits and its point alone.
-/

namespace PrefixCalc

/-! ## Powers of ten -/

theorem Decimal.ten_zpow_le_toRat_iff {d : Decimal} (hd : 0 < d.digits) {e : ℤ} :
    (10 : ℚ) ^ e ≤ d.toRat ↔ e < d.point := by
  constructor
  · intro h
    exact (zpow_lt_zpow_iff_right₀ (by norm_num)).mp (h.trans_lt d.toRat_lt)
  · intro h
    exact (zpow_le_zpow_right₀ (by norm_num) (by omega)).trans (le_toRat hd)

/-- The value of the digits, counted from the point. -/
theorem Decimal.toRat_eq_point (d : Decimal) :
    d.toRat = Nat.ofDigitChars 10 d.numerals 0 * 10 ^ (d.point - d.numerals.length) := by
  rw [ofDigitChars_numerals, point, add_sub_cancel_left, toRat]

namespace Magnitude

theorem toRat_le_toRat {m n : Magnitude} : m.toRat ≤ n.toRat ↔ m.units ≤ n.units := by
  rw [toRat, toRat, div_le_div_iff_of_pos_right unitsPerOne_pos, Nat.cast_le]

/-- The shortest decimals stand in the same order as the magnitudes. -/
theorem toRat_le_iff_shortest {m n : Magnitude} :
    m.toRat ≤ n.toRat ↔ m.shortest.toRat ≤ n.shortest.toRat := by
  constructor
  · intro hle
    by_contra hlt
    rw [not_le] at hlt
    have hge := Decimal.nearest?_mono hlt.le n.nearest?_shortest m.nearest?_shortest
    obtain rfl := eq_of_toRat_eq (le_antisymm hle hge)
    exact lt_irrefl _ hlt
  · intro hle
    exact Decimal.nearest?_mono hle m.nearest?_shortest n.nearest?_shortest

section PowerOfTen

variable {b : Magnitude} {e : ℤ} (hb : b.shortest = { digits := 1, exp := e })

include hb

theorem toRat_shortest_eq_zpow : b.shortest.toRat = 10 ^ e := by
  rw [hb, Decimal.toRat, Nat.cast_one, one_mul]

theorem isNearest_zpow : IsNearest ((10 : ℚ) ^ e) b := by
  rw [← toRat_shortest_eq_zpow hb]
  exact Decimal.isNearest b.nearest?_shortest

/-- To compare with a magnitude that is written as a power of ten, the point is enough. -/
theorem toRat_le_iff_lt_point {m : Magnitude} (hm : m.isZero = false) :
    b.toRat ≤ m.toRat ↔ e < m.shortest.point := by
  rw [toRat_le_iff_shortest, toRat_shortest_eq_zpow hb,
    Decimal.ten_zpow_le_toRat_iff (shortest_digits_pos hm)]

end PowerOfTen

end Magnitude

/-! ## The layout of results -/

theorem shortest_positionalFrom :
    resultLayout.positionalFrom.shortest = { digits := 1, exp := -6 } := by decide +kernel

theorem shortest_positionalBelow :
    resultLayout.positionalBelow.shortest = { digits := 1, exp := 21 } := by decide +kernel

open Grammar Magnitude

theorem positional_range_iff {m : Magnitude} (hm : m.isZero = false) :
    resultLayout.positionalFrom.toRat ≤ m.toRat ∧ m.toRat < resultLayout.positionalBelow.toRat ↔
      -6 < m.shortest.point ∧ m.shortest.point ≤ 21 := by
  rw [← not_le, toRat_le_iff_lt_point shortest_positionalFrom hm,
    toRat_le_iff_lt_point shortest_positionalBelow hm, not_lt]

theorem isPositional_iff {m : Magnitude} (hm : m.isZero = false) :
    resultLayout.isPositional m = true ↔ -6 < m.shortest.point ∧ m.shortest.point ≤ 21 := by
  rw [← positional_range_iff hm, Layout.isPositional, Bool.and_eq_true, decide_eq_true_iff,
    decide_eq_true_iff, ← not_le, ← toRat_le_toRat, ← toRat_le_toRat, not_le]

theorem toList_writeResult (s : Bool) {m : Magnitude} (hm : m.isZero = false) :
    (writeResult (.finite s m)).toList = Layout.sign s ++ resultLayout.magnitude m := by
  rw [writeResult, Layout.write, String.toList_ofList, Layout.chars, hm, if_neg Bool.false_ne_true]

/-- The digits of a result and the place of its point are unique. -/
theorem digits_of_literal {s : Bool} {m : Magnitude} (hm : m.isZero = false) {ds : List Char}
    {n : Int} (h : Literal (writeResult (.finite s m)).toList s ds
      (Nat.ofDigitChars 10 ds 0 * 10 ^ (n - ds.length))) :
    ds = m.shortest.numerals ∧ n = m.shortest.point := by
  obtain ⟨-, rfl, hvalue⟩ := h.unique (literal_writeResult s hm)
  have hdigits : (m.shortest.digits : ℚ) ≠ 0 := Nat.cast_ne_zero.mpr (shortest_digits_pos hm).ne'
  rw [Decimal.toRat_eq_point, Decimal.ofDigitChars_numerals, mul_right_inj' hdigits] at hvalue
  have hexp := zpow_right_injective₀ (by norm_num) (by norm_num) hvalue
  exact ⟨rfl, by omega⟩

section Positional

variable {m : Magnitude} (hm : m.isZero = false)

include hm

theorem magnitude_behind (h : (m.shortest.numerals.length : Int) ≤ m.shortest.point)
    (h' : m.shortest.point ≤ 21) : resultLayout.magnitude m =
      m.shortest.numerals ++ zeros (m.shortest.point.toNat - m.shortest.numerals.length) := by
  have hlen := m.shortest.length_numerals_pos
  rw [Layout.magnitude, if_pos ((isPositional_iff hm).mpr (by omega)), Layout.positional,
    if_neg (by omega), if_neg (by omega)]
  exact List.append_nil _

theorem magnitude_inside (h : 0 < m.shortest.point) (h' : m.shortest.point ≤ 21)
    (hlen : m.shortest.point < m.shortest.numerals.length) : resultLayout.magnitude m =
      m.shortest.numerals.take m.shortest.point.toNat ++
        '.' :: m.shortest.numerals.drop m.shortest.point.toNat := by
  rw [Layout.magnitude, if_pos ((isPositional_iff hm).mpr (by omega)), Layout.positional,
    if_neg (by omega), if_pos hlen]

theorem magnitude_before (h : -6 < m.shortest.point) (h' : m.shortest.point ≤ 0) :
    resultLayout.magnitude m =
      '0' :: '.' :: zeros (-m.shortest.point).toNat ++ m.shortest.numerals := by
  rw [Layout.magnitude, if_pos ((isPositional_iff hm).mpr (by omega)), Layout.positional, if_pos h',
    List.cons_append, List.cons_append]

theorem magnitude_scientific (h : m.shortest.point ≤ -6 ∨ 21 < m.shortest.point) :
    resultLayout.magnitude m = m.shortest.numerals.take 1 ++
      (if 1 < m.shortest.numerals.length then '.' :: m.shortest.numerals.drop 1 else []) ++
        'e' :: (if m.shortest.point - 1 < 0 then '-' else '+') ::
          Nat.toDigits 10 (m.shortest.point - 1).natAbs := by
  have hnot : ¬ resultLayout.isPositional m = true := by
    rw [isPositional_iff hm]
    omega
  have hexponent : resultLayout.exponent (m.shortest.point - 1) =
      (if m.shortest.point - 1 < 0 then '-' else '+') ::
        Nat.toDigits 10 (m.shortest.point - 1).natAbs := by
    rw [Layout.exponent]
    split <;> rfl
  rw [Layout.magnitude, if_neg hnot, Layout.scientific, hexponent]
  simp only [← not_lt, ite_not]

end Positional

/-- The digits of a result and the place `n` of its point, counted from the left end of the digits,
decide how it is written: positionally from a first digit at the sixth place behind the point to 21
digits in front of it, and with a signed exponent otherwise. Comparing the number with the
magnitudes nearest `1e-6` and `1e21` comes to the same, though the former is not the power of ten
itself. -/
theorem writeResult_layout {s : Bool} {m : Magnitude} (hm : m.isZero = false) :
    (IsNearest ((10 : ℚ) ^ (-6 : ℤ)) resultLayout.positionalFrom ∧
        IsNearest ((10 : ℚ) ^ (21 : ℤ)) resultLayout.positionalBelow) ∧
      (∃ ds n, Literal (writeResult (.finite s m)).toList s ds
        (Nat.ofDigitChars 10 ds 0 * 10 ^ (n - ds.length : ℤ))) ∧
      ∀ (ds : List Char) (n : Int), Literal (writeResult (.finite s m)).toList s ds
          (Nat.ofDigitChars 10 ds 0 * 10 ^ (n - ds.length)) →
        (ds ≠ [] ∧ (∀ c ∈ ds, c.isDigit = true) ∧ ds.head? ≠ some '0' ∧ ds.getLast? ≠ some '0') ∧
        (ds.length ≤ n → n ≤ 21 → (writeResult (.finite s m)).toList =
          Layout.sign s ++ (ds ++ zeros (n.toNat - ds.length))) ∧
        (0 < n → n ≤ 21 → n < ds.length → (writeResult (.finite s m)).toList =
          Layout.sign s ++ (ds.take n.toNat ++ '.' :: ds.drop n.toNat)) ∧
        (-6 < n → n ≤ 0 → (writeResult (.finite s m)).toList =
          Layout.sign s ++ ('0' :: '.' :: zeros (-n).toNat ++ ds)) ∧
        (n ≤ -6 ∨ 21 < n → (writeResult (.finite s m)).toList =
          Layout.sign s ++ (ds.take 1 ++ (if 1 < ds.length then '.' :: ds.drop 1 else []) ++
            'e' :: (if n - 1 < 0 then '-' else '+') :: Nat.toDigits 10 (n - 1).natAbs)) ∧
        (resultLayout.positionalFrom.toRat ≤ m.toRat ∧
          m.toRat < resultLayout.positionalBelow.toRat ↔ -6 < n ∧ n ≤ 21) := by
  refine ⟨⟨isNearest_zpow shortest_positionalFrom, isNearest_zpow shortest_positionalBelow⟩,
    ⟨m.shortest.numerals, m.shortest.point, ?_⟩, ?_⟩
  · rw [← Decimal.toRat_eq_point]
    exact literal_writeResult s hm
  intro ds n h
  obtain ⟨rfl, rfl⟩ := digits_of_literal hm h
  rw [toList_writeResult s hm]
  refine ⟨⟨Decimal.numerals_ne_nil _, fun c hc => Decimal.isDigit_numerals hc, shortest_ends hm⟩,
    ?_, ?_, ?_, ?_, positional_range_iff hm⟩
  · intro hbehind hpoint
    rw [magnitude_behind hm hbehind hpoint]
  · intro hpos hpoint hinside
    rw [magnitude_inside hm hpos hpoint hinside]
  · intro hpoint hbefore
    rw [magnitude_before hm hpoint hbefore]
  · intro hfar
    rw [magnitude_scientific hm hfar]

/-- The greatest magnitude below the one that is written as `0.000001`. -/
theorem writeResult_layout_below_millionth :
    Magnitude.isZero { sig := 0x10C6F7A0B5ED8C, exp := 1002 } = false ∧
      Literal (writeResult (.finite true { sig := 0x10C6F7A0B5ED8C, exp := 1002 })).toList true
        "9999999999999997".toList
        (Nat.ofDigitChars 10 "9999999999999997".toList 0 *
          10 ^ ((-6 : ℤ) - "9999999999999997".toList.length)) ∧
      (writeResult (.finite true { sig := 0x10C6F7A0B5ED8C, exp := 1002 })).toList =
        ['-'] ++ (['9'] ++ '.' :: "999999999999997".toList ++ ['e', '-', '7']) := by
  have hm : Magnitude.isZero { sig := 0x10C6F7A0B5ED8C, exp := 1002 } = false := rfl
  have htext : (writeResult (.finite true { sig := 0x10C6F7A0B5ED8C, exp := 1002 })).toList =
      "-9.999999999999997e-7".toList := by decide +kernel
  have hscan : Numeral.scan "-9.999999999999997e-7".toList = some
      ({ sign := some .minus
         unsigned := .decimal ['9'] (some "999999999999997".toList)
          (some { mark := 'e', sign := some .minus, digits := ['7'] }) }, []) := by decide
  have hliteral := Literal.decimal (some .minus) (Numeral.scan_wellFormed hscan)
  have hdigits : significant (['9'] ++ (some "999999999999997".toList).getD []) =
      "9999999999999997".toList := by decide
  have hvalue : (Unsigned.writtenDecimal ['9'] (some "999999999999997".toList)
      (some { mark := 'e', sign := some .minus, digits := ['7'] })).toRat =
        Nat.ofDigitChars 10 "9999999999999997".toList 0 *
          10 ^ ((-6 : ℤ) - "9999999999999997".toList.length) := by
    rw [Decimal.toRat]
    congr
  have hspelling : Sign.spelling (some .minus) ++ Unsigned.spelling (.decimal ['9']
      (some "999999999999997".toList)
        (some { mark := 'e', sign := some .minus, digits := ['7'] })) =
          "-9.999999999999997e-7".toList := by decide
  rw [hdigits, hvalue, hspelling, ← htext] at hliteral
  obtain ⟨-, -, -, -, hscientific, -⟩ := (writeResult_layout hm).2.2 _ _ hliteral
  exact ⟨hm, hliteral, hscientific (.inl (le_refl _))⟩

end PrefixCalc
