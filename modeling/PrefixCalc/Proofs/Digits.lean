import PrefixCalc.Proofs.Decimal.Minimal
import PrefixCalc.Proofs.Numeral.Literal
import PrefixCalc.Proofs.Result

/-!
# PrefixCalc.Proofs.Digits

The digits of a result.

* `literal_writeResult`: a result other than zero is a literal, whose significant digits and exact
  value are those of the shortest decimal.
* `writeResult_shortest`: no literal that is read as the same number has fewer significant digits,
  or as many and a value that is closer.
-/

namespace PrefixCalc

/-! ## The ends of the digits -/

namespace Decimal

theorem head?_numerals {d : Decimal} (h : 0 < d.digits) : d.numerals.head? ≠ some '0' := by
  intro hhead
  obtain ⟨ds, hds⟩ := List.head?_eq_some_iff.mp hhead
  have hle := le_digits h
  have hlt : Nat.ofDigitChars 10 ds 0 < 10 ^ ds.length := by
    refine ofDigitChars_lt fun c hc => isDigit_numerals (d := d) ?_
    rw [hds]
    exact List.mem_cons_of_mem _ hc
  rw [← ofDigitChars_numerals, hds, Nat.ofDigitChars_cons] at hle
  exact absurd hlt (not_lt.mpr hle)

theorem getLast?_numerals {d : Decimal} (h : d.digits % 10 ≠ 0) :
    d.numerals.getLast? ≠ some '0' := by
  intro hlast
  obtain ⟨ds, hds⟩ := List.getLast?_eq_some_iff.mp hlast
  rw [← ofDigitChars_numerals, hds, Nat.ofDigitChars_append, Nat.ofDigitChars_cons,
    Nat.ofDigitChars_nil] at h
  exact h (Nat.mul_mod_right _ _)

theorem not_dropZeros (d : Decimal) : ¬ (0 < d.dropZeros.digits ∧ d.dropZeros.digits % 10 = 0) := by
  fun_induction dropZeros d with
  | case1 d h ih => exact ih
  | case2 d h => exact h

end Decimal

namespace Magnitude

theorem shortest_digits_pos {m : Magnitude} (hm : m.isZero = false) : 0 < m.shortest.digits :=
  Decimal.digits_pos_of_nearest? m.nearest?_shortest hm

theorem shortest_ends {m : Magnitude} (hm : m.isZero = false) :
    m.shortest.numerals.head? ≠ some '0' ∧ m.shortest.numerals.getLast? ≠ some '0' := by
  have hpos := shortest_digits_pos hm
  refine ⟨Decimal.head?_numerals hpos, Decimal.getLast?_numerals fun hzero => ?_⟩
  rw [shortest] at hpos hzero
  exact Decimal.not_dropZeros _ ⟨hpos, hzero⟩

end Magnitude

/-! ## The literal of a result -/

/-- The significant digits and the exact value of a literal without its sign. -/
def Unsigned.Spells (u : Unsigned) (ds : List Char) (q : ℚ) : Prop :=
  ∃ whole fraction exponent, u = .decimal whole fraction exponent ∧
    significant (whole ++ fraction.getD []) = ds ∧
      (writtenDecimal whole fraction exponent).toRat = q

theorem Grammar.Literal.of_spells {u : Unsigned} {ds : List Char} {q : ℚ} (negative : Bool)
    (hwf : u.WellFormed) (h : u.Spells ds q) :
    Literal (Numeral.signed negative u).spelling negative ds q := by
  obtain ⟨whole, fraction, exponent, rfl, rfl, rfl⟩ := h
  have hsign : Sign.isNegative (Numeral.signed negative (.decimal whole fraction exponent)).sign =
      negative := by
    cases negative <;> rfl
  have hliteral := Literal.decimal
    (Numeral.signed negative (.decimal whole fraction exponent)).sign hwf
  rwa [hsign] at hliteral

namespace Layout

section Ends

variable (f : Layout) {d : Decimal} (hhead : d.numerals.head? ≠ some '0')
  (hlast : d.numerals.getLast? ≠ some '0')

include hhead hlast

theorem positionalNumeral_spells :
    (f.positionalNumeral d.numerals d.point).Spells d.numerals d.toRat := by
  unfold positionalNumeral
  split
  · rename_i h
    refine ⟨_, _, none, rfl, ?_, congrArg Decimal.toRat (toDecimal_before h)⟩
    have hzeros := significant_zeros (1 + (-d.point).toNat) 0 hhead hlast
    rwa [zeros_add, zeros_zero, List.append_nil, List.append_assoc] at hzeros
  · rename_i h₀
    split
    · rename_i h₁
      refine ⟨_, _, none, rfl, ?_, congrArg Decimal.toRat (toDecimal_inside (by omega) h₁)⟩
      have hzeros := significant_zeros 0 0 hhead hlast
      rw [Option.getD_some, List.take_append_drop]
      rwa [zeros_zero, List.nil_append, List.append_nil] at hzeros
    · rename_i h₁
      obtain ⟨j, hj⟩ : ∃ j, (if f.pointZero then some ['0'] else none).getD [] = zeros j := by
        cases f.pointZero
        · exact ⟨0, rfl⟩
        · exact ⟨1, rfl⟩
      refine ⟨_, _, none, rfl, ?_, toRat_behind (by omega) _ j hj⟩
      have hzeros := significant_zeros 0 (d.point.toNat - d.numerals.length + j) hhead hlast
      rw [hj]
      rwa [zeros_zero, List.nil_append, zeros_add, ← List.append_assoc] at hzeros

theorem scientificNumeral_spells (h : (d.point - 1).natAbs < 65536) :
    (f.scientificNumeral d.numerals d.point).Spells d.numerals d.toRat := by
  have hread := toDecimal_scientific f h
  have hpos := d.length_numerals_pos
  refine ⟨_, _, _, rfl, ?_, ?_⟩
  · have hzeros := significant_zeros 0 0 hhead hlast
    rw [zeros_zero, List.nil_append, List.append_nil] at hzeros
    split
    · rename_i hle
      rwa [Option.getD_none, List.append_nil, List.take_of_length_le hle]
    · rwa [Option.getD_some, List.take_append_drop]
  · -- So small an exponent is read as it is written.
    have hcases := Unsigned.toDecimal_cases (d.numerals.take 1)
      (if d.numerals.length ≤ 1 then none else some (d.numerals.drop 1))
      (some (f.exponentPart (d.point - 1)))
    have hplaces : (((if d.numerals.length ≤ 1 then none else some (d.numerals.drop 1)).getD
        []).length : Int) = d.numerals.length - 1 := by
      split
      · rw [Option.getD_none, List.length_nil]
        omega
      · rw [Option.getD_some, List.length_drop]
        omega
    dsimp only at hcases
    rw [hread, hplaces] at hcases
    rw [Decimal.point] at h
    rcases hcases with hsame | ⟨hlarge, -⟩ | ⟨hsmall, -⟩
    · rw [← hsame]
    · omega
    · omega

end Ends

theorem magnitudeNumeral_spells (f : Layout) {m : Magnitude} (hm : m.isZero = false) :
    (f.magnitudeNumeral m).Spells m.shortest.numerals m.shortest.toRat := by
  have hpoint := Decimal.point_bounds m.nearest?_shortest hm
  obtain ⟨hhead, hlast⟩ := Magnitude.shortest_ends hm
  rw [magnitudeNumeral]
  split
  · exact positionalNumeral_spells f hhead hlast
  · exact scientificNumeral_spells f hhead hlast (by omega)

end Layout

open Grammar

theorem literal_writeResult (s : Bool) {m : Magnitude} (hm : m.isZero = false) :
    Literal (writeResult (.finite s m)).toList s m.shortest.numerals m.shortest.toRat := by
  have hnumeral : (Binary64.finite s m).numeral? =
      some (.signed s (resultLayout.magnitudeNumeral m)) := by
    rw [Binary64.numeral?, hm, if_neg Bool.false_ne_true]
  rw [Binary64.numeral?_spelling hnumeral]
  exact Literal.of_spells s (resultLayout.magnitudeNumeral_wellFormed m)
    (resultLayout.magnitudeNumeral_spells hm)

/-! ## Literals that are read as a magnitude -/

theorem Decimal.toBinary64_eq_finite {d : Decimal} {negative s : Bool} {m : Magnitude}
    (h : d.toBinary64 negative = .finite s m) : negative = s ∧ d.nearest? = some m := by
  cases hd : d.nearest? with
  | none =>
    have hinfinite : d.toBinary64 negative = .infinite negative := Binary64.rounded_of_none hd _
    rw [hinfinite] at h
    cases h
  | some n =>
    rw [toBinary64_of_nearest? negative hd] at h
    cases h
    exact ⟨rfl, rfl⟩

/-- The decimal that is read from a literal, with no more digits than the significant ones. -/
theorem Unsigned.exists_significant {whole : List Char} {fraction : Option (List Char)}
    (exponent : Option ExponentPart) (h : ∀ c ∈ whole ++ fraction.getD [], c.isDigit = true) :
    ∃ c : Decimal, c.digits < 10 ^ (significant (whole ++ fraction.getD [])).length ∧
      c.toRat = (toDecimal whole fraction exponent).toRat := by
  obtain ⟨k, hk⟩ := ofDigitChars_significant (whole ++ fraction.getD [])
  refine ⟨⟨Nat.ofDigitChars 10 (significant (whole ++ fraction.getD [])) 0,
    k + (toDecimal whole fraction exponent).exp⟩, ofDigitChars_lt (isDigit_significant h), ?_⟩
  have hdigits : (toDecimal whole fraction exponent).digits =
      Nat.ofDigitChars 10 (significant (whole ++ fraction.getD [])) 0 * 10 ^ k := hk
  rw [Decimal.toRat, Decimal.toRat, hdigits, zpow_add₀ (by norm_num), zpow_natCast]
  push_cast
  ring

/-- What is read from a literal is as close as the literal, because the literal is the same number
or far away. -/
theorem Unsigned.abs_toDecimal_sub_le {whole : List Char} {fraction : Option (List Char)}
    {exponent : Option ExponentPart} {m : Magnitude} (hm : m.isZero = false)
    (h : (toDecimal whole fraction exponent).nearest? = some m) :
    |(toDecimal whole fraction exponent).toRat - m.toRat| ≤
      |(writtenDecimal whole fraction exponent).toRat - m.toRat| := by
  have hhalf := Decimal.abs_toRat_sub_le h hm
  have hcases := toRat_writtenDecimal_cases whole fraction exponent
  have hpos := Magnitude.toRat_pos hm
  dsimp only at hcases
  generalize (toDecimal whole fraction exponent).toRat = read at *
  generalize (writtenDecimal whole fraction exponent).toRat = written at *
  rw [abs_sub_comm] at hhalf
  obtain ⟨hlow, hhigh⟩ := abs_le.mp hhalf
  rcases hcases with hsame | hfar | hfar
  · rw [hsame]
  · exact hhalf.trans ((by linarith : m.toRat / 2 ≤ written - m.toRat).trans (le_abs_self _))
  · exact hhalf.trans ((by linarith : m.toRat / 2 ≤ -(written - m.toRat)).trans (neg_le_abs _))

/-- The digits of a result are the fewest that are read back, and the closest of the fewest: no word
that starts with a literal of fewer significant digits is read as the number, and if it has as many,
the literal is not closer to the number. -/
theorem writeResult_shortest {s : Bool} {m : Magnitude} (hm : m.isZero = false) :
    readOperand (writeResult (.finite s m)) = .finite s m ∧
      ∃ ds q, Literal (writeResult (.finite s m)).toList s ds q ∧
        ∀ t p negative ds' q', IsLongest (afterPadding t) p → Literal p negative ds' q' →
          readOperand t = .finite s m →
            negative = s ∧ ds.length ≤ ds'.length ∧
              (ds'.length = ds.length → |q - m.toRat| ≤ |q' - m.toRat|) := by
  refine ⟨by rw [readOperand_writeResult, Binary64.written, hm, if_neg Bool.false_ne_true],
    m.shortest.numerals, m.shortest.toRat, literal_writeResult s hm, ?_⟩
  intro t p negative ds' q' hp hliteral hread
  cases hliteral with
  | @decimal sign whole fraction exponent hwf =>
    rw [readOperand_decimal hwf hp] at hread
    obtain ⟨hsign, hnearest⟩ := Decimal.toBinary64_eq_finite hread
    obtain ⟨c, hc, hvalue⟩ := Unsigned.exists_significant exponent hwf.isDigit
    have hround : c.nearest? = some m := by rw [Decimal.nearest?_eq_of_toRat_eq hvalue, hnearest]
    refine ⟨hsign, Magnitude.length_shortest_le hm hc hround, ?_⟩
    intro hlength
    rw [hlength] at hc
    calc |m.shortest.toRat - m.toRat| ≤ |c.toRat - m.toRat| :=
          Magnitude.shortest_closest hm hc hround
      _ = |(Unsigned.toDecimal whole fraction exponent).toRat - m.toRat| := by rw [hvalue]
      _ ≤ |(Unsigned.writtenDecimal whole fraction exponent).toRat - m.toRat| :=
          Unsigned.abs_toDecimal_sub_le hm hnearest

/-- What a tenth and two tenths add up to is not read from any literal of sixteen digits. -/
theorem writeResult_shortest_seventeen :
    Magnitude.isZero { sig := 0x13333333333334, exp := 1020 } = false ∧
      ∃ ds q, Literal "0.30000000000000004".toList false ds q ∧ ds.length = 17 ∧
        ∀ t p negative ds' q', IsLongest (afterPadding t) p → Literal p negative ds' q' →
          readOperand t = .finite false { sig := 0x13333333333334, exp := 1020 } →
            17 ≤ ds'.length := by
  have hm : Magnitude.isZero { sig := 0x13333333333334, exp := 1020 } = false := rfl
  have htext : writeResult (.finite false { sig := 0x13333333333334, exp := 1020 }) =
      "0.30000000000000004" := by decide +kernel
  obtain ⟨-, ds, q, hliteral, hshortest⟩ := writeResult_shortest (s := false) hm
  rw [htext] at hliteral
  have hscan : Numeral.scan "0.30000000000000004".toList = some
      ({ sign := none
         unsigned := .decimal ['0'] (some "30000000000000004".toList) none }, []) := by decide
  obtain ⟨-, hds, -⟩ := hliteral.unique (Literal.decimal none (Numeral.scan_wellFormed hscan))
  have hlength : ds.length = 17 := by
    rw [hds]
    decide
  refine ⟨hm, ds, q, hliteral, hlength, ?_⟩
  intro t p negative ds' q' hp hq hread
  rw [← hlength]
  exact (hshortest t p negative ds' q' hp hq hread).2.1

end PrefixCalc
