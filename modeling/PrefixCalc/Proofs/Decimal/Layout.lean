import PrefixCalc.Decimal.Layout
import PrefixCalc.Numeral.Basic
import PrefixCalc.Proofs.Decimal.Shortest

/-!
# PrefixCalc.Proofs.Decimal.Layout

What a layout writes is a numeral.

* `positionalNumeral`, `scientificNumeral`: the numerals that the two forms spell, each worth as
  much as its digits and point.
* `magnitudeNumeral_value`: what is written for a magnitude other than zero has that magnitude for
  its value, in every layout.
-/

namespace PrefixCalc

/-! ## Digits that are written and read -/

theorem ofDigitChars_zeros (ds : List Char) (k init : Nat) :
    Nat.ofDigitChars 10 (ds ++ zeros k) init = Nat.ofDigitChars 10 ds init * 10 ^ k := by
  rw [Nat.ofDigitChars_append, zeros, Nat.ofDigitChars_replicate_zero, Nat.mul_comm]

theorem zeros_ofDigitChars (k : Nat) (ds : List Char) :
    Nat.ofDigitChars 10 (zeros k ++ ds) 0 = Nat.ofDigitChars 10 ds 0 := by
  rw [Nat.ofDigitChars_append, zeros, Nat.ofDigitChars_replicate_zero, Nat.mul_zero]

theorem isDigit_zeros {k : Nat} {c : Char} (hc : c ∈ zeros k) : c.isDigit = true := by
  rw [List.eq_of_mem_replicate hc]
  rfl

namespace Decimal

theorem isDigit_numerals {d : Decimal} {c : Char} (hc : c ∈ d.numerals) : c.isDigit = true :=
  Nat.isDigit_of_mem_toDigits (by decide) (by decide) hc

theorem numerals_ne_nil (d : Decimal) : d.numerals ≠ [] := Nat.toDigits_ne_nil

theorem ofDigitChars_numerals (d : Decimal) : Nat.ofDigitChars 10 d.numerals 0 = d.digits :=
  Nat.ofDigitChars_ten_toDigits

end Decimal

namespace ExponentPart

theorem le_ofDigitChars (ds : List Char) (init : Nat) : init ≤ Nat.ofDigitChars 10 ds init := by
  induction ds generalizing init with
  | nil => simp
  | cons c ds ih =>
    rw [Nat.ofDigitChars_cons]
    have := ih (10 * init + (c.toNat - '0'.toNat))
    omega

theorem foldl_grow_of_le (ds : List Char) {init : Nat} (h : 65536 ≤ init) :
    ds.foldl grow init = init := by
  induction ds with
  | nil => rfl
  | cons c ds ih => rw [List.foldl_cons, grow, if_neg (by omega), ih]

/-- The digits are read to their end, or up to one that passes 65535. -/
theorem foldl_grow_cases (ds : List Char) (init : Nat) :
    ds.foldl grow init = Nat.ofDigitChars 10 ds init ∨
      65536 ≤ ds.foldl grow init ∧ ds.foldl grow init < Nat.ofDigitChars 10 ds init := by
  induction ds generalizing init with
  | nil => exact .inl rfl
  | cons c ds ih =>
    rw [List.foldl_cons, Nat.ofDigitChars_cons, grow]
    split
    · exact ih _
    · rename_i hinit
      have hgrow := le_ofDigitChars ds (10 * init + (c.toNat - '0'.toNat))
      rw [foldl_grow_of_le ds (by omega)]
      omega

/-- An exponent that stays below the limit is read digit by digit. -/
theorem foldl_grow (ds : List Char) (init : Nat) (h : Nat.ofDigitChars 10 ds init < 65536) :
    ds.foldl grow init = Nat.ofDigitChars 10 ds init := by
  have := foldl_grow_cases ds init
  omega

theorem foldl_grow_toDigits {n : Nat} (h : n < 65536) : (Nat.toDigits 10 n).foldl grow 0 = n := by
  rw [foldl_grow] <;> rw [Nat.ofDigitChars_ten_toDigits]
  exact h

end ExponentPart

namespace Layout

/-- The exponent of a number whose point stands after its first digit. -/
def exponentPart (f : Layout) (e : Int) : ExponentPart where
  mark := 'e'
  sign := if e < 0 then some .minus else if f.exponentPlus then some .plus else none
  digits := Nat.toDigits 10 e.natAbs

def positionalNumeral (f : Layout) (ds : List Char) (point : Int) : Unsigned :=
  if point ≤ 0 then .decimal ['0'] (some (zeros (-point).toNat ++ ds)) none
  else if point < ds.length then
    .decimal (ds.take point.toNat) (some (ds.drop point.toNat)) none
  else
    .decimal (ds ++ zeros (point.toNat - ds.length)) (if f.pointZero then some ['0'] else none) none

def scientificNumeral (f : Layout) (ds : List Char) (point : Int) : Unsigned :=
  .decimal (ds.take 1) (if ds.length ≤ 1 then none else some (ds.drop 1))
    (some (f.exponentPart (point - 1)))

theorem exponentPart_spelling (f : Layout) (e : Int) :
    (f.exponentPart e).spelling = 'e' :: f.exponent e := by
  simp only [ExponentPart.spelling, exponentPart, exponent]
  split
  · rfl
  · split <;> rfl

theorem exponentPart_wellFormed (f : Layout) (e : Int) : (f.exponentPart e).WellFormed where
  mark := .inl rfl
  digits := fun _ hc => Nat.isDigit_of_mem_toDigits (by decide) (by decide) hc
  some_digit := Nat.toDigits_ne_nil

theorem exponentPart_value (f : Layout) {e : Int} (h : e.natAbs < 65536) :
    (f.exponentPart e).value = e := by
  have hmag : (f.exponentPart e).magnitude = e.natAbs := ExponentPart.foldl_grow_toDigits h
  rw [ExponentPart.value, hmag]
  by_cases he : e < 0
  · simp only [exponentPart, if_pos he, Sign.isNegative, ↓reduceIte]
    omega
  · have hneg : Sign.isNegative (f.exponentPart e).sign = false := by
      simp only [exponentPart, if_neg he]
      split <;> rfl
    rw [hneg]
    simp only [Bool.false_eq_true, ↓reduceIte]
    omega

theorem positionalNumeral_spelling (f : Layout) (ds : List Char) (point : Int) :
    (f.positionalNumeral ds point).spelling = f.positional ds point := by
  unfold positionalNumeral positional
  split
  · simp [Unsigned.spelling, Unsigned.fractionSpelling]
  · split
    · simp [Unsigned.spelling, Unsigned.fractionSpelling]
    · cases hp : f.pointZero <;> simp [Unsigned.spelling, Unsigned.fractionSpelling]

theorem scientificNumeral_spelling (f : Layout) (ds : List Char) (point : Int) :
    (f.scientificNumeral ds point).spelling = f.scientific ds point := by
  simp only [scientificNumeral, scientific, Unsigned.spelling, Option.map_some, Option.getD_some,
    exponentPart_spelling]
  split <;> rfl

section Digits

variable (f : Layout) {ds : List Char} (hds : ∀ c ∈ ds, c.isDigit = true) (hne : ds ≠ [])
include hds hne

theorem positionalNumeral_wellFormed (point : Int) :
    (f.positionalNumeral ds point).WellFormed := by
  unfold positionalNumeral
  split
  · refine .decimal ?_ (by simp) (by simp)
    simp only [Option.getD_some, List.forall_mem_append, List.forall_mem_singleton]
    exact ⟨rfl, fun c hc => isDigit_zeros hc, hds⟩
  · split
    · refine .decimal ?_ ?_ (by simp)
      · rw [Option.getD_some, List.take_append_drop]
        exact hds
      · rw [Option.getD_some, List.take_append_drop]
        exact hne
    · refine .decimal ?_ (by simp [hne]) (by simp)
      intro c hc
      rw [List.mem_append, List.mem_append] at hc
      rcases hc with (hc | hc) | hc
      · exact hds c hc
      · exact isDigit_zeros hc
      · split at hc
        · rw [List.mem_singleton.mp hc]
          rfl
        · cases hc

theorem scientificNumeral_wellFormed (point : Int) :
    (f.scientificNumeral ds point).WellFormed := by
  have hsplit : ds.take 1 ++ (if ds.length ≤ 1 then none else some (ds.drop 1)).getD [] = ds := by
    split
    · rename_i h
      rw [Option.getD_none, List.append_nil, List.take_of_length_le h]
    · rw [Option.getD_some, List.take_append_drop]
  refine .decimal ?_ ?_ ?_
  · rwa [hsplit]
  · rwa [hsplit]
  · intro e he
    cases he
    exact exponentPart_wellFormed f _

end Digits

/-! ## What the forms are worth -/

theorem toDecimal_inside {d : Decimal} (h₀ : 0 < d.point) (h₁ : d.point < d.numerals.length) :
    Unsigned.toDecimal (d.numerals.take d.point.toNat) (some (d.numerals.drop d.point.toNat)) none =
      d := by
  have hexp : (0 : Int) - (d.numerals.drop d.point.toNat).length = d.exp := by
    rw [List.length_drop]
    rw [Decimal.point] at h₀ h₁ ⊢
    omega
  simp only [Unsigned.toDecimal, Option.getD_some, List.take_append_drop, Option.map_none,
    Option.getD_none, Decimal.ofDigitChars_numerals, hexp]

theorem toDecimal_before {d : Decimal} (h : d.point ≤ 0) :
    Unsigned.toDecimal ['0'] (some (zeros (-d.point).toNat ++ d.numerals)) none = d := by
  have hexp : (0 : Int) - (zeros (-d.point).toNat ++ d.numerals).length = d.exp := by
    rw [List.length_append, zeros, List.length_replicate]
    rw [Decimal.point] at h ⊢
    omega
  have hdigits : Nat.ofDigitChars 10 (['0'] ++ (zeros (-d.point).toNat ++ d.numerals)) 0 =
      d.digits := by
    rw [List.singleton_append, Nat.ofDigitChars_cons, ← Decimal.ofDigitChars_numerals d]
    exact zeros_ofDigitChars _ _
  simp only [Unsigned.toDecimal, Option.getD_some, Option.map_none, Option.getD_none, hdigits, hexp]

/-- Zeros that fill up to the point and one behind it change the digits, but not their value. -/
theorem toRat_behind {d : Decimal} (h : d.numerals.length ≤ d.point) (fraction : Option (List Char))
    (j : Nat) (hj : fraction.getD [] = zeros j) :
    (Unsigned.toDecimal (d.numerals ++ zeros (d.point.toNat - d.numerals.length)) fraction
      none).toRat = d.toRat := by
  have hexp : ((d.point.toNat - d.numerals.length : ℕ) : ℤ) = d.exp := by
    rw [Decimal.point] at h ⊢
    omega
  simp only [Unsigned.toDecimal, hj, Option.map_none, Option.getD_none, Decimal.toRat,
    ofDigitChars_zeros, Decimal.ofDigitChars_numerals, ← hexp]
  rw [zeros, List.length_replicate, zero_sub, zpow_neg, zpow_natCast, zpow_natCast]
  push_cast
  field_simp

theorem positionalNumeral_value (f : Layout) (d : Decimal) (negative : Bool) :
    (f.positionalNumeral d.numerals d.point).value negative = d.toBinary64 negative := by
  unfold positionalNumeral
  split
  · rename_i h
    rw [Unsigned.value, toDecimal_before h]
  · rename_i h₀
    split
    · rename_i h₁
      rw [Unsigned.value, toDecimal_inside (by omega) h₁]
    · rename_i h₁
      rw [Unsigned.value]
      apply Decimal.toBinary64_eq_of_toRat_eq
      cases f.pointZero
      · exact toRat_behind (by omega) _ 0 rfl
      · exact toRat_behind (by omega) _ 1 rfl

theorem toDecimal_scientific (f : Layout) {d : Decimal} (h : (d.point - 1).natAbs < 65536) :
    Unsigned.toDecimal (d.numerals.take 1)
      (if d.numerals.length ≤ 1 then none else some (d.numerals.drop 1))
      (some (f.exponentPart (d.point - 1))) = d := by
  have hpos := d.length_numerals_pos
  have hexp : d.point - 1 - (d.numerals.length - 1 : Nat) = d.exp := by
    rw [Decimal.point]
    omega
  simp only [Unsigned.toDecimal, Option.map_some, Option.getD_some, exponentPart_value f h]
  split
  · rename_i hle
    have hlen : d.numerals.length - 1 = 0 := by omega
    rw [hlen] at hexp
    simp only [Option.getD_none, List.append_nil, List.take_of_length_le hle,
      Decimal.ofDigitChars_numerals, List.length_nil, hexp]
  · simp only [Option.getD_some, List.take_append_drop, Decimal.ofDigitChars_numerals,
      List.length_drop, hexp]

theorem scientificNumeral_value (f : Layout) {d : Decimal} (h : (d.point - 1).natAbs < 65536)
    (negative : Bool) :
    (f.scientificNumeral d.numerals d.point).value negative = d.toBinary64 negative := by
  rw [scientificNumeral, Unsigned.value, toDecimal_scientific f h]

/-! ## Magnitudes -/

def magnitudeNumeral (f : Layout) (m : Magnitude) : Unsigned :=
  if f.isPositional m then f.positionalNumeral m.shortest.numerals m.shortest.point
  else f.scientificNumeral m.shortest.numerals m.shortest.point

theorem magnitudeNumeral_spelling (f : Layout) (m : Magnitude) :
    (f.magnitudeNumeral m).spelling = f.magnitude m := by
  rw [magnitudeNumeral, magnitude]
  split
  · exact positionalNumeral_spelling f _ _
  · exact scientificNumeral_spelling f _ _

theorem magnitudeNumeral_wellFormed (f : Layout) (m : Magnitude) :
    (f.magnitudeNumeral m).WellFormed := by
  have hds : ∀ c ∈ m.shortest.numerals, c.isDigit = true := fun _ => Decimal.isDigit_numerals
  rw [magnitudeNumeral]
  split
  · exact positionalNumeral_wellFormed f hds (Decimal.numerals_ne_nil _) _
  · exact scientificNumeral_wellFormed f hds (Decimal.numerals_ne_nil _) _

theorem magnitudeNumeral_value (f : Layout) {m : Magnitude} (hm : m.isZero = false)
    (negative : Bool) : (f.magnitudeNumeral m).value negative = .finite negative m := by
  have hnearest := m.nearest?_shortest
  rw [← Decimal.toBinary64_of_nearest? negative hnearest, magnitudeNumeral]
  split
  · exact positionalNumeral_value f _ negative
  · have hpoint := Decimal.point_bounds hnearest hm
    exact scientificNumeral_value f (by omega) negative

end Layout
end PrefixCalc
