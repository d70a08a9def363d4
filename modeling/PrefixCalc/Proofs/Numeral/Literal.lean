import Mathlib.Data.List.DropRight
import PrefixCalc.Proofs.Decimal.Layout
import PrefixCalc.Proofs.Decimal.Nearest
import PrefixCalc.Proofs.Operand

/-!
# PrefixCalc.Proofs.Numeral.Literal

What a decimal literal says, before anything is rounded: its sign, its significant digits and the
exact rational number, whose exponent is taken as it is written.

* `Literal`: the three as a relation to the text of a literal.
* `toDecimal_cases`: a literal is read with the exponent that is written, or both exponents are
  beyond 65535.
* `nearest?_writtenDecimal`: below 60000 digits the difference does not show.
-/

namespace PrefixCalc

/-! ## Significant digits -/

/-- Digits without the zeros at either end. -/
def significant (ds : List Char) : List Char :=
  (ds.dropWhile (· == '0')).rdropWhile (· == '0')

theorem zeros_zero : zeros 0 = [] := rfl

theorem zeros_add (j k : Nat) : zeros (j + k) = zeros j ++ zeros k := List.replicate_add ..

theorem exists_zeros {ds : List Char} (h : ∀ c ∈ ds, (c == '0') = true) : ∃ k, ds = zeros k :=
  ⟨ds.length, List.eq_replicate_iff.mpr ⟨rfl, fun c hc => beq_iff_eq.mp (h c hc)⟩⟩

theorem beq_zero_of_mem_zeros {k : Nat} {c : Char} (h : c ∈ zeros k) : (c == '0') = true :=
  beq_iff_eq.mpr (List.eq_of_mem_replicate h)

theorem significant_split (ds : List Char) : ∃ j k, ds = zeros j ++ significant ds ++ zeros k := by
  obtain ⟨j, hj⟩ := exists_zeros (List.all_eq_true.mp (List.all_takeWhile (l := ds)))
  obtain ⟨k, hk⟩ := exists_zeros fun c hc =>
    List.mem_rtakeWhile_imp (l := ds.dropWhile (· == '0')) (p := (· == '0')) hc
  refine ⟨j, k, ?_⟩
  rw [← hj, ← hk, List.append_assoc, significant, List.rdropWhile_append_rtakeWhile,
    List.takeWhile_append_dropWhile]

theorem significant_zeros {ds : List Char} (j k : Nat) (hhead : ds.head? ≠ some '0')
    (hlast : ds.getLast? ≠ some '0') : significant (zeros j ++ ds ++ zeros k) = ds := by
  rw [significant, List.append_assoc,
    List.dropWhile_append_of_pos (fun c hc => beq_zero_of_mem_zeros hc)]
  cases ds with
  | nil =>
    rw [List.nil_append, List.dropWhile_eq_nil_iff.mpr (fun c hc => beq_zero_of_mem_zeros hc)]
    rfl
  | cons c cs =>
    have hc : (c == '0') = false := by simpa using hhead
    rw [List.cons_append, List.dropWhile_cons_of_neg (by simp [hc]), ← List.cons_append,
      List.rdropWhile, List.reverse_append, List.dropWhile_append_of_pos]
    · refine List.rdropWhile_eq_self_iff.mpr fun hne hzero => hlast ?_
      rw [List.getLast?_eq_getLast_of_ne_nil hne, beq_iff_eq.mp hzero]
    · exact fun c hc => beq_zero_of_mem_zeros (List.mem_reverse.mp hc)

theorem ofDigitChars_significant (ds : List Char) :
    ∃ k, Nat.ofDigitChars 10 ds 0 = Nat.ofDigitChars 10 (significant ds) 0 * 10 ^ k := by
  obtain ⟨j, k, h⟩ := significant_split ds
  refine ⟨k, ?_⟩
  conv_lhs => rw [h]
  rw [ofDigitChars_zeros, zeros_ofDigitChars]

theorem isDigit_significant {ds : List Char} (h : ∀ c ∈ ds, c.isDigit = true) :
    ∀ c ∈ significant ds, c.isDigit = true := by
  intro c hc
  exact h c ((List.dropWhile_sublist _).mem ((List.rdropWhile_prefix _ _).mem hc))

theorem ofDigitChars_lt {ds : List Char} (h : ∀ c ∈ ds, c.isDigit = true) :
    Nat.ofDigitChars 10 ds 0 < 10 ^ ds.length := by
  induction ds with
  | nil => simp
  | cons c ds ih =>
    obtain ⟨hc, hds⟩ := List.forall_mem_cons.mp h
    have hrange : 48 ≤ c.toNat ∧ c.toNat ≤ 57 := Char.isDigit_iff_toNat.mp hc
    have hdigit : 10 * 0 + (c.toNat - '0'.toNat) ≤ 9 := by
      have : '0'.toNat = 48 := rfl
      omega
    rw [Nat.ofDigitChars_cons, Nat.ofDigitChars_eq_ofDigitChars_zero, List.length_cons]
    calc 10 ^ ds.length * (10 * 0 + (c.toNat - '0'.toNat)) + Nat.ofDigitChars 10 ds 0
        < 10 ^ ds.length * 9 + 10 ^ ds.length :=
          Nat.add_lt_add_of_le_of_lt (Nat.mul_le_mul_left _ hdigit) (ih hds)
      _ = 10 ^ (ds.length + 1) := by ring

/-! ## Exponents as they are written -/

namespace ExponentPart

/-- The exponent that is written, however large it is. -/
def written (e : ExponentPart) : Int :=
  if Sign.isNegative e.sign then -(Nat.ofDigitChars 10 e.digits 0 : Int)
  else Nat.ofDigitChars 10 e.digits 0

theorem value_cases (e : ExponentPart) :
    e.value = e.written ∨ 65536 ≤ e.value ∧ e.value < e.written ∨
      e.value ≤ -65536 ∧ e.written < e.value := by
  have hcases := foldl_grow_cases e.digits 0
  simp only [value, written, magnitude]
  split <;> omega

end ExponentPart

namespace Unsigned

/-- The decimal that a literal spells, with its exponent as it is written. -/
def writtenDecimal (whole : List Char) (fraction : Option (List Char))
    (exponent : Option ExponentPart) : Decimal :=
  { toDecimal whole fraction exponent with
    exp := (exponent.map ExponentPart.written).getD 0 - (fraction.getD []).length }

theorem writtenDecimal_digits (whole : List Char) (fraction : Option (List Char))
    (exponent : Option ExponentPart) :
    (writtenDecimal whole fraction exponent).digits = (toDecimal whole fraction exponent).digits :=
  rfl

theorem WellFormed.isDigit {whole : List Char} {fraction : Option (List Char)}
    {exponent : Option ExponentPart} (h : WellFormed (.decimal whole fraction exponent)) :
    ∀ c ∈ whole ++ fraction.getD [], c.isDigit = true := by
  cases h with
  | decimal hdigits _ _ => exact hdigits

section Exponent

variable (whole : List Char) (fraction : Option (List Char)) (exponent : Option ExponentPart)

theorem toDecimal_cases :
    let places : Int := (fraction.getD []).length
    let read := toDecimal whole fraction exponent
    let written := writtenDecimal whole fraction exponent
    read = written ∨ 65536 ≤ read.exp + places ∧ read.exp < written.exp ∨
      read.exp + places ≤ -65536 ∧ written.exp < read.exp := by
  dsimp only [toDecimal, writtenDecimal]
  cases exponent with
  | none => exact .inl rfl
  | some e =>
    rcases e.value_cases with h | h | h
    · left
      rw [Option.map_some, Option.map_some, h]
    · right; left
      simp only [Option.map_some, Option.getD_some]
      omega
    · right; right
      simp only [Option.map_some, Option.getD_some]
      omega

theorem toRat_writtenDecimal_cases :
    let read := toDecimal whole fraction exponent
    let written := writtenDecimal whole fraction exponent
    written.toRat = read.toRat ∨ 10 * read.toRat ≤ written.toRat ∨
      10 * written.toRat ≤ read.toRat := by
  rcases toDecimal_cases whole fraction exponent with h | ⟨-, h⟩ | ⟨-, h⟩
  · exact .inl (by rw [h])
  · exact .inr (.inl (Decimal.ten_mul_toRat_le rfl h))
  · exact .inr (.inr (Decimal.ten_mul_toRat_le rfl h))

/-- Where the exponents differ, so few digits are either all zeros, or too large, or too small. -/
theorem nearest?_writtenDecimal (hdigits : ∀ c ∈ whole ++ fraction.getD [], c.isDigit = true)
    (hlen : (whole ++ fraction.getD []).length < 60000) :
    (writtenDecimal whole fraction exponent).nearest? =
      (toDecimal whole fraction exponent).nearest? := by
  have hlt : (toDecimal whole fraction exponent).digits <
      10 ^ (whole ++ fraction.getD []).length := ofDigitChars_lt hdigits
  have hplaces : (fraction.getD []).length ≤ (whole ++ fraction.getD []).length := by
    rw [List.length_append]
    omega
  have hcases := toDecimal_cases whole fraction exponent
  have hsame := writtenDecimal_digits whole fraction exponent
  generalize toDecimal whole fraction exponent = read at *
  generalize writtenDecimal whole fraction exponent = written at *
  dsimp only at hcases
  rcases hcases with h | ⟨hlarge, h⟩ | ⟨hsmall, h⟩
  · rw [h]
  · rcases Nat.eq_zero_or_pos read.digits with hzero | hpos
    · apply Decimal.nearest?_eq_of_toRat_eq
      rw [Decimal.toRat, Decimal.toRat, hsame, hzero, Nat.cast_zero, zero_mul, zero_mul]
    · rw [Decimal.nearest?_of_large (hsame ▸ hpos) (by omega),
        Decimal.nearest?_of_large hpos (by omega)]
  · rw [Decimal.nearest?_of_small (hsame ▸ hlt) (by omega),
      Decimal.nearest?_of_small hlt (by omega)]

end Exponent
end Unsigned

/-! ## Literals -/

namespace Grammar

/-- The text of a decimal literal with its sign, its significant digits and its exact value. -/
inductive Literal : List Char → Bool → List Char → ℚ → Prop where
  | decimal (s : Option Sign) {whole : List Char} {fraction : Option (List Char)}
    {exponent : Option ExponentPart} :
    Unsigned.WellFormed (.decimal whole fraction exponent) →
    Literal (Sign.spelling s ++ Unsigned.spelling (.decimal whole fraction exponent))
      (Sign.isNegative s) (significant (whole ++ fraction.getD []))
      (Unsigned.writtenDecimal whole fraction exponent).toRat

theorem Literal.unique {p : List Char} {negative negative' : Bool} {ds ds' : List Char} {q q' : ℚ}
    (h : Literal p negative ds q) (h' : Literal p negative' ds' q') :
    negative = negative' ∧ ds = ds' ∧ q = q' := by
  cases h with
  | decimal s hwf =>
    generalize hp : Sign.spelling s ++ _ = p at h'
    cases h' with
    | decimal s' hwf' =>
      have heq := Numeral.spelling_injective (n := { sign := s, unsigned := .decimal _ _ _ })
        (k := { sign := s', unsigned := .decimal _ _ _ }) hwf hwf' hp
      cases heq
      exact ⟨rfl, rfl, rfl⟩

end Grammar

open Grammar

/-- A word that starts with a literal counts for the decimal that is read from it. -/
theorem readOperand_decimal {t : String} {s : Option Sign} {whole : List Char}
    {fraction : Option (List Char)} {exponent : Option ExponentPart}
    (hwf : Unsigned.WellFormed (.decimal whole fraction exponent))
    (h : IsLongest (afterPadding t)
      (Sign.spelling s ++ Unsigned.spelling (.decimal whole fraction exponent))) :
    readOperand t =
      (Unsigned.toDecimal whole fraction exponent).toBinary64 (Sign.isNegative s) :=
  (denotes_readOperand h).unique (.decimal s hwf)

end PrefixCalc
