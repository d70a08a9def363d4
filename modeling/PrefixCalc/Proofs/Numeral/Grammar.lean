import Mathlib.Computability.Language
import PrefixCalc.Numeral.Basic

/-!
# PrefixCalc.Proofs.Numeral.Grammar

The grammar of numerals as a language: `[+-]?(Infinity | D+ (. D*)? E? | . D+ E?)` with
`E = [eE][+-]?D+`, built from concatenation, choice and repetition alone.

* `mem_numeral`: the language consists of the spellings of the well-formed numerals.
-/

namespace PrefixCalc
namespace Grammar

open scoped Computability

def digit : Language Char := {cs : List Char | ∃ c : Char, c.isDigit = true ∧ cs = [c]}

def digits : Language Char := digit * digit∗

def optional (l : Language Char) : Language Char := 1 + l

def sign : Language Char := {['+'], ['-']}

def point : Language Char := {['.']}

def mark : Language Char := {['e'], ['E']}

def exponent : Language Char := mark * optional sign * digits

def decimal : Language Char :=
  digits * optional (point * digit∗) * optional exponent + point * digits * optional exponent

def numeral : Language Char := optional sign * ({Unsigned.infinityWord} + decimal)

theorem mem_star_digit {cs : List Char} : cs ∈ digit∗ ↔ ∀ c ∈ cs, c.isDigit = true := by
  rw [Language.mem_kstar]
  constructor
  · rintro ⟨ls, rfl, hls⟩ c hc
    obtain ⟨l, hl, hcl⟩ := List.mem_flatten.mp hc
    obtain ⟨d, hd, rfl⟩ := hls l hl
    rw [List.mem_singleton.mp hcl]
    exact hd
  · intro h
    refine ⟨cs.map fun c => [c], by rw [← List.flatMap_def, List.flatMap_singleton'], ?_⟩
    intro l hl
    obtain ⟨c, hc, rfl⟩ := List.mem_map.mp hl
    exact ⟨c, h c hc, rfl⟩

theorem mem_digits {cs : List Char} :
    cs ∈ digits ↔ cs ≠ [] ∧ ∀ c ∈ cs, c.isDigit = true := by
  rw [digits, Language.mem_mul]
  constructor
  · rintro ⟨_, ⟨d, hd, rfl⟩, ds, hds, rfl⟩
    exact ⟨by simp, List.forall_mem_cons.mpr ⟨hd, mem_star_digit.mp hds⟩⟩
  · rintro ⟨hne, h⟩
    obtain ⟨d, ds, rfl⟩ := List.exists_cons_of_ne_nil hne
    obtain ⟨hd, hds⟩ := List.forall_mem_cons.mp h
    exact ⟨[d], ⟨d, hd, rfl⟩, ds, mem_star_digit.mpr hds, rfl⟩

theorem mem_optional {l : Language Char} {cs : List Char} :
    cs ∈ optional l ↔ cs = [] ∨ cs ∈ l := Iff.rfl

theorem mem_optional_sign {cs : List Char} :
    cs ∈ optional sign ↔ ∃ s : Option Sign, Sign.spelling s = cs := by
  rw [mem_optional]
  constructor
  · rintro (rfl | rfl | rfl)
    · exact ⟨none, rfl⟩
    · exact ⟨some .plus, rfl⟩
    · exact ⟨some .minus, rfl⟩
  · rintro ⟨_ | _ | _, rfl⟩
    · exact .inl rfl
    · exact .inr (.inl rfl)
    · exact .inr (.inr rfl)

theorem mem_exponent {cs : List Char} :
    cs ∈ exponent ↔ ∃ e : ExponentPart, e.WellFormed ∧ e.spelling = cs := by
  rw [exponent, Language.mem_mul]
  constructor
  · rintro ⟨_, hms, ds, hds, rfl⟩
    obtain ⟨m, hm, s, hs, rfl⟩ := Language.mem_mul.mp hms
    obtain ⟨s, rfl⟩ := mem_optional_sign.mp hs
    obtain ⟨hne, hds⟩ := mem_digits.mp hds
    rcases hm with rfl | rfl
    · exact ⟨{ mark := 'e', sign := s, digits := ds }, ⟨.inl rfl, hds, hne⟩, rfl⟩
    · exact ⟨{ mark := 'E', sign := s, digits := ds }, ⟨.inr rfl, hds, hne⟩, rfl⟩
  · rintro ⟨e, he, rfl⟩
    have hmark : [e.mark] ∈ mark := by
      rcases he.mark with h | h
      · exact .inl (by rw [h])
      · exact .inr (by rw [h]; rfl)
    exact ⟨[e.mark] ++ Sign.spelling e.sign,
      Language.mem_mul.mpr ⟨[e.mark], hmark, _, mem_optional_sign.mpr ⟨e.sign, rfl⟩, rfl⟩,
      e.digits, mem_digits.mpr ⟨he.some_digit, he.digits⟩, rfl⟩

theorem mem_optional_exponent {cs : List Char} :
    cs ∈ optional exponent ↔ ∃ e : Option ExponentPart,
      (∀ x, e = some x → x.WellFormed) ∧ (e.map ExponentPart.spelling).getD [] = cs := by
  rw [mem_optional, mem_exponent]
  constructor
  · rintro (rfl | ⟨e, he, rfl⟩)
    · exact ⟨none, by simp, rfl⟩
    · exact ⟨some e, by simpa using he, rfl⟩
  · rintro ⟨_ | e, he, rfl⟩
    · exact .inl rfl
    · exact .inr ⟨e, he e rfl, rfl⟩

/-- The two forms of a decimal literal share one condition: a digit on some side of the point. -/
theorem mem_decimal {cs : List Char} :
    cs ∈ decimal ↔ ∃ whole fraction exponent,
      Unsigned.WellFormed (.decimal whole fraction exponent) ∧
        Unsigned.spelling (.decimal whole fraction exponent) = cs := by
  rw [decimal, Language.mem_add]
  constructor
  · rintro (h | h)
    · obtain ⟨_, hm, x, hx, rfl⟩ := Language.mem_mul.mp h
      obtain ⟨whole, hw, f, hf, rfl⟩ := Language.mem_mul.mp hm
      obtain ⟨hne, hw⟩ := mem_digits.mp hw
      obtain ⟨e, he, rfl⟩ := mem_optional_exponent.mp hx
      rcases mem_optional.mp hf with rfl | hf
      · exact ⟨whole, none, e, .decimal (by simpa using hw) (by simpa using hne) he, rfl⟩
      · obtain ⟨_, rfl, ds, hds, rfl⟩ := Language.mem_mul.mp hf
        refine ⟨whole, some ds, e, .decimal ?_ (by simp [hne]) he, rfl⟩
        exact List.forall_mem_append.mpr ⟨hw, mem_star_digit.mp hds⟩
    · obtain ⟨_, hm, x, hx, rfl⟩ := Language.mem_mul.mp h
      obtain ⟨_, rfl, ds, hds, rfl⟩ := Language.mem_mul.mp hm
      obtain ⟨hne, hds⟩ := mem_digits.mp hds
      obtain ⟨e, he, rfl⟩ := mem_optional_exponent.mp hx
      exact ⟨[], some ds, e, .decimal (by simpa using hds) (by simpa using hne) he, rfl⟩
  · rintro ⟨whole, fraction, e, hwf, rfl⟩
    cases hwf with
    | decimal hd hne he =>
      have hexp := mem_optional_exponent.mpr ⟨e, he, rfl⟩
      obtain ⟨hw, hf⟩ := List.forall_mem_append.mp hd
      rcases eq_or_ne whole [] with rfl | hwhole
      · cases fraction with
        | none => exact absurd rfl hne
        | some ds =>
          have hpoint : '.' :: ds ∈ point * digits :=
            Language.append_mem_mul (a := ['.']) rfl (mem_digits.mpr ⟨hne, hf⟩)
          exact .inr (Language.append_mem_mul hpoint hexp)
      · refine .inl (Language.append_mem_mul (Language.append_mem_mul
          (mem_digits.mpr ⟨hwhole, hw⟩) ?_) hexp)
        cases fraction with
        | none => exact .inl rfl
        | some ds =>
          exact .inr (Language.append_mem_mul (a := ['.']) rfl (mem_star_digit.mpr hf))

/-- The language and the well-formed numerals say the same. -/
theorem mem_numeral {cs : List Char} :
    cs ∈ numeral ↔ ∃ n : Numeral, n.WellFormed ∧ n.spelling = cs := by
  rw [numeral, Language.mem_mul]
  constructor
  · rintro ⟨_, hs, u, hu, rfl⟩
    obtain ⟨s, rfl⟩ := mem_optional_sign.mp hs
    rcases hu with rfl | hu
    · exact ⟨{ sign := s, unsigned := .infinity }, .infinity, rfl⟩
    · obtain ⟨whole, fraction, exponent, hwf, rfl⟩ := mem_decimal.mp hu
      exact ⟨{ sign := s, unsigned := .decimal whole fraction exponent }, hwf, rfl⟩
  · rintro ⟨⟨s, u⟩, hwf, rfl⟩
    refine ⟨Sign.spelling s, mem_optional_sign.mpr ⟨s, rfl⟩, u.spelling, ?_, rfl⟩
    cases u with
    | infinity => exact .inl rfl
    | decimal whole fraction exponent =>
      exact .inr (mem_decimal.mpr ⟨whole, fraction, exponent, hwf, rfl⟩)

end Grammar
end PrefixCalc
