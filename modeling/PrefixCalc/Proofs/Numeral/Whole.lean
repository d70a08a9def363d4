import PrefixCalc.Numeral.Indexed
import PrefixCalc.Proofs.Numeral.Grammar
import PrefixCalc.Proofs.Numeral.Longest

/-!
# PrefixCalc.Proofs.Numeral.Whole

Texts that are parsed as a whole.

* `parse?_isSome_iff`: they are the decimal literals and three words in any case, all with an
  optional sign.
* `parse?_decimal`: a decimal literal has the value that it has at the start of a text.
-/

namespace PrefixCalc

namespace Grammar

/-- The words for values without digits, in any case. -/
def word : Language Char :=
  {cs : List Char | String.ofList (cs.map Char.toLower) ∈ ["inf", "infinity", "nan"]}

def whole : Language Char := optional sign * (decimal + word)

theorem mem_whole {cs : List Char} :
    cs ∈ whole ↔ ∃ (s : Option Sign) (u : List Char), (u ∈ decimal ∨ u ∈ word) ∧
      Sign.spelling s ++ u = cs := by
  rw [whole, Language.mem_mul]
  constructor
  · rintro ⟨_, hs, u, hu, rfl⟩
    obtain ⟨s, rfl⟩ := mem_optional_sign.mp hs
    exact ⟨s, u, hu, rfl⟩
  · rintro ⟨s, u, hu, rfl⟩
    exact ⟨_, mem_optional_sign.mpr ⟨s, rfl⟩, u, hu, rfl⟩

end Grammar

namespace Numeral

open Grammar

theorem wordValue?_isSome_iff {negative : Bool} {cs : List Char} :
    (wordValue? negative cs).isSome ↔ cs ∈ word := by
  show _ ↔ String.ofList (cs.map Char.toLower) ∈ ["inf", "infinity", "nan"]
  rw [wordValue?]
  split <;> simp_all

theorem word_head {u : List Char} (hu : u ∈ word) :
    ∃ c cs, u = c :: cs ∧ (c.toLower = 'i' ∨ c.toLower = 'n') := by
  have hchars : u.map Char.toLower ∈ ["inf", "infinity", "nan"].map String.toList := by
    rw [← String.toList_ofList (l := u.map Char.toLower)]
    exact List.mem_map_of_mem hu
  have hfirst : ∀ w ∈ ["inf", "infinity", "nan"].map String.toList,
      w.head? = some 'i' ∨ w.head? = some 'n' := by decide
  cases u with
  | nil => exact absurd (hfirst _ hchars) (by decide)
  | cons c cs =>
    exact ⟨c, cs, rfl, (hfirst _ hchars).imp Option.some.inj Option.some.inj⟩

/-- No word starts with a sign. -/
theorem scanSign_word (s : Option Sign) {u : List Char} (hu : u ∈ word) :
    scanSign (Sign.spelling s ++ u) = (s, u) := by
  obtain ⟨c, cs, rfl, hc⟩ := word_head hu
  refine scanSign_append s ?_ ?_ cs <;> rintro rfl <;> exact absurd hc (by decide)

section Decimal

variable (s : Option Sign) {whole : List Char} {fraction : Option (List Char)}
  {exponent : Option ExponentPart} (hwf : Unsigned.WellFormed (.decimal whole fraction exponent))

include hwf

theorem scanSign_decimal :
    scanSign (Sign.spelling s ++ Unsigned.spelling (.decimal whole fraction exponent)) =
      (s, Unsigned.spelling (.decimal whole fraction exponent)) := by
  obtain ⟨c, cs, hspelling, hc⟩ := decimal_spelling_head hwf
  rw [hspelling]
  refine scanSign_append s ?_ ?_ cs <;> rintro rfl <;> simp at hc

theorem scanDecimal_decimal :
    scanDecimal (Unsigned.spelling (.decimal whole fraction exponent)) =
      some (.decimal whole fraction exponent, []) := by
  obtain ⟨u, rest, hscan, -, hu⟩ := scanDecimal_append hwf []
  rw [List.append_nil, hu rfl] at hscan
  have hrest : rest = [] := List.append_right_eq_self.mp (scanDecimal_spelling hscan)
  rw [hscan, hrest]

theorem parse?_decimal :
    parse? (Sign.spelling s ++ Unsigned.spelling (.decimal whole fraction exponent)) =
      some (Unsigned.value (Sign.isNegative s) (.decimal whole fraction exponent)) := by
  simp only [parse?, scanSign_decimal s hwf, scanDecimal_decimal hwf]

end Decimal

theorem exists_decimal {cs rest : List Char} {u : Unsigned} (h : scanDecimal cs = some (u, rest)) :
    ∃ whole fraction exponent, u = .decimal whole fraction exponent := by
  simp only [scanDecimal] at h
  split at h
  · cases h
  · cases h
    exact ⟨_, _, _, rfl⟩

theorem parse?_isSome_iff {cs : List Char} : (parse? cs).isSome ↔ cs ∈ whole := by
  rw [mem_whole]
  constructor
  · intro h
    refine ⟨(scanSign cs).1, (scanSign cs).2, ?_, scanSign_spelling cs⟩
    simp only [parse?] at h
    split at h
    · rename_i u hscan
      obtain ⟨whole, fraction, exponent, rfl⟩ := exists_decimal hscan
      have hspelling := scanDecimal_spelling hscan
      rw [List.append_nil] at hspelling
      exact .inl (mem_decimal.mpr ⟨_, _, _, scanDecimal_wellFormed hscan, hspelling⟩)
    · exact .inr (wordValue?_isSome_iff.mp h)
  · rintro ⟨s, u, hu | hu, rfl⟩
    · obtain ⟨whole, fraction, exponent, hwf, rfl⟩ := mem_decimal.mp hu
      rw [parse?_decimal s hwf]
      rfl
    · simp only [parse?, scanSign_word s hu]
      split
      · rfl
      · exact wordValue?_isSome_iff.mpr hu

example : ∀ s ∈ ["", "-", ".", "1e", "1e+", "12px", "Infinit"], parse? s.toList = none := by
  decide +kernel

end Numeral
end PrefixCalc
