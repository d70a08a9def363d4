import PrefixCalc.Operand
import PrefixCalc.Proofs.Numeral.Tidy
import PrefixCalc.Proofs.Text.Blank

/-!
# PrefixCalc.Proofs.Operand

What a word counts for as an operand, said with the grammar and without the scan.

* `IsLongest`: a prefix of a text that obeys the grammar and is the longest one to do so.
* `Denotes`: the value of a text that obeys the grammar.
* `readOperand_longest`: a word is not a number if nothing at its start obeys the grammar, and
  counts for its longest such prefix otherwise.
-/

namespace PrefixCalc
namespace Grammar

structure IsLongest (text p : List Char) : Prop where
  mem : p ∈ numeral
  isPrefix : p <+: text
  longest : ∀ q ∈ numeral, q <+: text → q.length ≤ p.length

/-- The word for infinity denotes the infinity of its sign, a decimal literal the value nearest its
digits and exponent. -/
inductive Denotes : List Char → Binary64 → Prop where
  | infinity (s : Option Sign) :
    Denotes (Sign.spelling s ++ Unsigned.infinityWord) (.infinite (Sign.isNegative s))
  | decimal (s : Option Sign) {whole : List Char} {fraction : Option (List Char)}
    {exponent : Option ExponentPart} :
    Unsigned.WellFormed (.decimal whole fraction exponent) →
    Denotes (Sign.spelling s ++ Unsigned.spelling (.decimal whole fraction exponent))
      ((Unsigned.toDecimal whole fraction exponent).toBinary64 (Sign.isNegative s))

theorem IsLongest.unique {text p q : List Char} (hp : IsLongest text p) (hq : IsLongest text q) :
    p = q :=
  (List.prefix_of_prefix_length_le hp.isPrefix hq.isPrefix
    (hq.longest p hp.mem hp.isPrefix)).eq_of_length_le (hp.longest q hq.mem hq.isPrefix)

theorem denotes_iff {p : List Char} {x : Binary64} :
    Denotes p x ↔ ∃ n : Numeral, n.WellFormed ∧ n.spelling = p ∧ n.value = x := by
  constructor
  · intro h
    cases h with
    | infinity s => exact ⟨{ sign := s, unsigned := .infinity }, .infinity, rfl, rfl⟩
    | decimal s hwf => exact ⟨{ sign := s, unsigned := .decimal _ _ _ }, hwf, rfl, rfl⟩
  · rintro ⟨⟨s, u⟩, hwf, rfl, rfl⟩
    cases u with
    | infinity => exact .infinity s
    | decimal whole fraction exponent => exact .decimal s hwf

theorem Denotes.unique {p : List Char} {x y : Binary64} (hx : Denotes p x) (hy : Denotes p y) :
    x = y := by
  obtain ⟨n, hn, hp, rfl⟩ := denotes_iff.mp hx
  obtain ⟨k, hk, rfl, rfl⟩ := denotes_iff.mp hy
  rw [Numeral.spelling_injective hn hk hp]

/-! ## The scan and the grammar -/

theorem isLongest_of_scan {cs rest : List Char} {n : Numeral}
    (h : Numeral.scan cs = some (n, rest)) : IsLongest cs n.spelling := by
  have hmem : n.spelling ∈ numeral := mem_numeral.mpr ⟨n, Numeral.scan_wellFormed h, rfl⟩
  refine ⟨hmem, ⟨rest, Numeral.scan_spelling h⟩, ?_⟩
  intro q hq hprefix
  obtain ⟨k, hk, rfl⟩ := mem_numeral.mp hq
  obtain ⟨n', rest', hscan, hle⟩ := Numeral.scan_longest hk hprefix
  rw [h] at hscan
  cases hscan
  exact hle

theorem scan_eq_none_iff {cs : List Char} :
    Numeral.scan cs = none ↔ ∀ p ∈ numeral, ¬ p <+: cs := by
  constructor
  · intro h p hp hprefix
    obtain ⟨k, hk, rfl⟩ := mem_numeral.mp hp
    obtain ⟨n, rest, hscan, -⟩ := Numeral.scan_longest hk hprefix
    rw [h] at hscan
    cases hscan
  · intro h
    cases hscan : Numeral.scan cs with
    | none => rfl
    | some found =>
      obtain ⟨n, rest⟩ := found
      have hlong := isLongest_of_scan hscan
      exact absurd hlong.isPrefix (h _ hlong.mem)

end Grammar

theorem Binary64.eq_nan_of_isNaN {x : Binary64} (h : x.isNaN = true) :
    ∃ signaling, x = .nan signaling := by
  cases x with
  | nan signaling => exact ⟨signaling, rfl⟩
  | infinite s => cases h
  | finite s m => cases h

theorem Binary64.rounded_isNaN (negative : Bool) (a d : Nat) :
    (Binary64.rounded negative a d).isNaN = false := by
  unfold Binary64.rounded
  split <;> rfl

theorem Numeral.value_isNaN (n : Numeral) : n.value.isNaN = false := by
  obtain ⟨s, u⟩ := n
  cases u with
  | infinity => rfl
  | decimal whole fraction exponent => exact Binary64.rounded_isNaN _ _ _

/-! ## Operands -/

open Grammar

/-- A word without the padding in front of it. -/
def afterPadding (t : String) : List Char := t.toList.dropWhile Text.isPadding

theorem readOperand_isNaN_iff {t : String} :
    (readOperand t).isNaN = true ↔ ∀ p ∈ numeral, ¬ p <+: afterPadding t := by
  rw [← scan_eq_none_iff]
  cases h : Numeral.scan (afterPadding t) with
  | none => rw [readOperand_of_none h]; exact ⟨fun _ => rfl, fun _ => rfl⟩
  | some found =>
    obtain ⟨n, rest⟩ := found
    rw [readOperand_of_scan h, Numeral.value_isNaN]
    exact ⟨fun h => (Bool.false_ne_true h).elim, fun h => nomatch h⟩

/-- Every operand that is not a number is the quiet one. -/
theorem eq_quietNaN_of_isNaN {t : String} (h : (readOperand t).isNaN = true) :
    readOperand t = .quietNaN :=
  readOperand_of_none (scan_eq_none_iff.mpr (readOperand_isNaN_iff.mp h))

theorem denotes_readOperand {t : String} {p : List Char} (h : IsLongest (afterPadding t) p) :
    Denotes p (readOperand t) := by
  cases hscan : Numeral.scan (afterPadding t) with
  | none => exact absurd h.isPrefix (scan_eq_none_iff.mp hscan p h.mem)
  | some found =>
    obtain ⟨n, rest⟩ := found
    obtain rfl := h.unique (isLongest_of_scan hscan)
    rw [readOperand_of_scan hscan]
    exact denotes_iff.mpr ⟨n, Numeral.scan_wellFormed hscan, rfl, rfl⟩

theorem isPadding_of_isDigit {c : Char} (hc : c.isDigit = true) : Text.isPadding c = false := by
  have hrange : 48 ≤ c.toNat ∧ c.toNat ≤ 57 := Char.isDigit_iff_toNat.mp hc
  exact Text.isPadding_of_graphic (by omega) (by omega)

/-- A word that spells a numeral, and nothing else, has the value of the numeral. -/
theorem scan_of_toList {t : String} {n : Numeral} (hn : n.WellFormed) (h : t.toList = n.spelling) :
    Numeral.scan (afterPadding t) = some (n, []) := by
  have hfirst : ∃ c cs, n.spelling = c :: cs ∧ Text.isPadding c = false := by
    obtain ⟨s, u⟩ := n
    obtain ⟨c, cs, hu, hc⟩ := Numeral.unsigned_spelling_head hn
    match s with
    | none =>
      refine ⟨c, cs, hu, ?_⟩
      rcases hc with hc | rfl | rfl
      · exact isPadding_of_isDigit hc
      · decide
      · decide
    | some .plus => exact ⟨'+', _, rfl, by decide⟩
    | some .minus => exact ⟨'-', _, rfl, by decide⟩
  obtain ⟨c, cs, hcs, hc⟩ := hfirst
  rw [afterPadding, h, hcs, List.dropWhile_cons_of_neg (by simp [hc]), ← hcs]
  exact Numeral.scan_of_spelling hn

/-- A word is not a number exactly if nothing behind its padding obeys the grammar. Otherwise it has
the value of the longest prefix that does, whatever stands behind that. -/
theorem readOperand_longest (t : String) :
    ((readOperand t).isNaN = true ↔ ∀ p ∈ numeral, ¬ p <+: afterPadding t) ∧
      ((readOperand t).isNaN = true ∨ ∃ p, IsLongest (afterPadding t) p) ∧
      ∀ p, IsLongest (afterPadding t) p →
        Tidy p ∧ (∀ x, Denotes p x ↔ x = readOperand t) ∧
          ∀ s, IsLongest (afterPadding s) p → readOperand s = readOperand t := by
  refine ⟨readOperand_isNaN_iff, ?_, ?_⟩
  · cases h : Numeral.scan (afterPadding t) with
    | none => exact .inl (readOperand_isNaN_iff.mpr (scan_eq_none_iff.mp h))
    | some found =>
      obtain ⟨n, rest⟩ := found
      exact .inr ⟨n.spelling, isLongest_of_scan h⟩
  · intro p hp
    refine ⟨tidy_of_mem hp.mem, ?_, ?_⟩
    · intro x
      constructor
      · intro hx
        exact hx.unique (denotes_readOperand hp)
      · rintro rfl
        exact denotes_readOperand hp
    · intro s hs
      exact (denotes_readOperand hs).unique (denotes_readOperand hp)

end PrefixCalc
