import PrefixCalc.Proofs.Decimal.Layout
import PrefixCalc.Proofs.Operand
import PrefixCalc.Proofs.Text.Blank
import PrefixCalc.Result

/-!
# PrefixCalc.Proofs.Result

Results can be read back as operands.

* `scan_writeResult`: the text of a number is one numeral from end to end.
* `readOperand_writeResult`: reading undoes writing, except that zero loses its sign and that there
  is one not-a-number.
* `isWord_writeResult`: the text of a number, as a token of an expression, is one word.
* `toBits_readOperand_writeResult`: the same for interchange encodings, bit for bit.
-/

namespace PrefixCalc

/-! ## Numerals with a sign -/

namespace Numeral

/-- A numeral whose sign, if it has one, is a minus. -/
def signed (negative : Bool) (u : Unsigned) : Numeral :=
  { sign := if negative then some .minus else none, unsigned := u }

theorem signed_wellFormed (negative : Bool) {u : Unsigned} (h : u.WellFormed) :
    (signed negative u).WellFormed := h

theorem signed_spelling (negative : Bool) (u : Unsigned) :
    (signed negative u).spelling = Layout.sign negative ++ u.spelling := by
  cases negative <;> rfl

theorem signed_value (negative : Bool) (u : Unsigned) :
    (signed negative u).value = u.value negative := by
  cases negative <;> rfl

end Numeral

/-! ## The numeral of a result -/

namespace Binary64

/-- What a number is worth once it has been written. -/
def written : Binary64 → Binary64
  | .nan _ => quietNaN
  | .infinite s => .infinite s
  | .finite s m => if m.isZero then zero else .finite s m

/-- What `writeResult` writes for a number, if that is a numeral. -/
def numeral? : Binary64 → Option Numeral
  | .nan _ => none
  | .infinite s => some (.signed s .infinity)
  | .finite s m =>
    if m.isZero then some (.signed false (.decimal ['0'] none none))
    else some (.signed s (resultLayout.magnitudeNumeral m))

theorem numeral?_isSome {x : Binary64} (h : x.isNaN = false) : ∃ n, x.numeral? = some n := by
  match x with
  | .nan _ => cases h
  | .infinite s => exact ⟨_, rfl⟩
  | .finite s m =>
    rw [numeral?]
    split <;> exact ⟨_, rfl⟩

theorem numeral?_wellFormed {x : Binary64} {n : Numeral} (h : x.numeral? = some n) :
    n.WellFormed := by
  match x with
  | .nan _ => cases h
  | .infinite s =>
    cases h
    exact Numeral.signed_wellFormed s .infinity
  | .finite s m =>
    rw [numeral?] at h
    split at h
    · cases h
      have hdigit : ∀ c ∈ ['0'] ++ (none : Option (List Char)).getD [], c.isDigit = true := by
        intro c hc
        obtain rfl := List.mem_singleton.mp hc
        rfl
      exact Numeral.signed_wellFormed false
        (.decimal hdigit (List.cons_ne_nil _ _) (fun e he => nomatch he))
    · cases h
      exact Numeral.signed_wellFormed s (resultLayout.magnitudeNumeral_wellFormed m)

theorem numeral?_spelling {x : Binary64} {n : Numeral} (h : x.numeral? = some n) :
    (writeResult x).toList = n.spelling := by
  rw [writeResult, Layout.write, String.toList_ofList]
  match x with
  | .nan _ => cases h
  | .infinite s =>
    cases h
    rw [Numeral.signed_spelling]
    rfl
  | .finite s m =>
    rw [numeral?] at h
    rw [Layout.chars]
    split at h
    · rename_i hm
      cases h
      rw [if_pos hm, show resultLayout.zeroSign = false from rfl, Bool.and_false]
      rfl
    · rename_i hm
      cases h
      rw [if_neg hm, Numeral.signed_spelling, Layout.magnitudeNumeral_spelling]

theorem numeral?_value {x : Binary64} {n : Numeral} (h : x.numeral? = some n) :
    n.value = x.written := by
  match x with
  | .nan _ => cases h
  | .infinite s =>
    cases h
    exact Numeral.signed_value s .infinity
  | .finite s m =>
    rw [numeral?] at h
    rw [written]
    split at h
    · rename_i hm
      cases h
      rw [if_pos hm]
      decide +kernel
    · rename_i hm
      cases h
      rw [if_neg hm, Numeral.signed_value]
      exact resultLayout.magnitudeNumeral_value (Bool.eq_false_iff.mpr hm) s

end Binary64

open Binary64

/-! ## Reading results -/

theorem scan_writeResult {x : Binary64} {n : Numeral} (h : x.numeral? = some n) :
    Numeral.scan (afterPadding (writeResult x)) = some (n, []) :=
  scan_of_toList (numeral?_wellFormed h) (numeral?_spelling h)

theorem readOperand_writeResult (x : Binary64) : readOperand (writeResult x) = x.written := by
  cases hn : x.isNaN with
  | true =>
    obtain ⟨signaling, rfl⟩ := eq_nan_of_isNaN hn
    rw [writeResult_nan]
    exact readOperand_of_none (by decide)
  | false =>
    obtain ⟨n, h⟩ := numeral?_isSome hn
    rw [readOperand_of_scan (scan_writeResult h), numeral?_value h]

/-! ## Results as words -/

theorem Numeral.graphic_of_mem_spelling {n : Numeral} (hn : n.WellFormed) {c : Char}
    (hc : c ∈ n.spelling) : 0x21 ≤ c.toNat ∧ c.toNat < 0x7F := by
  have hmem : ∀ cs : List Char, cs.all (fun d => 0x21 ≤ d.toNat ∧ d.toNat < 0x7F) = true →
      c ∈ cs → 0x21 ≤ c.toNat ∧ c.toNat < 0x7F := by
    intro cs hall hcs
    exact of_decide_eq_true (List.all_eq_true.mp hall c hcs)
  obtain ⟨s, u⟩ := n
  cases u with
  | infinity =>
    rcases List.mem_append.mp hc with hc | hc
    · exact hmem ['+', '-'] (by decide) (Grammar.mem_signs hc)
    · exact hmem Unsigned.infinityWord (by decide) hc
  | decimal whole fraction exponent =>
    rcases Grammar.mem_decimal_spelling hn hc with rfl | hc | hc
    · decide
    · exact hmem ['+', '-', 'e', 'E'] (by decide) hc
    · have hrange : 48 ≤ c.toNat ∧ c.toNat ≤ 57 := Char.isDigit_iff_toNat.mp hc
      omega

theorem isWord_writeResult (x : Binary64) : Text.IsWord (writeResult x) := by
  cases hn : x.isNaN with
  | true =>
    obtain ⟨signaling, rfl⟩ := eq_nan_of_isNaN hn
    rw [writeResult_nan]
    decide
  | false =>
    obtain ⟨n, h⟩ := numeral?_isSome hn
    have hspelling := numeral?_spelling h
    refine ⟨?_, ?_⟩
    · intro hempty
      rw [hempty] at hspelling
      obtain ⟨c, cs, hu, -⟩ := Numeral.unsigned_spelling_head (numeral?_wellFormed h)
      have hnil := List.append_eq_nil_iff.mp hspelling.symm
      rw [hu] at hnil
      cases hnil.2
    · intro c hc
      rw [hspelling] at hc
      have hgraphic := Numeral.graphic_of_mem_spelling (numeral?_wellFormed h) hc
      exact Text.isWhiteSpace_of_graphic hgraphic.1 hgraphic.2

/-! ## Bit patterns -/

namespace Binary64

/-- The encoding of negative zero. -/
def negativeZeroBits : UInt64 := 0x8000000000000000

theorem toBits_negative_zero : (finite true .zero).toBits = negativeZeroBits := by decide +kernel

theorem written_negative_zero : (ofBits negativeZeroBits).written = zero := by
  rw [← toBits_negative_zero, ofBits_toBits]
  rfl

theorem written_of_isNaN {x : Binary64} (h : x.isNaN = true) : x.written = quietNaN := by
  obtain ⟨signaling, rfl⟩ := eq_nan_of_isNaN h
  rfl

/-- Only negative zero and the many forms of not-a-number change. -/
theorem written_ofBits {b : UInt64} (hn : (ofBits b).isNaN = false) (hb : b ≠ negativeZeroBits) :
    (ofBits b).written = ofBits b := by
  cases h : ofBits b with
  | nan signaling =>
    rw [h] at hn
    cases hn
  | infinite s => rfl
  | finite s m =>
    rw [written]
    split
    · rename_i hm
      obtain rfl : m = .zero := Magnitude.eq_zero_of_isZero hm
      cases s with
      | false => rfl
      | true =>
        have hbits := toBits_ofBits hn
        rw [h, toBits_negative_zero] at hbits
        exact absurd hbits.symm hb
    · rfl

end Binary64

/-- Written and read back, each bit pattern comes out as it went in, except that negative zero turns
positive and that a quiet not-a-number stands for all of them. The text of every other number is a
numeral without anything behind it. -/
theorem toBits_readOperand_writeResult (b : UInt64) :
    (readOperand (writeResult (ofBits b))).toBits =
        (if (ofBits b).isNaN then quietNaN.toBits else if b = negativeZeroBits then 0 else b) ∧
      ((ofBits b).isNaN = true ∨
        ∃ n, Numeral.scan (afterPadding (writeResult (ofBits b))) = some (n, []) ∧
          n.spelling = (writeResult (ofBits b)).toList) := by
  rw [readOperand_writeResult]
  cases hn : (ofBits b).isNaN with
  | true =>
    rw [if_pos rfl, written_of_isNaN hn]
    exact ⟨rfl, .inl rfl⟩
  | false =>
    rw [if_neg Bool.false_ne_true]
    obtain ⟨n, h⟩ := numeral?_isSome hn
    refine ⟨?_, .inr ⟨n, scan_writeResult h, (numeral?_spelling h).symm⟩⟩
    by_cases hb : b = negativeZeroBits
    · rw [if_pos hb, hb, written_negative_zero]
      decide +kernel
    · rw [if_neg hb, written_ofBits hn hb, toBits_ofBits hn]

end PrefixCalc
