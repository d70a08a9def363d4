import PrefixCalc.Proofs.Numeral.Whole
import PrefixCalc.Proofs.Operand
import PrefixCalc.Proofs.Text.Access

/-!
# PrefixCalc.Proofs.Numeral.Indexed

The search by bytes, step by step next to the scan by characters. Each step keeps an index that
stands between two characters, with the characters in front of it that the scan has taken so far.

* `findMantissa_spec`, `findExponent_spec`: the steps that can fail do not, and stop where the scan
  does.
* `readBytes_total`: the whole search.
-/

namespace PrefixCalc
namespace Numeral

open Text (At)

variable {t : String} {i : Nat} {front rest : List Char}

/-! ## Signs and digits -/

theorem isDigit_low {c : Char} (h : c.isDigit = true) : c.toNat < 128 := by
  have hrange : 48 ≤ c.toNat ∧ c.toNat ≤ 57 := Char.isDigit_iff_toNat.mp h
  omega

theorem digitsFrom_of_at (h : At t i front rest) :
    digitsFrom (Text.encode t) i = .ok (scanDigits rest).1.length := by
  rw [digitsFrom, h.bytesFrom]
  exact congrArg Except.ok (Text.length_takeWhile_encode (fun _ => isDigit_low) rest)

theorem signWidth_of_at (h : At t i front rest) :
    signWidth (Text.encode t) i = (Sign.spelling (scanSign rest).1).length := by
  have hplus := h.charAt?_eq_some_iff (c := '+') (by decide)
  have hminus := h.charAt?_eq_some_iff (c := '-') (by decide)
  simp only [signWidth, hplus, hminus]
  cases rest with
  | nil => rfl
  | cons c cs =>
    by_cases hp : c = '+'
    · subst hp
      rfl
    by_cases hm : c = '-'
    · subst hm
      rfl
    rw [scanSign_of_not_sign hp hm, if_neg]
    · rfl
    · rintro (hhead | hhead)
      · exact hp (Option.some.inj hhead)
      · exact hm (Option.some.inj hhead)

theorem at_sign (h : At t i front rest) :
    At t (i + signWidth (Text.encode t) i) (front ++ Sign.spelling (scanSign rest).1)
      (scanSign rest).2 := by
  rw [signWidth_of_at h]
  refine At.advance ?_ ?_
  · rwa [scanSign_spelling]
  · intro c hc
    rcases List.mem_pair.mp (Grammar.mem_signs hc) with rfl | rfl <;> decide

theorem at_digits (h : At t i front rest) :
    At t (i + (scanDigits rest).1.length) (front ++ (scanDigits rest).1) (scanDigits rest).2 := by
  refine At.advance ?_ fun c hc => isDigit_low (scanDigits_isDigit rest c hc)
  rwa [scanDigits_append]

/-! ## The mantissa -/

theorem at_point {cs : List Char} (h : At t i front ('.' :: cs)) :
    At t (i + 1) (front ++ ['.']) cs :=
  h.next (by decide)

theorem at_fraction {cs : List Char} (h : At t i front ('.' :: cs)) :
    At t (i + (1 + (scanDigits cs).1.length)) (front ++ '.' :: (scanDigits cs).1)
      (scanDigits cs).2 := by
  simpa [Nat.add_assoc] using at_digits (at_point h)

theorem scanFraction_of_head {cs : List Char} (h : cs.head? ≠ some '.') :
    scanFraction cs = (none, cs) := by
  cases cs with
  | nil => rfl
  | cons c cs => exact scanFraction_of_not_point (fun hc => h (congrArg some hc)) cs

/-- The search stands behind the fraction if there is a digit on some side of the point. -/
theorem findMantissa_spec (h : At t i front rest) :
    let whole := scanDigits rest
    let fraction := scanFraction whole.2
    ∃ m, findMantissa (Text.encode t) i = .ok m ∧
      m.digits = (whole.1 ++ fraction.1.getD []).length ∧
      (∀ j ∈ m.indices, Text.IsCut t j) ∧
      (0 < m.digits →
        At t m.stop (front ++ (whole.1 ++ Unsigned.fractionSpelling fraction.1)) fraction.2) := by
  intro whole fraction
  have hwhole : At t (i + whole.1.length) (front ++ whole.1) whole.2 := at_digits h
  have hpoint := hwhole.charAt?_eq_some_iff (c := '.') (by decide)
  by_cases hhead : whole.2.head? = some '.'
  · obtain ⟨cs, hcs⟩ : ∃ cs, whole.2 = '.' :: cs := ⟨_, List.eq_cons_of_mem_head? hhead⟩
    have hfraction : fraction = (some (scanDigits cs).1, (scanDigits cs).2) := by
      simp only [fraction, hcs, scanFraction]
    have hbehind := at_point (hcs ▸ hwhole)
    have hplaces := at_fraction (hcs ▸ hwhole)
    refine ⟨_, findMantissa_pointed (digitsFrom_of_at h) (hpoint.mpr hhead)
      (digitsFrom_of_at hbehind), ?_, ?_, ?_⟩
    · rw [hfraction, Option.getD_some, List.length_append]
      rfl
    · -- A point without digits is not passed: the search can stop on either side of it.
      have hstop :
          Text.IsCut t (Mantissa.pointed i whole.1.length (scanDigits cs).1.length).stop := by
        rw [Mantissa.pointed]
        split
        · exact hplaces.isCut
        · exact hwhole.isCut
      exact List.forall_mem_cons.mpr ⟨hwhole.isCut,
        List.forall_mem_cons.mpr ⟨hbehind.isCut, List.forall_mem_singleton.mpr hstop⟩⟩
    · intro hdigits
      rw [hfraction, Mantissa.pointed_stop hdigits, ← List.append_assoc]
      exact hplaces
  · have hfraction : fraction = (none, whole.2) := scanFraction_of_head hhead
    refine ⟨_, findMantissa_pointless (digitsFrom_of_at h) (hpoint.not.mpr hhead), ?_, ?_, ?_⟩
    · rw [hfraction, Option.getD_none, List.append_nil]
      rfl
    · exact List.forall_mem_cons.mpr ⟨hwhole.isCut, List.forall_mem_singleton.mpr hwhole.isCut⟩
    · intro _
      rw [hfraction, Unsigned.fractionSpelling, List.append_nil]
      exact hwhole

/-! ## The exponent -/

theorem scanExponent_of_head {cs : List Char} (h : ¬ (cs.head? = some 'e' ∨ cs.head? = some 'E')) :
    scanExponent cs = (none, cs) := by
  cases cs with
  | nil => rfl
  | cons c cs =>
    have hmark : ¬ (c = 'e' ∨ c = 'E') := fun hc => h (hc.imp (congrArg some) (congrArg some))
    rw [scanExponent, if_neg hmark]

/-- The search stands behind the exponent if it has digits, and in front of it otherwise. -/
theorem findExponent_spec (h : At t i front rest) :
    ∃ e, findExponent (Text.encode t) i = .ok e ∧
      (∀ x ∈ e, x.start = x.wanted ∧ Text.IsCut t x.wanted) ∧
      At t (exponentStop i e) (front ++ ((scanExponent rest).1.map ExponentPart.spelling).getD [])
        (scanExponent rest).2 := by
  have hmark := or_congr (h.charAt?_eq_some_iff (c := 'e') (by decide))
    (h.charAt?_eq_some_iff (c := 'E') (by decide))
  by_cases hhead : rest.head? = some 'e' ∨ rest.head? = some 'E'
  · obtain ⟨c, cs, rfl⟩ : ∃ c cs, rest = c :: cs := by
      cases rest with
      | nil => simp at hhead
      | cons c cs => exact ⟨c, cs, rfl⟩
    have hc : c = 'e' ∨ c = 'E' := hhead.imp Option.some.inj Option.some.inj
    have hsign := at_sign (h.next (by rcases hc with rfl | rfl <;> decide))
    have hdigits := at_digits hsign
    refine ⟨_, findExponent_marked (hmark.mpr hhead) hsign.le (digitsFrom_of_at hsign), ?_, ?_⟩
    · rintro _ ⟨⟩
      exact ⟨rfl, hsign.isCut⟩
    · -- Without digits the search goes back to the mark, and so does the scan.
      by_cases hnone : (scanDigits (scanSign cs).2).1 = []
      · have hscan : scanExponent (c :: cs) = (none, c :: cs) := by
          simp only [scanExponent, if_pos hc, if_pos hnone]
        rw [hscan, Option.map_none, Option.getD_none, List.append_nil, exponentStop, if_neg]
        · exact h
        · simp [hnone]
      · have hscan : scanExponent (c :: cs) =
            (some { mark := c, sign := (scanSign cs).1, digits := (scanDigits (scanSign cs).2).1 },
              (scanDigits (scanSign cs).2).2) := by
          simp only [scanExponent, if_pos hc, if_neg hnone]
        rw [hscan, exponentStop, if_pos (List.length_pos_iff.mpr hnone)]
        simpa [ExponentPart.spelling] using hdigits
  · refine ⟨_, findExponent_unmarked (hmark.not.mpr hhead), ?_, ?_⟩
    · intro x hx
      cases hx
    · rw [scanExponent_of_head hhead, Option.map_none, Option.getD_none, List.append_nil]
      exact h

/-! ## The whole search -/

/-- What is right about the outcome of a search. -/
structure Reading.Sound (t : String) (r : Reading) : Prop where
  /-- Every index is at most the length and stands between two characters. -/
  cut : ∀ i ∈ r.indices, Text.IsCut t i
  /-- The index of the exponent's digits is the one that is wanted. -/
  unclamped : ∀ e ∈ r.exponent?, e.start = e.wanted
  /-- What is parsed in the end is the longest numeral at the start, and it parses. -/
  parsed : ∀ s ∈ r.spelling?,
    Grammar.IsLongest t.toList s.toList ∧ (parse? s.toList).isSome = true
  /-- Only a mantissa without digits has no value. -/
  value_eq_none_iff : r.value = none ↔ ∃ m ∈ r.mantissa?, m.digits = 0
  value_eq : r.value = (scan t.toList).map fun found => found.1.value

theorem isNegative_scanSign_iff {c : Char} {cs : List Char} :
    Sign.isNegative (scanSign (c :: cs)).1 = true ↔ c = '-' := by
  by_cases hp : c = '+'
  · subst hp
    exact iff_of_false Bool.false_ne_true (by decide)
  by_cases hm : c = '-'
  · subst hm
    exact iff_of_true rfl rfl
  rw [scanSign_of_not_sign hp hm]
  exact iff_of_false Bool.false_ne_true hm

theorem at_unsigned (t : String) :
    At t (signWidth (Text.encode t) 0) (Sign.spelling (scanSign t.toList).1)
      (scanSign t.toList).2 := by
  have h := at_sign (At.start t)
  rwa [Nat.zero_add, List.nil_append] at h

theorem isPrefixOf_ofList {p cs : List Char} :
    p.isPrefixOf (String.ofList cs).toList = (p.isPrefixOf? cs).isSome := by
  rw [String.toList_ofList, List.isSome_isPrefixOf?_eq_isPrefixOf]

theorem readBytes_sound_infinity {rest : List Char}
    (hword : Unsigned.infinityWord.isPrefixOf? (scanSign t.toList).2 = some rest) :
    ∃ r, readBytes t = .ok r ∧ r.Sound t := by
  have hsign := at_unsigned t
  have hscan : scan t.toList =
      some ({ sign := (scanSign t.toList).1, unsigned := .infinity }, rest) := by
    simp only [scan, scanUnsigned, hword]
  -- A text with the word in it has a first byte.
  obtain ⟨c, cs, hcs⟩ : ∃ c cs, t.toList = c :: cs := by
    refine List.exists_cons_of_ne_nil fun hnil => ?_
    rw [hnil] at hword
    cases hword
  obtain ⟨b, hb, hfirst⟩ := (hcs ▸ At.start t).byteAt
  have hnegative : (Char.ofUInt8 b == '-') = Sign.isNegative (scanSign t.toList).1 := by
    rw [Bool.eq_iff_iff, beq_iff_eq, hfirst '-' (by decide), hcs, isNegative_scanSign_iff]
  refine ⟨_, readBytes_infinity hsign.textFrom (by rw [isPrefixOf_ofList, hword]; rfl) hb, ?_⟩
  exact {
    cut := List.forall_mem_singleton.mpr hsign.isCut
    unclamped := by rintro _ ⟨⟩
    parsed := by rintro _ ⟨⟩
    value_eq_none_iff := by
      refine iff_of_false (Option.some_ne_none _) ?_
      rintro ⟨_, ⟨⟩, _⟩
    value_eq := by
      rw [hscan, Reading.value, hnegative]
      rfl }

section Decimal

variable (hword : Unsigned.infinityWord.isPrefixOf? (scanSign t.toList).2 = none) {m : Mantissa}
  (hm : findMantissa (Text.encode t) (signWidth (Text.encode t) 0) = .ok m)
  (hcut : ∀ j ∈ m.indices, Text.IsCut t j)

include hword hm hcut

theorem readBytes_sound_noDigit (hdigits : m.digits = 0)
    (hscan : scanDecimal (scanSign t.toList).2 = none) :
    ∃ r, readBytes t = .ok r ∧ r.Sound t := by
  have hsign := at_unsigned t
  refine ⟨_, readBytes_noDigit hsign.textFrom (by rw [isPrefixOf_ofList, hword]; rfl) hm hdigits,
    ?_⟩
  exact {
    cut := List.forall_mem_cons.mpr ⟨hsign.isCut, hcut⟩
    unclamped := by rintro _ ⟨⟩
    parsed := by rintro _ ⟨⟩
    value_eq_none_iff := iff_of_true rfl ⟨m, rfl, hdigits⟩
    value_eq := by
      simp only [scan, scanUnsigned, hword, hscan]
      rfl }

theorem readBytes_sound_literal (hdigits : m.digits ≠ 0) {u : Unsigned} {rest : List Char}
    (hscan : scanDecimal (scanSign t.toList).2 = some (u, rest)) {e : Option ExponentDigits}
    (he : findExponent (Text.encode t) m.stop = .ok e)
    (hexponent : ∀ x ∈ e, x.start = x.wanted ∧ Text.IsCut t x.wanted)
    (hstop : At t (exponentStop m.stop e) (Sign.spelling (scanSign t.toList).1 ++ u.spelling)
      rest) :
    ∃ r, readBytes t = .ok r ∧ r.Sound t := by
  have hsign := at_unsigned t
  have hnumeral : scan t.toList =
      some ({ sign := (scanSign t.toList).1, unsigned := u }, rest) := by
    simp only [scan, scanUnsigned, hword, hscan]
  have hparse : parse? (Sign.spelling (scanSign t.toList).1 ++ u.spelling) =
      some (u.value (Sign.isNegative (scanSign t.toList).1)) := by
    obtain ⟨whole, fraction, exponent, rfl⟩ := exists_decimal hscan
    exact parse?_decimal _ (scanDecimal_wellFormed hscan)
  refine ⟨_, readBytes_literal hsign.textFrom (by rw [isPrefixOf_ofList, hword]; rfl) hm hdigits he
    hstop.textUpTo, ?_⟩
  exact {
    cut := by
      simp only [Reading.indices, List.forall_mem_append, List.forall_mem_cons, List.mem_flatMap,
        Option.mem_toList]
      refine ⟨⟨⟨hsign.isCut, hcut⟩, ?_⟩, hstop.isCut, List.forall_mem_nil _⟩
      rintro j ⟨x, hx, hj⟩
      obtain ⟨hstart, hwanted⟩ := hexponent x hx
      rcases List.mem_pair.mp hj with rfl | rfl
      · exact hwanted
      · exact hstart ▸ hwanted
    unclamped := fun x hx => (hexponent x hx).1
    parsed := by
      rintro _ ⟨⟩
      rw [String.toList_ofList, hparse]
      exact ⟨Grammar.isLongest_of_scan hnumeral, rfl⟩
    value_eq_none_iff := by
      rw [Reading.value, String.toList_ofList, hparse]
      refine iff_of_false (Option.some_ne_none _) ?_
      rintro ⟨_, ⟨⟩, hzero⟩
      exact hdigits hzero
    value_eq := by
      rw [Reading.value, String.toList_ofList, hparse, hnumeral]
      rfl }

end Decimal

theorem readBytes_sound (t : String) : ∃ r, readBytes t = .ok r ∧ r.Sound t := by
  cases hword : Unsigned.infinityWord.isPrefixOf? (scanSign t.toList).2 with
  | some rest => exact readBytes_sound_infinity hword
  | none =>
    obtain ⟨m, hm, hdigits, hcut, hstop⟩ := findMantissa_spec (at_unsigned t)
    by_cases hnone : m.digits = 0
    · have hempty := List.length_eq_zero_iff.mp (hdigits.symm.trans hnone)
      refine readBytes_sound_noDigit hword hm hcut hnone ?_
      simp only [scanDecimal, if_pos hempty]
    · obtain ⟨e, he, hexponent, hend⟩ := findExponent_spec (hstop (Nat.pos_of_ne_zero hnone))
      have hscan := scanDecimal_of_parts rfl rfl fun hempty =>
        hnone (hdigits.trans (List.length_eq_zero_iff.mpr hempty))
      refine readBytes_sound_literal hword hm hcut hnone hscan he hexponent ?_
      rwa [List.append_assoc] at hend

/-- The search by bytes never uses an index beyond the end of the text or inside a character. It
finds the longest numeral, which always parses, so that only a mantissa without digits leaves it
without a value; and a word is read as the search reads it behind the padding. -/
theorem readBytes_total (t : String) :
    ∃ r, readBytes t = .ok r ∧
      (∀ i ∈ r.indices, i ≤ (Text.encode t).length ∧ String.Pos.Raw.IsValid t ⟨i⟩) ∧
      (∀ e ∈ r.exponent?, e.start = e.wanted) ∧
      (∀ s ∈ r.spelling?, Grammar.IsLongest t.toList s.toList ∧ (parse? s.toList).isSome = true) ∧
      (r.value = none ↔ ∃ m ∈ r.mantissa?, m.digits = 0) ∧
      (r.value = none ↔ ∀ p ∈ Grammar.numeral, ¬ p <+: t.toList) ∧
      ∀ w, afterPadding w = t.toList → readOperand w = r.value.getD .quietNaN := by
  obtain ⟨r, hr, hsound⟩ := readBytes_sound t
  refine ⟨r, hr, hsound.cut, hsound.unclamped, hsound.parsed, hsound.value_eq_none_iff, ?_, ?_⟩
  · rw [hsound.value_eq, Option.map_eq_none_iff, Grammar.scan_eq_none_iff]
  · intro w hw
    rw [hsound.value_eq, readOperand, ← afterPadding, hw]
    cases scan t.toList <;> rfl

/-- An exponent is left out if there is no digit at the index where its digits would start. -/
example : (readBytes "-1.5e+é").toOption.map Reading.indices = some [1, 2, 3, 4, 6, 6, 4] := by
  decide +kernel

end Numeral
end PrefixCalc
