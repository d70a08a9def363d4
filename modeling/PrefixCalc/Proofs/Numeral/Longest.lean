import PrefixCalc.Numeral.Scan

/-!
# PrefixCalc.Proofs.Numeral.Longest

The scan takes the longest numeral at the start of a text.

* `scan_append`: a well-formed numeral in front of any text is found, or a longer one; at the end
  of the text it is found as it is.
* `scan_longest`, `spelling_injective`: so no numeral at the start of a text is longer than the one
  found, and no two numerals are spelled alike.
-/

namespace PrefixCalc
namespace Numeral

/-! ## The parts of a numeral in front of a text -/

theorem scanDigits_of_digits {ds : List Char} (h : ∀ c ∈ ds, c.isDigit = true) (cs : List Char) :
    scanDigits (ds ++ cs) = (ds ++ (scanDigits cs).1, (scanDigits cs).2) := by
  simp only [scanDigits, List.takeWhile_append_of_pos h, List.dropWhile_append_of_pos h]

theorem scanDigits_of_not_digit {c : Char} (h : c.isDigit = false) (cs : List Char) :
    scanDigits (c :: cs) = ([], c :: cs) := by
  simp [scanDigits, h]

theorem scanSign_of_not_sign {c : Char} (hp : c ≠ '+') (hm : c ≠ '-') (cs : List Char) :
    scanSign (c :: cs) = (none, c :: cs) := by
  unfold scanSign
  split
  · rename_i h; cases h; exact absurd rfl hp
  · rename_i h; cases h; exact absurd rfl hm
  · rfl

/-- A sign is taken off, unless there is none and the text starts with one itself. -/
theorem scanSign_append (s : Option Sign) {c : Char} (hp : c ≠ '+') (hm : c ≠ '-')
    (cs : List Char) : scanSign (Sign.spelling s ++ c :: cs) = (s, c :: cs) := by
  match s with
  | none => exact scanSign_of_not_sign hp hm cs
  | some .plus => rfl
  | some .minus => rfl

theorem scanFraction_of_not_point {c : Char} (h : c ≠ '.') (cs : List Char) :
    scanFraction (c :: cs) = (none, c :: cs) := by
  unfold scanFraction
  split
  · rename_i he; cases he; exact absurd rfl h
  · rfl

theorem not_sign_of_isDigit {c : Char} (h : c.isDigit = true) : c ≠ '+' ∧ c ≠ '-' := by
  constructor <;> rintro rfl <;> simp at h

theorem mark_not_digit {e : ExponentPart} (he : e.WellFormed) : e.mark.isDigit = false := by
  rcases he.mark with h | h <;> rw [h] <;> rfl

theorem mark_ne_point {e : ExponentPart} (he : e.WellFormed) : e.mark ≠ '.' := by
  rcases he.mark with h | h <;> rw [h] <;> decide

/-- An exponent goes on as long as there are digits. -/
theorem scanExponent_append {e : ExponentPart} (he : e.WellFormed) (cs : List Char) :
    scanExponent (e.spelling ++ cs) =
      (some { e with digits := e.digits ++ (scanDigits cs).1 }, (scanDigits cs).2) := by
  obtain ⟨d, ds, hd⟩ := List.exists_cons_of_ne_nil he.some_digit
  have hdigit : d.isDigit = true := he.digits d (by simp [hd])
  have hsign : scanSign (Sign.spelling e.sign ++ (e.digits ++ cs)) = (e.sign, e.digits ++ cs) := by
    rw [hd, List.cons_append]
    exact scanSign_append e.sign (not_sign_of_isDigit hdigit).1 (not_sign_of_isDigit hdigit).2 _
  have hne : e.digits ++ (scanDigits cs).1 ≠ [] := by simp [hd]
  simp only [ExponentPart.spelling, List.cons_append, List.append_assoc, scanExponent,
    if_pos he.mark, hsign, scanDigits_of_digits he.digits, if_neg hne]

theorem scanDecimal_of_parts {cs whole r₁ r₂ : List Char} {fraction : Option (List Char)}
    (hw : scanDigits cs = (whole, r₁)) (hf : scanFraction r₁ = (fraction, r₂))
    (hne : whole ++ fraction.getD [] ≠ []) :
    scanDecimal cs = some (.decimal whole fraction (scanExponent r₂).1, (scanExponent r₂).2) := by
  simp only [scanDecimal, hw, hf, if_neg hne]

theorem scanDigits_append_fraction {whole : List Char} (hw : ∀ c ∈ whole, c.isDigit = true)
    (fraction : Option (List Char)) {c : Char} (hc : c.isDigit = false) (cs : List Char) :
    scanDigits (whole ++ (Unsigned.fractionSpelling fraction ++ c :: cs)) =
      (whole, Unsigned.fractionSpelling fraction ++ c :: cs) := by
  rw [scanDigits_of_digits hw]
  cases fraction with
  | none => simp [Unsigned.fractionSpelling, scanDigits_of_not_digit hc]
  | some ds => simp [Unsigned.fractionSpelling, scanDigits_of_not_digit (c := '.') rfl]

theorem scanFraction_append {fraction : Option (List Char)}
    (hf : ∀ c ∈ fraction.getD [], c.isDigit = true) {c : Char} (hc : c.isDigit = false)
    (hp : c ≠ '.') (cs : List Char) :
    scanFraction (Unsigned.fractionSpelling fraction ++ c :: cs) = (fraction, c :: cs) := by
  cases fraction with
  | none => exact scanFraction_of_not_point hp cs
  | some ds =>
    rw [Option.getD_some] at hf
    simp [Unsigned.fractionSpelling, scanFraction, scanDigits_of_digits hf,
      scanDigits_of_not_digit hc]

/-! ## Numerals in front of a text -/

/-- Only the last part of a decimal literal can go on in the text behind it. -/
theorem scanDecimal_append {whole : List Char} {fraction : Option (List Char)}
    {exponent : Option ExponentPart}
    (hwf : Unsigned.WellFormed (.decimal whole fraction exponent)) (cs : List Char) :
    ∃ u rest, scanDecimal ((Unsigned.decimal whole fraction exponent).spelling ++ cs) =
        some (u, rest) ∧
      (Unsigned.decimal whole fraction exponent).spelling.length ≤ u.spelling.length ∧
      (cs = [] → u = .decimal whole fraction exponent) := by
  cases hwf with
  | decimal hd hne he =>
    obtain ⟨hw, hf⟩ := List.forall_mem_append.mp hd
    match exponent, fraction with
    | some e, fraction =>
      have hwf := he e rfl
      have h₁ := scanDigits_append_fraction hw fraction (mark_not_digit hwf)
        (Sign.spelling e.sign ++ e.digits ++ cs)
      have h₂ := scanFraction_append hf (mark_not_digit hwf) (mark_ne_point hwf)
        (Sign.spelling e.sign ++ e.digits ++ cs)
      have h := scanDecimal_of_parts h₁ h₂ hne
      have hexp := scanExponent_append hwf cs
      rw [ExponentPart.spelling, List.cons_append] at hexp
      rw [hexp] at h
      refine ⟨_, _, by simpa [Unsigned.spelling, ExponentPart.spelling] using h, ?_, ?_⟩
      · simp [Unsigned.spelling, ExponentPart.spelling]
      · rintro rfl; simp [scanDigits]
    | none, some ds =>
      rw [Option.getD_some] at hf
      have h₁ : scanDigits (whole ++ ('.' :: (ds ++ cs))) = (whole, '.' :: (ds ++ cs)) := by
        rw [scanDigits_of_digits hw, scanDigits_of_not_digit rfl, List.append_nil]
      have h₂ : scanFraction ('.' :: (ds ++ cs)) =
          (some (ds ++ (scanDigits cs).1), (scanDigits cs).2) := by
        rw [scanFraction, scanDigits_of_digits hf]
      have hne' : whole ++ (some (ds ++ (scanDigits cs).1)).getD [] ≠ [] := by
        intro h; simp_all
      have h := scanDecimal_of_parts h₁ h₂ hne'
      refine ⟨_, _, by simpa [Unsigned.spelling, Unsigned.fractionSpelling] using h, ?_, ?_⟩
      · simp [Unsigned.spelling, Unsigned.fractionSpelling]
      · rintro rfl; simp [scanDigits, scanExponent]
    | none, none =>
      have h₁ := scanDigits_of_digits hw cs
      have hne' :
          whole ++ (scanDigits cs).1 ++ (scanFraction (scanDigits cs).2).1.getD [] ≠ [] := by
        intro h; simp_all
      have h := scanDecimal_of_parts h₁ rfl hne'
      refine ⟨_, _, by simpa [Unsigned.spelling, Unsigned.fractionSpelling] using h, ?_, ?_⟩
      · simp [Unsigned.spelling, Unsigned.fractionSpelling]
      · rintro rfl; simp [scanDigits, scanExponent]

theorem decimal_spelling_head {whole : List Char} {fraction : Option (List Char)}
    {exponent : Option ExponentPart}
    (hwf : Unsigned.WellFormed (.decimal whole fraction exponent)) :
    ∃ c cs, (Unsigned.decimal whole fraction exponent).spelling = c :: cs ∧
      (c.isDigit = true ∨ c = '.') := by
  cases hwf with
  | decimal hd hne _ =>
    match whole, fraction with
    | d :: ds, fraction => exact ⟨d, _, rfl, .inl (hd d (by simp))⟩
    | [], some ds => exact ⟨'.', _, rfl, .inr rfl⟩
    | [], none => exact absurd rfl hne

/-- What follows the sign starts with a digit, a point or the word for infinity. -/
theorem unsigned_spelling_head {u : Unsigned} (hwf : u.WellFormed) :
    ∃ c cs, u.spelling = c :: cs ∧ (c.isDigit = true ∨ c = '.' ∨ c = 'I') := by
  cases u with
  | infinity => exact ⟨'I', _, rfl, .inr (.inr rfl)⟩
  | decimal whole fraction exponent =>
    obtain ⟨c, cs, h, hc⟩ := decimal_spelling_head hwf
    exact ⟨c, cs, h, hc.imp_right .inl⟩

theorem isPrefixOf?_append_self (p cs : List Char) : p.isPrefixOf? (p ++ cs) = some cs := by
  induction p with
  | nil => rfl
  | cons c p ih =>
    show (if c == c then p.isPrefixOf? (p ++ cs) else none) = some cs
    rw [beq_self_eq_true, if_pos rfl, ih]

theorem scanUnsigned_append {u : Unsigned} (hwf : u.WellFormed) (cs : List Char) :
    ∃ v rest, scanUnsigned (u.spelling ++ cs) = some (v, rest) ∧
      u.spelling.length ≤ v.spelling.length ∧ (cs = [] → v = u) := by
  cases u with
  | infinity =>
    refine ⟨.infinity, cs, ?_, Nat.le_refl _, fun _ => rfl⟩
    simp only [scanUnsigned, Unsigned.spelling, isPrefixOf?_append_self]
  | decimal whole fraction exponent =>
    obtain ⟨v, rest, h, hle, hend⟩ := scanDecimal_append hwf cs
    refine ⟨v, rest, ?_, hle, hend⟩
    obtain ⟨c, cs', hs, hc⟩ := decimal_spelling_head hwf
    have hI : ('I' == c) = false := by
      rcases hc with hc | rfl
      · rw [beq_eq_false_iff_ne]; rintro rfl; simp at hc
      · rfl
    have hnone : Unsigned.infinityWord.isPrefixOf?
        ((Unsigned.decimal whole fraction exponent).spelling ++ cs) = none := by
      rw [hs, List.cons_append]
      show (if 'I' == c then _ else none) = none
      rw [hI, if_neg Bool.false_ne_true]
    rw [scanUnsigned, hnone]
    exact h

theorem scan_append {n : Numeral} (hwf : n.WellFormed) (cs : List Char) :
    ∃ k rest, scan (n.spelling ++ cs) = some (k, rest) ∧
      n.spelling.length ≤ k.spelling.length ∧ (cs = [] → k = n) := by
  obtain ⟨v, rest, h, hle, hend⟩ := scanUnsigned_append hwf cs
  have hsign : scanSign (n.spelling ++ cs) = (n.sign, n.unsigned.spelling ++ cs) := by
    obtain ⟨c, cs', hs, hc⟩ := unsigned_spelling_head hwf
    rw [spelling, List.append_assoc, hs, List.cons_append]
    refine scanSign_append n.sign ?_ ?_ _ <;> rintro rfl <;> simp at hc
  refine ⟨{ sign := n.sign, unsigned := v }, rest, ?_, ?_, ?_⟩
  · simp only [scan, hsign, h]
  · simpa [spelling] using hle
  · intro hcs; rw [hend hcs]

/-- No numeral at the start of a text is longer than the one that is found. -/
theorem scan_longest {n : Numeral} (hwf : n.WellFormed) {cs : List Char} (h : n.spelling <+: cs) :
    ∃ k rest, scan cs = some (k, rest) ∧ n.spelling.length ≤ k.spelling.length := by
  obtain ⟨more, rfl⟩ := h
  obtain ⟨k, rest, hk, hle, -⟩ := scan_append hwf more
  exact ⟨k, rest, hk, hle⟩

/-- A numeral that stands alone is found as it is. -/
theorem scan_of_spelling {n : Numeral} (hwf : n.WellFormed) : scan n.spelling = some (n, []) := by
  obtain ⟨k, rest, hk, -, hend⟩ := scan_append hwf []
  rw [List.append_nil] at hk
  obtain rfl := hend rfl
  have hrest : rest = [] := List.append_right_eq_self.mp (scan_spelling hk)
  rw [hk, hrest]

/-- Well-formed numerals are spelled unambiguously. -/
theorem spelling_injective {n k : Numeral} (hn : n.WellFormed) (hk : k.WellFormed)
    (h : n.spelling = k.spelling) : n = k := by
  have hs := scan_of_spelling hn
  rw [h, scan_of_spelling hk] at hs
  cases hs
  rfl

end Numeral
end PrefixCalc
