import PrefixCalc.Proofs.Numeral.Grammar
import PrefixCalc.Proofs.Numeral.Longest

/-!
# PrefixCalc.Proofs.Numeral.Tidy

What no numeral contains: a point without a digit beside it, a sign or the mark of an exponent at
the end, a second sign, or another word than the one for infinity.

* `tidy_of_mem`: all texts of the grammar are free of these.
-/

namespace PrefixCalc
namespace Grammar

structure Tidy (p : List Char) : Prop where
  /-- A point has a digit on one of its sides. -/
  point : ∀ a b, p = a ++ '.' :: b →
    (∃ c ∈ a.getLast?, c.isDigit = true) ∨ ∃ c ∈ b.head?, c.isDigit = true
  /-- Neither a sign nor the mark of an exponent stands at the end. -/
  last : ∀ a c, p = a ++ [c] → c ∉ ['+', '-', 'e', 'E']
  /-- No second sign follows a first one. -/
  signs : ∀ c d b, p = c :: d :: b → c ∈ ['+', '-'] → d ∉ ['+', '-']
  /-- Letters other than the mark of an exponent belong to the word for infinity. -/
  letters : ∀ c ∈ p, c.isAlpha = true → c ∉ ['e', 'E'] →
    ∃ s, p = Sign.spelling s ++ Unsigned.infinityWord
  words : ∀ w ∈ ["inf", "infinity", "nan"], ¬ w.toList <:+: p

theorem mem_signs {s : Option Sign} {c : Char} (hc : c ∈ Sign.spelling s) : c ∈ ['+', '-'] := by
  match s with
  | none => cases hc
  | some .plus => cases List.mem_singleton.mp hc; decide
  | some .minus => cases List.mem_singleton.mp hc; decide

theorem mem_exponent_spelling {e : ExponentPart} (he : e.WellFormed) {c : Char}
    (hc : c ∈ e.spelling) : c ∈ ['+', '-', 'e', 'E'] ∨ c.isDigit = true := by
  rw [ExponentPart.spelling, List.mem_cons, List.mem_append] at hc
  rcases hc with rfl | hc | hc
  · rcases he.mark with h | h <;> rw [h] <;> decide
  · have := mem_signs hc
    simp only [List.mem_cons, List.not_mem_nil, or_false] at this ⊢
    tauto
  · exact .inr (he.digits c hc)

theorem ne_point {c : Char} (hc : c ∈ ['+', '-', 'e', 'E'] ∨ c.isDigit = true) : c ≠ '.' := by
  rintro rfl
  simp at hc

theorem not_isAlpha_of_isDigit {c : Char} (hc : c.isDigit = true) : c.isAlpha = false := by
  have hhigh : c.toNat ≤ 57 := (Char.isDigit_iff_toNat.mp hc).2
  have hupper : ¬ 'A'.val ≤ c.val := by
    intro h
    have hle : 65 ≤ c.toNat := UInt32.le_iff_toNat_le.mp h
    omega
  have hlower : ¬ 'a'.val ≤ c.val := by
    intro h
    have hle : 97 ≤ c.toNat := UInt32.le_iff_toNat_le.mp h
    omega
  show (decide ('A'.val ≤ c.val ∧ c.val ≤ 'Z'.val) ||
    (decide ('a'.val ≤ c.val) && decide (c.val ≤ 'z'.val))) = false
  rw [decide_eq_false (fun h => hupper h.1), decide_eq_false hlower]
  rfl

section Decimal

variable {s : Option Sign} {whole : List Char} {fraction : Option (List Char)}
  {exponent : Option ExponentPart}

theorem mem_decimal_spelling (hwf : Unsigned.WellFormed (.decimal whole fraction exponent))
    {c : Char} (hc : c ∈ Sign.spelling s ++ Unsigned.spelling (.decimal whole fraction exponent)) :
    c = '.' ∨ c ∈ ['+', '-', 'e', 'E'] ∨ c.isDigit = true := by
  cases hwf with
  | decimal hd _ he =>
    obtain ⟨hw, hf⟩ := List.forall_mem_append.mp hd
    rw [Unsigned.spelling, List.mem_append, List.mem_append, List.mem_append] at hc
    rcases hc with hc | (hc | hc) | hc
    · have := mem_signs hc
      simp only [List.mem_cons, List.not_mem_nil, or_false] at this ⊢
      tauto
    · exact .inr (.inr (hw c hc))
    · cases fraction with
      | none => cases hc
      | some ds => exact (List.mem_cons.mp hc).imp_right fun h => .inr (hf c h)
    · cases exponent with
      | none => cases hc
      | some e => exact .inr (mem_exponent_spelling (he e rfl) hc)

/-- There is one point, and the digits on its sides are those of the literal. -/
theorem decimal_point (hwf : Unsigned.WellFormed (.decimal whole fraction exponent))
    {a b : List Char}
    (h : Sign.spelling s ++ Unsigned.spelling (.decimal whole fraction exponent) =
      a ++ '.' :: b) :
    (∃ c ∈ a.getLast?, c.isDigit = true) ∨ ∃ c ∈ b.head?, c.isDigit = true := by
  cases hwf with
  | decimal hd hne he =>
    obtain ⟨hw, hf⟩ := List.forall_mem_append.mp hd
    have hbefore : '.' ∉ Sign.spelling s ++ whole := by
      intro hc
      rcases List.mem_append.mp hc with hc | hc
      · exact absurd (mem_signs hc) (by decide)
      · exact absurd (hw _ hc) (by decide)
    have hexp : '.' ∉ (exponent.map ExponentPart.spelling).getD [] := by
      cases exponent with
      | none => exact List.not_mem_nil
      | some e => exact fun hc => ne_point (mem_exponent_spelling (he e rfl) hc) rfl
    cases fraction with
    | none =>
      have hc : '.' ∈ Sign.spelling s ++ whole ++ (exponent.map ExponentPart.spelling).getD [] := by
        have : '.' ∈ a ++ '.' :: b := by simp
        simpa [← h, Unsigned.spelling, Unsigned.fractionSpelling] using this
      exact absurd ((List.mem_append.mp hc).resolve_left hbefore) hexp
    | some ds =>
      have hafter : '.' ∉ ds ++ (exponent.map ExponentPart.spelling).getD [] := by
        intro hc
        rcases List.mem_append.mp hc with hc | hc
        · exact absurd (hf _ hc) (by decide)
        · exact hexp hc
      have h' : (Sign.spelling s ++ whole) ++
          '.' :: (ds ++ (exponent.map ExponentPart.spelling).getD []) = a ++ '.' :: b := by
        simpa [Unsigned.spelling, Unsigned.fractionSpelling] using h
      obtain ⟨rfl, -, rfl⟩ := (List.append_cons_inj_of_notMem hbefore hafter).mp h'
      rcases List.eq_nil_or_concat whole with rfl | ⟨ws, w, rfl⟩
      · obtain ⟨d, ds', rfl⟩ := List.exists_cons_of_ne_nil hne
        exact .inr ⟨d, by simp, hf d (by simp)⟩
      · exact .inl ⟨w, by simp [← List.append_assoc], hw w (by simp)⟩

theorem decimal_last (hwf : Unsigned.WellFormed (.decimal whole fraction exponent)) :
    ∃ l c, Unsigned.spelling (.decimal whole fraction exponent) = l ++ [c] ∧
      (c.isDigit = true ∨ c = '.') := by
  cases hwf with
  | decimal hd hne he =>
    match exponent, fraction with
    | some e, fraction =>
      obtain ⟨ds, d, hds⟩ := (List.eq_nil_or_concat e.digits).resolve_left (he e rfl).some_digit
      refine ⟨whole ++ Unsigned.fractionSpelling fraction ++
        e.mark :: (Sign.spelling e.sign ++ ds), d, ?_, .inl ?_⟩
      · simp [Unsigned.spelling, ExponentPart.spelling, hds]
      · exact (he e rfl).digits d (by simp [hds])
    | none, some ds =>
      rcases List.eq_nil_or_concat ds with rfl | ⟨ds, d, rfl⟩
      · exact ⟨whole, '.', by simp [Unsigned.spelling, Unsigned.fractionSpelling], .inr rfl⟩
      · exact ⟨whole ++ '.' :: ds, d, by simp [Unsigned.spelling, Unsigned.fractionSpelling],
          .inl (hd d (by simp))⟩
    | none, none =>
      rcases List.eq_nil_or_concat whole with rfl | ⟨ws, w, rfl⟩
      · exact absurd rfl hne
      · exact ⟨ws, w, by simp [Unsigned.spelling, Unsigned.fractionSpelling],
          .inl (hd w (by simp))⟩

end Decimal

theorem unsigned_last {u : Unsigned} (hwf : u.WellFormed) :
    ∃ l c, u.spelling = l ++ [c] ∧ (c.isDigit = true ∨ c = '.' ∨ c = 'y') := by
  cases u with
  | infinity => exact ⟨['I', 'n', 'f', 'i', 'n', 'i', 't'], 'y', rfl, .inr (.inr rfl)⟩
  | decimal whole fraction exponent =>
    obtain ⟨l, c, h, hc⟩ := decimal_last hwf
    exact ⟨l, c, h, hc.imp_right .inl⟩

/-- No sign starts what follows the sign of a numeral. -/
theorem unsigned_head_not_sign {u : Unsigned} (hwf : u.WellFormed) {c : Char} {cs : List Char}
    (h : u.spelling = c :: cs) : c ∉ ['+', '-'] := by
  obtain ⟨d, ds, hd, hc⟩ := Numeral.unsigned_spelling_head hwf
  rw [h] at hd
  cases hd
  intro hsign
  rw [List.mem_cons, List.mem_singleton] at hsign
  rcases hsign with rfl | rfl <;> simp at hc

variable {s : Option Sign} {u : Unsigned}

theorem spelling_point (hwf : u.WellFormed) {a b : List Char}
    (h : Sign.spelling s ++ u.spelling = a ++ '.' :: b) :
    (∃ c ∈ a.getLast?, c.isDigit = true) ∨ ∃ c ∈ b.head?, c.isDigit = true := by
  cases u with
  | infinity =>
    have hmem : '.' ∈ Sign.spelling s ++ Unsigned.infinityWord := by
      rw [show Sign.spelling s ++ Unsigned.infinityWord = a ++ '.' :: b from h]
      simp
    rcases List.mem_append.mp hmem with hmem | hmem
    · exact absurd (mem_signs hmem) (by decide)
    · exact absurd hmem (by decide)
  | decimal whole fraction exponent => exact decimal_point hwf h

theorem spelling_last (hwf : u.WellFormed) {a : List Char} {c : Char}
    (h : Sign.spelling s ++ u.spelling = a ++ [c]) : c ∉ ['+', '-', 'e', 'E'] := by
  obtain ⟨l, d, hl, hd⟩ := unsigned_last hwf
  rw [hl, ← List.append_assoc] at h
  obtain ⟨-, hdc⟩ := List.append_inj' h rfl
  cases hdc
  intro hc
  simp only [List.mem_cons, List.not_mem_nil, or_false] at hc
  rcases hc with rfl | rfl | rfl | rfl <;> simp at hd

theorem spelling_signs (hwf : u.WellFormed) {c d : Char} {b : List Char}
    (h : Sign.spelling s ++ u.spelling = c :: d :: b) (hc : c ∈ ['+', '-']) :
    d ∉ ['+', '-'] := by
  match s with
  | none => exact absurd hc (unsigned_head_not_sign hwf h)
  | some s =>
    have hu : u.spelling = d :: b := (List.cons.inj h).2
    exact unsigned_head_not_sign hwf hu

theorem spelling_letters (hwf : u.WellFormed) {c : Char}
    (hc : c ∈ Sign.spelling s ++ u.spelling) (halpha : c.isAlpha = true) (hmark : c ∉ ['e', 'E']) :
    u = .infinity := by
  cases u with
  | infinity => rfl
  | decimal whole fraction exponent =>
    exfalso
    rcases mem_decimal_spelling hwf hc with rfl | hc | hc
    · exact absurd halpha (by decide)
    · simp only [List.mem_cons, List.not_mem_nil, or_false] at hc hmark
      rcases hc with rfl | rfl | rfl | rfl <;> simp at halpha hmark
    · rw [not_isAlpha_of_isDigit hc] at halpha
      cases halpha

/-- The three words share a letter that only the word for infinity has. -/
theorem spelling_words (hwf : u.WellFormed) {w : String} (hw : w ∈ ["inf", "infinity", "nan"]) :
    ¬ w.toList <:+: Sign.spelling s ++ u.spelling := by
  intro hin
  simp only [List.mem_cons, List.not_mem_nil, or_false] at hw
  have hn : 'n' ∈ w.toList := by rcases hw with rfl | rfl | rfl <;> decide
  obtain rfl := spelling_letters hwf (hin.subset hn) (by decide) (by decide)
  rcases hw with rfl | rfl | rfl <;> rcases s with _ | _ | _ <;> revert hin <;> decide

theorem tidy_of_mem {p : List Char} (h : p ∈ numeral) : Tidy p := by
  obtain ⟨⟨s, u⟩, hwf, rfl⟩ := mem_numeral.mp h
  exact {
    point := fun a b => spelling_point hwf
    last := fun a c => spelling_last hwf
    signs := fun c d b => spelling_signs hwf
    letters := fun c hc halpha hmark => by
      obtain rfl := spelling_letters hwf hc halpha hmark
      exact ⟨s, rfl⟩
    words := fun w => spelling_words hwf }

end Grammar
end PrefixCalc
