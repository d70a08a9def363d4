import Mathlib.Data.List.DropRight
import PrefixCalc.Proofs.Text.Pieces
import PrefixCalc.Text.Blank

/-!
# PrefixCalc.Proofs.Text.Blank

What trimming takes away and what it leaves.

* `isWordSeparator`: the five ASCII blanks, which are trimmed like any other white space.
* `IsWhite`, `IsTrimmed`: a text of white space only, and one with white space at neither end.
* `isTrimmed_trim`, `exists_white_around_trim`: trimming takes all white space from both ends, and
  nothing else.
* `trim_white_around`: white space at the ends makes no difference.
* `trim_map`: nor does it make a difference which white space it is.
* `IsWord`: a text without white space that is not empty.
* `trim_intercalate`: words with a space between each two have nothing to trim.
-/

namespace PrefixCalc
namespace Text

/-- The visible characters of ASCII are blank nowhere. -/
theorem inRanges_commonBlanks_of_graphic {c : Char} (hlow : 0x21 ≤ c.toNat)
    (hhigh : c.toNat < 0x7F) : inRanges commonBlanks c.toNat = false := by
  have hapart : ∀ r ∈ commonBlanks, r.2 < 0x21 ∨ 0x7F ≤ r.1 := by decide
  rw [Bool.eq_false_iff, ne_eq, inRanges_iff]
  rintro ⟨r, hr, hle, hge⟩
  have := hapart r hr
  omega

theorem isWhiteSpace_of_graphic {c : Char} (hlow : 0x21 ≤ c.toNat) (hhigh : c.toNat < 0x7F) :
    isWhiteSpace c = false := by
  rw [isWhiteSpace, inRanges_commonBlanks_of_graphic hlow hhigh, Bool.false_or,
    beq_eq_false_iff_ne]
  omega

theorem isPadding_of_graphic {c : Char} (hlow : 0x21 ≤ c.toNat) (hhigh : c.toNat < 0x7F) :
    isPadding c = false := by
  rw [isPadding, inRanges_commonBlanks_of_graphic hlow hhigh, Bool.false_or, beq_eq_false_iff_ne]
  omega

def isWordSeparator (c : Char) : Bool :=
  c == ' ' || c == '\t' || c == '\n' || c == '\r' || c == '\x0c'

/-- A word separator is trimmed like any other white space. -/
theorem isWhiteSpace_of_isWordSeparator {c : Char} (h : isWordSeparator c = true) :
    isWhiteSpace c = true := by
  simp only [isWordSeparator, Bool.or_eq_true, beq_iff_eq] at h
  rcases h with (((rfl | rfl) | rfl) | rfl) | rfl <;> decide

theorem isWordSeparator_of_not_white {c : Char} (h : isWhiteSpace c = false) :
    isWordSeparator c = false := by
  cases hsep : isWordSeparator c with
  | false => rfl
  | true =>
    rw [isWhiteSpace_of_isWordSeparator hsep] at h
    cases h

/-! ## Trimming -/

/-- A text of white space only. -/
def IsWhite (s : String) : Prop := ∀ c ∈ s.toList, isWhiteSpace c = true

instance (s : String) : Decidable (IsWhite s) :=
  decidable_of_iff (s.toList.all isWhiteSpace = true) List.all_eq_true

theorem IsWhite.append {v w : String} (hv : IsWhite v) (hw : IsWhite w) : IsWhite (v ++ w) := by
  rw [IsWhite, String.toList_append, List.forall_mem_append]
  exact ⟨hv, hw⟩

/-- A text with white space at neither end. -/
structure IsTrimmed (s : String) : Prop where
  first : ∀ c ∈ s.toList.head?, isWhiteSpace c = false
  last : ∀ c ∈ s.toList.getLast?, isWhiteSpace c = false

theorem isTrimmed_empty : IsTrimmed "" where
  first := by
    intro c hc
    cases hc
  last := by
    intro c hc
    cases hc

theorem dropWhile_white_append {ws cs : List Char} (hws : ∀ c ∈ ws, isWhiteSpace c = true)
    (hcs : ∀ c ∈ cs.head?, isWhiteSpace c = false) :
    (ws ++ cs).dropWhile isWhiteSpace = cs := by
  rw [List.dropWhile_append_of_pos hws]
  cases cs with
  | nil => rfl
  | cons c cs => rw [List.dropWhile_cons_of_neg (by simp [hcs c rfl])]

theorem isTrimmed_trim (s : String) : IsTrimmed (trim s) where
  first := by
    intro c hc
    rw [trim, String.toList_ofList] at hc
    obtain ⟨rest, hrest⟩ : trimEnd (trimStart s.toList) <+: trimStart s.toList :=
      List.rdropWhile_prefix isWhiteSpace _
    have hfirst := List.head?_dropWhile_not isWhiteSpace s.toList
    rw [show s.toList.dropWhile isWhiteSpace = _ from hrest.symm, List.head?_append, hc] at hfirst
    exact hfirst
  last := by
    intro c hc
    rw [trim, String.toList_ofList, trimEnd, List.getLast?_reverse] at hc
    have hlast := List.head?_dropWhile_not isWhiteSpace (trimStart s.toList).reverse
    rw [hc] at hlast
    exact hlast

/-- Trimming takes white space away and nothing else. -/
theorem exists_white_around_trim (s : String) :
    ∃ v w, IsWhite v ∧ IsWhite w ∧ s = v ++ trim s ++ w := by
  refine ⟨.ofList (s.toList.takeWhile isWhiteSpace),
    .ofList ((trimStart s.toList).rtakeWhile isWhiteSpace), ?_, ?_, ?_⟩
  · intro c hc
    rw [String.toList_ofList] at hc
    exact List.mem_takeWhile_imp hc
  · intro c hc
    rw [String.toList_ofList] at hc
    exact List.mem_rtakeWhile_imp hc
  · apply String.toList_inj.mp
    have hend : trimEnd (trimStart s.toList) ++ (trimStart s.toList).rtakeWhile isWhiteSpace =
        trimStart s.toList := List.rdropWhile_append_rtakeWhile
    simp only [String.toList_append, String.toList_ofList, trim, List.append_assoc, hend]
    exact List.takeWhile_append_dropWhile.symm

theorem trim_subset (s : String) : (trim s).toList ⊆ s.toList := by
  intro c hc
  obtain ⟨v, w, -, -, hs⟩ := exists_white_around_trim s
  rw [hs]
  simp [hc]

theorem trim_of_white_around {v w t : String} (hv : IsWhite v) (hw : IsWhite w)
    (ht : IsTrimmed t) : trim (v ++ t ++ w) = t := by
  by_cases hempty : t = ""
  · subst hempty
    have hwhite : IsWhite (v ++ "" ++ w) := (hv.append (by decide)).append hw
    have hstart : trimStart (v ++ "" ++ w).toList = [] := List.dropWhile_eq_nil_iff.mpr hwhite
    rw [trim, hstart]
    rfl
  · have hne : t.toList ≠ [] := fun hnil => hempty (String.toList_eq_nil_iff.mp hnil)
    have hstart : trimStart (v ++ t ++ w).toList = t.toList ++ w.toList := by
      rw [trimStart, String.toList_append, String.toList_append, List.append_assoc]
      apply dropWhile_white_append hv
      rw [List.head?_append_of_ne_nil _ hne]
      exact ht.first
    have hend : trimEnd (t.toList ++ w.toList) = t.toList := by
      rw [trimEnd, List.reverse_append, dropWhile_white_append, List.reverse_reverse]
      · intro c hc
        exact hw c (List.mem_reverse.mp hc)
      · simpa using ht.last
    rw [trim, hstart, hend, String.ofList_toList]

theorem IsTrimmed.trim_eq {s : String} (h : IsTrimmed s) : trim s = s := by
  have hempty : IsWhite "" := by decide
  simpa using trim_of_white_around hempty hempty h

theorem trim_eq_iff {s t : String} (ht : IsTrimmed t) :
    trim s = t ↔ ∃ v w, IsWhite v ∧ IsWhite w ∧ s = v ++ t ++ w := by
  constructor
  · rintro rfl
    exact exists_white_around_trim s
  · rintro ⟨v, w, hv, hw, rfl⟩
    exact trim_of_white_around hv hw ht

theorem trim_eq_empty_iff {s : String} : trim s = "" ↔ IsWhite s := by
  rw [trim_eq_iff isTrimmed_empty]
  constructor
  · rintro ⟨v, w, hv, hw, rfl⟩
    simpa using hv.append hw
  · intro hs
    exact ⟨s, "", hs, by decide, by simp⟩

theorem trim_white_around {v w : String} (hv : IsWhite v) (hw : IsWhite w) (s : String) :
    trim (v ++ s ++ w) = trim s := by
  obtain ⟨v', w', hv', hw', hs⟩ := exists_white_around_trim s
  have hsplit : v ++ s ++ w = (v ++ v') ++ trim s ++ (w' ++ w) := by
    conv => lhs; rw [hs]
    simp only [String.append_assoc]
  rw [hsplit, trim_of_white_around (hv.append hv') (hw'.append hw) (isTrimmed_trim s)]

theorem trim_append_white {w : String} (hw : IsWhite w) (s : String) : trim (s ++ w) = trim s := by
  have hempty : IsWhite "" := by decide
  simpa using trim_white_around hempty hw s

/-- Characters can be replaced before trimming if white space stays white space. -/
theorem trim_map {f : Char → Char} (hf : ∀ c, isWhiteSpace (f c) = isWhiteSpace c) (s : String) :
    trim (s.map f) = (trim s).map f := by
  have hcomp : isWhiteSpace ∘ f = isWhiteSpace := funext hf
  apply String.toList_inj.mp
  simp only [trim, trimEnd, trimStart, String.toList_map, String.toList_ofList, List.dropWhile_map,
    hcomp, ← List.map_reverse]

/-! ## Words -/

structure IsWord (s : String) : Prop where
  ne_empty : s ≠ ""
  visible : ∀ c ∈ s.toList, isWhiteSpace c = false

theorem isWord_iff {s : String} :
    IsWord s ↔ s ≠ "" ∧ s.toList.all (fun c => !isWhiteSpace c) = true := by
  simp only [List.all_eq_true, Bool.not_eq_true']
  exact ⟨fun h => ⟨h.ne_empty, h.visible⟩, fun h => ⟨h.1, h.2⟩⟩

instance (s : String) : Decidable (IsWord s) := decidable_of_iff _ isWord_iff.symm

theorem IsWord.toList_ne_nil {s : String} (h : IsWord s) : s.toList ≠ [] := by
  intro hnil
  exact h.ne_empty (String.toList_eq_nil_iff.mp hnil)

theorem IsWord.isTrimmed {s : String} (h : IsWord s) : IsTrimmed s where
  first := by
    intro c hc
    exact h.visible c (List.mem_of_mem_head? hc)
  last := by
    intro c hc
    exact h.visible c (List.mem_of_getLast? hc)

theorem trim_intercalate {ws : List String} (h : ∀ w ∈ ws, IsWord w) :
    trim (" ".intercalate ws) = " ".intercalate ws := by
  have hne : ∀ cs ∈ ws.map String.toList, cs ≠ [] := by
    intro cs hcs
    obtain ⟨w, hw, rfl⟩ := List.mem_map.mp hcs
    exact (h w hw).toList_ne_nil
  have hvisible : ∀ c ∈ (ws.map String.toList).flatten, isWhiteSpace c = false := by
    intro c hc
    obtain ⟨cs, hcs, hc⟩ := List.mem_flatten.mp hc
    obtain ⟨w, hw, rfl⟩ := List.mem_map.mp hcs
    exact (h w hw).visible c hc
  apply IsTrimmed.trim_eq
  constructor
  · intro c hc
    rw [String.toList_intercalate, head?_intercalate hne] at hc
    exact hvisible c (List.mem_of_mem_head? hc)
  · intro c hc
    rw [String.toList_intercalate, getLast?_intercalate hne] at hc
    exact hvisible c (List.mem_of_getLast? hc)

end Text
end PrefixCalc
