import PrefixCalc.Proofs.Text.Lines
import PrefixCalc.Proofs.Text.Styled

/-!
# PrefixCalc.Proofs.Text.OneLine

Texts that stand on one line.

* `OneLine`: a text without a line feed. Its parts, texts put together from such texts, and what
  styling makes of it are on one line as well.
* `lineFeed_not_mem_encode`: neither do its bytes have a line feed.
* `oneLine_of_mem_lines`: the lines of a text are such texts.
-/

namespace PrefixCalc
namespace Text

/-- A text that can stand on a line. It may have carriage returns in it. -/
def OneLine (s : String) : Prop := '\n' ∉ s.toList

instance (s : String) : Decidable (OneLine s) := inferInstanceAs (Decidable ('\n' ∉ s.toList))

namespace OneLine

variable {s t : String}

theorem append (hs : OneLine s) (ht : OneLine t) : OneLine (s ++ t) := by
  rw [OneLine, String.toList_append, List.mem_append, not_or]
  exact ⟨hs, ht⟩

theorem of_subset (ht : OneLine t) (h : s.toList ⊆ t.toList) : OneLine s := by
  intro hfeed
  exact ht (h hfeed)

/-- No code of a style has a line feed in it. -/
theorem paint (hs : OneLine s) (d : Display) (style : Style) : OneLine (d.paint style s) := by
  intro hfeed
  rcases Display.mem_paint hfeed with h | h | h
  · exact hs h
  · revert h
    cases style <;> decide
  · revert h
    decide

theorem lineFeed_not_mem_encode (hs : OneLine s) : lineFeed ∉ encode s := by
  rw [encode_eq_flatMap, List.mem_flatMap]
  rintro ⟨c, hc, hfeed⟩
  refine lineFeed_not_mem_utf8EncodeChar ?_ hfeed
  rintro rfl
  exact hs hc

end OneLine

theorem IsWord.oneLine {s : String} (h : IsWord s) : OneLine s := by
  intro hfeed
  exact absurd (h.visible '\n' hfeed) (by decide)

/-! ## Lines of a text -/

theorem dropReturn_subset (cs : List Char) : dropReturn cs ⊆ cs := by
  rw [dropReturn]
  split
  · exact List.dropLast_subset cs
  · exact List.Subset.refl cs

theorem exists_of_mem_closeLines {ps : List (List Char)} {l : List Char} (h : l ∈ closeLines ps) :
    ∃ p ∈ ps, l ⊆ p := by
  induction ps with
  | nil => cases h
  | cons p ps ih =>
    cases ps with
    | nil =>
      rw [closeLines] at h
      split at h
      · cases h
      · obtain rfl := List.mem_singleton.mp h
        exact ⟨l, List.mem_cons_self, List.Subset.refl l⟩
    | cons q ps =>
      rcases List.mem_cons.mp h with rfl | h
      · exact ⟨p, List.mem_cons_self, dropReturn_subset p⟩
      · obtain ⟨r, hr, hsub⟩ := ih h
        exact ⟨r, List.mem_cons_of_mem p hr, hsub⟩

theorem oneLine_of_mem_lines {t l : String} (h : l ∈ lines t) : OneLine l := by
  obtain ⟨cs, hcs, rfl⟩ := List.mem_map.mp h
  obtain ⟨p, hp, hsub⟩ := exists_of_mem_closeLines hcs
  intro hfeed
  rw [String.toList_ofList] at hfeed
  simpa using not_mem_of_mem_pieces hp '\n' (hsub hfeed)

end Text
end PrefixCalc
