import PrefixCalc.Text.Styled

/-!
# PrefixCalc.Proofs.Text.Styled

What styling puts into a text.

* `mem_restore`, `mem_paint`: a styled text has no characters but those of the text and of the
  codes.
-/

namespace PrefixCalc
namespace Text

namespace Style

theorem mem_restore {s : Style} {cs : List Char} {c : Char} (h : c ∈ s.restore cs) :
    c ∈ cs ∨ c ∈ s.opening ∨ c ∈ reset := by
  fun_induction restore s cs with
  | case1 => exact .inl h
  | case2 cs ih =>
    rw [List.mem_append, List.mem_append] at h
    rcases h with (h | h) | h
    · exact .inr (.inr h)
    · exact .inr (.inl h)
    · exact (ih h).imp_left fun hc => by simp [hc]
  | case3 d cs _ ih =>
    rcases List.mem_cons.mp h with rfl | h
    · exact .inl List.mem_cons_self
    · exact (ih h).imp_left (List.mem_cons_of_mem d)

end Style

theorem Display.mem_paint {d : Display} {s : Style} {text : String} {c : Char}
    (h : c ∈ (d.paint s text).toList) :
    c ∈ text.toList ∨ c ∈ s.opening ∨ c ∈ Style.reset := by
  rw [paint] at h
  split at h
  · rw [String.toList_ofList, Style.apply, List.mem_append, List.mem_append] at h
    rcases h with (h | h) | h
    · exact .inr (.inl h)
    · exact Style.mem_restore h
    · exact .inr (.inr h)
  · exact .inl h

end Text
end PrefixCalc
