import Mathlib.Data.List.Basic
import PrefixCalc.Proofs.Text.Styled

/-!
# PrefixCalc.Proofs.Text.Unstyled

Taking the codes of a style out of a text again.

* `forget?`: deletes one copy of a code behind every reset, and fails where there is none.
* `forget?_restore`: whatever codes stand in a text already, turning a style on again behind its
  resets is undone by deleting one copy of it behind each.
* `unstyled?`: a line without the code that stands behind its label, its last reset, and the copies
  in between.
* `unstyled?_paint`: a styled line is the plain one, once its codes are taken out.
-/

namespace PrefixCalc
namespace Text

def forget? (code : List Char) : List Char → Option (List Char)
  | [] => some []
  | '\x1b' :: '[' :: '0' :: 'm' :: cs =>
    if code <+: cs then (forget? code (cs.drop code.length)).map (Style.reset ++ ·) else none
  | c :: cs => (forget? code cs).map (c :: ·)
termination_by cs => cs.length

/-- The line has to have its label, the code, and a reset at its end. The label stays. -/
def unstyled? (label code line : String) : Option String :=
  (line.toList.dropPrefix? (label ++ code).toList).bind fun styled =>
    (styled.dropSuffix? Style.reset).bind fun text =>
      (forget? code.toList text).map fun cs => label ++ String.ofList cs

namespace Style

variable {s : Style}

/-- Restoring puts nothing in front of a character but a reset. -/
theorem restore_eq_cons {c : Char} (hc : c ≠ '\x1b') {cs ds : List Char}
    (h : s.restore cs = c :: ds) : ∃ cs', cs = c :: cs' ∧ s.restore cs' = ds := by
  fun_cases restore s cs with
  | case1 => cases h
  | case2 cs => exact absurd (List.cons.inj h).1.symm hc
  | case3 d cs hd =>
    rw [restore] at h
    · obtain ⟨rfl, htail⟩ := List.cons.inj h
      exact ⟨cs, rfl, htail⟩
    · exact hd

/-- No reset comes about where there was none: its escape character would stand in the text, and no
code is put behind that or behind what follows it. -/
theorem reset_of_restore {cs ds : List Char} (h : s.restore cs = '[' :: '0' :: 'm' :: ds) :
    ∃ cs', cs = '[' :: '0' :: 'm' :: cs' := by
  obtain ⟨cs₁, rfl, h₁⟩ := restore_eq_cons (by decide) h
  obtain ⟨cs₂, rfl, h₂⟩ := restore_eq_cons (by decide) h₁
  obtain ⟨cs₃, rfl, -⟩ := restore_eq_cons (by decide) h₂
  exact ⟨cs₃, rfl⟩

theorem forget?_restore (s : Style) (cs : List Char) :
    forget? s.opening (s.restore cs) = some cs := by
  fun_induction restore s cs with
  | case1 => rw [forget?]
  | case2 cs ih =>
    rw [List.append_assoc]
    show forget? s.opening ('\x1b' :: '[' :: '0' :: 'm' :: (s.opening ++ s.restore cs)) = _
    rw [forget?, if_pos (List.prefix_append _ _), List.drop_left, ih]
    rfl
  | case3 c cs hreset ih =>
    rw [forget?, ih]
    · rfl
    · intro ds hc hds
      obtain ⟨cs', hcs⟩ := reset_of_restore hds
      exact hreset cs' hc hcs

end Style

theorem unstyled?_paint {d : Display} (hd : d.styles = true) (s : Style) (label text : String) :
    unstyled? label (String.ofList s.opening) (label ++ d.paint s text) = some (label ++ text) := by
  have hline : (label ++ d.paint s text).toList =
      (label ++ String.ofList s.opening).toList ++ (s.restore text.toList ++ Style.reset) := by
    simp [Display.paint, hd, Style.apply]
  have hend : (s.restore text.toList ++ Style.reset).dropSuffix? Style.reset =
      some (s.restore text.toList) := List.dropSuffix?_eq_some_iff.mpr ⟨_, rfl, beq_self_eq_true _⟩
  rw [unstyled?, hline, List.dropPrefix?_append_of_beq _ (beq_self_eq_true _), Option.bind_some,
    hend, Option.bind_some, String.toList_ofList, Style.forget?_restore, Option.map_some,
    String.ofList_toList]

/-- A text may have a reset and a style of its own, and end inside another code. -/
example :
    unstyled? "Error: " "\x1b[1;31m"
      "Error: \x1b[1;31ma\x1b[0m\x1b[1;31m\x1b[1;31m\x1b[0\x1b[0m" =
        some "Error: a\x1b[0m\x1b[1;31m\x1b[0" := by
  decide +kernel

end Text
end PrefixCalc
