import Mathlib.Data.List.Basic
import PrefixCalc.Text.Pieces

/-!
# PrefixCalc.Proofs.Text.Pieces

Pieces between separators, and the texts that join them.

* `pieces_intercalate`, `intercalate_pieces`: cutting at a separator and joining with it undo each
  other, on pieces without the separator.
* `pieces_map`, `pieces_map_separators`: which separators a text has makes no difference to its
  pieces.
* `flatten_pieces`: the pieces hold all characters but the separators.
* `head?_intercalate`, `getLast?_intercalate`: what stands at the ends of a text that joins pieces.
-/

namespace PrefixCalc
namespace Text

/-! ## Pieces between separators -/

theorem extendFirst_eq_modifyHead (c : Char) {ws : List (List Char)} (h : ws ≠ []) :
    extendFirst c ws = ws.modifyHead (c :: ·) := by
  cases ws with
  | nil => exact absurd rfl h
  | cons w ws => rfl

theorem pieces_eq_splitOnP (isSeparator : Char → Bool) (cs : List Char) :
    pieces isSeparator cs = cs.splitOnP isSeparator := by
  induction cs with
  | nil => rfl
  | cons c cs ih =>
    rw [pieces, List.splitOnP_cons_eq_if_modifyHead]
    split
    · rw [ih]
    · rw [extendFirst_eq_modifyHead c (pieces_ne_nil isSeparator cs), ih]

theorem pieces_eq_splitOn (sep : Char) (cs : List Char) :
    pieces (· == sep) cs = cs.splitOn sep := by
  rw [pieces_eq_splitOnP, ← List.splitOn_eq_splitOnP]

theorem pieces_intercalate {sep : Char} {ps : List (List Char)} (hne : ps ≠ [])
    (h : ∀ p ∈ ps, sep ∉ p) : pieces (· == sep) ([sep].intercalate ps) = ps := by
  rw [pieces_eq_splitOn]
  exact List.splitOn_intercalate sep h hne

/-- Characters can be replaced as long as separators stay separators and nothing else changes. -/
theorem pieces_map {p q : Char → Bool} {f : Char → Char} (hsep : ∀ c, p (f c) = q c)
    (hkeep : ∀ c, q c = false → f c = c) (cs : List Char) :
    pieces p (cs.map f) = pieces q cs := by
  induction cs with
  | nil => rfl
  | cons c cs ih =>
    rw [List.map_cons, pieces, pieces, ih, hsep]
    cases hc : q c with
    | true => rfl
    | false => rw [hkeep c hc]

/-- One separator can stand for all of them. -/
theorem pieces_map_separators {isSeparator : Char → Bool} {sep : Char}
    (hsep : isSeparator sep = true) (cs : List Char) :
    pieces (· == sep) (cs.map fun c => if isSeparator c then sep else c) =
      pieces isSeparator cs := by
  apply pieces_map
  · intro c
    cases hc : isSeparator c with
    | true => simp
    | false =>
      have hne : c ≠ sep := by
        rintro rfl
        rw [hsep] at hc
        cases hc
      simpa using hne
  · intro c hc
    rw [hc, if_neg Bool.false_ne_true]

theorem pieces_of_not_mem {sep : Char} {cs : List Char} (h : sep ∉ cs) :
    pieces (· == sep) cs = [cs] := by
  simpa using pieces_intercalate (List.cons_ne_nil cs []) (List.forall_mem_singleton.mpr h)

theorem intercalate_pieces (sep : Char) (cs : List Char) :
    [sep].intercalate (pieces (· == sep) cs) = cs := by
  rw [pieces_eq_splitOn]
  exact List.intercalate_splitOn sep

theorem not_mem_of_mem_pieces {isSeparator : Char → Bool} {cs p : List Char}
    (h : p ∈ pieces isSeparator cs) : ∀ c ∈ p, isSeparator c = false := by
  induction cs generalizing p with
  | nil => simp_all [pieces]
  | cons d cs ih =>
    obtain ⟨q, ps, hp⟩ := List.exists_cons_of_ne_nil (pieces_ne_nil isSeparator cs)
    simp only [pieces, hp] at h ih
    split at h
    · rcases List.mem_cons.mp h with rfl | h
      · simp
      · exact ih h
    · rename_i hd
      rcases List.mem_cons.mp h with rfl | h
      · intro c hc
        rcases List.mem_cons.mp hc with rfl | hc
        · exact Bool.eq_false_iff.mpr hd
        · exact ih List.mem_cons_self c hc
      · exact ih (List.mem_cons_of_mem _ h)

/-- There is one piece more than there are separators. -/
theorem length_pieces (sep : Char) (cs : List Char) :
    (pieces (· == sep) cs).length = cs.count sep + 1 := by
  induction cs with
  | nil => rfl
  | cons c cs ih =>
    obtain ⟨p, ps, hp⟩ := List.exists_cons_of_ne_nil (pieces_ne_nil (· == sep) cs)
    rw [hp] at ih
    simp only [pieces, hp, List.count_cons]
    split <;> simp_all [extendFirst]

/-- The first piece is what stands before the first separator. -/
theorem head?_pieces (sep : Char) (cs : List Char) :
    (pieces (· == sep) cs).head? = some (cs.takeWhile (· != sep)) := by
  induction cs with
  | nil => rfl
  | cons c cs ih =>
    obtain ⟨p, ps, hp⟩ := List.exists_cons_of_ne_nil (pieces_ne_nil (· == sep) cs)
    rw [hp] at ih
    by_cases hc : c = sep
    · subst hc
      simp [pieces]
    · simp_all [pieces, extendFirst]

theorem flatten_pieces (isSeparator : Char → Bool) (cs : List Char) :
    (pieces isSeparator cs).flatten = cs.filter (!isSeparator ·) := by
  induction cs with
  | nil => rfl
  | cons c cs ih =>
    obtain ⟨p, ps, hp⟩ := List.exists_cons_of_ne_nil (pieces_ne_nil isSeparator cs)
    rw [hp] at ih
    by_cases hc : isSeparator c = true
    · simp_all [pieces]
    · simp_all [pieces, extendFirst]

theorem pieces_subset {isSeparator : Char → Bool} {cs p : List Char}
    (h : p ∈ pieces isSeparator cs) : p ⊆ cs := by
  intro c hc
  have hflat := List.mem_flatten_of_mem h hc
  rw [flatten_pieces] at hflat
  exact List.mem_of_mem_filter hflat

/-! ## Joined pieces -/

section Joined

variable {sep : List Char} {ps : List (List Char)} (h : ∀ p ∈ ps, p ≠ [])

include h

/-- Between pieces that are not empty a separator is at neither end. -/
theorem head?_intercalate : (sep.intercalate ps).head? = ps.flatten.head? := by
  cases ps with
  | nil => simp
  | cons p ps =>
    obtain ⟨c, cs, rfl⟩ := List.exists_cons_of_ne_nil (h p List.mem_cons_self)
    simp [List.intercalate_cons_cons_left]

theorem getLast?_intercalate : (sep.intercalate ps).getLast? = ps.flatten.getLast? := by
  induction ps with
  | nil => simp
  | cons p ps ih =>
    have hps : ∀ q ∈ ps, q ≠ [] := fun q hq => h q (List.mem_cons_of_mem p hq)
    cases ps with
    | nil => simp
    | cons q qs =>
      have hq : q ≠ [] := hps q List.mem_cons_self
      have hjoined : sep.intercalate (q :: qs) ≠ [] := by
        cases qs <;> simp [List.intercalate_cons_cons, hq]
      have hflat : (q :: qs).flatten ≠ [] := by simp [hq]
      have hall : (p :: q :: qs).flatten = p ++ (q :: qs).flatten := List.flatten_cons
      rw [List.intercalate_cons_cons, List.getLast?_append_of_ne_nil _ hjoined, ih hps, hall,
        List.getLast?_append_of_ne_nil _ hflat]

end Joined

end Text
end PrefixCalc
