import Mathlib.Data.List.TakeWhile
import PrefixCalc.Text.Pieces

/-!
# PrefixCalc.Proofs.Text.Runs

The maximal runs of a text without a separator.

* `Runs`: a text and its runs, read from the front; a run ends at a separator or with the text.
* `words`: the same as a function of the text; `runs_words` says that it gives the runs.
* `IsRun`: the same with indexes. No longer run starts before or ends behind.
* `Runs.exists_spans`: the runs are all maximal runs, each once and in their order.
-/

namespace PrefixCalc
namespace Text

inductive Runs (isSeparator : Char → Bool) : List Char → List (List Char) → Prop where
  | blank {gap : List Char} (hgap : ∀ c ∈ gap, isSeparator c = true) : Runs isSeparator gap []
  | run {gap w rest : List Char} {ws : List (List Char)}
      (hgap : ∀ c ∈ gap, isSeparator c = true) (hne : w ≠ [])
      (hclean : ∀ c ∈ w, isSeparator c = false)
      (hstop : ∀ c ∈ rest.head?, isSeparator c = true) (hrest : Runs isSeparator rest ws) :
      Runs isSeparator (gap ++ w ++ rest) (w :: ws)

/-- No character from `i` on and in front of `j` is a separator. Next to both ends there is one,
unless the text ends there. -/
structure IsRun (isSeparator : Char → Bool) (cs : List Char) (i j : Nat) : Prop where
  nonempty : i < j
  clean : ∀ k, i ≤ k → k < j → ∃ c ∈ cs[k]?, isSeparator c = false
  before : ∀ k, k + 1 = i → ∀ c ∈ cs[k]?, isSeparator c = true
  behind : ∀ c ∈ cs[j]?, isSeparator c = true

def words (isSeparator : Char → Bool) (cs : List Char) : List (List Char) :=
  match _h : cs.dropWhile isSeparator with
  | [] => []
  | c :: rest =>
    (c :: rest.takeWhile (!isSeparator ·)) :: words isSeparator (rest.dropWhile (!isSeparator ·))
termination_by cs.length
decreasing_by
  have h₁ : (cs.dropWhile isSeparator).length ≤ cs.length :=
    (List.dropWhile_sublist isSeparator).length_le
  have h₂ : (rest.dropWhile (!isSeparator ·)).length ≤ rest.length :=
    (List.dropWhile_sublist _).length_le
  rw [_h, List.length_cons] at h₁
  omega

variable {isSeparator : Char → Bool}

theorem words_cons {c : Char} (hc : isSeparator c = false) (cs : List Char) :
    words isSeparator (c :: cs) =
      (c :: cs.takeWhile (!isSeparator ·)) ::
        words isSeparator (cs.dropWhile (!isSeparator ·)) := by
  rw [words]
  split
  · rename_i h
    simp [hc] at h
  · rename_i d rest h
    rw [List.dropWhile_cons_of_neg (by simp [hc])] at h
    obtain ⟨rfl, rfl⟩ := List.cons.inj h
    rfl

theorem runs_words (cs : List Char) : Runs isSeparator cs (words isSeparator cs) := by
  fun_induction words isSeparator cs with
  | case1 cs hcs => exact .blank (List.dropWhile_eq_nil_iff.mp hcs)
  | case2 cs c rest hcs ih =>
    have hc : isSeparator c = false := by
      have := List.head?_dropWhile_not isSeparator cs
      simpa [hcs] using this
    have hclean : ∀ d ∈ c :: rest.takeWhile (!isSeparator ·), isSeparator d = false := by
      intro d hd
      rcases List.mem_cons.mp hd with rfl | hd
      · exact hc
      · simpa using List.mem_takeWhile_imp hd
    have hstop : ∀ d ∈ (rest.dropWhile (!isSeparator ·)).head?, isSeparator d = true := by
      intro d hd
      have := List.head?_dropWhile_not (!isSeparator ·) rest
      rw [hd] at this
      simpa using this
    have hcut : cs = cs.takeWhile isSeparator ++ (c :: rest.takeWhile (!isSeparator ·)) ++
        rest.dropWhile (!isSeparator ·) := by
      rw [List.append_assoc, List.cons_append, List.takeWhile_append_dropWhile, ← hcs,
        List.takeWhile_append_dropWhile]
    conv => arg 2; rw [hcut]
    exact .run (fun d hd => List.mem_takeWhile_imp hd) (List.cons_ne_nil c _) hclean hstop ih

/-! ## Runs by their indexes -/

namespace IsRun

theorem not_separator {cs : List Char} {i j k : Nat} (h : IsRun isSeparator cs i j) (hfrom : i ≤ k)
    (hto : k < j) : ¬∀ c ∈ cs[k]?, isSeparator c = true := by
  intro hsep
  obtain ⟨c, hc, hclean⟩ := h.clean k hfrom hto
  rw [hsep c hc] at hclean
  cases hclean

section Overlap

variable {cs : List Char} {i j i' j' : Nat} (h : IsRun isSeparator cs i j)
  (h' : IsRun isSeparator cs i' j')

include h h'

/-- A later start would have a separator in front of it, inside the other run. -/
theorem start_le (hoverlap : i' < j) : i' ≤ i := by
  by_contra hlater
  exact h.not_separator (by omega) (by omega) (h'.before (i' - 1) (by omega))

theorem le_stop (hoverlap : i < j') : j ≤ j' := by
  by_contra hearlier
  exact h.not_separator (Nat.le_of_lt hoverlap) (Nat.lt_of_not_le hearlier) h'.behind

/-- Runs that have a character in common are the same. -/
theorem eq_of_overlap (hi : i < j') (hi' : i' < j) : i = i' ∧ j = j' :=
  ⟨Nat.le_antisymm (h'.start_le h hi) (h.start_le h' hi'),
    Nat.le_antisymm (h.le_stop h' hi) (h'.le_stop h hi')⟩

end Overlap

/-- No run starts in a gap. -/
theorem le_start {gap cs : List Char} {i j : Nat} (h : IsRun isSeparator (gap ++ cs) i j)
    (hgap : ∀ c ∈ gap, isSeparator c = true) : gap.length ≤ i := by
  by_contra hi
  apply h.not_separator (Nat.le_refl i) h.nonempty
  intro c hc
  rw [List.getElem?_append_left (Nat.lt_of_not_le hi)] at hc
  exact hgap c (List.mem_of_getElem? hc)

theorem start_pos {cs : List Char} {i j : Nat} (h : IsRun isSeparator cs i j)
    (hhead : ∀ c ∈ cs.head?, isSeparator c = true) : 0 < i := by
  rw [Nat.pos_iff_ne_zero]
  rintro rfl
  apply h.not_separator (Nat.le_refl 0) h.nonempty
  rwa [← List.head?_eq_getElem?]

end IsRun

/-- Whatever is in front of a separator, the runs behind it are the same. -/
theorem isRun_append_iff {front rest : List Char}
    (hstop : ∀ c ∈ rest.head?, isSeparator c = true) (i j : Nat) :
    IsRun isSeparator (front ++ rest) (front.length + i) (front.length + j) ↔
      IsRun isSeparator rest i j := by
  have hshift (k : Nat) : (front ++ rest)[front.length + k]? = rest[k]? := by
    rw [List.getElem?_append_right (Nat.le_add_right _ _), Nat.add_sub_cancel_left]
  constructor
  · intro h
    refine ⟨?_, ?_, ?_, ?_⟩
    · have := h.nonempty
      omega
    · intro k hfrom hto
      rw [← hshift]
      exact h.clean (front.length + k) (by omega) (by omega)
    · intro k hk
      rw [← hshift]
      exact h.before (front.length + k) (by omega)
    · rw [← hshift]
      exact h.behind
  · intro h
    refine ⟨?_, ?_, ?_, ?_⟩
    · have := h.nonempty
      omega
    · intro k hfrom hto
      obtain ⟨k, rfl⟩ := Nat.exists_eq_add_of_le (show front.length ≤ k by omega)
      rw [hshift]
      exact h.clean k (by omega) (by omega)
    · intro k hk
      have hi := h.start_pos hstop
      obtain ⟨k, rfl⟩ := Nat.exists_eq_add_of_le (show front.length ≤ k by omega)
      rw [hshift]
      exact h.before k (by omega)
    · rw [hshift]
      exact h.behind

section Step

variable {gap w rest : List Char} (hgap : ∀ c ∈ gap, isSeparator c = true) (hne : w ≠ [])
  (hclean : ∀ c ∈ w, isSeparator c = false) (hstop : ∀ c ∈ rest.head?, isSeparator c = true)

include hgap hne hclean hstop

theorem isRun_first : IsRun isSeparator (gap ++ w ++ rest) gap.length (gap ++ w).length where
  nonempty := by
    have := List.length_pos_iff.mpr hne
    simp only [List.length_append]
    omega
  clean := by
    intro k hfrom hto
    rw [List.getElem?_append_left hto, List.getElem?_append_right hfrom]
    have hk : k - gap.length < w.length := by
      rw [List.length_append] at hto
      omega
    exact ⟨w[k - gap.length], List.getElem?_eq_getElem hk, hclean _ (List.getElem_mem hk)⟩
  before := by
    intro k hk c hc
    rw [List.append_assoc, List.getElem?_append_left (by omega)] at hc
    exact hgap c (List.mem_of_getElem? hc)
  behind := by
    intro c hc
    rw [List.getElem?_append_right (Nat.le_refl _), Nat.sub_self, ← List.head?_eq_getElem?] at hc
    exact hstop c hc

/-- All other runs are runs of what is behind the first one. -/
theorem isRun_iff (i j : Nat) :
    IsRun isSeparator (gap ++ w ++ rest) i j ↔
      (i = gap.length ∧ j = (gap ++ w).length) ∨
        ∃ i' j', IsRun isSeparator rest i' j' ∧
          i = (gap ++ w).length + i' ∧ j = (gap ++ w).length + j' := by
  have hfirst := isRun_first hgap hne hclean hstop
  constructor
  · intro h
    by_cases hi : i < (gap ++ w).length
    · have hgapi : gap.length ≤ i := IsRun.le_start (List.append_assoc gap w rest ▸ h) hgap
      exact .inl (h.eq_of_overlap hfirst hi (Nat.lt_of_le_of_lt hgapi h.nonempty))
    · have hj := h.nonempty
      obtain ⟨i, rfl⟩ := Nat.exists_eq_add_of_le (Nat.le_of_not_lt hi)
      obtain ⟨j, rfl⟩ := Nat.exists_eq_add_of_le (show (gap ++ w).length ≤ j by omega)
      exact .inr ⟨i, j, (isRun_append_iff hstop i j).mp h, rfl, rfl⟩
  · rintro (⟨rfl, rfl⟩ | ⟨i, j, h, rfl, rfl⟩)
    · exact hfirst
    · exact (isRun_append_iff hstop i j).mpr h

end Step

/-- The list has all maximal runs, in their order and with a separator between each two. -/
structure IsRunList (isSeparator : Char → Bool) (cs : List Char) (spans : List (Nat × Nat)) : Prop
    where
  mem_iff : ∀ i j, (i, j) ∈ spans ↔ IsRun isSeparator cs i j
  sorted : spans.Pairwise fun r r' => r.2 < r'.1

theorem isRunList_nil {gap : List Char} (hgap : ∀ c ∈ gap, isSeparator c = true) :
    IsRunList isSeparator gap [] where
  mem_iff := by
    intro i j
    refine ⟨fun h => absurd h List.not_mem_nil, ?_⟩
    intro h
    refine absurd ?_ (h.not_separator (Nat.le_refl i) h.nonempty)
    intro c hc
    exact hgap c (List.mem_of_getElem? hc)
  sorted := List.Pairwise.nil

theorem IsRunList.cons {gap w rest : List Char} {spans : List (Nat × Nat)}
    (hgap : ∀ c ∈ gap, isSeparator c = true) (hne : w ≠ [])
    (hclean : ∀ c ∈ w, isSeparator c = false) (hstop : ∀ c ∈ rest.head?, isSeparator c = true)
    (h : IsRunList isSeparator rest spans) :
    IsRunList isSeparator (gap ++ w ++ rest)
      ((gap.length, (gap ++ w).length) ::
        spans.map fun r => ((gap ++ w).length + r.1, (gap ++ w).length + r.2)) where
  mem_iff := by
    intro i j
    rw [isRun_iff hgap hne hclean hstop, List.mem_cons, List.mem_map, Prod.exists]
    simp only [← h.mem_iff, Prod.mk.injEq, eq_comm]
  sorted := by
    refine List.pairwise_cons.mpr ⟨?_, ?_⟩
    · intro r hr
      obtain ⟨⟨i, j⟩, hmem, rfl⟩ := List.mem_map.mp hr
      have hpos := ((h.mem_iff i j).mp hmem).start_pos hstop
      exact Nat.lt_add_of_pos_right hpos
    · rw [List.pairwise_map]
      refine h.sorted.imp ?_
      intro r r' hlt
      omega

theorem Runs.exists_spans {cs : List Char} {ws : List (List Char)} (h : Runs isSeparator cs ws) :
    ∃ spans, IsRunList isSeparator cs spans ∧ ws = spans.map fun r => cs.extract r.1 r.2 := by
  induction h with
  | blank hgap => exact ⟨[], isRunList_nil hgap, rfl⟩
  | @run gap w rest ws hgap hne hclean hstop hrest ih =>
    obtain ⟨spans, hspans, rfl⟩ := ih
    refine ⟨_, hspans.cons hgap hne hclean hstop, ?_⟩
    rw [List.map_cons, List.map_map]
    congr 1
    · simp [List.extract_eq_take_drop]
    · apply List.map_congr_left
      intro r _
      rw [Function.comp_apply, List.extract_eq_take_drop, List.extract_eq_take_drop,
        Nat.add_sub_add_left, List.drop_length_add_append]

end Text
end PrefixCalc
