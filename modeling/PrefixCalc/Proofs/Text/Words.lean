import PrefixCalc.Proofs.Text.Pieces
import PrefixCalc.Proofs.Text.Runs

/-!
# PrefixCalc.Proofs.Text.Words

The words of a text, which are its maximal runs without a separator.

* `words_eq_filter_pieces`: they are the pieces between separators that are not empty; most else
  about them follows from this.
* `Runs.eq_words`: a text that is put together from gaps and runs has these runs as its words.
* `mem_words`, `flatten_words`: no word is empty or has a separator, and no other character is lost.
* `words_append_separator`: words are cut at every separator.
* `flatMap_words`: with more separators, the words are the words of the words.
* `words_intercalate`, `runs_woven`: runs without a separator come back from the text that joins
  them with a separator, or with gaps of any length.
-/

namespace PrefixCalc
namespace Text

variable {isSeparator : Char → Bool}

/-- Separators at the front make empty pieces only. -/
theorem filter_pieces_gap {gap : List Char} (hgap : ∀ c ∈ gap, isSeparator c = true)
    (cs : List Char) :
    (pieces isSeparator (gap ++ cs)).filter (· ≠ []) =
      (pieces isSeparator cs).filter (· ≠ []) := by
  induction gap with
  | nil => rfl
  | cons c gap ih =>
    rw [List.cons_append, pieces, if_pos (hgap c List.mem_cons_self),
      List.filter_cons_of_neg (by simp)]
    exact ih fun d hd => hgap d (List.mem_cons_of_mem _ hd)

theorem filter_pieces_run {w : List Char} (hw : w ≠ []) (h : ∀ c ∈ w, isSeparator c = false)
    {rest : List Char} (hrest : ∀ c ∈ rest.head?, isSeparator c = true) :
    (pieces isSeparator (w ++ rest)).filter (· ≠ []) =
      w :: (pieces isSeparator rest).filter (· ≠ []) := by
  simp only [pieces_eq_splitOnP]
  cases rest with
  | nil => simp [List.splitOnP_eq_singleton h, hw]
  | cons c rest =>
    have hc : isSeparator c = true := hrest c rfl
    rw [List.splitOnP_append_cons_of_forall_mem h c hc, List.splitOnP_cons_eq_if_modifyHead,
      if_pos hc]
    simp [hw]

theorem Runs.eq_filter_pieces {cs : List Char} {ws : List (List Char)}
    (h : Runs isSeparator cs ws) : ws = (pieces isSeparator cs).filter (· ≠ []) := by
  induction h with
  | @blank gap hgap =>
    have hpieces := filter_pieces_gap hgap []
    rw [List.append_nil] at hpieces
    rw [hpieces]
    rfl
  | run hgap hne hclean hstop _ ih =>
    rw [List.append_assoc, filter_pieces_gap hgap, filter_pieces_run hne hclean hstop, ← ih]

/-- The words are the pieces with a character in them. -/
theorem words_eq_filter_pieces (cs : List Char) :
    words isSeparator cs = (pieces isSeparator cs).filter (· ≠ []) :=
  (runs_words cs).eq_filter_pieces

/-- A text has no other runs. -/
theorem Runs.eq_words {cs : List Char} {ws : List (List Char)} (h : Runs isSeparator cs ws) :
    ws = words isSeparator cs := by
  rw [words_eq_filter_pieces, h.eq_filter_pieces]

theorem mem_words {cs w : List Char} (h : w ∈ words isSeparator cs) :
    w ≠ [] ∧ ∀ c ∈ w, isSeparator c = false := by
  rw [words_eq_filter_pieces, List.mem_filter, decide_eq_true_iff] at h
  exact ⟨h.2, not_mem_of_mem_pieces h.1⟩

/-- The words hold all characters but the separators. -/
theorem flatten_words (cs : List Char) :
    (words isSeparator cs).flatten = cs.filter (!isSeparator ·) := by
  rw [words_eq_filter_pieces, List.flatten_filter_ne_nil, flatten_pieces]

theorem words_subset {cs w : List Char} (h : w ∈ words isSeparator cs) : w ⊆ cs := by
  rw [words_eq_filter_pieces] at h
  exact pieces_subset (List.mem_of_mem_filter h)

theorem words_ne_nil {cs : List Char} {c : Char} (hmem : c ∈ cs) (hc : isSeparator c = false) :
    words isSeparator cs ≠ [] := by
  intro hnil
  have hflat := @flatten_words isSeparator cs
  rw [hnil, List.flatten_nil] at hflat
  have hvisible : c ∈ cs.filter (!isSeparator ·) := List.mem_filter.mpr ⟨hmem, by simp [hc]⟩
  rw [← hflat] at hvisible
  cases hvisible

/-- Which separators a text has makes no difference to its words. -/
theorem words_map {p q : Char → Bool} {f : Char → Char} (hsep : ∀ c, p (f c) = q c)
    (hkeep : ∀ c, q c = false → f c = c) (cs : List Char) : words p (cs.map f) = words q cs := by
  rw [words_eq_filter_pieces, pieces_map hsep hkeep, words_eq_filter_pieces]

/-! ## Words and separators -/

theorem words_of_clean {w : List Char} (hw : w ≠ []) (h : ∀ c ∈ w, isSeparator c = false) :
    words isSeparator w = [w] := by
  simp [words_eq_filter_pieces, pieces_eq_splitOnP, List.splitOnP_eq_singleton h, hw]

theorem words_append_separator {sep : Char} (hsep : isSeparator sep = true) (xs ys : List Char) :
    words isSeparator (xs ++ sep :: ys) = words isSeparator xs ++ words isSeparator ys := by
  simp only [words_eq_filter_pieces, pieces_eq_splitOnP, List.splitOnP_append_cons xs ys hsep,
    List.filter_append]

theorem words_gap_append {gap : List Char} (hgap : ∀ c ∈ gap, isSeparator c = true)
    (cs : List Char) : words isSeparator (gap ++ cs) = words isSeparator cs := by
  rw [words_eq_filter_pieces, filter_pieces_gap hgap, words_eq_filter_pieces]

theorem words_append_stop (cs : List Char) {rest : List Char}
    (hstop : ∀ c ∈ rest.head?, isSeparator c = true) :
    words isSeparator (cs ++ rest) = words isSeparator cs ++ words isSeparator rest := by
  cases rest with
  | nil => simp [words_eq_filter_pieces, pieces]
  | cons c rest =>
    have hrest := words_append_separator (hstop c rfl) [] rest
    rw [words_append_separator (hstop c rfl), ← List.nil_append (c :: rest), hrest]
    simp [words_eq_filter_pieces, pieces]

/-- With more separators, each word is cut further and nothing is cut across two words. -/
theorem flatMap_words {q : Char → Bool} (h : ∀ c, isSeparator c = true → q c = true)
    (cs : List Char) : (words isSeparator cs).flatMap (words q) = words q cs := by
  have hcut : ∀ ws, Runs isSeparator cs ws → ws.flatMap (words q) = words q cs := by
    intro ws hruns
    induction hruns with
    | blank hgap => exact (Runs.blank fun c hc => h c (hgap c hc)).eq_words
    | run hgap _ _ hstop _ ih =>
      rw [List.append_assoc, words_gap_append fun c hc => h c (hgap c hc),
        words_append_stop _ fun c hc => h c (hstop c hc), List.flatMap_cons, ih]
  exact hcut _ (runs_words cs)

theorem words_intercalate {sep : Char} {ws : List (List Char)} (hsep : isSeparator sep = true)
    (h : ∀ w ∈ ws, w ≠ [] ∧ ∀ c ∈ w, isSeparator c = false) :
    words isSeparator ([sep].intercalate ws) = ws := by
  induction ws with
  | nil => simp [words_eq_filter_pieces, pieces]
  | cons w ws ih =>
    obtain ⟨hw, hclean⟩ := h w List.mem_cons_self
    have hrest := ih fun v hv => h v (List.mem_cons_of_mem _ hv)
    cases ws with
    | nil => rw [List.intercalate_singleton, words_of_clean hw hclean]
    | cons v vs =>
      rw [List.intercalate_cons_cons, List.append_assoc, List.singleton_append,
        words_append_separator hsep, words_of_clean hw hclean, hrest, List.singleton_append]

/-- Words with a gap in front and a gap behind each are the runs of the text. Only the last gap may
be empty. -/
theorem runs_woven {ws : List (List Char)}
    (h : ∀ w ∈ ws, w ≠ [] ∧ ∀ c ∈ w, isSeparator c = false) {lead : List Char}
    (hlead : ∀ c ∈ lead, isSeparator c = true) {gaps : List (List Char)}
    (hlen : gaps.length = ws.length) (hgaps : ∀ g ∈ gaps, ∀ c ∈ g, isSeparator c = true)
    (hinner : ∀ g ∈ gaps.dropLast, g ≠ []) :
    Runs isSeparator (lead ++ (ws.zipWith (· ++ ·) gaps).flatten) ws := by
  induction ws generalizing lead gaps with
  | nil =>
    rw [List.zipWith_nil_left, List.flatten_nil, List.append_nil]
    exact .blank hlead
  | cons w ws ih =>
    obtain ⟨g, gaps, rfl⟩ := List.exists_cons_of_length_eq_add_one hlen
    obtain ⟨hne, hclean⟩ := h w List.mem_cons_self
    have hg := hgaps g List.mem_cons_self
    rw [List.zipWith_cons_cons, List.flatten_cons, List.append_assoc, ← List.append_assoc lead]
    have hlen' : gaps.length = ws.length := Nat.succ.inj hlen
    have hclean' : ∀ v ∈ ws, v ≠ [] ∧ ∀ c ∈ v, isSeparator c = false :=
      fun v hv => h v (List.mem_cons_of_mem _ hv)
    have hgaps' : ∀ g' ∈ gaps, ∀ c ∈ g', isSeparator c = true :=
      fun g' hg' => hgaps g' (List.mem_cons_of_mem _ hg')
    refine .run hlead hne hclean ?_ ?_
    · intro c hc
      cases gaps with
      | nil =>
        -- Nothing but the gap is behind the last word.
        rw [List.zipWith_nil_right, List.flatten_nil, List.append_nil] at hc
        exact hg c (List.mem_of_mem_head? hc)
      | cons g' gaps =>
        have hgne : g ≠ [] := hinner g (by rw [List.dropLast_cons_cons]; exact List.mem_cons_self)
        rw [List.head?_append_of_ne_nil _ hgne] at hc
        exact hg c (List.mem_of_mem_head? hc)
    · apply ih hclean' hg hlen' hgaps'
      intro g' hg'
      cases gaps with
      | nil => cases hg'
      | cons g'' gaps =>
        exact hinner g' (by rw [List.dropLast_cons_cons]; exact List.mem_cons_of_mem _ hg')

/-- A text with one word and no separator at an end is that word: a separator inside would have a
word on each of its sides. -/
theorem eq_of_words_eq_singleton {cs w : List Char}
    (hfirst : ∀ c ∈ cs.head?, isSeparator c = false)
    (hlast : ∀ c ∈ cs.getLast?, isSeparator c = false) (h : words isSeparator cs = [w]) :
    cs = w := by
  by_cases hclean : ∀ c ∈ cs, isSeparator c = false
  · have hne : cs ≠ [] := by
      rintro rfl
      simp [words_eq_filter_pieces, pieces] at h
    rw [words_of_clean hne hclean] at h
    exact (List.cons.inj h).1
  · obtain ⟨sep, hmem, hsep⟩ : ∃ sep ∈ cs, isSeparator sep = true := by simpa using hclean
    obtain ⟨xs, ys, rfl⟩ := List.append_of_mem hmem
    rw [words_append_separator hsep] at h
    have hxs : words isSeparator xs ≠ [] := by
      cases xs with
      | nil => simp [hfirst sep rfl] at hsep
      | cons x xs => exact words_ne_nil List.mem_cons_self (hfirst x rfl)
    have hys : words isSeparator ys ≠ [] := by
      rcases List.eq_nil_or_concat ys with rfl | ⟨ys, y, rfl⟩
      · simp [hlast sep (by simp)] at hsep
      · have hend : xs ++ sep :: ys.concat y = (xs ++ sep :: ys) ++ [y] := by simp
        have hy := hlast y (by rw [hend, List.getLast?_concat]; rfl)
        exact words_ne_nil (by simp) hy
    have hlen := congrArg List.length h
    have hbefore := List.length_pos_iff.mpr hxs
    have hbehind := List.length_pos_iff.mpr hys
    simp only [List.length_append, List.length_singleton] at hlen
    omega

end Text
end PrefixCalc
