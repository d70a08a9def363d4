import PrefixCalc.Proofs.Text.Blank
import PrefixCalc.Proofs.Text.Items
import PrefixCalc.Tokenizer

/-!
# PrefixCalc.Proofs.Tokenizer

Tokens and the texts that join them with single spaces.

* `wordItems_kind`, `words?_eq_ok`: the items of a text are text, all of them, and can be cut out.
* `words_eq`: their texts are the words of the text.
* `spaces_intercalate`: words without a space come back from the text that joins them.
* `intercalate_spaces`: the tokens of a text, joined again, are the text.
* `words_intercalate`: words without a blank come back as well where runs of blanks separate.
* `tokens_intercalate`: on words without white space both tokenizers agree.
* `tokens_subset`: no token has a character that the text does not have.
* `exists_name`: a trimmed text that is not empty has a name in front, which is not empty.
* `normalized`: a text with single spaces between its words. Trimmed texts are normalized to trimmed
  texts, and other texts never to a text of one word.
-/

namespace PrefixCalc
namespace Tokenizer

/-! ## Items -/

/-- The two rules of the tokenizer leave no character over. -/
theorem wordItems_spec (s : String) :
    (∀ item ∈ Text.items wordRules s, item.kind? = some .text) ∧
      (Text.items wordRules s).mapM (·.span.text s) =
        .ok ((Text.words Text.isWordSeparator s.toList).map String.ofList) := by
  have hgap : ∀ c, (Text.CharClass.only [' ', '\t', '\r', '\n', '\x0c']).has c =
      Text.isWordSeparator c := by
    intro c
    rw [Bool.eq_iff_iff]
    simp only [Text.CharClass.has, Text.isWordSeparator, List.contains_cons, List.contains_nil,
      Bool.or_eq_true, Bool.or_false, beq_iff_eq]
    tauto
  have hfield : ∀ c, (Text.CharClass.allBut [' ', '\t', '\r', '\n', '\x0c']).has c =
      !Text.isWordSeparator c :=
    fun c => congrArg (! ·) (hgap c)
  exact Text.itemsFrom_spec hgap hfield (.start s)

theorem wordItems_kind {s : String} {item : Text.Item Word} (h : item ∈ Text.items wordRules s) :
    item.kind? = some .text :=
  (wordItems_spec s).1 item h

theorem words?_eq (s : String) :
    words? s = .ok ((Text.words Text.isWordSeparator s.toList).map String.ofList) := by
  have hall : (Text.items wordRules s).filter (·.kind?.isSome) = Text.items wordRules s := by
    apply List.filter_eq_self.mpr
    intro item hitem
    rw [wordItems_kind hitem]
    rfl
  rw [words?, hall, (wordItems_spec s).2]

theorem words_eq (s : String) :
    words s = (Text.words Text.isWordSeparator s.toList).map String.ofList := by
  rw [words, words?_eq]

/-- No token is lost to a fault. -/
theorem words?_eq_ok (s : String) : words? s = .ok (words s) := by
  rw [words?_eq, words_eq]

/-! ## Joined words -/

theorem map_ofList_toList (ws : List String) : (ws.map String.toList).map String.ofList = ws := by
  rw [List.map_map]
  exact List.map_id'' (fun w => String.ofList_toList) ws

/-- A list has to have a word: no text has an empty list of tokens. -/
theorem spaces_intercalate {ws : List String} (hne : ws ≠ []) (h : ∀ w ∈ ws, ' ' ∉ w.toList) :
    spaces (" ".intercalate ws) = ws := by
  have hmem : ∀ cs ∈ ws.map String.toList, ' ' ∉ cs := by
    intro cs hcs
    obtain ⟨w, hw, rfl⟩ := List.mem_map.mp hcs
    exact h w hw
  rw [spaces, String.toList_intercalate,
    show " ".toList = [' '] from rfl, Text.pieces_intercalate (by simpa using hne) hmem,
    map_ofList_toList]

theorem intercalate_spaces (s : String) : " ".intercalate (spaces s) = s := by
  apply String.toList_inj.mp
  rw [String.toList_intercalate, spaces, List.map_map, show " ".toList = [' '] from rfl]
  simp only [Function.comp_def, String.toList_ofList, List.map_id']
  exact Text.intercalate_pieces ' ' s.toList

theorem space_not_mem_spaces {s w : String} (h : w ∈ spaces s) : ' ' ∉ w.toList := by
  obtain ⟨p, hp, rfl⟩ := List.mem_map.mp h
  rw [String.toList_ofList]
  intro hmem
  simpa using Text.not_mem_of_mem_pieces hp ' ' hmem

theorem words_intercalate {ws : List String}
    (h : ∀ w ∈ ws, w ≠ "" ∧ ∀ c ∈ w.toList, Text.isWordSeparator c = false) :
    words (" ".intercalate ws) = ws := by
  have hclean : ∀ cs ∈ ws.map String.toList,
      cs ≠ [] ∧ ∀ c ∈ cs, Text.isWordSeparator c = false := by
    intro cs hcs
    obtain ⟨w, hw, rfl⟩ := List.mem_map.mp hcs
    exact ⟨fun hnil => (h w hw).1 (String.toList_eq_nil_iff.mp hnil), (h w hw).2⟩
  rw [words_eq, String.toList_intercalate, show " ".toList = [' '] from rfl,
    Text.words_intercalate (by decide) hclean, map_ofList_toList]

theorem tokens_intercalate {t : Tokenizer} (ht : t = spaces ∨ t = words) {ws : List String}
    (hne : ws ≠ []) (h : ∀ w ∈ ws, Text.IsWord w) : t (" ".intercalate ws) = ws := by
  rcases ht with rfl | rfl
  · apply spaces_intercalate hne
    intro w hw hspace
    exact absurd ((h w hw).visible ' ' hspace) (by decide)
  · apply words_intercalate
    intro w hw
    refine ⟨(h w hw).ne_empty, ?_⟩
    intro c hc
    exact Text.isWordSeparator_of_not_white ((h w hw).visible c hc)

theorem tokens_of_isWord {t : Tokenizer} (ht : t = spaces ∨ t = words) {w : String}
    (h : Text.IsWord w) : t w = [w] := by
  have htokens := tokens_intercalate ht (List.cons_ne_nil w []) (List.forall_mem_singleton.mpr h)
  rwa [String.intercalate_singleton] at htokens

theorem mem_words {s w : String} (h : w ∈ words s) :
    w ≠ "" ∧ ∀ c ∈ w.toList, Text.isWordSeparator c = false := by
  rw [words_eq] at h
  obtain ⟨cs, hcs, rfl⟩ := List.mem_map.mp h
  obtain ⟨hne, hclean⟩ := Text.mem_words hcs
  rw [String.toList_ofList]
  refine ⟨?_, hclean⟩
  intro hempty
  exact hne (by simpa using congrArg String.toList hempty)

theorem map_toList_words (s : String) :
    (words s).map String.toList = Text.words Text.isWordSeparator s.toList := by
  rw [words_eq, List.map_map]
  simp [Function.comp_def]

/-- A token has no character of its own. -/
theorem tokens_subset {t : Tokenizer} (ht : t = spaces ∨ t = words) {s w : String}
    (h : w ∈ t s) : w.toList ⊆ s.toList := by
  rcases ht with rfl | rfl
  · obtain ⟨cs, hcs, rfl⟩ := List.mem_map.mp h
    rw [String.toList_ofList]
    exact Text.pieces_subset hcs
  · rw [words_eq] at h
    obtain ⟨cs, hcs, rfl⟩ := List.mem_map.mp h
    rw [String.toList_ofList]
    exact Text.words_subset hcs

/-! ## Trimmed texts -/

section Trimmed

variable {s : String} (hs : Text.IsTrimmed s) (hne : s ≠ "")

include hs hne

/-- An empty token at an end of a text would be a space there. -/
theorem spaces_head_ne_empty {name : String} {ws : List String} (h : spaces s = name :: ws) :
    name ≠ "" := by
  rintro rfl
  have hjoined := intercalate_spaces s
  rw [h] at hjoined
  cases ws with
  | nil => exact hne (by simpa using hjoined.symm)
  | cons w ws =>
    have hspace := hs.first ' ' (by simp [← hjoined])
    exact absurd hspace (by decide)

theorem spaces_last_ne_empty {ws : List String} {w : String} (h : spaces s = ws ++ [w]) :
    w ≠ "" := by
  rintro rfl
  have hjoined := intercalate_spaces s
  rw [h] at hjoined
  by_cases hws : ws = []
  · subst hws
    exact hne (by simpa using hjoined.symm)
  · rw [String.intercalate_append_of_ne_nil hws (List.cons_ne_nil _ _)] at hjoined
    have hspace := hs.last ' ' (by simp [← hjoined])
    exact absurd hspace (by decide)

theorem words_ne_nil : words s ≠ [] := by
  obtain ⟨c, cs, hc⟩ := List.exists_cons_of_ne_nil (fun h => hne (String.toList_eq_nil_iff.mp h))
  have hvisible := Text.isWordSeparator_of_not_white (hs.first c (by rw [hc]; rfl))
  have hmem : c ∈ s.toList := by simp [hc]
  simpa [words_eq] using Text.words_ne_nil hmem hvisible

theorem exists_name {t : Tokenizer} (ht : t = spaces ∨ t = words) :
    ∃ name ws, t s = name :: ws ∧ name ≠ "" := by
  rcases ht with rfl | rfl
  · obtain ⟨name, ws, h⟩ := List.exists_cons_of_ne_nil (spaces_ne_nil s)
    exact ⟨name, ws, h, spaces_head_ne_empty hs hne h⟩
  · obtain ⟨name, ws, h⟩ := List.exists_cons_of_ne_nil (words_ne_nil hs hne)
    exact ⟨name, ws, h, (mem_words (h ▸ List.mem_cons_self)).1⟩

end Trimmed

/-! ## Words with single spaces between them -/

/-- The text with its words as they are and a single space between each two. -/
def normalized (s : String) : String := " ".intercalate (words s)

theorem toList_normalized (s : String) :
    (normalized s).toList = [' '].intercalate (Text.words Text.isWordSeparator s.toList) := by
  rw [normalized, String.toList_intercalate, map_toList_words]
  rfl

theorem spaces_normalized {s : String} (h : words s ≠ []) : spaces (normalized s) = words s := by
  apply spaces_intercalate h
  intro w hw hspace
  exact absurd ((mem_words hw).2 ' ' hspace) (by decide)

theorem normalized_of_isWord {w : String} (h : Text.IsWord w) : normalized w = w := by
  rw [normalized, tokens_of_isWord (.inr rfl) h, String.intercalate_singleton]

section Trimmed

variable {s : String} (hs : Text.IsTrimmed s)

include hs

theorem head?_normalized : (normalized s).toList.head? = s.toList.head? := by
  rw [toList_normalized, Text.head?_intercalate fun w hw => (Text.mem_words hw).1,
    Text.flatten_words]
  cases hc : s.toList with
  | nil => rfl
  | cons c cs =>
    have hvisible := Text.isWordSeparator_of_not_white (hs.first c (by rw [hc]; rfl))
    simp [hvisible]

theorem getLast?_normalized : (normalized s).toList.getLast? = s.toList.getLast? := by
  rw [toList_normalized, Text.getLast?_intercalate fun w hw => (Text.mem_words hw).1,
    Text.flatten_words]
  rcases List.eq_nil_or_concat s.toList with hc | ⟨cs, c, hc⟩
  · rw [hc]
    rfl
  · have hvisible := Text.isWordSeparator_of_not_white (hs.last c (by simp [hc]))
    simp [hc, hvisible]

theorem isTrimmed_normalized : Text.IsTrimmed (normalized s) where
  first := by
    rw [head?_normalized hs]
    exact hs.first
  last := by
    rw [getLast?_normalized hs]
    exact hs.last

theorem normalized_eq_empty_iff : normalized s = "" ↔ s = "" := by
  rw [← String.toList_eq_nil_iff, ← String.toList_eq_nil_iff, ← List.head?_eq_none_iff,
    head?_normalized hs, List.head?_eq_none_iff]

theorem normalized_eq_iff {w : String} (hw : Text.IsWord w) : normalized s = w ↔ s = w := by
  constructor
  · intro h
    have hne : s ≠ "" := by
      intro hempty
      exact hw.ne_empty (h.symm.trans ((normalized_eq_empty_iff hs).mpr hempty))
    have htokens : words s = [w] := by
      rw [← spaces_normalized (words_ne_nil hs hne), h, tokens_of_isWord (.inl rfl) hw]
    have hchars := map_toList_words s
    rw [htokens, List.map_singleton] at hchars
    apply String.toList_inj.mp
    apply Text.eq_of_words_eq_singleton _ _ hchars.symm
    · intro c hc
      exact Text.isWordSeparator_of_not_white (hs.first c hc)
    · intro c hc
      exact Text.isWordSeparator_of_not_white (hs.last c hc)
  · rintro rfl
    exact normalized_of_isWord hw

end Trimmed

end Tokenizer
end PrefixCalc
