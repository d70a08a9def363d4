import Mathlib.Data.Set.Function
import PrefixCalc.Proofs.Tokenizer

/-!
# PrefixCalc.Proofs.Tokens

What the two tokenizers do to every text.

* `spaces_bijOn`: cutting at single spaces is a bijection onto the lists of tokens without a space,
  the empty list left out. Joining is its inverse.
* `words_eq_runs`: cutting at runs of blanks gives the maximal runs of other characters, which are
  the tokens that are not empty once every blank is a space. Nothing but blanks is lost, and gaps of
  any blanks between the tokens give the same tokens.
-/

namespace PrefixCalc
namespace Tokenizer

/-! ## Single spaces -/

def spaceFree : Set (List String) := {ts | ts ≠ [] ∧ ∀ w ∈ ts, ' ' ∉ w.toList}

theorem spaces_mem_spaceFree (s : String) : spaces s ∈ spaceFree :=
  ⟨spaces_ne_nil s, fun _ hw => space_not_mem_spaces hw⟩

/-- Every text has one list of tokens, and every list of tokens without a space, if there is a token
in it, belongs to one text: the one that joins them. -/
theorem spaces_bijOn :
    Set.BijOn spaces Set.univ spaceFree ∧
      (∀ s, " ".intercalate (spaces s) = s ∧ ∀ w ∈ spaces s, ' ' ∉ w.toList) ∧
      ∀ ts, ts ≠ [] → (∀ w ∈ ts, ' ' ∉ w.toList) → spaces (" ".intercalate ts) = ts := by
  have hinv : Set.InvOn (" ".intercalate ·) spaces Set.univ spaceFree :=
    ⟨fun s _ => intercalate_spaces s, fun ts hts => spaces_intercalate hts.1 hts.2⟩
  refine ⟨hinv.bijOn (fun s _ => spaces_mem_spaceFree s) (fun ts _ => Set.mem_univ _), ?_, ?_⟩
  · intro s
    exact ⟨intercalate_spaces s, (spaces_mem_spaceFree s).2⟩
  · intro ts hne hfree
    exact spaces_intercalate hne hfree

/-- Empty tokens come back from both ends and from spaces in a row. A tab or a wide space is part of
a token. -/
theorem spaces_bijOn_empty_tokens :
    spaces " +   2\t　 " = ["", "+", "", "", "2\t　", ""] ∧
      spaces (" ".intercalate ["", "+", "", "", "2\t　", ""]) = ["", "+", "", "", "2\t　", ""] :=
  ⟨by decide +kernel, spaces_bijOn.2.2 _ (by decide) (by decide +kernel)⟩

/-! ## Runs of blanks -/

/-- The ASCII blanks. The vertical tab is not one of them. -/
def blanks : List Char := [' ', '\t', '\r', '\n', '\x0c']

theorem isWordSeparator_eq_decide : Text.isWordSeparator = fun c => decide (c ∈ blanks) := by
  funext c
  rw [Bool.eq_iff_iff, decide_eq_true_iff]
  simp only [Text.isWordSeparator, blanks, Bool.or_eq_true, beq_iff_eq, List.mem_cons,
    List.not_mem_nil, or_false]
  tauto

theorem isWordSeparator_iff (c : Char) : Text.isWordSeparator c = true ↔ c ∈ blanks := by
  rw [isWordSeparator_eq_decide, decide_eq_true_iff]

theorem words_eq_extract (s : String) :
    ∃ spans, Text.IsRunList (· ∈ blanks) s.toList spans ∧
      words s = spans.map fun r => String.ofList (s.toList.extract r.1 r.2) := by
  obtain ⟨spans, hspans, hwords⟩ := (Text.runs_words s.toList).exists_spans
  refine ⟨spans, isWordSeparator_eq_decide ▸ hspans, ?_⟩
  rw [words_eq, hwords, List.map_map]
  rfl

theorem words_eq_filter_spaces (s : String) :
    words s = (spaces (s.map fun c => if c ∈ blanks then ' ' else c)).filter (· ≠ "") := by
  have hmap : (s.map fun c => if c ∈ blanks then ' ' else c).toList =
      s.toList.map fun c => if Text.isWordSeparator c then ' ' else c := by
    simp only [String.toList_map, isWordSeparator_iff]
  rw [words_eq, spaces, hmap, Text.pieces_map_separators (by decide), Text.words_eq_filter_pieces,
    List.filter_map]
  congr 1
  apply List.filter_congr
  intro cs _
  simp

theorem join_words (s : String) :
    String.join (words s) = String.ofList (s.toList.filter (· ∉ blanks)) := by
  apply String.toList_inj.mp
  rw [String.toList_join, String.toList_ofList, List.flatMap_def, map_toList_words,
    Text.flatten_words, isWordSeparator_eq_decide]
  simp only [decide_not]

theorem words_woven (s : String) {lead : String} {gaps : List String}
    (hlen : gaps.length = (words s).length) (hlead : ∀ c ∈ lead.toList, c ∈ blanks)
    (hgaps : ∀ g ∈ gaps, ∀ c ∈ g.toList, c ∈ blanks) (hinner : ∀ g ∈ gaps.dropLast, g ≠ "") :
    words (lead ++ String.join ((words s).zipWith (· ++ ·) gaps)) = words s := by
  have htext : (lead ++ String.join ((words s).zipWith (· ++ ·) gaps)).toList =
      lead.toList ++
        ((Text.words Text.isWordSeparator s.toList).zipWith (· ++ ·)
          (gaps.map String.toList)).flatten := by
    rw [String.toList_append, String.toList_join, List.flatMap_def, List.map_zipWith,
      ← map_toList_words, List.zipWith_map]
    simp only [String.toList_append]
  have hgaps' : ∀ g ∈ gaps.map String.toList, ∀ c ∈ g, Text.isWordSeparator c = true := by
    intro cs hcs c hc
    obtain ⟨g, hg, rfl⟩ := List.mem_map.mp hcs
    exact (isWordSeparator_iff c).mpr (hgaps g hg c hc)
  have hinner' : ∀ g ∈ (gaps.map String.toList).dropLast, g ≠ [] := by
    intro cs hcs
    rw [← List.map_dropLast] at hcs
    obtain ⟨g, hg, rfl⟩ := List.mem_map.mp hcs
    exact fun hnil => hinner g hg (String.toList_eq_nil_iff.mp hnil)
  have hlead' : ∀ c ∈ lead.toList, Text.isWordSeparator c = true :=
    fun c hc => (isWordSeparator_iff c).mpr (hlead c hc)
  have hruns := Text.runs_woven (fun w hw => Text.mem_words hw) hlead'
    (by simpa [words_eq] using hlen) hgaps' hinner'
  rw [words_eq, htext, ← hruns.eq_words, ← words_eq]

/-- Every item that is found in a text is text, and none of them is lost. The tokens are the maximal
runs of characters that are no blanks. They are also the tokens between single spaces that are not
empty, once every blank is a space; they hold every character but the blanks; and with gaps of
blanks between them, and around them, they are the tokens again. -/
theorem words_eq_runs (s : String) :
    ((∀ item ∈ Text.items wordRules s, item.kind? = some .text) ∧ words? s = .ok (words s)) ∧
    (∃ spans, Text.IsRunList (· ∈ blanks) s.toList spans ∧
      words s = spans.map fun r => String.ofList (s.toList.extract r.1 r.2)) ∧
    words s = (spaces (s.map fun c => if c ∈ blanks then ' ' else c)).filter (· ≠ "") ∧
    (∀ w ∈ words s, w ≠ "" ∧ ∀ c ∈ blanks, c ∉ w.toList) ∧
    String.join (words s) = String.ofList (s.toList.filter (· ∉ blanks)) ∧
    ∀ (lead : String) (gaps : List String), gaps.length = (words s).length →
      (∀ c ∈ lead.toList, c ∈ blanks) → (∀ g ∈ gaps, ∀ c ∈ g.toList, c ∈ blanks) →
      (∀ g ∈ gaps.dropLast, g ≠ "") →
      words (lead ++ String.join ((words s).zipWith (· ++ ·) gaps)) = words s := by
  refine ⟨⟨fun _ => wordItems_kind, words?_eq_ok s⟩, words_eq_extract s, words_eq_filter_spaces s,
    ?_, join_words s, ?_⟩
  · intro w hw
    obtain ⟨hne, hclean⟩ := mem_words hw
    refine ⟨hne, ?_⟩
    intro c hblank hc
    rw [← isWordSeparator_iff, hclean c hc] at hblank
    cases hblank
  · intro lead gaps hlen hlead hgaps hinner
    exact words_woven s hlen hlead hgaps hinner

/-- A vertical tab or a wide space is part of a token, and a carriage return separates with or
without a line feed. Spans count bytes. -/
theorem words_eq_runs_many_bytes :
    let s := "\x0c+\r\n é\x0b\t　２  "
    (Text.items wordRules s).map (·.span) = [⟨1, 2⟩, ⟨5, 8⟩, ⟨9, 15⟩] ∧
      words? s = .ok ["+", "é\x0b", "　２"] ∧
      words ("\r" ++ String.join ((words s).zipWith (· ++ ·) ["\n\t", "\x0c", ""])) =
        ["+", "é\x0b", "　２"] := by
  intro s
  have hwords : words s = ["+", "é\x0b", "　２"] := by decide +kernel
  obtain ⟨⟨-, hcut⟩, -, -, -, -, hwoven⟩ := words_eq_runs s
  refine ⟨by decide +kernel, hcut.trans (congrArg Except.ok hwords), ?_⟩
  have hlead : ∀ c ∈ "\r".toList, c ∈ blanks := by simp [blanks]
  have hgaps : ∀ g ∈ ["\n\t", "\x0c", ""], ∀ c ∈ g.toList, c ∈ blanks := by simp [blanks]
  rw [hwoven "\r" _ (by rw [hwords]; rfl) hlead hgaps (by decide)]
  exact hwords

end Tokenizer
end PrefixCalc
