import PrefixCalc.Proofs.Result
import PrefixCalc.Proofs.Tokenizer

/-!
# PrefixCalc.Proofs.Spaced

Texts with a space in place of each white space character, and what becomes of their tokens and
operands. Tokens are cut at the ASCII blanks only, so a token can have other white space in it.

* `words_spaced`: the spaced text has the visible parts of the tokens for its tokens.
* `readOperand_congr`: a word is read by the numerals at its start and nothing else.
* `readOperand_around`: white space around a word does not change how it is read, unless there is a
  next-line control in front.
-/

namespace PrefixCalc

/-! ## Spaced texts -/

namespace Text

def spaced (s : String) : String := s.map fun c => if isWhiteSpace c then ' ' else c

theorem isWhiteSpace_spaced (c : Char) :
    isWhiteSpace (if isWhiteSpace c then ' ' else c) = isWhiteSpace c := by
  cases hc : isWhiteSpace c with
  | true => rfl
  | false => rwa [if_neg Bool.false_ne_true]

/-- The only white space of a spaced text is where words are cut. -/
theorem isWordSeparator_spaced (c : Char) :
    isWordSeparator (if isWhiteSpace c then ' ' else c) = isWhiteSpace c := by
  cases hc : isWhiteSpace c with
  | true => rfl
  | false => rw [if_neg Bool.false_ne_true, isWordSeparator_of_not_white hc]

theorem trim_spaced (s : String) : trim (spaced s) = spaced (trim s) :=
  trim_map isWhiteSpace_spaced s

theorem spaced_of_visible {s : String} (h : ∀ c ∈ s.toList, isWhiteSpace c = false) :
    spaced s = s := by
  apply String.toList_inj.mp
  rw [spaced, String.toList_map]
  refine (List.map_congr_left fun c hc => ?_).trans (List.map_id s.toList)
  rw [h c hc, if_neg Bool.false_ne_true, id]

/-- No other text becomes a visible one: there would be a space in it. -/
theorem spaced_eq_iff {s w : String} (hw : ∀ c ∈ w.toList, isWhiteSpace c = false) :
    spaced s = w ↔ s = w := by
  constructor
  · rintro rfl
    refine (spaced_of_visible fun c hc => ?_).symm
    rw [← isWhiteSpace_spaced]
    apply hw
    rw [spaced, String.toList_map]
    exact List.mem_map_of_mem hc
  · rintro rfl
    exact spaced_of_visible hw

end Text

/-! ## Tokens of spaced texts -/

namespace Tokenizer

/-- The parts of a token between its white space. -/
def visibleParts (w : String) : List String :=
  (Text.words Text.isWhiteSpace w.toList).map String.ofList

theorem words_empty : words "" = [] := words_intercalate (List.forall_mem_nil _)

theorem words_spaced (s : String) : words (Text.spaced s) = (words s).flatMap visibleParts := by
  have hmap : Text.words Text.isWordSeparator (Text.spaced s).toList =
      Text.words Text.isWhiteSpace s.toList := by
    rw [Text.spaced, String.toList_map]
    refine Text.words_map Text.isWordSeparator_spaced ?_ s.toList
    intro c hc
    rw [hc, if_neg Bool.false_ne_true]
  have hcut := @Text.flatMap_words Text.isWordSeparator Text.isWhiteSpace
    (fun c => Text.isWhiteSpace_of_isWordSeparator) s.toList
  rw [words_eq, words_eq, hmap, ← hcut, List.map_flatMap, List.flatMap_map]
  simp only [visibleParts, String.toList_ofList]

theorem visibleParts_around {l v r : String} (hl : Text.IsWhite l) (hv : Text.IsWord v)
    (hr : Text.IsWhite r) : visibleParts (l ++ v ++ r) = [v] := by
  have hruns : Text.Runs Text.isWhiteSpace (l ++ v ++ r).toList [v.toList] := by
    rw [String.toList_append, String.toList_append]
    refine .run hl hv.toList_ne_nil hv.visible ?_ (.blank hr)
    exact fun c hc => hr c (List.mem_of_mem_head? hc)
  rw [visibleParts, ← hruns.eq_words, List.map_singleton, String.ofList_toList]

theorem visibleParts_of_isWord {w : String} (h : Text.IsWord w) : visibleParts w = [w] := by
  have hempty : Text.IsWhite "" := by decide
  simpa using visibleParts_around hempty h hempty

end Tokenizer

/-! ## Operands with white space around them -/

open Grammar

theorem readOperand_congr {s t : String}
    (h : ∀ p ∈ numeral, p <+: afterPadding s ↔ p <+: afterPadding t) :
    readOperand s = readOperand t := by
  cases hscan : Numeral.scan (afterPadding t) with
  | none =>
    have hnone : Numeral.scan (afterPadding s) = none := by
      rw [scan_eq_none_iff] at hscan ⊢
      exact fun p hp hprefix => hscan p hp ((h p hp).mp hprefix)
    rw [readOperand_of_none hscan, readOperand_of_none hnone]
  | some found =>
    obtain ⟨n, rest⟩ := found
    have hlong := isLongest_of_scan hscan
    have hlong' : IsLongest (afterPadding s) n.spelling :=
      ⟨hlong.mem, (h _ hlong.mem).mpr hlong.isPrefix,
        fun q hq hprefix => hlong.longest q hq ((h q hq).mp hprefix)⟩
    exact (denotes_readOperand hlong').unique (denotes_readOperand hlong)

theorem isWhiteSpace_of_mem_numeral {p : List Char} (hp : p ∈ numeral) {c : Char} (hc : c ∈ p) :
    Text.isWhiteSpace c = false := by
  obtain ⟨n, hn, rfl⟩ := mem_numeral.mp hp
  have hgraphic := Numeral.graphic_of_mem_spelling hn hc
  exact Text.isWhiteSpace_of_graphic hgraphic.1 hgraphic.2

/-- A numeral does not reach into white space. -/
theorem prefix_append_white_iff {p cs ws : List Char} (hp : p ∈ numeral)
    (hws : ∀ c ∈ ws, Text.isWhiteSpace c = true) : p <+: cs ++ ws ↔ p <+: cs := by
  refine ⟨?_, fun h => h.trans (List.prefix_append cs ws)⟩
  intro h
  rcases List.prefix_or_prefix_of_prefix h (List.prefix_append cs ws) with hcs | ⟨more, rfl⟩
  · exact hcs
  · have hmore : more <+: ws := (List.prefix_append_right_inj cs).mp h
    cases more with
    | nil => rw [List.append_nil]
    | cons c more =>
      have hvisible := isWhiteSpace_of_mem_numeral hp (c := c) (by simp)
      rw [hws c (hmore.subset List.mem_cons_self)] at hvisible
      cases hvisible

/-- The next-line control, which is white space but no padding. -/
def nextLine : Char := '\u0085'

theorem isPadding_of_white {c : Char} (h : Text.isWhiteSpace c = true) (hc : c ≠ nextLine) :
    Text.isPadding c = true := by
  have hcode : c.toNat ≠ 0x85 := fun hcode => hc (Char.toNat_inj.mp hcode)
  rw [Text.isWhiteSpace, Bool.or_eq_true, beq_iff_eq] at h
  rw [Text.isPadding, h.resolve_right hcode, Bool.true_or]

theorem readOperand_around {l v r : String} (hl : Text.IsWhite l) (hnext : nextLine ∉ l.toList)
    (hr : Text.IsWhite r) : readOperand (l ++ v ++ r) = readOperand v := by
  apply readOperand_congr
  intro p hp
  have hpadding : ∀ c ∈ l.toList, Text.isPadding c = true := by
    intro c hc
    refine isPadding_of_white (hl c hc) ?_
    rintro rfl
    exact hnext hc
  have hfront : afterPadding (l ++ v ++ r) = (v.toList ++ r.toList).dropWhile Text.isPadding := by
    rw [afterPadding, String.toList_append, String.toList_append, List.append_assoc,
      List.dropWhile_append_of_pos hpadding]
  rw [hfront, List.dropWhile_append]
  split
  · -- Nothing but padding is in front of the white space behind.
    rename_i hempty
    have hnil : afterPadding v = [] := List.isEmpty_iff.mp hempty
    have hwhite : ∀ c ∈ r.toList.dropWhile Text.isPadding, Text.isWhiteSpace c = true :=
      fun c hc => hr c ((List.dropWhile_sublist _).mem hc)
    have hdrop := @prefix_append_white_iff p [] _ hp hwhite
    rwa [List.nil_append, ← hnil] at hdrop
  · exact prefix_append_white_iff hp hr

end PrefixCalc
