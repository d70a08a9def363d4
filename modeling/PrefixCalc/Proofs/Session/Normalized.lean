import PrefixCalc.Proofs.Session.Lookup

/-!
# PrefixCalc.Proofs.Session.Normalized

Sessions that take runs of blanks for one separator, next to sessions that cut at every space.

* `Calculator.run_of_tokens_eq`: a calculator sees an input only through its tokens.
* `respond_eq_respond_normalized`: the two sessions have the same answers, the one to a line and the
  other to the normalized line.
* `respond_normalized`: cutting a line at runs of blanks is cutting its normalized form at spaces.
-/

namespace PrefixCalc

namespace Calculator

variable {c c' : Calculator} (hv : c.vocabulary = c'.vocabulary)

include hv

theorem runTokens_of_vocabulary_eq (tokens : List String) :
    c.runTokens tokens = c'.runTokens tokens := by
  cases tokens with
  | nil => rfl
  | cons name words => simp only [runTokens, runNamed, hv]

theorem run_of_tokens_eq {input input' : String} (h : c.tokenizer input = c'.tokenizer input') :
    (c.run input).outcome = (c'.run input').outcome ∧
      (c.run input).consulted = (c'.run input').consulted := by
  simp only [run_eq, h, runTokens_of_vocabulary_eq hv]
  exact ⟨trivial, trivial⟩

end Calculator

namespace Session

open Tokenizer (normalized)

/-! ## Normalized lines -/

theorem trim_normalized (line : String) :
    Text.trim (normalized (Text.trim line)) = normalized (Text.trim line) :=
  (Tokenizer.isTrimmed_normalized (Text.isTrimmed_trim line)).trim_eq

theorem trim_normalized_eq_empty_iff {line : String} :
    Text.trim (normalized (Text.trim line)) = "" ↔ Text.trim line = "" := by
  rw [trim_normalized]
  exact Tokenizer.normalized_eq_empty_iff (Text.isTrimmed_trim line)

theorem trim_normalized_eq_help_iff {line : String} :
    Text.trim (normalized (Text.trim line)) = helpCommand ↔ Text.trim line = helpCommand := by
  rw [trim_normalized]
  exact Tokenizer.normalized_eq_iff (Text.isTrimmed_trim line) (by decide)

/-! ## Answers -/

/-- The two sessions test the two forms of the line for the same things, and where they go on to
evaluate an expression, they have the same tokens. -/
theorem respond_eq_respond_normalized {s s' : Session} (hs : s.calculator.tokenizer = .words)
    (hs' : s'.calculator.tokenizer = .spaces)
    (hv : s.calculator.vocabulary = s'.calculator.vocabulary) (line : String) :
    (s.respond line).reply = (s'.respond (normalized (Text.trim line))).reply ∧
      (s.respond line).consulted = (s'.respond (normalized (Text.trim line))).consulted := by
  rcases s.respond_cases line with ⟨hblank, h⟩ | ⟨hhelp, h⟩ | ⟨hblank, hhelp, h⟩
  · rw [h, respond_blank (trim_normalized_eq_empty_iff.mpr hblank)]
    exact ⟨rfl, rfl⟩
  · rw [h, respond_help (trim_normalized_eq_help_iff.mpr hhelp)]
    exact ⟨rfl, rfl⟩
  · have htokens : s.calculator.tokenizer (Text.trim line) =
        s'.calculator.tokenizer (normalized (Text.trim line)) := by
      rw [hs, hs', Tokenizer.spaces_normalized]
      exact Tokenizer.words_ne_nil (Text.isTrimmed_trim line) hblank
    obtain ⟨houtcome, hconsulted⟩ := Calculator.run_of_tokens_eq hv htokens
    rw [h, respond_answer (trim_normalized_eq_empty_iff.not.mpr hblank)
      (trim_normalized_eq_help_iff.not.mpr hhelp), trim_normalized]
    simp only [answer_reply, answer_consulted, houtcome, hconsulted]
    exact ⟨trivial, trivial⟩

/-- A line, cut at runs of blanks, is answered like its words with single spaces between them, cut
at spaces. Exactly the blank lines and the lines that ask for help are normalized to such lines. -/
theorem respond_normalized (v : Vocabulary) (d : Text.Display) (line : String) :
    let worded : Session := { calculator := { tokenizer := .words, vocabulary := v }, display := d }
    let spaced : Session :=
      { calculator := { tokenizer := .spaces, vocabulary := v }, display := d }
    let normal := " ".intercalate (Tokenizer.words (Text.trim line))
    (worded.respond line).reply = (spaced.respond normal).reply ∧
      (worded.respond line).consulted = (spaced.respond normal).consulted ∧
      ((spaced.respond normal).reply = .blank ↔ Text.IsWhite line) ∧
      ((spaced.respond normal).reply = .help ↔
        ∃ v w, Text.IsWhite v ∧ Text.IsWhite w ∧ line = v ++ "h" ++ w) := by
  intro worded spaced normal
  obtain ⟨hreply, hconsulted⟩ := @respond_eq_respond_normalized worded spaced rfl rfl rfl line
  have hnormal : normalized (Text.trim line) = normal := rfl
  rw [hnormal] at hreply hconsulted
  refine ⟨hreply, hconsulted, ?_, ?_⟩
  · rw [← hreply]
    exact respond_blank_iff
  · rw [← hreply]
    exact respond_help_iff

end Session
end PrefixCalc
