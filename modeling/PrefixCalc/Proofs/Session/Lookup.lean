import PrefixCalc.Proofs.Session.Basic

/-!
# PrefixCalc.Proofs.Session.Lookup

Which lines of a session look up a name, and which name.

* `answer_reply`, `answer_consulted`: an answer is what the calculator makes of the expression.
* `respond_blank_iff`, `respond_help_iff`: the lines that never reach the calculator.
* `respond_looks_up`: every other line looks up exactly one name, which is not empty; an answer
  never comes from an input without a name.
-/

namespace PrefixCalc

/-- The reply that shows an outcome. -/
def Reply.ofOutcome : Except EvalError Binary64 → Reply
  | .ok x => .value x
  | .error e => .failure e

theorem Reply.ofOutcome_ne_blank (o : Except EvalError Binary64) : ofOutcome o ≠ .blank := by
  cases o <;> simp [ofOutcome]

theorem Reply.ofOutcome_ne_help (o : Except EvalError Binary64) : ofOutcome o ≠ .help := by
  cases o <;> simp [ofOutcome]

theorem Reply.ofOutcome_eq_failure_iff {o : Except EvalError Binary64} {e : EvalError} :
    ofOutcome o = .failure e ↔ o = .error e := by
  cases o <;> simp [ofOutcome]

namespace Session

variable {s : Session} {line : String}

theorem answer_reply (input : String) :
    (s.answer input).reply = .ofOutcome (s.calculator.run input).outcome := by
  simp only [answer]
  cases (s.calculator.run input).outcome <;> rfl

theorem answer_consulted (input : String) :
    (s.answer input).consulted = (s.calculator.run input).consulted := by
  simp only [answer]
  cases (s.calculator.run input).outcome <;> rfl

theorem respond_cases (line : String) :
    Text.trim line = "" ∧ s.respond line = { reply := .blank, consulted := [], events := [] } ∨
      Text.trim line = helpCommand ∧
        s.respond line = { reply := .help, consulted := [], events := [] } ∨
      Text.trim line ≠ "" ∧ Text.trim line ≠ helpCommand ∧
        s.respond line = s.answer (Text.trim line) := by
  by_cases hblank : Text.trim line = ""
  · exact .inl ⟨hblank, respond_blank hblank⟩
  · by_cases hhelp : Text.trim line = helpCommand
    · exact .inr (.inl ⟨hhelp, respond_help hhelp⟩)
    · exact .inr (.inr ⟨hblank, hhelp, respond_answer hblank hhelp⟩)

/-! ## Lines without an expression -/

theorem respond_blank_iff : (s.respond line).reply = .blank ↔ Text.IsWhite line := by
  rw [← Text.trim_eq_empty_iff]
  rcases s.respond_cases line with ⟨htrim, h⟩ | ⟨htrim, h⟩ | ⟨hblank, -, h⟩
  · simp [h, htrim]
  · simp [h, htrim, helpCommand]
  · simp [h, hblank, answer_reply, Reply.ofOutcome_ne_blank]

theorem respond_help_iff :
    (s.respond line).reply = .help ↔
      ∃ v w, Text.IsWhite v ∧ Text.IsWhite w ∧ line = v ++ helpCommand ++ w := by
  have hword : Text.IsWord helpCommand := by decide
  rw [← Text.trim_eq_iff hword.isTrimmed]
  rcases s.respond_cases line with ⟨htrim, h⟩ | ⟨htrim, h⟩ | ⟨-, hhelp, h⟩
  · simp [h, htrim, helpCommand]
  · simp [h, htrim]
  · simp [h, hhelp, answer_reply, Reply.ofOutcome_ne_help]

/-! ## Lines with an expression -/

theorem respond_expression_line
    (ht : s.calculator.tokenizer = .spaces ∨ s.calculator.tokenizer = .words)
    (hblank : (s.respond line).reply ≠ .blank) (hhelp : (s.respond line).reply ≠ .help) :
    ∃ name words, s.calculator.tokenizer (Text.trim line) = name :: words ∧ name ≠ "" ∧
      (s.respond line).consulted = [name] ∧
      (s.respond line).reply = .ofOutcome (s.calculator.runNamed name words).outcome := by
  rcases s.respond_cases line with ⟨-, h⟩ | ⟨-, h⟩ | ⟨hne, -, h⟩
  · rw [h] at hblank
    exact absurd rfl hblank
  · rw [h] at hhelp
    exact absurd rfl hhelp
  · obtain ⟨name, words, htokens, hname⟩ :=
      Tokenizer.exists_name (Text.isTrimmed_trim line) hne ht
    refine ⟨name, words, htokens, hname, ?_, ?_⟩
    · rw [h, answer_consulted, Calculator.run_consulted, htokens, nameToLookUp, if_neg hname]
      rfl
    · rw [h, answer_reply, Calculator.run_eq, htokens, Calculator.runTokens_of_ne hname]

/-- A line is blank if it is white space only, and asks for help if the command is all that white
space leaves of it. Any other line has a name in front, which is not empty and is looked up once; if
it is cut at spaces, its last token is not empty either. White space around a line makes no
difference. -/
theorem respond_looks_up {s : Session}
    (ht : s.calculator.tokenizer = .spaces ∨ s.calculator.tokenizer = .words) (line : String) :
    ((s.respond line).reply = .blank ↔ ∀ c ∈ line.toList, Text.isWhiteSpace c = true) ∧
    ((s.respond line).reply = .help ↔
      ∃ v w, Text.IsWhite v ∧ Text.IsWhite w ∧ line = v ++ "h" ++ w) ∧
    ((s.respond line).reply = .blank ∨ (s.respond line).reply = .help →
      (s.respond line).consulted = []) ∧
    ((s.respond line).reply ≠ .blank → (s.respond line).reply ≠ .help →
      (∃ name words, s.calculator.tokenizer (Text.trim line) = name :: words ∧ name ≠ "" ∧
        (s.respond line).consulted = [name] ∧
        (s.respond line).reply = .ofOutcome (s.calculator.runNamed name words).outcome) ∧
      ∀ front last, Tokenizer.spaces (Text.trim line) = front ++ [last] → last ≠ "") ∧
    ∀ v w, Text.IsWhite v → Text.IsWhite w → s.respond (v ++ line ++ w) = s.respond line := by
  refine ⟨respond_blank_iff, respond_help_iff, ?nothing, ?expression, ?around⟩
  case nothing =>
    rcases s.respond_cases line with ⟨-, h⟩ | ⟨-, h⟩ | ⟨-, -, h⟩
    · simp [h]
    · simp [h]
    · simp [h, answer_reply, Reply.ofOutcome_ne_blank, Reply.ofOutcome_ne_help]
  case expression =>
    intro hblank hhelp
    refine ⟨respond_expression_line ht hblank hhelp, ?_⟩
    intro front last hlast
    apply Tokenizer.spaces_last_ne_empty (Text.isTrimmed_trim line) _ hlast
    intro hempty
    exact hblank (respond_blank_iff.mpr (Text.trim_eq_empty_iff.mp hempty))
  case around =>
    intro v w hv hw
    exact respond_congr (Text.trim_white_around hv hw line)

/-- Around the expression there is white space at which neither tokenizer cuts, and a space. -/
theorem respond_looks_up_sqrt :
    let s : Session := { calculator := standard, display := .plain }
    let line := "\x0b\u0085sqrt 16 \u3000"
    (s.respond line).reply ≠ .blank ∧ (s.respond line).reply ≠ .help ∧
      (∃ name words, s.calculator.tokenizer (Text.trim line) = name :: words ∧ name ≠ "" ∧
        (s.respond line).consulted = [name] ∧
        (s.respond line).reply = .ofOutcome (s.calculator.runNamed name words).outcome) ∧
      Text.IsWhite "\u2028\t" ∧ s.respond ("\u2028\t" ++ line ++ "\x0c") = s.respond line := by
  intro s line
  obtain ⟨-, -, -, hexpression, haround⟩ := respond_looks_up (s := s) (.inl rfl) line
  have hblank : (s.respond line).reply ≠ .blank := by decide +kernel
  have hhelp : (s.respond line).reply ≠ .help := by decide +kernel
  have hwhite : Text.IsWhite "\u2028\t" := by decide +kernel
  have hform : Text.IsWhite "\x0c" := by decide +kernel
  exact ⟨hblank, hhelp, (hexpression hblank hhelp).1, hwhite, haround _ _ hwhite hform⟩

end Session
end PrefixCalc
