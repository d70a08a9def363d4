import PrefixCalc.Proofs.Session.Lookup
import PrefixCalc.Proofs.Spaced
import PrefixCalc.Proofs.Tokens

/-!
# PrefixCalc.Proofs.Session.Spaced

Sessions that cut at runs of blanks, on a line and on its spaced form. The tokenizer cuts at the
ASCII blanks only, but white space of any kind is trimmed off a line and most of it is passed over
in front of a numeral, so other white space can change the reply from inside a line.

* `SameOutcome`: when two lists of tokens have the same outcome, the name in an error apart.
* `reply_spaced_iff`: a line and its spaced form have the same reply, the name in an error apart,
  exactly if the tokens and their visible parts have the same outcome.
* `respond_spaced`: that, with the lines for which nothing changes.
-/

namespace PrefixCalc

/-- The reply without the name of an unknown function. -/
def Reply.unnamed : Reply → Reply
  | .failure (.unknownFunction _) => .failure (.unknownFunction "")
  | r => r

/-- The name stands for an operation in both lists or in neither. An operation has to get the same
number of words, and the same result if it takes as many. -/
inductive SameOutcome : List String → List String → Prop where
  | noTokens : SameOutcome [] []
  | unknown {name name' : String} {ws ws' : List String} :
      builtin? name = none → builtin? name' = none → SameOutcome (name :: ws) (name' :: ws')
  | wrongCount {name : String} {ws ws' : List String} {operation : Operation} :
      builtin? name = some operation → ws.length ≠ operation.arity.count →
      ws'.length = ws.length → SameOutcome (name :: ws) (name :: ws')
  | applied {name : String} {ws ws' : List String} {operation : Operation} :
      builtin? name = some operation → ws.length = operation.arity.count →
      ws'.length = ws.length →
      operation.apply (ws'.map readOperand) = operation.apply (ws.map readOperand) →
      SameOutcome (name :: ws) (name :: ws')

namespace Calculator

variable {c : Calculator} {name : String} {ws ws' : List String} {operation : Operation}

theorem applyTo_outcome_eq_iff :
    (applyTo operation ws').1 = (applyTo operation ws).1 ↔
      ws'.length = ws.length ∧ (ws.length = operation.arity.count →
        operation.apply (ws'.map readOperand) = operation.apply (ws.map readOperand)) := by
  by_cases hws : ws.length = operation.arity.count <;>
    by_cases hws' : ws'.length = operation.arity.count
  · rw [applyTo_ok hws, applyTo_ok hws', Except.ok.injEq, hws, hws']
    simp
  · rw [applyTo_ok hws, applyTo_err hws', hws]
    simp [hws']
  · rw [applyTo_err hws, applyTo_ok hws', hws']
    simp [Ne.symm hws]
  · rw [applyTo_err hws, applyTo_err hws']
    simp [hws]

/-- Once an operation has been found, the name is not an error any more. -/
theorem applyTo_cases (operation : Operation) (ws : List String) :
    (∃ x, (applyTo operation ws).1 = .ok x) ∨
      ∃ expected got, (applyTo operation ws).1 = .error (.arityMismatch expected got) := by
  by_cases h : ws.length = operation.arity.count
  · exact .inl ⟨_, congrArg Prod.fst (applyTo_ok h)⟩
  · exact .inr ⟨_, _, congrArg Prod.fst (applyTo_err h)⟩

theorem runNamed_outcome_congr (h : ws'.map readOperand = ws.map readOperand) :
    (c.runNamed name ws').outcome = (c.runNamed name ws).outcome := by
  cases hfound : (c.vocabulary name).outcome with
  | error e => rw [runNamed_of_error hfound, runNamed_of_error hfound]
  | ok operation =>
    have hlen : ws'.length = ws.length := by simpa using congrArg List.length h
    rw [runNamed_of_ok hfound, runNamed_of_ok hfound, applyTo_outcome_eq_iff]
    exact ⟨hlen, fun _ => congrArg operation.apply h⟩

theorem runNamed_builtin_of_none (hc : c.vocabulary = .builtin) (h : builtin? name = none) :
    (c.runNamed name ws).outcome = .error (.unknownFunction name) :=
  runNamed_of_error (by rw [hc, Vocabulary.builtin_of_none h])

theorem runNamed_builtin_of_some (hc : c.vocabulary = .builtin)
    (h : builtin? name = some operation) :
    (c.runNamed name ws).outcome = (applyTo operation ws).1 :=
  runNamed_of_ok (by rw [hc, Vocabulary.builtin_of_some h])

end Calculator

namespace Reply

open Calculator

variable {c : Calculator} {name name' : String} {ws ws' : List String} {operation : Operation}

theorem unnamed_ofOutcome_applyTo :
    (ofOutcome (applyTo operation ws).1).unnamed = ofOutcome (applyTo operation ws).1 := by
  rcases applyTo_cases operation ws with ⟨x, h⟩ | ⟨expected, got, h⟩
  · rw [h]
    rfl
  · rw [h]
    rfl

theorem ofOutcome_applyTo_ne_unknown :
    ofOutcome (applyTo operation ws).1 ≠ .failure (.unknownFunction name) := by
  rcases applyTo_cases operation ws with ⟨x, h⟩ | ⟨expected, got, h⟩
  · rw [h]
    rintro ⟨⟩
  · rw [h]
    rintro ⟨⟩

theorem ofOutcome_inj {o o' : Except EvalError Binary64} :
    ofOutcome o = ofOutcome o' ↔ o = o' := by
  cases o <;> cases o' <;> simp [ofOutcome]

/-- A name with an operation has to be in both lists, as it is when a line is spaced. -/
theorem unnamed_runNamed_eq_iff (hc : c.vocabulary = .builtin)
    (hname : builtin? name = none ∨ name' = name) :
    (ofOutcome (c.runNamed name' ws').outcome).unnamed =
        (ofOutcome (c.runNamed name ws).outcome).unnamed ↔
      SameOutcome (name :: ws) (name' :: ws') := by
  cases hfound : builtin? name with
  | none =>
    rw [runNamed_builtin_of_none hc hfound]
    cases hfound' : builtin? name' with
    | none =>
      rw [runNamed_builtin_of_none hc hfound']
      exact iff_of_true rfl (.unknown hfound hfound')
    | some operation =>
      rw [runNamed_builtin_of_some hc hfound', unnamed_ofOutcome_applyTo]
      refine iff_of_false ofOutcome_applyTo_ne_unknown ?_
      intro hsame
      cases hsame with
      | unknown _ hnone => simp [hfound'] at hnone
      | wrongCount hsome => simp [hfound] at hsome
      | applied hsome => simp [hfound] at hsome
  | some operation =>
    obtain rfl : name' = name := by simpa [hfound] using hname
    rw [runNamed_builtin_of_some hc hfound, runNamed_builtin_of_some hc hfound,
      unnamed_ofOutcome_applyTo, unnamed_ofOutcome_applyTo, ofOutcome_inj, applyTo_outcome_eq_iff]
    constructor
    · rintro ⟨hlen, happly⟩
      by_cases hcount : ws.length = operation.arity.count
      · exact .applied hfound hcount hlen (happly hcount)
      · exact .wrongCount hfound hcount hlen
    · intro hsame
      cases hsame with
      | unknown hnone => simp [hfound] at hnone
      | wrongCount hsome hcount hlen =>
        obtain rfl : operation = _ := by simpa [hfound] using hsome
        exact ⟨hlen, fun h => absurd h hcount⟩
      | applied hsome hcount hlen happly =>
        obtain rfl : operation = _ := by simpa [hfound] using hsome
        exact ⟨hlen, fun _ => happly⟩

end Reply

/-! ## Tokens of a line and of its spaced form -/

theorem builtin_isWord {name : String} {operation : Operation}
    (h : builtin? name = some operation) : Text.IsWord name := by
  have hall : ∀ n ∈ builtinNames, Text.IsWord n := by decide
  exact hall name (List.mem_map_of_mem (mem_builtins h))

namespace Session

/-- The session that cuts at runs of blanks and has the built-in operations. -/
def worded (d : Text.Display) : Session :=
  { calculator := { tokenizer := .words, vocabulary := .builtin }, display := d }

variable {d : Text.Display} {line : String}

theorem trim_spaced_eq_empty_iff : Text.trim (Text.spaced line) = "" ↔ Text.trim line = "" := by
  rw [Text.trim_spaced, Text.spaced_eq_iff (by simp)]

theorem isWord_helpCommand : Text.IsWord helpCommand := by decide

theorem trim_spaced_eq_help_iff :
    Text.trim (Text.spaced line) = helpCommand ↔ Text.trim line = helpCommand := by
  rw [Text.trim_spaced, Text.spaced_eq_iff isWord_helpCommand.visible]

theorem words_trim_spaced (line : String) :
    Tokenizer.words (Text.trim (Text.spaced line)) =
      (Tokenizer.words (Text.trim line)).flatMap Tokenizer.visibleParts := by
  rw [Text.trim_spaced, Tokenizer.words_spaced]

theorem respond_tokens (hblank : Text.trim line ≠ "") (hhelp : Text.trim line ≠ helpCommand) :
    ∃ name ws, Tokenizer.words (Text.trim line) = name :: ws ∧
      ((worded d).respond line).reply =
        .ofOutcome ((worded d).calculator.runNamed name ws).outcome := by
  obtain ⟨name, ws, htokens, hname⟩ :=
    Tokenizer.exists_name (Text.isTrimmed_trim line) hblank (.inr rfl)
  refine ⟨name, ws, htokens, ?_⟩
  rw [respond_answer hblank hhelp, answer_reply, Calculator.run_eq,
    show (worded d).calculator.tokenizer = .words from rfl, htokens,
    Calculator.runTokens_of_ne hname]

/-- Spacing a line leaves a name with an operation as it is. -/
theorem builtin_name_spaced {name name' : String} {ws ws' : List String}
    (h : (name :: ws).flatMap Tokenizer.visibleParts = name' :: ws') :
    builtin? name = none ∨ name' = name := by
  cases hfound : builtin? name with
  | none => exact .inl rfl
  | some operation =>
    rw [List.flatMap_cons, Tokenizer.visibleParts_of_isWord (builtin_isWord hfound),
      List.singleton_append, List.cons.injEq] at h
    exact .inr h.1.symm

theorem reply_spaced_iff :
    ((worded d).respond (Text.spaced line)).reply.unnamed =
        ((worded d).respond line).reply.unnamed ↔
      SameOutcome (Tokenizer.words (Text.trim line))
        ((Tokenizer.words (Text.trim line)).flatMap Tokenizer.visibleParts) := by
  rcases (worded d).respond_cases line with ⟨hblank, h⟩ | ⟨hhelp, h⟩ | ⟨hblank, hhelp, -⟩
  · rw [h, respond_blank (trim_spaced_eq_empty_iff.mpr hblank), hblank, Tokenizer.words_empty,
      List.flatMap_nil]
    exact iff_of_true rfl .noTokens
  · have hunknown : builtin? helpCommand = none := by decide
    rw [h, respond_help (trim_spaced_eq_help_iff.mpr hhelp), hhelp,
      Tokenizer.tokens_of_isWord (.inr rfl) isWord_helpCommand, List.flatMap_singleton,
      Tokenizer.visibleParts_of_isWord isWord_helpCommand]
    exact iff_of_true rfl (.unknown hunknown hunknown)
  · obtain ⟨name, ws, htokens, hreply⟩ := respond_tokens (d := d) hblank hhelp
    obtain ⟨name', ws', hparts, hreply'⟩ :=
      respond_tokens (d := d) (trim_spaced_eq_empty_iff.not.mpr hblank)
        (trim_spaced_eq_help_iff.not.mpr hhelp)
    rw [words_trim_spaced, htokens] at hparts
    rw [hreply, hreply', htokens, hparts]
    exact Reply.unnamed_runNamed_eq_iff rfl (builtin_name_spaced hparts)

/-! ## Lines with the same reply -/

/-- A word with white space around it that is passed over. -/
def IsPadded (w : String) : Prop :=
  ∃ l v r, w = l ++ v ++ r ∧ Text.IsWhite l ∧ nextLine ∉ l.toList ∧ Text.IsWord v ∧ Text.IsWhite r

theorem IsPadded.of_isWord {w : String} (h : Text.IsWord w) : IsPadded w := by
  refine ⟨"", w, "", ?_, by decide, by decide, h, by decide⟩
  rw [String.empty_append, String.append_empty]

theorem map_readOperand_visibleParts {ws : List String} (h : ∀ w ∈ ws, IsPadded w) :
    (ws.flatMap Tokenizer.visibleParts).map readOperand = ws.map readOperand := by
  induction ws with
  | nil => rfl
  | cons w ws ih =>
    obtain ⟨l, v, r, rfl, hl, hnext, hv, hr⟩ := h w List.mem_cons_self
    rw [List.flatMap_cons, Tokenizer.visibleParts_around hl hv hr, List.singleton_append,
      List.map_cons, List.map_cons, readOperand_around hl hnext hr,
      ih fun w hw => h w (List.mem_cons_of_mem _ hw)]

theorem reply_spaced_of_padded {name : String} {ws : List String}
    (htokens : Tokenizer.words (Text.trim line) = name :: ws) (hname : Text.IsWord name)
    (hws : ∀ w ∈ ws, IsPadded w) :
    ((worded d).respond (Text.spaced line)).reply = ((worded d).respond line).reply := by
  have hblank : Text.trim line ≠ "" := by
    intro hblank
    rw [hblank, Tokenizer.words_empty] at htokens
    cases htokens
  by_cases hhelp : Text.trim line = helpCommand
  · rw [respond_help hhelp, respond_help (trim_spaced_eq_help_iff.mpr hhelp)]
  · obtain ⟨_, _, hfirst, hreply⟩ := respond_tokens (d := d) hblank hhelp
    obtain ⟨_, _, hparts, hreply'⟩ :=
      respond_tokens (d := d) (trim_spaced_eq_empty_iff.not.mpr hblank)
        (trim_spaced_eq_help_iff.not.mpr hhelp)
    rw [htokens, List.cons.injEq] at hfirst
    rw [words_trim_spaced, htokens, List.flatMap_cons, Tokenizer.visibleParts_of_isWord hname,
      List.singleton_append, List.cons.injEq] at hparts
    obtain ⟨rfl, rfl⟩ := hfirst
    obtain ⟨rfl, rfl⟩ := hparts
    rw [hreply, hreply', Calculator.runNamed_outcome_congr (map_readOperand_visibleParts hws)]

theorem isWord_of_blanks
    (h : ∀ c ∈ (Text.trim line).toList, Text.isWhiteSpace c = true → c ∈ Tokenizer.blanks)
    {w : String} (hw : w ∈ Tokenizer.words (Text.trim line)) : Text.IsWord w := by
  obtain ⟨hne, hclean⟩ := Tokenizer.mem_words hw
  refine ⟨hne, ?_⟩
  intro c hc
  apply Bool.eq_false_iff.mpr
  intro hwhite
  have hblank := h c (Tokenizer.tokens_subset (.inr rfl) hw hc) hwhite
  rw [← Tokenizer.isWordSeparator_iff, hclean c hc] at hblank
  cases hblank

theorem reply_spaced_of_blanks
    (h : ∀ c ∈ (Text.trim line).toList, Text.isWhiteSpace c = true → c ∈ Tokenizer.blanks) :
    ((worded d).respond (Text.spaced line)).reply = ((worded d).respond line).reply := by
  cases htokens : Tokenizer.words (Text.trim line) with
  | nil =>
    have hblank : Text.trim line = "" := by
      by_contra hne
      exact Tokenizer.words_ne_nil (Text.isTrimmed_trim line) hne htokens
    rw [respond_blank hblank, respond_blank (trim_spaced_eq_empty_iff.mpr hblank)]
  | cons name ws =>
    have hword : ∀ w ∈ name :: ws, Text.IsWord w := fun w hw => isWord_of_blanks h (htokens ▸ hw)
    apply reply_spaced_of_padded htokens (hword name List.mem_cons_self)
    exact fun w hw => .of_isWord (hword w (List.mem_cons_of_mem _ hw))

/-- With a space for each of its white space characters, a line has the visible parts of its tokens
for its tokens. So the reply stays the same, the name in an error apart, exactly if tokens and
visible parts have the same outcome. It stays the same altogether if the line has no other white
space than blanks between its ends, and if the name has none and each other token is one word with
white space around it, no next-line control in front. -/
theorem respond_spaced (d : Text.Display) (line : String) :
    let s := worded d
    let tokens := Tokenizer.words (Text.trim line)
    let parts := tokens.flatMap Tokenizer.visibleParts
    Tokenizer.words (Text.trim (Text.spaced line)) = parts ∧
    ((s.respond (Text.spaced line)).reply.unnamed = (s.respond line).reply.unnamed ↔
      SameOutcome tokens parts) ∧
    ((∀ c ∈ (Text.trim line).toList, Text.isWhiteSpace c = true → c ∈ Tokenizer.blanks) →
      (s.respond (Text.spaced line)).reply = (s.respond line).reply) ∧
    ∀ name ws, tokens = name :: ws → Text.IsWord name → (∀ w ∈ ws, IsPadded w) →
      (s.respond (Text.spaced line)).reply = (s.respond line).reply :=
  ⟨words_trim_spaced line, reply_spaced_iff, reply_spaced_of_blanks,
    fun _ _ => reply_spaced_of_padded⟩

/-- White space of several kinds around the number of a square root is passed over. -/
theorem respond_spaced_sqrt :
    let s := worded .plain
    let line := "\u2003sqrt \x0b\u300016\u0085\t\n"
    Tokenizer.words (Text.trim line) = ["sqrt", "\x0b\u300016"] ∧ IsPadded "\x0b\u300016" ∧
      (s.respond (Text.spaced line)).reply = (s.respond line).reply := by
  intro s line
  have htokens : Tokenizer.words (Text.trim line) = ["sqrt", "\x0b\u300016"] := by decide +kernel
  have hpadded : IsPadded "\x0b\u300016" :=
    ⟨"\x0b\u3000", "16", "", by decide, by decide +kernel, by decide, by decide, by decide⟩
  refine ⟨htokens, hpadded, ?_⟩
  exact (respond_spaced .plain line).2.2.2 "sqrt" _ htokens (by decide)
    (List.forall_mem_singleton.mpr hpadded)

/-- A vertical tab in front of a number is passed over, but it does not separate two numbers. -/
theorem respond_spaced_vertical_tab :
    ¬ ∀ line, ((worded .plain).respond (Text.spaced line)).reply.unnamed =
      ((worded .plain).respond line).reply.unnamed := by
  intro hall
  have hchanged : ((worded .plain).respond (Text.spaced "+ 1\x0b2")).reply.unnamed ≠
      ((worded .plain).respond "+ 1\x0b2").reply.unnamed := by decide +kernel
  exact hchanged (hall "+ 1\x0b2")

end Session
end PrefixCalc
