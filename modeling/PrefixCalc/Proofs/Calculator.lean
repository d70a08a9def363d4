import Mathlib.Data.List.Basic
import PrefixCalc.Calculator
import PrefixCalc.Proofs.Tokenizer

/-!
# PrefixCalc.Proofs.Calculator

What a calculator answers, as a relation, and what it looks up.

* `Evaluates v tokens o`: under the vocabulary `v`, the outcome of `tokens` is `o`. The rules that
  apply an operation have one word for each operand.
* `run_outcome_iff`: a run has exactly the outcome that the relation gives to its tokens.
* `runAll_evaluates`: a sequence of runs, input by input, and all the names it looks up.
* `evaluate_intercalate`: a built-in operation on as many words as it takes.
-/

namespace PrefixCalc

inductive Evaluates (v : Vocabulary) : List String → Except EvalError Binary64 → Prop where
  | noTokens : Evaluates v [] (.ok .quietNaN)
  | noName {words : List String} : Evaluates v ("" :: words) (.ok .quietNaN)
  | unknown {name : String} {words : List String} {e : EvalError} :
      name ≠ "" → (v name).outcome = .error e → Evaluates v (name :: words) (.error e)
  | wrongCount {name : String} {words : List String} {operation : Operation} :
      name ≠ "" → (v name).outcome = .ok operation → words.length ≠ operation.arity.count →
      Evaluates v (name :: words) (.error (.arityMismatch operation.arity.count words.length))
  | unary {name w : String} {f : Binary64 → Binary64} :
      name ≠ "" → (v name).outcome = .ok (.unary f) →
      Evaluates v [name, w] (.ok (f (readOperand w)))
  | binary {name w w' : String} {f : Binary64 → Binary64 → Binary64} :
      name ≠ "" → (v name).outcome = .ok (.binary f) →
      Evaluates v [name, w, w'] (.ok (f (readOperand w) (readOperand w')))

/-- The name that tokens make a calculator look up. -/
def nameToLookUp : List String → Option String
  | [] => none
  | name :: _ => if name = "" then none else some name

namespace Calculator

variable {c : Calculator} {name : String} {words : List String}

/-! ## One input -/

theorem runTokens_of_ne (h : name ≠ "") : c.runTokens (name :: words) = c.runNamed name words := by
  rw [runTokens, if_neg h]

theorem runNamed_of_error {e : EvalError} (h : (c.vocabulary name).outcome = .error e) :
    (c.runNamed name words).outcome = .error e := by
  rw [runNamed_error h]

theorem runNamed_of_ok {operation : Operation} (h : (c.vocabulary name).outcome = .ok operation) :
    (c.runNamed name words).outcome = (applyTo operation words).1 := by
  rw [runNamed_ok h]

theorem runNamed_consulted : (c.runNamed name words).consulted = [name] := by
  cases h : (c.vocabulary name).outcome with
  | error e => rw [runNamed_error h]
  | ok operation => rw [runNamed_ok h]

theorem runTokens_consulted (tokens : List String) :
    (c.runTokens tokens).consulted = (nameToLookUp tokens).toList := by
  cases tokens with
  | nil => rfl
  | cons name words =>
    by_cases h : name = ""
    · rw [runTokens, nameToLookUp, if_pos h, if_pos h]
      rfl
    · rw [runTokens_of_ne h, runNamed_consulted, nameToLookUp, if_neg h]
      rfl

/-- An operation gets as many words as it takes, so it neither pads its operands nor drops one. -/
theorem evaluates_applyTo {operation : Operation} (hn : name ≠ "")
    (h : (c.vocabulary name).outcome = .ok operation) :
    Evaluates c.vocabulary (name :: words) (applyTo operation words).1 := by
  by_cases hl : words.length = operation.arity.count
  · rw [applyTo_ok hl]
    cases operation with
    | unary f =>
      obtain ⟨w, rfl⟩ := List.length_eq_one_iff.mp hl
      exact .unary hn h
    | binary f =>
      obtain ⟨w, w', rfl⟩ := List.length_eq_two.mp hl
      exact .binary hn h
  · rw [applyTo_err hl]
    exact .wrongCount hn h hl

theorem evaluates_runTokens (c : Calculator) (tokens : List String) :
    Evaluates c.vocabulary tokens (c.runTokens tokens).outcome := by
  cases tokens with
  | nil => exact .noTokens
  | cons name words =>
    by_cases hn : name = ""
    · subst hn
      exact .noName
    · rw [runTokens_of_ne hn]
      cases h : (c.vocabulary name).outcome with
      | error e =>
        rw [runNamed_of_error h]
        exact .unknown hn h
      | ok operation =>
        rw [runNamed_of_ok h]
        exact evaluates_applyTo hn h

theorem runTokens_of_evaluates {tokens : List String} {o : Except EvalError Binary64}
    (h : Evaluates c.vocabulary tokens o) : (c.runTokens tokens).outcome = o := by
  cases h with
  | noTokens => rfl
  | noName => rfl
  | unknown hn h => rw [runTokens_of_ne hn, runNamed_of_error h]
  | wrongCount hn h hl => rw [runTokens_of_ne hn, runNamed_of_ok h, applyTo_err hl]
  | unary hn h =>
    rw [runTokens_of_ne hn, runNamed_of_ok h, applyTo_ok rfl]
    rfl
  | binary hn h =>
    rw [runTokens_of_ne hn, runNamed_of_ok h, applyTo_ok rfl]
    rfl

theorem run_outcome_iff {input : String} {o : Except EvalError Binary64} :
    (c.run input).outcome = o ↔ Evaluates c.vocabulary (c.tokenizer input) o := by
  constructor
  · rintro rfl
    exact evaluates_runTokens c (c.tokenizer input)
  · exact runTokens_of_evaluates

theorem run_consulted (input : String) :
    (c.run input).consulted = (nameToLookUp (c.tokenizer input)).toList :=
  runTokens_consulted (c.tokenizer input)

/-- An operation whose words are as many as it takes. -/
theorem run_of_tokens {input : String} {operation : Operation}
    (htokens : c.tokenizer input = name :: words) (hn : name ≠ "")
    (hfound : (c.vocabulary name).outcome = .ok operation)
    (hlen : words.length = operation.arity.count) :
    (c.run input).outcome = .ok (operation.apply (words.map readOperand)) := by
  rw [run_eq, htokens, runTokens_of_ne hn, runNamed_of_ok hfound, applyTo_ok hlen]

/-- A value comes from an operation on exactly as many operands as it takes, if a name was looked up
at all. -/
theorem apply_of_run_ok {input : String} {x : Binary64} (h : (c.run input).outcome = .ok x) :
    nameToLookUp (c.tokenizer input) = none ∨
      ∃ name words operation, c.tokenizer input = name :: words ∧
        (c.vocabulary name).outcome = .ok operation ∧
        words.length = operation.arity.count ∧ x = operation.apply (words.map readOperand) := by
  have heval := run_outcome_iff.mp h
  generalize c.tokenizer input = tokens at heval ⊢
  cases heval with
  | noTokens => exact .inl rfl
  | noName => exact .inl rfl
  | unary _ hfound => exact .inr ⟨_, _, _, rfl, hfound, rfl, rfl⟩
  | binary _ hfound => exact .inr ⟨_, _, _, rfl, hfound, rfl, rfl⟩

/-! ## Sequences of inputs -/

theorem runAll_outcomes (inputs : List String) :
    (c.runAll inputs).outcomes = inputs.map (fun input => (c.run input).outcome) := by
  induction inputs with
  | nil => rfl
  | cons input inputs ih => rw [runAll, List.map_cons, ih]

theorem runAll_consulted (inputs : List String) :
    (c.runAll inputs).consulted =
      inputs.filterMap (fun input => nameToLookUp (c.tokenizer input)) := by
  induction inputs with
  | nil => rfl
  | cons input inputs ih =>
    rw [runAll, ih, run_consulted, List.filterMap_cons]
    cases nameToLookUp (c.tokenizer input) <;> rfl

/-- Each outcome is that of its own input, by the rules of `Evaluates`, and the names are looked up
once for each input that has one, in order. No operation is ever given too few or too many
operands. -/
theorem runAll_evaluates (c : Calculator) (inputs : List String) :
    (∀ i : Nat,
        (c.runAll inputs).outcomes[i]? = inputs[i]?.map (fun input => (c.run input).outcome)) ∧
      (c.runAll inputs).consulted =
        inputs.filterMap (fun input => nameToLookUp (c.tokenizer input)) ∧
      (∀ input o, (c.run input).outcome = o ↔ Evaluates c.vocabulary (c.tokenizer input) o) ∧
      ∀ input x, (c.run input).outcome = .ok x →
        nameToLookUp (c.tokenizer input) = none ∨
          ∃ name words operation, c.tokenizer input = name :: words ∧
            (c.vocabulary name).outcome = .ok operation ∧
            words.length = operation.arity.count ∧
            x = operation.apply (words.map readOperand) := by
  refine ⟨?_, runAll_consulted inputs, fun _ _ => run_outcome_iff, fun _ _ => apply_of_run_ok⟩
  intro i
  rw [runAll_outcomes, List.getElem?_map]

end Calculator

/-! ## Built-in operations -/

theorem mem_builtins {name : String} {operation : Operation}
    (h : builtin? name = some operation) : (name, operation) ∈ builtins := by
  obtain ⟨l, l', hl, -⟩ := List.lookup_eq_some_iff.mp h
  rw [hl]
  simp

theorem builtin_name {name : String} {operation : Operation} (h : builtin? name = some operation) :
    name ≠ "" ∧ ' ' ∉ name.toList := by
  have hall : ∀ n ∈ builtinNames, n ≠ "" ∧ ' ' ∉ n.toList := by decide
  exact hall name (List.mem_map_of_mem (mem_builtins h))

theorem evaluate_intercalate {name : String} {operation : Operation} {words : List String}
    (h : builtin? name = some operation) (hspace : ∀ w ∈ words, ' ' ∉ w.toList)
    (hlen : words.length = operation.arity.count) :
    evaluate (" ".intercalate (name :: words)) =
      .ok (operation.apply (words.map readOperand)) := by
  obtain ⟨hne, hname⟩ := builtin_name h
  have htokens : Tokenizer.spaces (" ".intercalate (name :: words)) = name :: words := by
    apply Tokenizer.spaces_intercalate (List.cons_ne_nil name words)
    intro w hw
    rcases List.mem_cons.mp hw with rfl | hw
    · exact hname
    · exact hspace w hw
  have hfound : (standard.vocabulary name).outcome = .ok operation := by
    rw [show standard.vocabulary = Vocabulary.builtin from rfl, Vocabulary.builtin_of_some h]
  exact Calculator.run_of_tokens htokens hne hfound hlen

end PrefixCalc
