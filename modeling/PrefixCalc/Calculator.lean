import PrefixCalc.Operand
import PrefixCalc.Tokenizer
import PrefixCalc.Vocabulary

/-!
# PrefixCalc.Calculator

Evaluates expressions in prefix order: a tokenizer cuts the input, a vocabulary finds the operation
that the first token names, and the operation is applied to the values of the other tokens.

* `Traced`            — a result with a trace. Steps one after the other put their traces together.
* `Vocabulary.consult` — a lookup, which leaves the name in the trace.
* `Calculator.run`    — one input. The name is looked up before the operands are counted, and an
  input without a name is not a number and looks nothing up.
* `Calculator.runAll` — several inputs in a row.
* `evaluate`          — one input, cut at spaces, with the built-in operations.
-/

namespace PrefixCalc

/-- An outcome, with the names that were looked up and the events on the way to it. -/
structure Traced (α : Type) where
  outcome : α
  consulted : List String
  events : List Event

namespace Traced

instance : Monad Traced where
  pure a := { outcome := a, consulted := [], events := [] }
  bind x f :=
    let y := f x.outcome
    { outcome := y.outcome
      consulted := x.consulted ++ y.consulted
      events := x.events ++ y.events }

def noting (events : List Event) : Traced Unit :=
  { outcome := (), consulted := [], events := events }

end Traced

def Vocabulary.consult (v : Vocabulary) (name : String) : Traced (Except EvalError Operation) :=
  let found := v name
  { outcome := found.outcome, consulted := [name], events := found.events }

abbrev Evaluation := Traced (Except EvalError Binary64)

structure Calculator where
  tokenizer : Tokenizer
  vocabulary : Vocabulary

/-- The values of the words of an expression. Reading them is one event. -/
def readOperands (words : List String) : List Binary64 × List Event :=
  (words.map readOperand, [.operandsRead words (words.map readOperand)])

namespace Calculator

/-- An operation on words, once its name has been found. -/
def applyTo (operation : Operation) (words : List String) :
    Except EvalError Binary64 × List Event :=
  match operation.arity.check words.length with
  | .error e => (.error e, [])
  | .ok () =>
    let values := readOperands words
    (.ok (operation.apply values.1), values.2)

def runNamed (c : Calculator) (name : String) (words : List String) : Evaluation := do
  match ← c.vocabulary.consult name with
  | .error e => return .error e
  | .ok operation =>
    Traced.noting [.resolved name operation.arity]
    let (outcome, events) := applyTo operation words
    Traced.noting events
    return outcome

def runTokens (c : Calculator) : List String → Evaluation
  | [] => pure (.ok .quietNaN)
  | name :: words => if name = "" then pure (.ok .quietNaN) else c.runNamed name words

def run (c : Calculator) (input : String) : Evaluation := do
  let tokens := c.tokenizer input
  Traced.noting [.tokenized tokens]
  c.runTokens tokens

/-- One outcome for each input, and all names looked up and events in order. -/
structure Evaluations where
  outcomes : List (Except EvalError Binary64)
  consulted : List String
  events : List Event

def runAll (c : Calculator) : List String → Evaluations
  | [] => { outcomes := [], consulted := [], events := [] }
  | input :: inputs =>
    let first := c.run input
    let others := c.runAll inputs
    { outcomes := first.outcome :: others.outcomes
      consulted := first.consulted ++ others.consulted
      events := first.events ++ others.events }

theorem runNamed_error {c : Calculator} {name : String} {e : EvalError}
    (h : (c.vocabulary name).outcome = .error e) (words : List String) :
    c.runNamed name words =
      { outcome := .error e, consulted := [name], events := (c.vocabulary name).events } := by
  simp only [runNamed, Vocabulary.consult, h, bind, pure, List.append_nil]

theorem runNamed_ok {c : Calculator} {name : String} {operation : Operation}
    (h : (c.vocabulary name).outcome = .ok operation) (words : List String) :
    c.runNamed name words =
      { outcome := (applyTo operation words).1
        consulted := [name]
        events := (c.vocabulary name).events ++
          .resolved name operation.arity :: (applyTo operation words).2 } := by
  simp only [runNamed, Vocabulary.consult, Traced.noting, h, bind, pure, List.append_nil,
    List.singleton_append]

theorem run_eq (c : Calculator) (input : String) :
    c.run input =
      { c.runTokens (c.tokenizer input) with
        events :=
          .tokenized (c.tokenizer input) :: (c.runTokens (c.tokenizer input)).events } :=
  rfl

theorem applyTo_ok {operation : Operation} {words : List String}
    (h : words.length = operation.arity.count) :
    applyTo operation words =
      (.ok (operation.apply (words.map readOperand)),
        [.operandsRead words (words.map readOperand)]) := by
  simp only [applyTo, Arity.check_ok_iff.mpr h, readOperands]

theorem applyTo_err {operation : Operation} {words : List String}
    (h : words.length ≠ operation.arity.count) :
    applyTo operation words =
      (.error (.arityMismatch operation.arity.count words.length), []) := by
  simp only [applyTo, Arity.check_error h]

end Calculator

def standard : Calculator := { tokenizer := .spaces, vocabulary := .builtin }

def evaluate (input : String) : Except EvalError Binary64 := (standard.run input).outcome

end PrefixCalc
