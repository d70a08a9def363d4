import PrefixCalc.Proofs.Calculator

/-!
# PrefixCalc.Proofs.Expression

The outcome of an expression, read off its text.

* `IsCut s name words`: the text is the name and the words with a single space in front of each
  word, so a space at an end or beside another one makes an empty word.
* `ExpressionOutcome name words o`: the rules for the built-in operations. A name that stands for
  none is an error whatever words follow, and the words are counted before any of them is read.
* `evaluate_text`: every text has exactly one cut and exactly the outcome of its cut.
-/

namespace PrefixCalc

open Binary64

structure IsCut (s name : String) (words : List String) : Prop where
  joined : " ".intercalate (name :: words) = s
  spaceless : ∀ w ∈ name :: words, ' ' ∉ w.toList

def binaryOperations : List (String × (Binary64 → Binary64 → Binary64)) :=
  [("+", add), ("-", sub), ("*", mul), ("/", div), ("^", pow)]

inductive ExpressionOutcome (name : String) (words : List String) :
    Except EvalError Binary64 → Prop where
  | noName : name = "" → ExpressionOutcome name words (.ok quietNaN)
  | unknown :
    name ≠ "" → name ∉ ["+", "-", "*", "/", "^", "sqrt"] →
      ExpressionOutcome name words (.error (.unknownFunction name))
  | binaryCount {f : Binary64 → Binary64 → Binary64} :
    (name, f) ∈ binaryOperations → words.length ≠ 2 →
      ExpressionOutcome name words (.error (.arityMismatch 2 words.length))
  | rootCount :
    name = "sqrt" → words.length ≠ 1 →
      ExpressionOutcome name words (.error (.arityMismatch 1 words.length))
  | binary {f : Binary64 → Binary64 → Binary64} {w w' : String} :
    (name, f) ∈ binaryOperations → words = [w, w'] →
      ExpressionOutcome name words (.ok (f (readOperand w) (readOperand w')))
  | root {w : String} :
    name = "sqrt" → words = [w] → ExpressionOutcome name words (.ok (sqrt (readOperand w)))

/-! ## Cuts -/

namespace IsCut

variable {s name : String} {words : List String}

theorem tokens (h : IsCut s name words) : Tokenizer.spaces s = name :: words := by
  rw [← h.joined]
  exact Tokenizer.spaces_intercalate (List.cons_ne_nil name words) h.spaceless

theorem of_tokens (h : Tokenizer.spaces s = name :: words) : IsCut s name words := by
  refine ⟨?_, ?_⟩
  · rw [← h]
    exact Tokenizer.intercalate_spaces s
  · intro w hw
    rw [← h] at hw
    exact Tokenizer.space_not_mem_spaces hw

theorem unique {name' : String} {words' : List String} (h : IsCut s name words)
    (h' : IsCut s name' words') : name' = name ∧ words' = words := by
  have heq := h'.tokens.symm.trans h.tokens
  exact ⟨(List.cons.inj heq).1, (List.cons.inj heq).2⟩

theorem length_words (h : IsCut s name words) : words.length = s.toList.count ' ' := by
  have hlen := congrArg List.length h.tokens
  rw [Tokenizer.spaces, List.length_map, Text.length_pieces, List.length_cons] at hlen
  omega

theorem toList_name (h : IsCut s name words) :
    name.toList = s.toList.takeWhile (· != ' ') := by
  have hhead := congrArg List.head? h.tokens
  rw [Tokenizer.spaces, List.head?_map, Text.head?_pieces, Option.map_some,
    List.head?_cons] at hhead
  rw [← Option.some.inj hhead, String.toList_ofList]

end IsCut

theorem exists_isCut (s : String) : ∃ name words, IsCut s name words := by
  obtain ⟨name, words, h⟩ := List.exists_cons_of_ne_nil (Tokenizer.spaces_ne_nil s)
  exact ⟨name, words, .of_tokens h⟩

/-! ## Outcomes -/

theorem builtin?_of_mem {name : String} {operation : Operation}
    (h : (name, operation) ∈ builtins) : builtin? name = some operation := by
  simp only [builtins, List.mem_cons, Prod.mk.injEq, List.not_mem_nil, or_false] at h
  rcases h with ⟨rfl, rfl⟩ | ⟨rfl, rfl⟩ | ⟨rfl, rfl⟩ | ⟨rfl, rfl⟩ | ⟨rfl, rfl⟩ | ⟨rfl, rfl⟩ <;> rfl

theorem builtin_ok_iff {name : String} {operation : Operation} :
    (Vocabulary.builtin name).outcome = .ok operation ↔ (name, operation) ∈ builtins := by
  constructor
  · intro h
    cases hfound : builtin? name with
    | none =>
      rw [Vocabulary.builtin_of_none hfound] at h
      cases h
    | some found =>
      rw [Vocabulary.builtin_of_some hfound] at h
      cases h
      exact mem_builtins hfound
  · intro h
    rw [Vocabulary.builtin_of_some (builtin?_of_mem h)]

theorem builtin?_eq_none_iff {name : String} : builtin? name = none ↔ name ∉ builtinNames := by
  rw [builtin?, List.lookup_eq_none_iff]
  constructor
  · intro h hname
    obtain ⟨entry, hentry, rfl⟩ := List.mem_map.mp hname
    simpa using h entry hentry
  · intro h entry hentry
    apply bne_iff_ne.mpr
    rintro rfl
    exact h (List.mem_map_of_mem hentry)

theorem builtin_error_iff {name : String} {e : EvalError} :
    (Vocabulary.builtin name).outcome = .error e ↔
      name ∉ ["+", "-", "*", "/", "^", "sqrt"] ∧ e = .unknownFunction name := by
  constructor
  · intro h
    cases hfound : builtin? name with
    | none =>
      rw [Vocabulary.builtin_of_none hfound] at h
      cases h
      exact ⟨builtin?_eq_none_iff.mp hfound, rfl⟩
    | some found =>
      rw [Vocabulary.builtin_of_some hfound] at h
      cases h
  · rintro ⟨hname, rfl⟩
    rw [Vocabulary.builtin_of_none (builtin?_eq_none_iff.mpr hname)]

theorem binary_mem_builtins {name : String} {f : Binary64 → Binary64 → Binary64} :
    (name, .binary f) ∈ builtins ↔ (name, f) ∈ binaryOperations := by
  simp [builtins, binaryOperations]

theorem unary_mem_builtins {name : String} {f : Binary64 → Binary64} :
    (name, .unary f) ∈ builtins ↔ name = "sqrt" ∧ f = sqrt := by
  simp [builtins]

theorem name_ne_empty {name : String} {operation : Operation} (h : (name, operation) ∈ builtins) :
    name ≠ "" :=
  (builtin_name (builtin?_of_mem h)).1

theorem expressionOutcome_of_evaluates {name : String} {words : List String}
    {o : Except EvalError Binary64} (h : Evaluates .builtin (name :: words) o) :
    ExpressionOutcome name words o := by
  cases h with
  | noName => exact .noName rfl
  | unknown hne herr =>
    obtain ⟨hname, rfl⟩ := builtin_error_iff.mp herr
    exact .unknown hne hname
  | @wrongCount _ _ operation _ hok hcount =>
    cases operation with
    | unary f => exact .rootCount (unary_mem_builtins.mp (builtin_ok_iff.mp hok)).1 hcount
    | binary f => exact .binaryCount (binary_mem_builtins.mp (builtin_ok_iff.mp hok)) hcount
  | unary _ hok =>
    obtain ⟨hname, rfl⟩ := unary_mem_builtins.mp (builtin_ok_iff.mp hok)
    exact .root hname rfl
  | binary _ hok => exact .binary (binary_mem_builtins.mp (builtin_ok_iff.mp hok)) rfl

theorem evaluates_of_expressionOutcome {name : String} {words : List String}
    {o : Except EvalError Binary64} (h : ExpressionOutcome name words o) :
    Evaluates .builtin (name :: words) o := by
  have hsqrt : ("sqrt", Operation.unary sqrt) ∈ builtins := unary_mem_builtins.mpr ⟨rfl, rfl⟩
  cases h with
  | noName hname =>
    subst hname
    exact .noName
  | unknown hne hname => exact .unknown hne (builtin_error_iff.mpr ⟨hname, rfl⟩)
  | binaryCount hf hcount =>
    have hmem := binary_mem_builtins.mpr hf
    exact .wrongCount (name_ne_empty hmem) (builtin_ok_iff.mpr hmem) hcount
  | rootCount hname hcount =>
    subst hname
    exact .wrongCount (name_ne_empty hsqrt) (builtin_ok_iff.mpr hsqrt) hcount
  | binary hf hwords =>
    subst hwords
    have hmem := binary_mem_builtins.mpr hf
    exact .binary (name_ne_empty hmem) (builtin_ok_iff.mpr hmem)
  | root hname hwords =>
    subst hname hwords
    exact .unary (name_ne_empty hsqrt) (builtin_ok_iff.mpr hsqrt)

theorem evaluate_iff {s name : String} {words : List String} (h : IsCut s name words)
    (o : Except EvalError Binary64) : evaluate s = o ↔ ExpressionOutcome name words o := by
  have hrun : evaluate s = o ↔ Evaluates .builtin (name :: words) o := by
    rw [← h.tokens]
    exact Calculator.run_outcome_iff
  rw [hrun]
  exact ⟨expressionOutcome_of_evaluates, evaluates_of_expressionOutcome⟩

theorem ExpressionOutcome.count_ne {name : String} {words : List String} {expected got : Nat}
    (h : ExpressionOutcome name words (.error (.arityMismatch expected got))) :
    expected ≠ got := by
  cases h with
  | binaryCount _ hcount => exact hcount.symm
  | rootCount _ hcount => exact hcount.symm

/-- A text is cut at its spaces in one way only, into the name in front of the first space and as
many words as it has spaces. Its outcome is the one that the rules give to that cut, and no other; a
wrong number of words is never the right one. -/
theorem evaluate_text (s : String) :
    ∃ name words, IsCut s name words ∧
      (∀ name' words', IsCut s name' words' → name' = name ∧ words' = words) ∧
      name.toList = s.toList.takeWhile (· != ' ') ∧ words.length = s.toList.count ' ' ∧
      (∀ o, evaluate s = o ↔ ExpressionOutcome name words o) ∧
      ∀ expected got, evaluate s = .error (.arityMismatch expected got) → expected ≠ got := by
  obtain ⟨name, words, h⟩ := exists_isCut s
  refine ⟨name, words, h, fun _ _ h' => h.unique h', h.toList_name, h.length_words,
    evaluate_iff h, ?_⟩
  intro expected got heval
  exact ((evaluate_iff h _).mp heval).count_ne

end PrefixCalc
