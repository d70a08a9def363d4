import PrefixCalc.Proofs.Expression
import PrefixCalc.Proofs.Result
import PrefixCalc.Proofs.Session.Lookup
import PrefixCalc.Proofs.Session.Script
import PrefixCalc.Proofs.Text.OneLine

/-!
# PrefixCalc.Proofs.Session.Framing

The lines of the replies in the output of a script.

* `Reply.oneLine_of_mem_lines`: a reply has a line feed in its lines only if the name of an unknown
  function has one.
* `respond_lines_oneLine`: no such name comes from a line of input.
* `splitOn_lineBytes`: lines without a line feed come back from their bytes.
* `runScript_framed`: the output of a script, cut at its line feeds, is the lines of its replies.
-/

namespace PrefixCalc

open Text (OneLine)

/-! ## Lines of replies -/

theorem oneLine_writeCount (n : Nat) : OneLine (writeCount n) := by
  intro hfeed
  rw [writeCount, String.toList_ofList] at hfeed
  exact absurd (Nat.isDigit_of_mem_toDigits (by decide) (by decide) hfeed) (by decide)

theorem EvalError.oneLine_message {e : EvalError}
    (h : ∀ name, e = .unknownFunction name → OneLine name) : OneLine e.message := by
  cases e with
  | unknownFunction name =>
    have hlabel : OneLine "invalid function: " := by decide
    exact hlabel.append (h name rfl)
  | arityMismatch expected got =>
    have hexpected : OneLine "Invalid arity for function, expected " := by decide
    have hgot : OneLine ", got " := by decide
    exact ((hexpected.append (oneLine_writeCount expected)).append hgot).append
      (oneLine_writeCount got)

theorem oneLine_valueLine (d : Text.Display) (x : Binary64) : OneLine (valueLine d x) :=
  (isWord_writeResult x).oneLine.paint d .value

theorem oneLine_of_mem_helpLines {d : Text.Display} {line : String} (h : line ∈ helpLines d) :
    OneLine line := by
  have hhint : OneLine "+ 2 2" := by decide
  have hexample : OneLine "\t> " := by decide
  have hindent : OneLine "\t" := by decide
  simp only [helpLines, List.mem_cons, List.not_mem_nil, or_false] at h
  rcases h with rfl | rfl | rfl | rfl
  · decide
  · exact hexample.append (hhint.paint d .hint)
  · exact hindent.append (oneLine_valueLine d four)
  · decide

namespace Reply

theorem oneLine_of_mem_lines {r : Reply} {d : Text.Display} {line : String}
    (hname : ∀ name, r = .failure (.unknownFunction name) → OneLine name)
    (h : line ∈ r.lines d) : OneLine line := by
  cases r with
  | blank => cases h
  | help => exact oneLine_of_mem_helpLines h
  | value x =>
    obtain rfl := List.mem_singleton.mp h
    exact oneLine_valueLine d x
  | failure e =>
    obtain rfl := List.mem_singleton.mp h
    have hlabel : OneLine "Error: " := by decide
    have hmessage : OneLine e.message := by
      apply EvalError.oneLine_message
      rintro name rfl
      exact hname name rfl
    exact hlabel.append (hmessage.paint d .error)

theorem length_lines (d : Text.Display) (r : Reply) :
    (r.lines d).length = if r.isEvaluated then 1 else if r = .help then 4 else 0 := by
  cases r <;> rfl

theorem length_flatMap_lines (d : Text.Display) (rs : List Reply) :
    (rs.flatMap (·.lines d)).length = rs.countP isEvaluated + 4 * rs.count .help := by
  induction rs with
  | nil => rfl
  | cons r rs ih =>
    rw [List.flatMap_cons, List.length_append, ih, length_lines, List.countP_cons, List.count_cons]
    cases r <;> simp [isEvaluated] <;> omega

end Reply

/-! ## Bytes of lines -/

theorem lineBytes_cons (l : String) (ls : List String) :
    lineBytes (l :: ls) = Text.encode l ++ Text.lineFeed :: lineBytes ls := by
  rw [lineBytes, List.flatMap_cons, ← lineBytes, List.append_assoc, List.singleton_append]

theorem getLast?_lineBytes {ls : List String} (h : lineBytes ls ≠ []) :
    (lineBytes ls).getLast? = some Text.lineFeed := by
  rcases List.eq_nil_or_concat ls with rfl | ⟨ls, l, rfl⟩
  · exact absurd rfl h
  · rw [lineBytes, List.concat_eq_append, List.flatMap_append, List.flatMap_singleton,
      ← List.append_assoc, List.getLast?_concat]

section

variable {ls : List String} (h : ∀ l ∈ ls, OneLine l)

include h

theorem count_lineBytes : (lineBytes ls).count Text.lineFeed = ls.length := by
  induction ls with
  | nil => rfl
  | cons l ls ih =>
    rw [List.forall_mem_cons] at h
    rw [lineBytes_cons, List.count_append, List.count_cons_self, ih h.2,
      List.count_eq_zero_of_not_mem h.1.lineFeed_not_mem_encode, Nat.zero_add, List.length_cons]

theorem splitOn_lineBytes :
    (lineBytes ls).splitOn Text.lineFeed = ls.map Text.encode ++ [[]] := by
  induction ls with
  | nil => rfl
  | cons l ls ih =>
    rw [List.forall_mem_cons] at h
    rw [lineBytes_cons, List.splitOn_append_cons_self_of_not_mem h.1.lineFeed_not_mem_encode,
      ih h.2, List.map_cons, List.cons_append]

theorem decode?_splitOn_lineBytes :
    ((lineBytes ls).splitOn Text.lineFeed).map Text.decode? = (ls ++ [""]).map some := by
  have hempty : Text.decode? [] = some "" := Text.decode?_encode ""
  rw [splitOn_lineBytes h, List.map_append, List.map_map, List.map_append, List.map_singleton,
    hempty, List.map_singleton]
  simp only [Function.comp_def, Text.decode?_encode]

end

namespace Session

variable {s : Session}

/-! ## Names in replies -/

theorem unknownFunction_of_respond {line name : String}
    (h : (s.respond line).reply = .failure (.unknownFunction name)) :
    (s.calculator.run (Text.trim line)).outcome = .error (.unknownFunction name) := by
  rcases s.respond_cases line with ⟨-, hline⟩ | ⟨-, hline⟩ | ⟨-, -, hline⟩
  · simp [hline] at h
  · simp [hline] at h
  · rw [hline, answer_reply] at h
    exact Reply.ofOutcome_eq_failure_iff.mp h

section

variable (ht : s.calculator.tokenizer = .spaces ∨ s.calculator.tokenizer = .words)
  (hv : s.calculator.vocabulary = .builtin)

include ht hv

/-- The name of an unknown function is a token of the line as it stands. -/
theorem name_subset {line name : String}
    (h : (s.respond line).reply = .failure (.unknownFunction name)) :
    name.toList ⊆ line.toList := by
  have heval := Calculator.run_outcome_iff.mp (unknownFunction_of_respond h)
  rw [hv] at heval
  have htoken : name ∈ s.calculator.tokenizer (Text.trim line) := by
    generalize s.calculator.tokenizer (Text.trim line) = tokens at heval
    cases heval with
    | unknown _ hfound =>
      obtain ⟨-, hname⟩ := builtin_error_iff.mp hfound
      rw [EvalError.unknownFunction.inj hname]
      exact List.mem_cons_self
  exact List.Subset.trans (Tokenizer.tokens_subset ht htoken) (Text.trim_subset line)

theorem respond_lines_oneLine {l : String} (hl : OneLine l) :
    ∀ line ∈ (s.respond l).reply.lines s.display, OneLine line := by
  intro line hline
  refine Reply.oneLine_of_mem_lines ?_ hline
  intro name hname
  exact hl.of_subset (name_subset ht hv hname)

end

/-! ## Scripts -/

/-- Whatever stands in the names of unknown functions, the line feeds in the output of a script are
the ends of the lines of its replies, in order: one line for each expression and four for each
request for help. Carriage returns in front of them belong to the lines. -/
theorem runScript_framed {s : Session}
    (ht : s.calculator.tokenizer = .spaces ∨ s.calculator.tokenizer = .words)
    (hv : s.calculator.vocabulary = .builtin) (t : String) :
    let run := s.runScript .unlimited (Text.encode t)
    let replies := (Text.lines t).map fun l => (s.respond l).reply
    let rendered := replies.flatMap fun r => r.lines s.display
    let written := run.sink.written.toList
    (∀ line ∈ rendered, '\n' ∉ line.toList) ∧
      (∃ report, run.result = .ok report ∧ report.evaluated = replies.countP Reply.isEvaluated ∧
        written.count Text.lineFeed = report.evaluated + 4 * replies.count .help) ∧
      (written ≠ [] → written.getLast? = some Text.lineFeed) ∧
      (written.splitOn Text.lineFeed).map Text.decode? = (rendered ++ [""]).map some ∧
      ∀ r ∈ replies,
        (r.lines s.display).length = if r.isEvaluated then 1 else if r = .help then 4 else 0 := by
  intro run replies rendered written
  have hwritten : written = lineBytes rendered := by
    rw [← transcript_eq_lineBytes]
    exact (runScript_written (Text.encode t)).trans (congrArg s.transcript (repliesTo_rawLines t))
  have hone : ∀ line ∈ rendered, OneLine line := by
    intro line hline
    obtain ⟨r, hr, hline⟩ := List.mem_flatMap.mp hline
    obtain ⟨l, hl, rfl⟩ := List.mem_map.mp hr
    exact respond_lines_oneLine ht hv (Text.oneLine_of_mem_lines hl) line hline
  rw [hwritten]
  refine ⟨hone, ⟨.ofReplies replies, runScript_encode_result t, rfl, ?count⟩, getLast?_lineBytes,
    decode?_splitOn_lineBytes hone, fun r _ => r.length_lines s.display⟩
  case count => rw [count_lineBytes hone, Reply.length_flatMap_lines, Report.ofReplies]

/-- A name with a carriage return and a code that resets the terminal, then help, a blank line and a
value, on a terminal with colours. -/
theorem runScript_framed_coloured :
    let s : Session := { calculator := standard, display := { color := true, ansi := true } }
    let run := s.runScript .unlimited (Text.encode "a\r\x1b[0m 1\nh\n\n+ 1 2")
    let written := run.sink.written.toList
    s.calculator.tokenizer = .spaces ∧ s.calculator.vocabulary = .builtin ∧
      (∃ report, run.result = .ok report ∧ report.evaluated = 2) ∧
      written.count Text.lineFeed = 6 ∧ written.getLast? = some Text.lineFeed ∧
      (written.splitOn Text.lineFeed).map Text.decode? =
        ["Error: \x1b[1;31minvalid function: a\r\x1b[0m\x1b[1;31m\x1b[0m",
         "Give expressions starting with the operator and then the arguments, for example:",
         "\t> \x1b[2m+ 2 2\x1b[0m", "\t\x1b[32m4\x1b[0m", "Operators: + - * / ^ sqrt",
         "\x1b[32m3\x1b[0m", ""].map some := by
  intro s run written
  obtain ⟨-, ⟨report, hresult, hevaluated, hcount⟩, hlast, hlines, -⟩ :=
    runScript_framed (s := s) (.inl rfl) rfl "a\r\x1b[0m 1\nh\n\n+ 1 2"
  have htwo : report.evaluated = 2 := hevaluated.trans (by decide +kernel)
  refine ⟨rfl, rfl, ⟨report, hresult, htwo⟩, hcount.trans ?_, hlast (by decide +kernel),
    hlines.trans ?_⟩
  · rw [htwo]
    decide +kernel
  · decide +kernel

end Session
end PrefixCalc
