import PrefixCalc.CommandLine.Program
import PrefixCalc.Proofs.CommandLine.Desk

/-!
# PrefixCalc.Proofs.CommandLine.FrontEnds

The command has three front ends: it evaluates an expression, runs a file or holds a dialogue. They
answer alike, but their exit statuses have different meanings.

* `Invocation`: a command line that is not refused, in its surroundings and with a line editor.
* `RunsFile.output_eq`, `RunsFile.status_eq_zero_iff`: a file, by its lines.
* `Converses.output_eq`, `Converses.status_eq`: a dialogue, next to the run of a file.
* `Evaluates.agrees_with_file`: an expression, next to a file with this one line.
* `frontEnds_agree`: all of it together.
-/

namespace PrefixCalc
namespace CommandLine

/-- A command line that asks for one of the front ends, in its surroundings. It can be read by any
rules. -/
structure Invocation where
  editor : LineEditor
  surroundings : Surroundings
  read : ArgumentReader
  args : List String
  options : Options
  read_eq : read args = .ok (.run options)

/-- Without a terminal, and if no dumb one is named either, the editor takes each line as it is. -/
def LineEditor.ReadsPipes (e : LineEditor) : Prop :=
  ∀ s : Surroundings, s.inputTerminal = false → s.namesDumbTerminal = false → e.ReadsLines s

namespace Invocation

def outcome (i : Invocation) : Outcome := runWith i.editor i.read i.surroundings i.args

def session (i : Invocation) : Session := i.options.session i.surroundings

def Evaluates (i : Invocation) (expression : String) : Prop :=
  i.options.expression = some expression

structure RunsFile (i : Invocation) (script : List UInt8) : Prop where
  no_expression : i.options.expression = none
  file : ∃ path, i.options.file = some path ∧ i.surroundings.script path = .contents script

/-- A dialogue with an input that is no terminal. No dumb terminal is named for it. -/
structure Converses (i : Invocation) (input : List UInt8) : Prop where
  no_expression : i.options.expression = none
  no_file : i.options.file = none
  input_eq : i.surroundings.input = input
  not_terminal : i.surroundings.inputTerminal = false
  not_dumb : i.surroundings.namesDumbTerminal = false

theorem outcome_eq (i : Invocation) :
    i.outcome = runOptions i.editor i.options i.surroundings := by
  rw [outcome, runWith, i.read_eq]

section

variable {i : Invocation} {script input : List UInt8}

/-! ## Files -/

theorem RunsFile.exists_path (h : i.RunsFile script) :
    ∃ path, i.surroundings.script path = .contents script ∧
      i.outcome = runFile i.options i.surroundings path := by
  obtain ⟨path, hpath, hcontents⟩ := h.file
  refine ⟨path, hcontents, ?_⟩
  simp only [outcome_eq, runOptions, h.no_expression, hpath]

theorem RunsFile.output_eq (h : i.RunsFile script) :
    i.outcome.output = (i.session.runScript .unlimited script).sink.written := by
  obtain ⟨path, hcontents, houtcome⟩ := h.exists_path
  simp only [houtcome, runFile, hcontents, session]
  split <;> rfl

theorem RunsFile.status_of_error (h : i.RunsFile script) {fault : StreamFault}
    (hresult : (i.session.runScript .unlimited script).result = .error fault) :
    i.outcome.status = 1 := by
  obtain ⟨path, hcontents, houtcome⟩ := h.exists_path
  rw [session] at hresult
  simp only [houtcome, runFile, hcontents, hresult]
  rfl

theorem RunsFile.status_of_ok (h : i.RunsFile script) {report : Report}
    (hresult : (i.session.runScript .unlimited script).result = .ok report) :
    i.outcome.status = if report.failed = 0 then 0 else 1 := by
  obtain ⟨path, hcontents, houtcome⟩ := h.exists_path
  rw [session] at hresult
  simp only [houtcome, runFile, hcontents, hresult, Outcome.finished, beq_iff_eq]
  rfl

theorem RunsFile.status_encode {t : String} (h : i.RunsFile (Text.encode t)) :
    i.outcome.status =
      if ∀ l ∈ Text.lines t, (i.session.respond l).reply.isFailure = false then 0 else 1 := by
  rw [h.status_of_ok (Session.runScript_encode_result t)]
  simp [Report.ofReplies, List.countP_eq_zero]

theorem RunsFile.status_of_decode?_none (h : i.RunsFile script)
    (hscript : Text.decode? script = none) : i.outcome.status = 1 :=
  h.status_of_error (Session.runScript_result_of_none hscript)

theorem RunsFile.status_eq_zero_iff (h : i.RunsFile script) :
    i.outcome.status = 0 ↔ ∃ t, Text.encode t = script ∧
      ∀ l ∈ Text.lines t, (i.session.respond l).reply.isFailure = false := by
  constructor
  · intro hstatus
    cases hscript : Text.decode? script with
    | none =>
      rw [h.status_of_decode?_none hscript] at hstatus
      cases hstatus
    | some t =>
      obtain rfl := Text.encode_of_decode? hscript
      rw [h.status_encode] at hstatus
      refine ⟨t, rfl, ?_⟩
      by_contra hfailure
      rw [if_neg hfailure] at hstatus
      cases hstatus
  · rintro ⟨t, rfl, hlines⟩
    rw [h.status_encode, if_pos hlines]

theorem RunsFile.status_le_one (h : i.RunsFile script) : i.outcome.status ≤ 1 := by
  cases hresult : (i.session.runScript .unlimited script).result with
  | error fault => exact Nat.le_of_eq (h.status_of_error hresult)
  | ok report =>
    rw [h.status_of_ok hresult]
    split <;> decide

/-! ## Dialogues -/

theorem Converses.outcome_eq (h : i.Converses input) :
    i.outcome = runDialogue i.editor i.options i.surroundings := by
  simp only [Invocation.outcome_eq, runOptions, h.no_expression, h.no_file]

section

variable (h : i.Converses input) (heditor : i.editor.ReadsPipes)

include h heditor

theorem Converses.exists_desk :
    ∃ desk : Desk i.editor.State,
      desk.output.toList =
          i.session.greeting ++ (i.session.runScript .unlimited input).sink.written.toList ∧
        i.outcome =
          if (Text.decode? input).isSome then
            .finished true desk.output (i.options.log desk.events.toList)
          else
            .stopped desk.output (i.options.log desk.events.toList)
              (.input (.stream .invalidText)) := by
  obtain ⟨desk, hrun, hwritten⟩ :=
    Desk.converse_spec (heditor _ h.not_terminal h.not_dumb) i.session i.options.promptText input
  refine ⟨desk, ?_, ?_⟩
  · rw [hwritten, Session.runScript_written]
  · rw [session] at hrun
    simp only [h.outcome_eq, runDialogue, h.input_eq, hrun]
    cases (Text.decode? input).isSome <;> rfl

theorem Converses.output_eq :
    i.outcome.output.toList =
      i.session.greeting ++ (i.session.runScript .unlimited input).sink.written.toList := by
  obtain ⟨desk, hwritten, houtcome⟩ := h.exists_desk heditor
  rw [houtcome, ← hwritten]
  split <;> rfl

theorem Converses.status_eq : i.outcome.status = if (Text.decode? input).isSome then 0 else 1 := by
  obtain ⟨desk, -, houtcome⟩ := h.exists_desk heditor
  rw [houtcome]
  split <;> rfl

end

/-! ## Expressions -/

theorem Evaluates.outcome_eq {expression : String} (h : i.Evaluates expression) :
    i.outcome = runExpression i.options i.surroundings expression := by
  rw [Invocation.outcome_eq, runOptions, show i.options.expression = some expression from h]

theorem Evaluates.output_eq {expression : String} (h : i.Evaluates expression) :
    i.outcome.output.toList = (i.session.respond expression).reply.bytes i.session.display := by
  rw [h.outcome_eq]
  rfl

theorem Evaluates.status_eq {expression : String} (h : i.Evaluates expression) :
    i.outcome.status = if (i.session.respond expression).reply.isFailure = false then 0 else 1 := by
  simp only [h.outcome_eq, runExpression, Outcome.finished, Bool.not_eq_true', session]
  rfl

/-- An empty file has no line, and an empty expression is answered with nothing. -/
theorem Evaluates.agrees_with_file {expression : String} (h : i.Evaluates expression)
    (hline : '\n' ∉ expression.toList) {j : Invocation}
    (hj : j.RunsFile (Text.encode expression)) (hsession : i.session = j.session) :
    i.outcome.output = j.outcome.output ∧ i.outcome.status = j.outcome.status := by
  rw [← Array.toList_inj, h.output_eq, h.status_eq, hj.output_eq, hj.status_encode,
    Session.runScript_encode_written, Text.lines_of_not_mem hline, hsession]
  by_cases he : expression = ""
  · subst he
    have hblank : j.session.respond "" = { reply := .blank, consulted := [], events := [] } :=
      Session.respond_blank (by decide)
    rw [if_pos rfl, hblank]
    simp [Reply.bytes, Reply.lines, lineBytes, Reply.isFailure]
  · rw [if_neg he]
    simp only [List.flatMap_singleton, List.forall_mem_singleton]
    exact ⟨trivial, trivial⟩

end

end Invocation

/-! ## Agreement -/

/-- The first clause is about the output of a dialogue, the next two are about what its exit status
and the one of a file mean, and the last one is about expressions. -/
theorem frontEnds_agree :
    (∀ (dialogue file : Invocation) (bytes : List UInt8), dialogue.editor.ReadsPipes →
      dialogue.Converses bytes → file.RunsFile bytes → dialogue.session = file.session →
      dialogue.outcome.output.toList =
        lineBytes [bannerLine dialogue.session.display] ++ file.outcome.output.toList) ∧
    (∀ (dialogue : Invocation) (bytes : List UInt8), dialogue.editor.ReadsPipes →
      dialogue.Converses bytes →
      (dialogue.outcome.status = 0 ↔ ∃ t, Text.encode t = bytes) ∧ dialogue.outcome.status ≤ 1) ∧
    (∀ (file : Invocation) (bytes : List UInt8), file.RunsFile bytes →
      (file.outcome.status = 0 ↔ ∃ t, Text.encode t = bytes ∧
        ∀ l ∈ Text.lines t, (file.session.respond l).reply.isFailure = false) ∧
      file.outcome.status ≤ 1) ∧
    (∀ (single file : Invocation) (expression : String), single.Evaluates expression →
      '\n' ∉ expression.toList → file.RunsFile (Text.encode expression) →
      single.session = file.session →
      single.outcome.output = file.outcome.output ∧
        single.outcome.status = file.outcome.status) := by
  refine ⟨?output, ?dialogue, ?file, ?expression⟩
  case output =>
    intro dialogue file bytes heditor hdialogue hfile hsession
    rw [hdialogue.output_eq heditor, hfile.output_eq, hsession, Session.greeting]
  case dialogue =>
    intro dialogue bytes heditor hdialogue
    rw [hdialogue.status_eq heditor]
    constructor
    · simp only [← Text.decode?_eq_some_iff, ← Option.isSome_iff_exists]
      split <;> simp_all
    · split <;> decide
  case file =>
    intro file bytes hfile
    exact ⟨hfile.status_eq_zero_iff, hfile.status_le_one⟩
  case expression =>
    intro single file expression hsingle hline hfile hsession
    exact hsingle.agrees_with_file hline hfile hsession

/-- Surroundings without a terminal, in which a program names one, and every file is a copy of the
input. -/
def Surroundings.piped (terminal : String) (input : List UInt8) : Surroundings :=
  { environment := fun name => if name = "TERM" then some terminal else none
    script := fun _ => .contents input
    input := input
    inputTerminal := false
    outputTerminal := false }

namespace Invocation

/-- The command with the plain editor and its own arguments. -/
def piped (terminal : String) (input : List UInt8) (args : List String) (o : Options)
    (h : parse args = .ok (.run o)) : Invocation :=
  { editor := .plain
    surroundings := .piped terminal input
    read := parse
    args := args
    options := o
    read_eq := h }

def pipedDialogue (terminal : String) (input : List UInt8) : Invocation :=
  piped terminal input [] .initial rfl

def pipedFile (terminal : String) (script : List UInt8) : Invocation :=
  piped terminal script ["-f", "a"] { Options.initial with file := some "a" } (by decide)

def pipedSum (terminal : String) (input : List UInt8) : Invocation :=
  piped terminal input ["+ 1 2"] { Options.initial with expression := some "+ 1 2" } (by decide)

theorem pipedFile_runsFile (terminal : String) (script : List UInt8) :
    (pipedFile terminal script).RunsFile script :=
  ⟨rfl, "a", rfl, rfl⟩

end Invocation

theorem LineEditor.plain_readsPipes : plain.ReadsPipes := fun _ => plain_readsLines

/-- A failure and then a last line without a line feed, and a line that is followed by a byte which
no text has. -/
theorem frontEnds_agree_on_sum :
    let bytes := Text.encode "? 1\n+ 1 2"
    let broken := Text.encode "+ 1 2\n" ++ [0xFF]
    let banner := "Enter an expression (h for help, ctrl+d to exit)\n"
    ((run (.piped "xterm" bytes) []).output.toList =
        Text.encode (banner ++ "Error: invalid function: ?\n3\n") ∧
      (run (.piped "xterm" bytes) []).status = 0 ∧
      (run (.piped "xterm" bytes) ["-f", "a"]).status ≠ 0) ∧
    ((run (.piped "xterm" broken) []).output.toList = Text.encode (banner ++ "3\n") ∧
      (run (.piped "xterm" broken) []).status ≠ 0) ∧
    (run (.piped "xterm" (Text.encode "+ 1 2")) ["-f", "a"]).output =
      (run (.piped "xterm" bytes) ["+ 1 2"]).output := by
  intro bytes broken banner
  obtain ⟨houtput, hdialogue, hfile, hexpression⟩ := frontEnds_agree
  have hdumb : ("xterm".toLower == "dumb") = false := by decide +kernel
  have hconverses : ∀ input, (Invocation.pipedDialogue "xterm" input).Converses input :=
    fun _ => ⟨rfl, rfl, rfl, rfl, hdumb⟩
  have hruns := Invocation.pipedFile_runsFile "xterm"
  have hwritten : ∀ input, (run (.piped "xterm" input) []).output.toList =
      lineBytes [bannerLine .plain] ++ (run (.piped "xterm" input) ["-f", "a"]).output.toList :=
    fun input => houtput (.pipedDialogue "xterm" input) (.pipedFile "xterm" input) input
      LineEditor.plain_readsPipes (hconverses input) (hruns input) rfl
  refine ⟨⟨?_, ?_, ?_⟩, ⟨?_, ?_⟩, ?_⟩
  · refine (hwritten bytes).trans ?_
    decide +kernel
  · exact (hdialogue _ bytes LineEditor.plain_readsPipes (hconverses bytes)).1.mpr ⟨_, rfl⟩
  · intro hstatus
    obtain ⟨t, ht, hlines⟩ := (hfile _ bytes (hruns bytes)).1.mp hstatus
    have htext : t = "? 1\n+ 1 2" := by
      rw [← Text.decode?_eq_some_iff, Text.decode?_encode] at ht
      exact (Option.some.inj ht).symm
    subst htext
    exact absurd hlines (by decide +kernel)
  · refine (hwritten broken).trans ?_
    decide +kernel
  · intro hstatus
    obtain ⟨t, ht⟩ :=
      (hdialogue _ broken LineEditor.plain_readsPipes (hconverses broken)).1.mp hstatus
    rw [← Text.decode?_eq_some_iff, show Text.decode? broken = none by decide +kernel] at ht
    cases ht
  · exact (hexpression (.pipedSum "xterm" bytes) _ "+ 1 2" rfl (by decide)
      (hruns (Text.encode "+ 1 2")) rfl).1.symm

end CommandLine
end PrefixCalc
