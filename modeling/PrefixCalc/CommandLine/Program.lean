import PrefixCalc.CommandLine.Arguments
import PrefixCalc.CommandLine.LineEditor
import PrefixCalc.CommandLine.Usage
import PrefixCalc.Session.Script

/-!
# PrefixCalc.CommandLine.Program

The command as a function of its surroundings and its arguments. With an expression it answers that,
with a file it runs the script in it, and otherwise it holds a dialogue.

* `Outcome` — the exit status, standard output, and the lines for standard error.
* `runWith` — the whole command, with any line editor and any way to read arguments. The status
  tells usage errors from failures; in a dialogue a failed evaluation is no failure.
* `run`     — the same with the plain editor and the arguments read by `parse`.
-/

namespace PrefixCalc
namespace CommandLine

structure Outcome where
  status : Nat
  output : Array UInt8
  diagnostics : List String
  deriving DecidableEq

namespace Outcome

def successStatus : Nat := 0

def failureStatus : Nat := 1

def usageStatus : Nat := 2

def printing (text : String) : Outcome :=
  { status := successStatus, output := (lineBytes [text]).toArray, diagnostics := [] }

/-- An evaluation or a run that came to its end, with or without success. -/
def finished (success : Bool) (output : Array UInt8) (log : List String) : Outcome :=
  { status := if success then successStatus else failureStatus
    output := output
    diagnostics := log }

/-- A run that an error ended early. -/
def stopped (output : Array UInt8) (log : List String) (e : ShellError) : Outcome :=
  { status := failureStatus, output := output, diagnostics := log ++ [e.message] }

def refused (e : UsageError) : Outcome :=
  { status := usageStatus, output := #[], diagnostics := [e.message] }

end Outcome

namespace Options

def session (o : Options) (s : Surroundings) : Session :=
  { calculator :=
      { tokenizer := if o.whitespace then .words else .spaces, vocabulary := .builtin }
    display := { color := o.color, ansi := s.takesStyles } }

/-- Warnings are always shown, and each step of verbosity shows one level more. -/
def shows (o : Options) (e : Event) : Bool :=
  decide (e.level.detail ≤ Level.warn.detail + o.verbosity)

def log (o : Options) (events : List Event) : List String :=
  (events.filter o.shows).map fun e => "[" ++ e.level.name ++ "] " ++ e.message

end Options

def runExpression (o : Options) (s : Surroundings) (expression : String) : Outcome :=
  let session := o.session s
  let answer := session.respond expression
  .finished (!answer.reply.isFailure) (answer.reply.bytes session.display).toArray
    (o.log answer.events)

def runFile (o : Options) (s : Surroundings) (path : String) : Outcome :=
  match s.script path with
  | .missing => .stopped #[] [] (.scriptUnreadable path)
  | .unreadable fault => .stopped #[] [] (.stream fault)
  | .contents script =>
    let run := (o.session s).runScript .unlimited script
    let log := o.log run.events.toList
    match run.result with
    | .error fault => .stopped run.sink.written log (.stream fault)
    | .ok report => .finished (report.failed == 0) run.sink.written log

def runDialogue (e : LineEditor) (o : Options) (s : Surroundings) : Outcome :=
  let dialogue := (o.session s).converse (Desk.console e s) o.promptText
  let (result, desk) := dialogue.run.run (Desk.initial e s.input)
  let log := o.log desk.events.toList
  match result with
  | .ok () => .finished true desk.output log
  | .error error => .stopped desk.output log error

def runOptions (e : LineEditor) (o : Options) (s : Surroundings) : Outcome :=
  match o.expression, o.file with
  | some expression, _ => runExpression o s expression
  | none, some path => runFile o s path
  | none, none => runDialogue e o s

abbrev ArgumentReader := List String → Except UsageError Request

def runWith (e : LineEditor) (read : ArgumentReader) (s : Surroundings) (args : List String) :
    Outcome :=
  match read args with
  | .error e => .refused e
  | .ok .help => .printing helpText
  | .ok .version => .printing versionText
  | .ok (.run o) => runOptions e o s

def run (s : Surroundings) (args : List String) : Outcome := runWith .plain parse s args

end CommandLine
end PrefixCalc
