import PrefixCalc.CommandLine.Surroundings
import PrefixCalc.Session.Dialogue

/-!
# PrefixCalc.CommandLine.LineEditor

Lines of a dialogue come from a line editor. Which one that is stays open: the command works with
any editor that reads lines from a stream of bytes, whatever it shows meanwhile and whatever it
keeps for itself.

* `LineEditor`       — an editor as a function of what it reads.
* `LineEditor.plain` — the least of them, which takes lines as they are.
* `Desk`             — a console on record: its editor, the input that is left, and what has been
  written and noted.
-/

namespace PrefixCalc
namespace CommandLine

/-- What comes of one request for a line, with what is shown to the partner meanwhile. -/
structure Reading (σ : Type) where
  shown : List UInt8
  outcome : Except InputFault String
  state : σ
  rest : List UInt8

/-- An editor has a state of its own. It is given the surroundings, the prompt and the input that is
left. -/
structure LineEditor where
  State : Type
  closed : State
  opened : Surroundings → Except InputFault State
  read : Surroundings → String → State → List UInt8 → Reading State
  remember : String → State → Except InputFault State

namespace LineEditor

/-- The text of a line as it stands in the input. Only the end of the input has no byte. -/
def lineOf (raw : List UInt8) : Except InputFault String :=
  if raw = [] then .error .ended
  else
    match Text.readLine? raw with
    | some line => .ok line
    | none => .error (.stream .invalidText)

/-- A prompt is for somebody at a terminal, or for a terminal that can only show text. -/
def plainPrompt (s : Surroundings) (prompt : String) : List UInt8 :=
  if s.inputTerminal || s.namesDumbTerminal then Text.encode prompt else []

/-- Takes lines as they are. -/
def plain : LineEditor where
  State := Unit
  closed := ()
  opened := fun _ => .ok ()
  read := fun s prompt _ input =>
    let (raw, rest) := Text.cutLine input
    { shown := plainPrompt s prompt
      outcome := lineOf raw
      state := ()
      rest := rest }
  remember := fun _ _ => .ok ()

end LineEditor

structure Desk (σ : Type) where
  editor : σ
  input : List UInt8
  output : Array UInt8
  events : Array Event

namespace Desk

def initial (e : LineEditor) (input : List UInt8) : Desk e.State :=
  { editor := e.closed, input := input, output := #[], events := #[] }

/-- Whatever the editor cannot do ends the dialogue. -/
def update {σ : Type} : Except InputFault σ → ExceptT ShellError (StateM (Desk σ)) Unit
  | .ok state => modify fun d => { d with editor := state }
  | .error fault => throw (.input fault)

def console (e : LineEditor) (s : Surroundings) : Console (StateM (Desk e.State)) where
  prepare := update (e.opened s)
  ask := fun prompt => do
    let d ← get
    let reading := e.read s prompt d.editor d.input
    set { d with
      editor := reading.state
      input := reading.rest
      output := d.output ++ reading.shown }
    return reading.outcome
  remember := fun line => do update (e.remember line (← get).editor)
  write := fun bytes => modify fun d => { d with output := d.output ++ bytes }
  note := fun event => modify fun d => { d with events := d.events.push event }

end Desk

end CommandLine
end PrefixCalc
