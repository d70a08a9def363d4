import PrefixCalc.CommandLine.Program

/-!
# PrefixCalc.Main

The command itself. It looks up what the pure program asks for and writes what that answers. A
dialogue is held on the console it was started from, so that each reply comes before the next line
is read.
-/

namespace PrefixCalc
namespace CommandLine

def emit (bytes : Array UInt8) : IO Unit := do
  let out ← IO.getStdout
  out.write (ByteArray.mk bytes)
  out.flush

def complain (lines : List String) : IO Unit := lines.forM fun line => IO.eprintln line

def readSource (path : String) : IO Source := do
  match ← (IO.FS.Handle.mk path .read).toBaseIO with
  | .error _ => return .missing
  | .ok handle =>
    match ← handle.readBinToEnd.toBaseIO with
    | .ok bytes => return .contents bytes.toList
    | .error (.inappropriateType ..) => return .unreadable .isDirectory
    | .error e => return .unreadable (.other (toString e))

/-- The rest of a line of standard input, with its line feed. -/
partial def readRaw (line : Array UInt8) : IO (List UInt8) := do
  match (← (← IO.getStdin).read 1).toList with
  | [] => return line.toList
  | b :: _ => if b = Text.lineFeed then return (line.push b).toList else readRaw (line.push b)

def settle (outcome : Outcome) : IO UInt32 := do
  emit outcome.output
  complain outcome.diagnostics
  return UInt32.ofNat outcome.status

/-- The console that the command was started from. It takes lines as the plain editor does, and an
output that fails ends the command at once. -/
def startedFrom (s : Surroundings) (o : Options) : Console IO where
  prepare := pure ()
  ask := fun prompt => do
    emit (LineEditor.plainPrompt s prompt).toArray
    return LineEditor.lineOf (← readRaw #[])
  remember := fun _ => pure ()
  write := fun bytes => emit bytes.toArray
  note := fun event => complain (o.log [event])

def holdDialogue (o : Options) (s : Surroundings) : IO UInt32 := do
  match ← ((o.session s).converse (startedFrom s o) o.promptText).run with
  | .ok () => settle (.finished true #[] [])
  | .error error => settle (.stopped #[] [] error)

/-- The variables that the program may ask for. -/
def askedVariables : List String := ["CLICOLOR_FORCE", "NO_COLOR", "CLICOLOR", "TERM"]

def perform (args : List String) : IO UInt32 := do
  let values ← askedVariables.mapM fun name => do return (name, ← IO.getEnv name)
  let surroundings : Surroundings :=
    { environment := fun name => (values.lookup name).join
      script := fun _ => .missing
      input := []
      inputTerminal := ← (← IO.getStdin).isTty
      outputTerminal := ← (← IO.getStdout).isTty }
  match parse args with
  | .ok (.run o) =>
    match o.expression, o.file with
    | none, none => holdDialogue o surroundings
    | _, path =>
      let source ← path.elim (pure .missing) readSource
      settle (run { surroundings with script := fun _ => source } args)
  | _ => settle (run surroundings args)

end CommandLine
end PrefixCalc

def main (args : List String) : IO UInt32 := PrefixCalc.CommandLine.perform args
