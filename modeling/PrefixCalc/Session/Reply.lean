import PrefixCalc.Error
import PrefixCalc.Operation
import PrefixCalc.Result
import PrefixCalc.Text.Lines
import PrefixCalc.Text.Styled

/-!
# PrefixCalc.Session.Reply

Replies to lines of input, and how they look.

* `Reply`       — nothing for a blank line, the help, a value, or the error that stands for one.
* `Reply.equal` — equality in the sense of arithmetic: not-a-number differs from itself.
* `Reply.lines`, `Reply.bytes` — the lines of a reply on a display, and their bytes in a stream.
-/

namespace PrefixCalc

inductive Reply where
  | blank
  | help
  | value (x : Binary64)
  | failure (error : EvalError)
  deriving DecidableEq

def valueLine (d : Text.Display) (x : Binary64) : String := d.paint .value (writeResult x)

def errorLine (d : Text.Display) (e : EvalError) : String :=
  "Error: " ++ d.paint .error e.message

def bannerLine (d : Text.Display) : String :=
  "Enter an expression (" ++ d.paint .key "h" ++ " for help, " ++ d.paint .key "ctrl+d" ++
    " to exit)"

def four : Binary64 :=
  .finite false { sig := 0x10000000000000, exp := 1024, sig_lt := Magnitude.one.sig_lt }

/-- An example with its value, and the names of the built-in operations. -/
def helpLines (d : Text.Display) : List String :=
  ["Give expressions starting with the operator and then the arguments, for example:",
   "\t> " ++ d.paint .hint "+ 2 2",
   "\t" ++ valueLine d four,
   "Operators: " ++ " ".intercalate builtinNames]

/-- Lines as they are written to a stream, each with its line feed. -/
def lineBytes (lines : List String) : List UInt8 :=
  lines.flatMap fun line => Text.encode line ++ [Text.lineFeed]

namespace Reply

def equal : Reply → Reply → Bool
  | .value x, .value y => x.equal y
  | .value _, _ => false
  | r, s => decide (r = s)

def isFailure : Reply → Bool
  | .failure _ => true
  | _ => false

/-- Whether an expression was evaluated for the reply. -/
def isEvaluated : Reply → Bool
  | .value _ => true
  | .failure _ => true
  | _ => false

def lines (d : Text.Display) : Reply → List String
  | .blank => []
  | .help => helpLines d
  | .value x => [valueLine d x]
  | .failure e => [errorLine d e]

def bytes (d : Text.Display) (r : Reply) : List UInt8 := lineBytes (r.lines d)

end Reply
end PrefixCalc
