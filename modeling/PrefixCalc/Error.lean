/-!
# PrefixCalc.Error

What can go wrong, and the wording of each case.

* `EvalError`   — an expression that has no value: an unknown operator, or the wrong number of
  operands.
* `StreamFault` — a byte stream that cannot be read or written further.
* `ShellError`  — what ends a script or a dialogue early.
-/

namespace PrefixCalc

/-- A natural number in decimal notation. -/
def writeCount (n : Nat) : String := String.ofList (Nat.toDigits 10 n)

inductive EvalError where
  | unknownFunction (name : String)
  | arityMismatch (expected got : Nat)
  deriving DecidableEq

def EvalError.message : EvalError → String
  | .unknownFunction name => "invalid function: " ++ name
  | .arityMismatch expected got =>
    "Invalid arity for function, expected " ++ writeCount expected ++ ", got " ++ writeCount got

inductive StreamFault where
  | invalidText
  | outputFull
  | isDirectory
  | other (text : String)
  deriving DecidableEq

def StreamFault.message : StreamFault → String
  | .invalidText => "stream did not contain valid UTF-8"
  | .outputFull => "failed to write whole buffer"
  | .isDirectory => "Is a directory (os error 21)"
  | .other text => text

/-- Why no further line can be had from a dialogue partner. -/
inductive InputFault where
  | stream (fault : StreamFault)
  | ended
  | interrupted
  deriving DecidableEq

def InputFault.message : InputFault → String
  | .stream fault => fault.message
  | .ended => "EOF"
  | .interrupted => "Interrupted"

inductive ShellError where
  | stream (fault : StreamFault)
  | input (fault : InputFault)
  | scriptUnreadable (path : String)
  deriving DecidableEq

def ShellError.message : ShellError → String
  | .stream fault => "I/O error: " ++ fault.message
  | .input fault => "Line editor error: " ++ fault.message
  | .scriptUnreadable path =>
    "Failed to read the input file '" ++ path ++ "'. Perhaps this file does not exist?"

end PrefixCalc
