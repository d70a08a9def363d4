import PrefixCalc.Error

/-!
# PrefixCalc.CommandLine.Surroundings

What the command can read around it: variables, files, standard input, and whether a terminal is
connected. All of it is given beforehand, so that the command is a function.
-/

namespace PrefixCalc
namespace CommandLine

inductive Source where
  | missing
  | unreadable (fault : StreamFault)
  | contents (bytes : List UInt8)
  deriving DecidableEq

structure Surroundings where
  environment : String → Option String
  script : String → Source
  input : List UInt8
  inputTerminal : Bool
  outputTerminal : Bool

namespace Surroundings

/-- What a variable asks for, if it is set: anything but zero asks for colour. -/
def asked? (s : Surroundings) (name : String) : Option Bool := (s.environment name).map (· != "0")

/-- Style codes are for terminals, unless the variables ask for them or against them. -/
def takesStyles (s : Surroundings) : Bool :=
  if s.asked? "CLICOLOR_FORCE" = some true then true
  else if (s.asked? "NO_COLOR").isSome then false
  else (s.asked? "CLICOLOR").getD true && s.outputTerminal

/-- Whether a terminal is named that can do nothing but show text. -/
def namesDumbTerminal (s : Surroundings) : Bool :=
  match s.environment "TERM" with
  | some name => name.toLower == "dumb"
  | none => false

end Surroundings

end CommandLine
end PrefixCalc
