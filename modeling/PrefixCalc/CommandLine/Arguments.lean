import PrefixCalc.CommandLine.Options

/-!
# PrefixCalc.CommandLine.Arguments

Reads the arguments of the command from left to right. The first fault refuses the command line, and
a call for the help or the version that is reached before any fault ends the reading.

An argument is a long option when it starts with two dashes, a cluster of short options when it
starts with one dash and goes on, and otherwise the expression. After a lone `--` only the
expression can follow.
-/

namespace PrefixCalc
namespace CommandLine

/-- What one argument leads to. A setting whose value is the next argument waits for it. -/
inductive Step where
  | next (options : Options)
  | await (setting : Setting) (options : Options)
  | stop (request : Request)

namespace Options

def raise (o : Options) : Flag → Except UsageError Step
  | .noColor =>
    if o.noColor then .error (.repeatedFlag .noColor) else .ok (.next { o with noColor := true })
  | .whitespace =>
    if o.whitespace then .error (.repeatedFlag .whitespace)
    else .ok (.next { o with whitespace := true })
  | .verbose => .ok (.next { o with verbosity := o.verbosity + 1 })
  | .help => .ok (.stop .help)
  | .version => .ok (.stop .version)

def setNext (o : Options) (s : Setting) (value : List Char) : Except UsageError Step :=
  (o.set s (String.ofList value)).map Step.next

/-- A long option, without its dashes. A value may follow an equals sign. -/
def readLong (o : Options) (cs : List Char) : Except UsageError Step :=
  let name := String.ofList (cs.takeWhile (· != '='))
  match OptionName.ofLong? name, cs.dropWhile (· != '=') with
  | none, _ => .error (.unexpectedArgument ("--" ++ name))
  | some (.setting s), [] => .ok (.await s o)
  | some (.setting s), _ :: value => o.setNext s value
  | some (.flag f), [] => o.raise f
  | some (.flag f), _ :: value => .error (.unexpectedValue f (String.ofList value))

/-- A cluster of short options, without its dash. What stands behind a setting is its value, and an
equals sign in front of that is left out. -/
def readShort (o : Options) : List Char → Except UsageError Step
  | [] => .ok (.next o)
  | c :: cs =>
    match OptionName.ofShort? c with
    | none => .error (.unexpectedArgument (String.ofList ['-', c]))
    | some (.setting s) =>
      match cs with
      | [] => .ok (.await s o)
      | '=' :: value => o.setNext s value
      | value => o.setNext s value
    | some (.flag f) =>
      match o.raise f with
      | .ok (.next o) => o.readShort cs
      | other => other

def readArgument (o : Options) (arg : String) : Except UsageError Step :=
  match arg.toList with
  | '-' :: '-' :: cs => o.readLong cs
  | '-' :: c :: cs => o.readShort (c :: cs)
  | _ => (o.setExpression arg).map Step.next

/-- Whether an argument is no value for a setting in front of it. -/
def isOptionLike (arg : String) : Bool :=
  match arg.toList with
  | '-' :: _ :: _ => true
  | _ => false

def readExpressions (o : Options) : List String → Except UsageError Request
  | [] => o.finish
  | arg :: args =>
    match o.setExpression arg with
    | .error e => .error e
    | .ok o => o.readExpressions args

def read (o : Options) : List String → Except UsageError Request
  | [] => o.finish
  | arg :: args =>
    if arg = "--" then o.readExpressions args
    else
      match o.readArgument arg with
      | .error e => .error e
      | .ok (.stop request) => .ok request
      | .ok (.next o) => o.read args
      | .ok (.await s o) =>
        match args with
        | [] => .error (.missingValue s)
        | value :: args =>
          if isOptionLike value then .error (.missingValue s)
          else
            match o.set s value with
            | .error e => .error e
            | .ok o => o.read args

end Options

/-- The request that a list of arguments makes. -/
def parse (args : List String) : Except UsageError Request := Options.initial.read args

end CommandLine
end PrefixCalc
