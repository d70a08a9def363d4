/-!
# PrefixCalc.CommandLine.Options

The options of the command and what they add up to.

* `Setting`, `Flag` — options with a value and options without one.
* `Options`         — everything that was given, each at most once except for the verbosity.
* `UsageError`      — why a command line is refused.
-/

namespace PrefixCalc
namespace CommandLine

inductive Setting where
  | file
  | prompt
  deriving DecidableEq

inductive Flag where
  | noColor
  | whitespace
  | verbose
  | help
  | version
  deriving DecidableEq

inductive OptionName where
  | setting (s : Setting)
  | flag (f : Flag)
  deriving DecidableEq

namespace OptionName

def ofLong? : String → Option OptionName
  | "file" => some (.setting .file)
  | "prompt" => some (.setting .prompt)
  | "no-color" => some (.flag .noColor)
  | "whitespace" => some (.flag .whitespace)
  | "verbose" => some (.flag .verbose)
  | "help" => some (.flag .help)
  | "version" => some (.flag .version)
  | _ => none

def ofShort? : Char → Option OptionName
  | 'f' => some (.setting .file)
  | 'v' => some (.flag .verbose)
  | 'h' => some (.flag .help)
  | 'V' => some (.flag .version)
  | _ => none

end OptionName

inductive UsageError where
  | unexpectedArgument (text : String)
  | unexpectedValue (flag : Flag) (value : String)
  | missingValue (setting : Setting)
  | repeatedSetting (setting : Setting)
  | repeatedFlag (flag : Flag)
  | fileAndExpression
  deriving DecidableEq

structure Options where
  file : Option String
  prompt : Option String
  noColor : Bool
  whitespace : Bool
  verbosity : Nat
  expression : Option String
  deriving DecidableEq

inductive Request where
  | help
  | version
  | run (options : Options)
  deriving DecidableEq

namespace Options

def initial : Options :=
  { file := none
    prompt := none
    noColor := false
    whitespace := false
    verbosity := 0
    expression := none }

def defaultPrompt : String := "> "

def promptText (o : Options) : String := o.prompt.getD defaultPrompt

def color (o : Options) : Bool := !o.noColor

/-- Gives a setting its value. A file needs a name, a prompt may be empty. -/
def set (o : Options) : Setting → String → Except UsageError Options
  | .file, value =>
    if value = "" then .error (.missingValue .file)
    else if o.file.isSome then .error (.repeatedSetting .file)
    else .ok { o with file := some value }
  | .prompt, value =>
    if o.prompt.isSome then .error (.repeatedSetting .prompt)
    else .ok { o with prompt := some value }

def setExpression (o : Options) (text : String) : Except UsageError Options :=
  if o.expression.isSome then .error (.unexpectedArgument text)
  else .ok { o with expression := some text }

/-- The request that the options make once no argument is left. -/
def finish (o : Options) : Except UsageError Request :=
  if o.file.isSome && o.expression.isSome then .error .fileAndExpression
  else .ok (.run o)

end Options
end CommandLine
end PrefixCalc
