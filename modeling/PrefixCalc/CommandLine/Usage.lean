import PrefixCalc.CommandLine.Options

/-!
# PrefixCalc.CommandLine.Usage

The texts of the command about itself: its help, its version, and the wording of usage errors.
-/

namespace PrefixCalc
namespace CommandLine

def versionText : String := "polcalc 0.1.0"

def usageLine : String := "Usage: polcalc [OPTIONS] [EXPRESSION]"

def helpText : String :=
  "\n".intercalate
    ["An interactive prefix-notation calculator",
     "",
     usageLine,
     "",
     "Arguments:",
     "  [EXPRESSION]  A single expression to evaluate, such as \"+ 2 2\"",
     "",
     "Options:",
     "  -f, --file <FILE>      Evaluates every line of this file instead of starting a session",
     "      --prompt <PROMPT>  Prompt shown before each interactive line [default: \"> \"]",
     "      --no-color         Disables coloured output",
     "      --whitespace       Treats any run of whitespace as a single separator",
     "  -v, --verbose...       Increases log verbosity; repeat for more detail",
     "  -h, --help             Print help",
     "  -V, --version          Print version"]

def Setting.label : Setting → String
  | .file => "--file <FILE>"
  | .prompt => "--prompt <PROMPT>"

def Flag.label : Flag → String
  | .noColor => "--no-color"
  | .whitespace => "--whitespace"
  | .verbose => "--verbose"
  | .help => "--help"
  | .version => "--version"

namespace UsageError

def cause : UsageError → String
  | .unexpectedArgument text => "unexpected argument '" ++ text ++ "' found"
  | .unexpectedValue flag value =>
    "unexpected value '" ++ value ++ "' for '" ++ flag.label ++ "' found; no more were expected"
  | .missingValue setting =>
    "a value is required for '" ++ setting.label ++ "' but none was supplied"
  | .repeatedSetting setting =>
    "the argument '" ++ setting.label ++ "' cannot be used multiple times"
  | .repeatedFlag flag => "the argument '" ++ flag.label ++ "' cannot be used multiple times"
  | .fileAndExpression =>
    "the argument '" ++ Setting.file.label ++ "' cannot be used with '[EXPRESSION]'"

def message (e : UsageError) : String :=
  "\n".intercalate
    ["error: " ++ e.cause, "", usageLine, "", "For more information, try '--help'."]

end UsageError
end CommandLine
end PrefixCalc
