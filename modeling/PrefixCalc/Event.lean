import PrefixCalc.Decimal.Layout
import PrefixCalc.Operation
import PrefixCalc.Text.Quoted

/-!
# PrefixCalc.Event

What the calculator notes down while it works. Events are values that accompany an answer; whoever
asked for the answer decides which of them to show.

* `Event.level`   — how much detail an event belongs to.
* `Event.message` — its wording. Texts are quoted, numbers are written with a point or an exponent.
-/

namespace PrefixCalc

inductive Level where
  | error
  | warn
  | info
  | debug
  | trace
  deriving DecidableEq

namespace Level

def name : Level → String
  | .error => "ERROR"
  | .warn => "WARN"
  | .info => "INFO"
  | .debug => "DEBUG"
  | .trace => "TRACE"

/-- Rises with the detail. -/
def detail : Level → Nat
  | .error => 0
  | .warn => 1
  | .info => 2
  | .debug => 3
  | .trace => 4

end Level

/-- Numbers in the log: positional from `1e-4` up to but not including `1e16`, with a point in every
positional number and the sign of zero. -/
def logLayout : Layout where
  positionalFrom := { sig := 0x1A36E2EB1C432D, exp := 1008 }
  positionalBelow := { sig := 0x11C37937E08000, exp := 1075 }
  pointZero := true
  exponentPlus := false
  zeroSign := true
  infinity := "inf"

inductive Event where
  | tokenized (tokens : List String)
  | resolved (name : String) (arity : Arity)
  | noBuiltin (name : String)
  | operandsRead (words : List String) (values : List Binary64)
  | evaluationFailed (input : String) (error : EvalError)
  | scriptFinished (evaluated failed : Nat)
  | sessionStarted
  | lineDiscarded
  | sessionEnded
  deriving DecidableEq

namespace Event

def level : Event → Level
  | .tokenized _ => .debug
  | .resolved _ _ => .debug
  | .noBuiltin _ => .debug
  | .operandsRead _ _ => .trace
  | .evaluationFailed _ _ => .debug
  | .scriptFinished _ _ => .info
  | .sessionStarted => .info
  | .lineDiscarded => .warn
  | .sessionEnded => .info

def quotedList (texts : List String) : String := Text.listed (texts.map Text.quoted)

def message : Event → String
  | .tokenized tokens => "tokens: " ++ quotedList tokens
  | .resolved name arity => "resolved " ++ Text.quoted name ++ " as a " ++ arity.name ++ " function"
  | .noBuiltin name => "no builtin named " ++ Text.quoted name
  | .operandsRead words values =>
    "parsed operands " ++ quotedList words ++ " as " ++ Text.listed (values.map logLayout.write)
  | .evaluationFailed input error =>
    "evaluation of " ++ Text.quoted input ++ " failed: " ++ error.message
  | .scriptFinished evaluated failed =>
    "script finished: " ++ writeCount evaluated ++ " evaluated, " ++ writeCount failed ++ " failed"
  | .sessionStarted => "interactive session started"
  | .lineDiscarded => "line discarded by interrupt"
  | .sessionEnded => "interactive session ended"

end Event
end PrefixCalc
