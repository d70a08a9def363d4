import PrefixCalc.Calculator
import PrefixCalc.Session.Reply

/-!
# PrefixCalc.Session.Basic

A session answers lines of input. White space at both ends of a line does not count; a blank line
and the help command never reach the calculator.

* `Session.respond` — the answer to a line.
* `Session.hear?`   — the answer to a line as it comes out of a stream, with its end.
-/

namespace PrefixCalc

structure Session where
  calculator : Calculator
  display : Text.Display

structure Answer where
  reply : Reply
  consulted : List String
  events : List Event

namespace Session

def helpCommand : String := "h"

/-- The answer to an expression. An error is noted together with the expression. -/
def answer (s : Session) (input : String) : Answer :=
  let evaluation := s.calculator.run input
  match evaluation.outcome with
  | .ok x => { reply := .value x, consulted := evaluation.consulted, events := evaluation.events }
  | .error e =>
    { reply := .failure e
      consulted := evaluation.consulted
      events := evaluation.events ++ [.evaluationFailed input e] }

def respond (s : Session) (line : String) : Answer :=
  let input := Text.trim line
  if input = "" then { reply := .blank, consulted := [], events := [] }
  else if input = helpCommand then { reply := .help, consulted := [], events := [] }
  else s.answer input

def hear? (s : Session) (raw : List UInt8) : Option Answer := (Text.readLine? raw).map s.respond

theorem respond_blank {s : Session} {line : String} (h : Text.trim line = "") :
    s.respond line = { reply := .blank, consulted := [], events := [] } := by
  simp only [respond, if_pos h]

theorem respond_help {s : Session} {line : String} (h : Text.trim line = helpCommand) :
    s.respond line = { reply := .help, consulted := [], events := [] } := by
  simp only [respond, h, ↓reduceIte]
  rfl

theorem respond_answer {s : Session} {line : String} (hb : Text.trim line ≠ "")
    (hh : Text.trim line ≠ helpCommand) : s.respond line = s.answer (Text.trim line) := by
  simp only [respond, if_neg hb, if_neg hh]

end Session
end PrefixCalc
