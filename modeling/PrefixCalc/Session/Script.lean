import PrefixCalc.Session.Basic
import PrefixCalc.Session.Sink

/-!
# PrefixCalc.Session.Script

A script is a byte stream whose lines are answered one after the other. Errors of evaluation are
written and counted; only a line that is not UTF-8 or a full sink ends the run early.

* `Report`           — how many lines were evaluated and how many of them failed.
* `Session.runLines` — the run from a given state over the lines that are left.
* `Session.runScript` — the run of a whole stream.
-/

namespace PrefixCalc

structure Report where
  evaluated : Nat
  failed : Nat
  deriving DecidableEq

namespace Report

def empty : Report := { evaluated := 0, failed := 0 }

def add (r s : Report) : Report :=
  { evaluated := r.evaluated + s.evaluated, failed := r.failed + s.failed }

/-- The report on a single reply. -/
def ofReply (r : Reply) : Report :=
  { evaluated := if r.isEvaluated then 1 else 0, failed := if r.isFailure then 1 else 0 }

end Report

structure ScriptRun where
  result : Except StreamFault Report
  sink : Sink
  events : Array Event

namespace Session

/-- All replies of a line go to the sink in one write. The events of a line precede that write, and
the report is an event only at the end of the stream. -/
def runLines (s : Session) (report : Report) (sink : Sink) (events : Array Event) :
    List (List UInt8) → ScriptRun
  | [] =>
    { result := .ok report
      sink := sink
      events := events.push (.scriptFinished report.evaluated report.failed) }
  | raw :: rest =>
    match s.hear? raw with
    | none => { result := .error .invalidText, sink := sink, events := events }
    | some answer =>
      match sink.write (answer.reply.bytes s.display) with
      | .error full =>
        { result := .error .outputFull, sink := full, events := events ++ answer.events }
      | .ok sink =>
        s.runLines (report.add (.ofReply answer.reply)) sink (events ++ answer.events) rest

def runScript (s : Session) (sink : Sink) (script : List UInt8) : ScriptRun :=
  s.runLines .empty sink #[] (Text.rawLines script)

end Session
end PrefixCalc
