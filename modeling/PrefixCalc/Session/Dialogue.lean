import PrefixCalc.Session.Basic

/-!
# PrefixCalc.Session.Dialogue

A dialogue greets its partner with a banner and then answers line after line, until there are no
more lines or one cannot be had. An interrupt discards the line that it falls on, and nothing else.

* `Console`          — where a dialogue is held. It can be a terminal or a record of one.
* `Session.replyTo`  — answers a line, and remembers it unless it is blank.
* `Session.turn`     — one round: asks for a line, and goes on or ends.
* `Session.converse` — a whole dialogue, which goes on for as long as the partner likes.
-/

namespace PrefixCalc

/-- What a dialogue needs of the place where it is held. Whoever asks for a line is told why there
is none; everything else that can fail ends the dialogue. -/
structure Console (m : Type → Type) where
  prepare : ExceptT ShellError m Unit
  ask : String → m (Except InputFault String)
  remember : String → ExceptT ShellError m Unit
  write : List UInt8 → ExceptT ShellError m Unit
  note : Event → m Unit

namespace Session

variable {m : Type → Type} [Monad m]

def greeting (s : Session) : List UInt8 := lineBytes [bannerLine s.display]

/-- The events of a line precede its reply, of which each line is written by itself. -/
def replyTo (s : Session) (c : Console m) (line : String) : ExceptT ShellError m Unit := do
  let answer := s.respond line
  answer.events.forM fun event => c.note event
  if answer.reply ≠ .blank then c.remember (Text.trim line)
  (answer.reply.lines s.display).forM fun l => c.write (lineBytes [l])

/-- The left side goes on, the right side ends the dialogue. -/
def turn (s : Session) (c : Console m) (prompt : String) : ExceptT ShellError m (Unit ⊕ Unit) := do
  match ← c.ask prompt with
  | .ok line =>
    s.replyTo c line
    return .inl ()
  | .error .interrupted =>
    c.note .lineDiscarded
    return .inl ()
  | .error .ended => return .inr ()
  | .error fault => throw (.input fault)

def converse (s : Session) (c : Console m) (prompt : String) : ExceptT ShellError m Unit := do
  c.prepare
  c.write s.greeting
  c.note .sessionStarted
  repeatM (fun () => s.turn c prompt) ()
  c.note .sessionEnded

end Session
end PrefixCalc
