import PrefixCalc.Proofs.Session.Script

/-!
# PrefixCalc.Proofs.Session.LimitedOutput

The run of a script whose output has room for a limited number of bytes.

* `Sink.writeAll_eq_write`: writes one after the other are one write of all their bytes, wherever
  the sink gets full.
* `runLines_limited`: from any state, as much is written as there is room for, and a reply without
  room ends the run before any line behind it is read.
* `runScript_limited`: the output is cut off at the limit, and only a run that was cut off has
  another result than the run without a limit.
-/

namespace PrefixCalc

namespace Sink

/-- Writes one after the other, up to the first one that does not fit. -/
def writeAll (s : Sink) : List (List UInt8) → Except Sink Sink
  | [] => .ok s
  | piece :: pieces =>
    match s.write piece with
    | .error full => .error full
    | .ok next => next.writeAll pieces

theorem write_nil (s : Sink) : s.write [] = .ok s := by
  obtain ⟨written, room⟩ := s
  cases room <;> simp [write]

theorem write_append (s : Sink) (xs ys : List UInt8) :
    s.write (xs ++ ys) = (s.write xs).bind (·.write ys) := by
  have hassoc : ∀ zs, s.written ++ (xs ++ zs) = s.written ++ xs ++ zs := by
    intro zs
    apply Array.ext'
    simp
  cases hroom : s.room with
  | none => simp only [write, hroom, Except.bind, hassoc]
  | some n =>
    by_cases hfits : xs.length ≤ n
    · rw [write_fits hroom hfits]
      simp only [write, hroom, Except.bind, List.length_append]
      split
      · rw [if_pos (by omega), hassoc, Nat.sub_sub]
      · rw [if_neg (by omega), List.take_append, List.take_of_length_le hfits, hassoc]
    · have hshort : n < xs.length := by omega
      have hlong : n < (xs ++ ys).length := by
        rw [List.length_append]
        omega
      rw [write_full hroom hshort, write_full hroom hlong,
        List.take_append_of_le_length (Nat.le_of_lt hshort)]
      rfl

theorem writeAll_eq_write (s : Sink) (pieces : List (List UInt8)) :
    s.writeAll pieces = s.write pieces.flatten := by
  induction pieces generalizing s with
  | nil => exact (write_nil s).symm
  | cons piece pieces ih =>
    rw [writeAll, List.flatten_cons, write_append]
    cases s.write piece with
    | error full => rfl
    | ok next => exact ih next

end Sink

/-- What is written for a reply, one line and one line feed after the other. -/
def Reply.pieces (d : Text.Display) (r : Reply) : List (List UInt8) :=
  (r.lines d).flatMap fun line => [Text.encode line, [Text.lineFeed]]

theorem Reply.flatten_pieces (d : Text.Display) (r : Reply) : (r.pieces d).flatten = r.bytes d := by
  rw [pieces, bytes, lineBytes]
  induction r.lines d with
  | nil => rfl
  | cons line lines ih => simp [ih]

namespace Session

variable {s : Session}

/-! ## One line -/

section

variable {report : Report} {sink : Sink} {events : Array Event} {raw : List UInt8} {answer : Answer}
  (hanswer : s.hear? raw = some answer)

include hanswer

theorem runLines_cons_of_ok {next : Sink}
    (hwrite : sink.write (answer.reply.bytes s.display) = .ok next) (raws : List (List UInt8)) :
    s.runLines report sink events (raw :: raws) =
      s.runLines (report.add (.ofReply answer.reply)) next (events ++ answer.events) raws := by
  simp only [runLines, hanswer, hwrite]

theorem runLines_cons_of_error {full : Sink}
    (hwrite : sink.write (answer.reply.bytes s.display) = .error full) (raws : List (List UInt8)) :
    s.runLines report sink events (raw :: raws) =
      { result := .error .outputFull, sink := full, events := events ++ answer.events } := by
  simp only [runLines, hanswer, hwrite]

end

theorem runLines_cons_of_none {raw : List UInt8} (hraw : s.hear? raw = none) (report : Report)
    (sink : Sink) (events : Array Event) (raws : List (List UInt8)) :
    s.runLines report sink events (raw :: raws) =
      { result := .error .invalidText, sink := sink, events := events } := by
  simp only [runLines, hraw]

/-! ## Whole runs -/

/-- By induction on the lines that are left. A line that is not UTF-8 counts only if there was room
for all replies in front of it. -/
theorem runLines_limited {report : Report} {sink : Sink} {events : Array Event} {room : Nat}
    (hroom : sink.room = some room) (raws : List (List UInt8)) :
    let replies := s.repliesTo raws
    (s.runLines report sink events raws).sink.written.toList =
        sink.written.toList ++ (s.transcript replies).take room ∧
      (s.runLines report sink events raws).result =
        if (s.transcript replies).length ≤ room then
          if Text.Decodable raws then .ok (report.add (.ofReplies replies)) else .error .invalidText
        else .error .outputFull := by
  intro replies
  induction raws generalizing report sink events room with
  | nil =>
    have hempty : s.transcript replies = [] := rfl
    rw [if_pos Text.decodable_nil, hempty, List.take_nil, List.append_nil]
    exact ⟨rfl, (if_pos (Nat.zero_le room)).symm⟩
  | cons raw raws ih =>
    cases hraw : Text.decode? raw with
    | none =>
      have hnone := hear?_of_none (s := s) hraw
      rw [runLines_cons_of_none hnone, if_neg (Text.not_decodable_cons_of_none hraw raws)]
      simp [replies, repliesTo_cons_of_none hnone, transcript]
    | some t =>
      have hsome := hear?_of_some (s := s) hraw
      generalize s.respond (Text.withoutEnd t) = answer at hsome
      simp only [replies, repliesTo_cons hsome, transcript_cons, List.take_append,
        List.length_append, Text.decodable_cons_of_some hraw, Report.add_ofReplies_cons]
      by_cases hfits : (answer.reply.bytes s.display).length ≤ room
      · rw [runLines_cons_of_ok hsome (Sink.write_fits hroom hfits)]
        obtain ⟨hwritten, hresult⟩ := @ih (report.add (.ofReply answer.reply))
          { written := sink.written ++ answer.reply.bytes s.display,
            room := some (room - (answer.reply.bytes s.display).length) }
          (events ++ answer.events) _ rfl
        simp only [hwritten, hresult, List.take_of_length_le hfits, Array.toList_appendList,
          List.append_assoc, Nat.le_sub_iff_add_le' hfits]
        exact ⟨trivial, trivial⟩
      · have hfull : room < (answer.reply.bytes s.display).length := by omega
        have hnone : room - (answer.reply.bytes s.display).length = 0 := by omega
        rw [runLines_cons_of_error hsome (Sink.write_full hroom hfull), hnone, if_neg (by omega)]
        simp

/-- As much of the output as there is room for is written. If that is all of it, the result is the
one without a limit, and otherwise the output is full, whatever would have come behind. A reply
reaches the sink alike in one write and piece by piece. -/
theorem runScript_limited (s : Session) (capacity : Nat) (script : List UInt8) :
    let whole := s.runScript .unlimited script
    let cut := s.runScript (.limited capacity) script
    cut.sink.written.toList = whole.sink.written.toList.take capacity ∧
      cut.result =
        (if whole.sink.written.size ≤ capacity then whole.result else .error .outputFull) ∧
      (ShellError.stream .outputFull).message = "I/O error: failed to write whole buffer" ∧
      ∀ (sink : Sink) (r : Reply),
        sink.writeAll (r.pieces s.display) = sink.write (r.bytes s.display) := by
  intro whole cut
  have hcut :=
    @runLines_limited s .empty (.limited capacity) #[] capacity rfl (Text.rawLines script)
  refine ⟨?_, ?_, by decide, ?_⟩
  · rw [runScript_written]
    exact hcut.1
  · rw [← Array.length_toList, runScript_written, runScript_result,
      ← Report.empty_add (.ofReplies _)]
    exact hcut.2
  · intro sink r
    rw [Sink.writeAll_eq_write, Reply.flatten_pieces]

/-- A line that is not UTF-8 stands behind `3` and its line feed. -/
example :
    let s : Session := { calculator := standard, display := .plain }
    let script := Text.encode "+ 1 2\n" ++ [0xFF]
    (s.runScript (.limited 1) script).result = .error .outputFull ∧
      (s.runScript (.limited 2) script).result = .error .invalidText := by
  decide +kernel

end Session
end PrefixCalc
