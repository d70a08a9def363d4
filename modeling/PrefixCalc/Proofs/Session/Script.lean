import PrefixCalc.Proofs.Session.Basic
import PrefixCalc.Proofs.Text.Lines
import PrefixCalc.Session.Script

/-!
# PrefixCalc.Proofs.Session.Script

What a run of a script writes and reports, told from its lines.

* `repliesTo`: the replies to the lines in front of the first one that is not UTF-8.
* `runLines_unlimited`: from any state, a run without a limit writes these replies and counts them.
* `runLines_congr`: a run depends on its lines only through their answers.
* `runScript_composes`: scripts compose like their bytes, and on a text nothing but the answers to
  its lines counts.
-/

namespace PrefixCalc

namespace Report

/-- The report on several replies. -/
def ofReplies (rs : List Reply) : Report :=
  { evaluated := rs.countP Reply.isEvaluated, failed := rs.countP Reply.isFailure }

theorem empty_add (r : Report) : empty.add r = r := by
  simp [empty, add]

theorem add_ofReplies_cons (r : Report) (reply : Reply) (rs : List Reply) :
    r.add (ofReplies (reply :: rs)) = (r.add (ofReply reply)).add (ofReplies rs) := by
  simp only [add, ofReplies, ofReply, List.countP_cons, mk.injEq]
  omega

theorem ofReplies_append (rs rs' : List Reply) :
    ofReplies (rs ++ rs') = (ofReplies rs).add (ofReplies rs') := by
  simp only [ofReplies, add, List.countP_append]

theorem ofReplies_perm {rs rs' : List Reply} (h : rs.Perm rs') : ofReplies rs = ofReplies rs' := by
  rw [ofReplies, ofReplies, h.countP_eq, h.countP_eq]

end Report

namespace Session

variable {s : Session}

/-! ## Replies to the lines of a stream -/

def repliesTo (s : Session) : List (List UInt8) → List Reply
  | [] => []
  | raw :: raws =>
    match s.hear? raw with
    | none => []
    | some answer => answer.reply :: s.repliesTo raws

theorem repliesTo_cons {raw : List UInt8} {answer : Answer} (h : s.hear? raw = some answer)
    (raws : List (List UInt8)) :
    s.repliesTo (raw :: raws) = answer.reply :: s.repliesTo raws := by
  simp only [repliesTo, h]

theorem repliesTo_cons_of_none {raw : List UInt8} (h : s.hear? raw = none)
    (raws : List (List UInt8)) : s.repliesTo (raw :: raws) = [] := by
  simp only [repliesTo, h]

theorem repliesTo_append {raws : List (List UInt8)} (h : Text.Decodable raws)
    (raws' : List (List UInt8)) :
    s.repliesTo (raws ++ raws') = s.repliesTo raws ++ s.repliesTo raws' := by
  induction raws with
  | nil => rfl
  | cons raw raws ih =>
    obtain ⟨t, ht⟩ := Option.isSome_iff_exists.mp (h raw List.mem_cons_self)
    rw [List.cons_append, repliesTo_cons (hear?_of_some ht), repliesTo_cons (hear?_of_some ht),
      ih ((Text.decodable_cons_of_some ht raws).mp h), List.cons_append]

/-- Behind a line that is not UTF-8 nothing is answered. -/
theorem repliesTo_append_of_not {raws : List (List UInt8)} (h : ¬ Text.Decodable raws)
    (raws' : List (List UInt8)) : s.repliesTo (raws ++ raws') = s.repliesTo raws := by
  induction raws with
  | nil => exact absurd Text.decodable_nil h
  | cons raw raws ih =>
    rw [List.cons_append]
    cases hraw : Text.decode? raw with
    | none =>
      rw [repliesTo_cons_of_none (hear?_of_none hraw), repliesTo_cons_of_none (hear?_of_none hraw)]
    | some t =>
      rw [Text.decodable_cons_of_some hraw] at h
      rw [repliesTo_cons (hear?_of_some hraw), repliesTo_cons (hear?_of_some hraw), ih h]

theorem repliesTo_of_map_eq {raws : List (List UInt8)} {ls : List String}
    (h : raws.map s.hear? = ls.map (some ∘ s.respond)) :
    s.repliesTo raws = ls.map fun l => (s.respond l).reply := by
  induction raws generalizing ls with
  | nil =>
    obtain rfl := List.map_eq_nil_iff.mp h.symm
    rfl
  | cons raw raws ih =>
    cases ls with
    | nil => cases h
    | cons l ls =>
      rw [List.map_cons, List.map_cons] at h
      obtain ⟨hraw, hraws⟩ := List.cons.inj h
      rw [repliesTo_cons hraw, ih hraws, List.map_cons]

theorem repliesTo_rawLines (t : String) :
    s.repliesTo (Text.rawLines (Text.encode t)) =
      (Text.lines t).map fun l => (s.respond l).reply :=
  repliesTo_of_map_eq (hear?_rawLines t)

/-! ## Runs -/

/-- The bytes of several replies. -/
def transcript (s : Session) (rs : List Reply) : List UInt8 := rs.flatMap (·.bytes s.display)

theorem transcript_cons (r : Reply) (rs : List Reply) :
    s.transcript (r :: rs) = r.bytes s.display ++ s.transcript rs :=
  List.flatMap_cons

theorem transcript_append (rs rs' : List Reply) :
    s.transcript (rs ++ rs') = s.transcript rs ++ s.transcript rs' :=
  List.flatMap_append

theorem transcript_eq_lineBytes (rs : List Reply) :
    s.transcript rs = lineBytes (rs.flatMap (·.lines s.display)) := by
  rw [lineBytes, List.flatMap_assoc]
  rfl

/-- By induction on the lines that are left, for every report and every sink so far. -/
theorem runLines_unlimited {report : Report} {sink : Sink} {events : Array Event}
    (hroom : sink.room = none) (raws : List (List UInt8)) :
    (s.runLines report sink events raws).sink.written.toList =
        sink.written.toList ++ s.transcript (s.repliesTo raws) ∧
      (s.runLines report sink events raws).result =
        if Text.Decodable raws then .ok (report.add (.ofReplies (s.repliesTo raws)))
        else .error .invalidText := by
  induction raws generalizing report sink events with
  | nil => exact ⟨(List.append_nil _).symm, (if_pos Text.decodable_nil).symm⟩
  | cons raw raws ih =>
    cases hraw : Text.decode? raw with
    | none =>
      have hnone := hear?_of_none (s := s) hraw
      rw [if_neg (Text.not_decodable_cons_of_none hraw raws), runLines, hnone,
        repliesTo_cons_of_none hnone]
      exact ⟨(List.append_nil _).symm, rfl⟩
    | some t =>
      have hsome := hear?_of_some (s := s) hraw
      generalize s.respond (Text.withoutEnd t) = answer at hsome
      simp only [runLines, hsome, Sink.write_unlimited hroom, repliesTo_cons hsome,
        Text.decodable_cons_of_some hraw, Report.add_ofReplies_cons, transcript_cons]
      obtain ⟨hwritten, hresult⟩ := @ih (report.add (.ofReply answer.reply))
        { sink with written := sink.written ++ answer.reply.bytes s.display }
        (events ++ answer.events) hroom
      refine ⟨?_, hresult⟩
      rw [hwritten, Array.toList_appendList, List.append_assoc]

theorem runLines_congr {raws raws' : List (List UInt8)}
    (h : raws.map s.hear? = raws'.map s.hear?) (report : Report) (sink : Sink)
    (events : Array Event) :
    s.runLines report sink events raws = s.runLines report sink events raws' := by
  induction raws generalizing raws' report sink events with
  | nil =>
    obtain rfl := List.map_eq_nil_iff.mp h.symm
    rfl
  | cons raw raws ih =>
    cases raws' with
    | nil => cases h
    | cons raw' raws' =>
      rw [List.map_cons, List.map_cons] at h
      obtain ⟨hraw, hraws⟩ := List.cons.inj h
      simp only [runLines, hraw, ih hraws]

theorem runScript_written (script : List UInt8) :
    (s.runScript .unlimited script).sink.written.toList =
      s.transcript (s.repliesTo (Text.rawLines script)) :=
  (runLines_unlimited rfl _).1

theorem runScript_result (script : List UInt8) :
    (s.runScript .unlimited script).result =
      if Text.Decodable (Text.rawLines script) then
        .ok (.ofReplies (s.repliesTo (Text.rawLines script)))
      else .error .invalidText := by
  rw [runScript, (runLines_unlimited rfl _).2, Report.empty_add]

theorem runScript_result_of_none {script : List UInt8} (h : Text.decode? script = none) :
    (s.runScript .unlimited script).result = .error .invalidText := by
  rw [runScript_result, if_neg]
  rw [← Text.isSome_decode?_iff, h]
  exact Bool.false_ne_true

/-! ## Scripts behind one another -/

section

variable {a : List UInt8} (ha : a = [] ∨ a.getLast? = some Text.lineFeed)

include ha

theorem runScript_append_of_error (b : List UInt8) {fault : StreamFault}
    (h : (s.runScript .unlimited a).result = .error fault) :
    (s.runScript .unlimited (a ++ b)).result = .error fault ∧
      (s.runScript .unlimited (a ++ b)).sink.written =
        (s.runScript .unlimited a).sink.written := by
  rw [runScript_result] at h
  split at h
  · cases h
  · rename_i hbad
    have hboth : ¬ Text.Decodable (Text.rawLines a ++ Text.rawLines b) :=
      fun hall => hbad fun raw hraw => hall raw (List.mem_append_left _ hraw)
    simp only [runScript_result, runScript_written, ← Array.toList_inj, Text.rawLines_append ha]
    rw [if_neg hboth, repliesTo_append_of_not hbad]
    exact ⟨h, rfl⟩

theorem runScript_append_of_ok (b : List UInt8) {report : Report}
    (h : (s.runScript .unlimited a).result = .ok report) :
    (s.runScript .unlimited (a ++ b)).result =
        (s.runScript .unlimited b).result.map (report.add ·) ∧
      (s.runScript .unlimited (a ++ b)).sink.written =
        (s.runScript .unlimited a).sink.written ++ (s.runScript .unlimited b).sink.written := by
  rw [runScript_result] at h
  split at h
  · rename_i hgood
    obtain rfl := Except.ok.inj h
    have hboth : Text.Decodable (Text.rawLines a ++ Text.rawLines b) ↔
        Text.Decodable (Text.rawLines b) := by
      rw [Text.Decodable, List.forall_mem_append]
      exact and_iff_right hgood
    simp only [runScript_result, runScript_written, ← Array.toList_inj, Array.toList_append,
      Text.rawLines_append ha, hboth, repliesTo_append hgood, transcript_append,
      Report.ofReplies_append]
    refine ⟨?_, trivial⟩
    split <;> rfl
  · cases h

end

/-! ## Scripts that are texts -/

theorem runScript_encode_written (t : String) :
    (s.runScript .unlimited (Text.encode t)).sink.written.toList =
      (Text.lines t).flatMap fun l => (s.respond l).reply.bytes s.display := by
  rw [runScript_written, repliesTo_rawLines, transcript, List.flatMap_map]

theorem runScript_encode_result (t : String) :
    (s.runScript .unlimited (Text.encode t)).result =
      .ok (.ofReplies ((Text.lines t).map fun l => (s.respond l).reply)) := by
  have hall : Text.Decodable (Text.rawLines (Text.encode t)) := by
    rw [← Text.isSome_decode?_iff, Text.decode?_encode]
    rfl
  rw [runScript_result, if_pos hall, repliesTo_rawLines]

theorem runScript_crlf (sink : Sink) (script : List UInt8) :
    s.runScript sink (Text.crlf script) = s.runScript sink script := by
  rw [runScript, Text.rawLines_crlf]
  apply runLines_congr
  rw [List.map_map]
  exact List.map_congr_left fun raw hraw => hear?_crlf hraw

/-- Behind a line feed two scripts are run one after the other, up to the first fault. A run of a
text is the answers to its lines, in their order, and the report does not even depend on the
order. -/
theorem runScript_composes (s : Session) :
    (∀ a b : List UInt8, (a = [] ∨ a.getLast? = some Text.lineFeed) →
      (∀ fault, (s.runScript .unlimited a).result = .error fault →
        (s.runScript .unlimited (a ++ b)).result = .error fault ∧
          (s.runScript .unlimited (a ++ b)).sink.written =
            (s.runScript .unlimited a).sink.written) ∧
      (∀ report, (s.runScript .unlimited a).result = .ok report →
        (s.runScript .unlimited (a ++ b)).result =
            (s.runScript .unlimited b).result.map (report.add ·) ∧
          (s.runScript .unlimited (a ++ b)).sink.written =
            (s.runScript .unlimited a).sink.written ++
              (s.runScript .unlimited b).sink.written)) ∧
    (∀ t : String,
      (s.runScript .unlimited (Text.encode t)).sink.written.toList =
          (Text.lines t).flatMap (fun l => ((s.respond l).reply.lines s.display).flatMap
            fun line => Text.encode line ++ [Text.lineFeed]) ∧
        (s.runScript .unlimited (Text.encode t)).result =
          .ok { evaluated := (Text.lines t).countP fun l => (s.respond l).reply.isEvaluated
                failed := (Text.lines t).countP fun l => (s.respond l).reply.isFailure }) ∧
    (∀ t t' : String, (Text.lines t).Perm (Text.lines t') →
      (s.runScript .unlimited (Text.encode t)).result =
        (s.runScript .unlimited (Text.encode t')).result) ∧
    (∀ script : List UInt8,
      (s.runScript .unlimited (Text.crlf script)).sink.written =
          (s.runScript .unlimited script).sink.written ∧
        (s.runScript .unlimited (Text.crlf script)).result =
          (s.runScript .unlimited script).result) := by
  refine ⟨?appended, ?text, ?permuted, ?returned⟩
  case appended =>
    intro a b ha
    exact ⟨fun _ => runScript_append_of_error ha b, fun _ => runScript_append_of_ok ha b⟩
  case text =>
    intro t
    constructor
    · exact runScript_encode_written t
    · rw [runScript_encode_result, Report.ofReplies, List.countP_map, List.countP_map]
      rfl
  case permuted =>
    intro t t' hperm
    rw [runScript_encode_result, runScript_encode_result, Report.ofReplies_perm (hperm.map _)]
  case returned =>
    intro script
    rw [runScript_crlf]
    exact ⟨rfl, rfl⟩

/-- Two lines with one failure, then a line that is not UTF-8, then the two lines again. -/
theorem runScript_composes_around_fault :
    let s : Session := { calculator := standard, display := .plain }
    let a := Text.encode "+ 1 2\n? 1\n"
    let b : List UInt8 := [0xFF, 0x0A]
    let replies := Text.encode "3\nError: invalid function: ?\n"
    (s.runScript .unlimited a).result = .ok { evaluated := 2, failed := 1 } ∧
      (s.runScript .unlimited a).sink.written = replies.toArray ∧
      (s.runScript .unlimited b).result = .error .invalidText ∧
      (s.runScript .unlimited (a ++ a)).result = .ok { evaluated := 4, failed := 2 } ∧
      (s.runScript .unlimited (a ++ a)).sink.written = (replies ++ replies).toArray ∧
      (s.runScript .unlimited (a ++ b)).result = .error .invalidText ∧
      (s.runScript .unlimited (a ++ b)).sink.written = replies.toArray ∧
      (s.runScript .unlimited (b ++ a)).result = .error .invalidText ∧
      (s.runScript .unlimited (b ++ a)).sink.written = #[] ∧
      (s.runScript .unlimited (Text.encode "? 1\r\n+ 1 2")).result =
        .ok { evaluated := 2, failed := 1 } := by
  intro s a b replies
  obtain ⟨hcompose, -, hpermute, -⟩ := runScript_composes s
  have ha : (s.runScript .unlimited a).result = .ok { evaluated := 2, failed := 1 } := by
    decide +kernel
  have hawritten : (s.runScript .unlimited a).sink.written = replies.toArray := by decide +kernel
  have hb : (s.runScript .unlimited b).result = .error .invalidText := by decide +kernel
  have hbwritten : (s.runScript .unlimited b).sink.written = #[] := by decide +kernel
  obtain ⟨haa, haawritten⟩ := (hcompose a a (.inr rfl)).2 _ ha
  obtain ⟨hab, habwritten⟩ := (hcompose a b (.inr rfl)).2 _ ha
  obtain ⟨hba, hbawritten⟩ := (hcompose b a (.inr rfl)).1 _ hb
  have hperm := hpermute "? 1\r\n+ 1 2" "+ 1 2\n? 1\n" (by decide +kernel)
  rw [ha] at haa
  rw [hb] at hab
  rw [hawritten, List.append_toArray] at haawritten
  rw [hawritten, hbwritten, Array.append_empty] at habwritten
  exact ⟨ha, hawritten, hb, haa, haawritten, hab, habwritten, hba, hbawritten.trans hbwritten,
    hperm.trans ha⟩

end Session
end PrefixCalc
