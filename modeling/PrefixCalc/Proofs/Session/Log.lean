import PrefixCalc.Proofs.Session.LimitedOutput
import PrefixCalc.Proofs.Session.Lookup

/-!
# PrefixCalc.Proofs.Session.Log

The events of a script, told from its lines.

* `Logs`: the reply to a line together with the events that go with it. The rules look operations up
  in the built-in table.
* `logs_respond`: a session with the built-in vocabulary answers and notes down exactly that.
* `runLines_events`: from any state, a run that succeeds notes down the events of its lines in order
  and then its report.
* `runScript_logs`: so the counters of the report can be read off the log, and only a run that
  succeeds says that it has finished.
-/

namespace PrefixCalc

namespace Event

def isTokenized : Event → Bool
  | .tokenized _ => true
  | _ => false

def isOperandsRead : Event → Bool
  | .operandsRead _ _ => true
  | _ => false

def isEvaluationFailed : Event → Bool
  | .evaluationFailed _ _ => true
  | _ => false

end Event

/-- What is replied to a line and what is noted down about it. -/
inductive Logs (tokenizer : Tokenizer) (line : String) : Reply → List Event → Prop where
  | blank : Text.trim line = "" → Logs tokenizer line .blank []
  | help : Text.trim line = "h" → Logs tokenizer line .help []
  | value {name : String} {words : List String} {operation : Operation} :
      tokenizer (Text.trim line) = name :: words → builtin? name = some operation →
      words.length = operation.arity.count →
      Logs tokenizer line (.value (operation.apply (words.map readOperand)))
        [.tokenized (name :: words), .resolved name operation.arity,
          .operandsRead words (words.map readOperand)]
  | unknown {name : String} {words : List String} :
      tokenizer (Text.trim line) = name :: words → builtin? name = none →
      Logs tokenizer line (.failure (.unknownFunction name))
        [.tokenized (name :: words), .noBuiltin name,
          .evaluationFailed (Text.trim line) (.unknownFunction name)]
  | wrongCount {name : String} {words : List String} {operation : Operation} :
      tokenizer (Text.trim line) = name :: words → builtin? name = some operation →
      words.length ≠ operation.arity.count →
      Logs tokenizer line (.failure (.arityMismatch operation.arity.count words.length))
        [.tokenized (name :: words), .resolved name operation.arity,
          .evaluationFailed (Text.trim line)
            (.arityMismatch operation.arity.count words.length)]

namespace Logs

variable {tokenizer : Tokenizer} {line : String} {reply : Reply} {events : List Event}

theorem countP_isTokenized (h : Logs tokenizer line reply events) :
    events.countP Event.isTokenized = if reply.isEvaluated then 1 else 0 := by
  cases h <;> rfl

theorem countP_isEvaluationFailed (h : Logs tokenizer line reply events) :
    events.countP Event.isEvaluationFailed = if reply.isFailure then 1 else 0 := by
  cases h <;> rfl

theorem countP_isOperandsRead (h : Logs tokenizer line reply events) :
    events.countP Event.isTokenized =
      events.countP Event.isEvaluationFailed + events.countP Event.isOperandsRead := by
  cases h <;> rfl

theorem level (h : Logs tokenizer line reply events) :
    ∀ e ∈ events, e.level = if e.isOperandsRead then .trace else .debug := by
  cases h <;> simp [Event.level, Event.isOperandsRead]

end Logs

/-- Groups of events with one event of a kind for each reply of a kind. -/
theorem countP_flatMap_of_groups {ls : List String} {f : String → List Event} {p : Event → Bool}
    {q : String → Bool} (h : ∀ l, (f l).countP p = if q l then 1 else 0) :
    (ls.flatMap f).countP p = ls.countP q := by
  induction ls with
  | nil => rfl
  | cons l ls ih =>
    rw [List.flatMap_cons, List.countP_append, ih, h, List.countP_cons, Nat.add_comm]

/-- The whole log of a run: the groups of its lines and its report. -/
def Report.log (report : Report) (groups : List Event) : List Event :=
  groups ++ [.scriptFinished report.evaluated report.failed]

section Groups

variable {tokenizer : Tokenizer} {reply : String → Reply} {events : String → List Event}
  (h : ∀ l, Logs tokenizer l (reply l) (events l)) (ls : List String) (report : Report)

include h

theorem countP_isTokenized_log :
    (report.log (ls.flatMap events)).countP Event.isTokenized =
      (Report.ofReplies (ls.map reply)).evaluated := by
  have hmap : (Report.ofReplies (ls.map reply)).evaluated = ls.countP (Reply.isEvaluated ∘ reply) :=
    List.countP_map
  rw [hmap, Report.log, List.countP_append,
    countP_flatMap_of_groups fun l => (h l).countP_isTokenized]
  rfl

theorem countP_isEvaluationFailed_log :
    (report.log (ls.flatMap events)).countP Event.isEvaluationFailed =
      (Report.ofReplies (ls.map reply)).failed := by
  have hmap : (Report.ofReplies (ls.map reply)).failed = ls.countP (Reply.isFailure ∘ reply) :=
    List.countP_map
  rw [hmap, Report.log, List.countP_append,
    countP_flatMap_of_groups fun l => (h l).countP_isEvaluationFailed]
  rfl

/-- What was evaluated and did not fail has a value. -/
theorem countP_isOperandsRead_log :
    (report.log (ls.flatMap events)).countP Event.isTokenized =
      (report.log (ls.flatMap events)).countP Event.isEvaluationFailed +
        (report.log (ls.flatMap events)).countP Event.isOperandsRead := by
  simp only [Report.log, List.countP_append]
  induction ls with
  | nil => rfl
  | cons l ls ih =>
    simp only [List.flatMap_cons, List.countP_append]
    have hgroup := (h l).countP_isOperandsRead
    omega

theorem filter_info_log :
    (report.log (ls.flatMap events)).filter (fun e => e.level = .info) =
      [.scriptFinished report.evaluated report.failed] := by
  have hnone : (ls.flatMap events).filter (fun e => e.level = .info) = [] := by
    rw [List.filter_eq_nil_iff]
    intro e he
    obtain ⟨l, -, hl⟩ := List.mem_flatMap.mp he
    rw [(h l).level e hl]
    split <;> simp
  rw [Report.log, List.filter_append, hnone]
  rfl

end Groups

namespace Session

variable {s : Session}

/-! ## One line -/

section

variable {name input : String} {words : List String}
  (hv : s.calculator.vocabulary = .builtin) (htokens : s.calculator.tokenizer input = name :: words)
  (hname : name ≠ "")

include hv htokens hname

theorem answer_of_unknown (hb : builtin? name = none) :
    s.answer input =
      { reply := .failure (.unknownFunction name)
        consulted := [name]
        events := [.tokenized (name :: words), .noBuiltin name,
          .evaluationFailed input (.unknownFunction name)] } := by
  have hfound : s.calculator.vocabulary name =
      { outcome := .error (.unknownFunction name), events := [.noBuiltin name] } := by
    rw [hv, Vocabulary.builtin_of_none hb]
  simp only [answer, Calculator.run_eq, htokens, Calculator.runTokens_of_ne hname,
    Calculator.runNamed_error (congrArg Lookup.outcome hfound), hfound, List.cons_append,
    List.nil_append]

theorem answer_of_operation {operation : Operation} (hb : builtin? name = some operation) :
    s.answer input =
      if words.length = operation.arity.count then
        { reply := .value (operation.apply (words.map readOperand))
          consulted := [name]
          events := [.tokenized (name :: words), .resolved name operation.arity,
            .operandsRead words (words.map readOperand)] }
      else
        { reply := .failure (.arityMismatch operation.arity.count words.length)
          consulted := [name]
          events := [.tokenized (name :: words), .resolved name operation.arity,
            .evaluationFailed input (.arityMismatch operation.arity.count words.length)] } := by
  have hfound : s.calculator.vocabulary name = { outcome := .ok operation, events := [] } := by
    rw [hv, Vocabulary.builtin_of_some hb]
  have hrun := Calculator.runNamed_ok (congrArg Lookup.outcome hfound) words
  split
  · rename_i hlen
    simp only [answer, Calculator.run_eq, htokens, Calculator.runTokens_of_ne hname, hrun, hfound,
      Calculator.applyTo_ok hlen, List.nil_append]
  · rename_i hlen
    simp only [answer, Calculator.run_eq, htokens, Calculator.runTokens_of_ne hname, hrun, hfound,
      Calculator.applyTo_err hlen, List.nil_append, List.cons_append]

end

theorem logs_respond (hv : s.calculator.vocabulary = .builtin)
    (ht : s.calculator.tokenizer = .spaces ∨ s.calculator.tokenizer = .words) (line : String) :
    Logs s.calculator.tokenizer line (s.respond line).reply (s.respond line).events := by
  rcases s.respond_cases line with ⟨htrim, h⟩ | ⟨htrim, h⟩ | ⟨hne, -, h⟩
  · rw [h]
    exact .blank htrim
  · rw [h]
    exact .help htrim
  · obtain ⟨name, words, htokens, hname⟩ :=
      Tokenizer.exists_name (Text.isTrimmed_trim line) hne ht
    rw [h]
    cases hb : builtin? name with
    | none =>
      rw [answer_of_unknown hv htokens hname hb]
      exact .unknown htokens hb
    | some operation =>
      rw [answer_of_operation hv htokens hname hb]
      split
      · rename_i hlen
        exact .value htokens hb hlen
      · rename_i hlen
        exact .wrongCount htokens hb hlen

/-! ## Whole runs -/

/-- By induction on the lines that are left: every line of a run that succeeds has an answer. -/
theorem runLines_events {report final : Report} {sink : Sink} {events : Array Event}
    {raws : List (List UInt8)} (h : (s.runLines report sink events raws).result = .ok final) :
    ∃ answers : List Answer, raws.map s.hear? = answers.map some ∧
      final = report.add (.ofReplies (answers.map (·.reply))) ∧
      (s.runLines report sink events raws).events.toList =
        events.toList ++ answers.flatMap (·.events) ++
          [.scriptFinished final.evaluated final.failed] := by
  induction raws generalizing report sink events with
  | nil =>
    obtain rfl : report = final := Except.ok.inj h
    exact ⟨[], rfl, rfl, by simp [runLines]⟩
  | cons raw raws ih =>
    cases hraw : s.hear? raw with
    | none =>
      rw [runLines_cons_of_none hraw] at h
      cases h
    | some answer =>
      cases hwrite : sink.write (answer.reply.bytes s.display) with
      | error full =>
        rw [runLines_cons_of_error hraw hwrite] at h
        cases h
      | ok next =>
        rw [runLines_cons_of_ok hraw hwrite] at h ⊢
        obtain ⟨answers, hanswers, hfinal, hevents⟩ := ih h
        refine ⟨answer :: answers, ?_, ?_, ?_⟩
        · rw [List.map_cons, List.map_cons, hraw, hanswers]
        · rw [List.map_cons, Report.add_ofReplies_cons, hfinal]
        · rw [hevents, Array.toList_appendList, List.flatMap_cons, List.append_assoc events.toList]

/-- Only the report of a run that succeeds is an event of none of its lines. -/
theorem mem_runLines_events {report : Report} {sink : Sink} {events : Array Event}
    {raws : List (List UInt8)} {fault : StreamFault}
    (h : (s.runLines report sink events raws).result = .error fault) {e : Event}
    (he : e ∈ (s.runLines report sink events raws).events) :
    e ∈ events ∨ ∃ raw answer, s.hear? raw = some answer ∧ e ∈ answer.events := by
  induction raws generalizing report sink events with
  | nil => cases h
  | cons raw raws ih =>
    cases hraw : s.hear? raw with
    | none =>
      rw [runLines_cons_of_none hraw] at he
      exact .inl he
    | some answer =>
      have hsplit : e ∈ events ++ answer.events →
          e ∈ events ∨ ∃ raw answer, s.hear? raw = some answer ∧ e ∈ answer.events := by
        intro he
        rw [← Array.mem_toList_iff, Array.toList_appendList, List.mem_append,
          Array.mem_toList_iff] at he
        exact he.imp_right fun h => ⟨raw, answer, hraw, h⟩
      cases hwrite : sink.write (answer.reply.bytes s.display) with
      | error full =>
        rw [runLines_cons_of_error hraw hwrite] at he
        exact hsplit he
      | ok next =>
        rw [runLines_cons_of_ok hraw hwrite] at h he
        rcases ih h he with he | he
        · exact hsplit he
        · exact .inr he

theorem decodable_of_map_hear? {raws : List (List UInt8)} {answers : List Answer}
    (h : raws.map s.hear? = answers.map some) : Text.Decodable raws := by
  intro raw hraw
  have hmem : s.hear? raw ∈ answers.map some := by
    rw [← h]
    exact List.mem_map_of_mem hraw
  obtain ⟨answer, -, hanswer⟩ := List.mem_map.mp hmem
  cases hdecode : Text.decode? raw with
  | none =>
    rw [hear?_of_none hdecode] at hanswer
    cases hanswer
  | some t => rfl

theorem runScript_events_of_ok {sink : Sink} {script : List UInt8} {report : Report}
    (h : (s.runScript sink script).result = .ok report) :
    ∃ t : String, script = Text.encode t ∧
      report = .ofReplies ((Text.lines t).map fun l => (s.respond l).reply) ∧
      (s.runScript sink script).events.toList =
        report.log ((Text.lines t).flatMap fun l => (s.respond l).events) := by
  obtain ⟨answers, hanswers, hreport, hevents⟩ := runLines_events h
  obtain ⟨t, ht⟩ := Text.exists_encode_flatten (decodable_of_map_hear? hanswers)
  rw [Text.flatten_rawLines] at ht
  subst ht
  rw [hear?_rawLines, ← List.map_map] at hanswers
  obtain rfl := (List.map_inj_right fun _ _ => Option.some.inj).mp hanswers
  refine ⟨t, rfl, ?_, ?_⟩
  · rw [hreport, Report.empty_add, List.map_map]
    rfl
  · rw [runScript, hevents, List.flatMap_map]
    rfl

theorem level_ne_info_of_error (hv : s.calculator.vocabulary = .builtin)
    (ht : s.calculator.tokenizer = .spaces ∨ s.calculator.tokenizer = .words) {sink : Sink}
    {script : List UInt8} {fault : StreamFault}
    (h : (s.runScript sink script).result = .error fault) {e : Event}
    (he : e ∈ (s.runScript sink script).events) : e.level ≠ .info := by
  rcases mem_runLines_events h he with he | ⟨raw, answer, hanswer, he⟩
  · simp at he
  · obtain ⟨line, -, rfl⟩ := Option.map_eq_some_iff.mp hanswer
    rw [(logs_respond hv ht line).level e he]
    split <;> simp

/-- A run that succeeds notes down a group of events for each line, in order, and then its report;
the groups show how many lines were evaluated, how many of them failed and how many have a value. No
other run says that it has finished. -/
theorem runScript_logs {s : Session} (hv : s.calculator.vocabulary = .builtin)
    (ht : s.calculator.tokenizer = .spaces ∨ s.calculator.tokenizer = .words) (sink : Sink)
    (script : List UInt8) :
    let run := s.runScript sink script
    (∀ line, Logs s.calculator.tokenizer line (s.respond line).reply (s.respond line).events ∧
      ∀ e ∈ (s.respond line).events, e.level = if e.isOperandsRead then .trace else .debug) ∧
    (∀ report, run.result = .ok report →
      (∃ t : String, script = Text.encode t ∧
        run.events.toList = (Text.lines t).flatMap (fun l => (s.respond l).events) ++
          [.scriptFinished report.evaluated report.failed]) ∧
      run.events.toList.filter (fun e => e.level = .info) =
        [.scriptFinished report.evaluated report.failed] ∧
      report.evaluated = run.events.toList.countP Event.isTokenized ∧
      report.failed = run.events.toList.countP Event.isEvaluationFailed ∧
      report.evaluated = report.failed + run.events.toList.countP Event.isOperandsRead) ∧
    ∀ fault, run.result = .error fault → ∀ e ∈ run.events, e.level ≠ .info := by
  have hlogs := logs_respond hv ht
  refine ⟨fun line => ⟨hlogs line, (hlogs line).level⟩, ?finished, ?failed⟩
  case finished =>
    intro report hreport
    obtain ⟨t, hscript, rfl, hevents⟩ := runScript_events_of_ok hreport
    rw [hevents]
    refine ⟨⟨t, hscript, rfl⟩, filter_info_log hlogs _ _, ?_, ?_, ?_⟩
    · exact (countP_isTokenized_log hlogs _ _).symm
    · exact (countP_isEvaluationFailed_log hlogs _ _).symm
    · rw [← countP_isTokenized_log hlogs, ← countP_isEvaluationFailed_log hlogs]
      exact countP_isOperandsRead_log hlogs _ _
  case failed =>
    intro fault hfault e he
    exact level_ne_info_of_error hv ht hfault he

/-- One line of each kind, and then a line that is not UTF-8. -/
theorem runScript_logs_every_kind :
    let s : Session := { calculator := standard, display := .plain }
    let script := Text.encode "h\n+ 1 2\n\n? 1\nsqrt\n"
    let run := s.runScript .unlimited script
    let cut := s.runScript .unlimited (script ++ [0xFF])
    s.calculator.vocabulary = .builtin ∧ s.calculator.tokenizer = .spaces ∧
      run.result = .ok { evaluated := 3, failed := 2 } ∧
      run.events.toList.filter (fun e => e.level = .info) = [.scriptFinished 3 2] ∧
      3 = run.events.toList.countP Event.isTokenized ∧
      2 = run.events.toList.countP Event.isEvaluationFailed ∧
      3 = 2 + run.events.toList.countP Event.isOperandsRead ∧
      cut.result = .error .invalidText ∧ ∀ e ∈ cut.events, e.level ≠ .info := by
  intro s script run cut
  have hreport : run.result = .ok { evaluated := 3, failed := 2 } := by decide +kernel
  have hfault : cut.result = .error .invalidText := by decide +kernel
  obtain ⟨-, hfinished, -⟩ := runScript_logs (s := s) rfl (.inl rfl) .unlimited script
  obtain ⟨-, -, hfailed⟩ :=
    runScript_logs (s := s) rfl (.inl rfl) .unlimited (script ++ [0xFF])
  obtain ⟨-, hinfo, hevaluated, hfailures, hvalues⟩ := hfinished _ hreport
  exact ⟨rfl, rfl, hreport, hinfo, hevaluated, hfailures, hvalues, hfault, hfailed _ hfault⟩

end Session
end PrefixCalc
