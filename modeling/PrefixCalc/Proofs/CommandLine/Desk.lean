import PrefixCalc.CommandLine.LineEditor
import PrefixCalc.Proofs.Session.Script

/-!
# PrefixCalc.Proofs.CommandLine.Desk

A dialogue on record, whose editor reads lines as they are.

* `LineEditor.ReadsLines`: what is assumed of an editor, and is true of the plain one.
* `ask_run`, `replyTo_run`: what is left of the input, and what has been written and noted.
* `turn_of_nil`, `turn_of_none`, `turn_of_some`: one round of a dialogue, at the end of the input,
  at a line that is not UTF-8, and at any other line.
* `rounds_spec`: all rounds, by induction on the lines that are left.
* `converse_spec`: a dialogue writes its greeting and the replies to its lines, and ends early
  exactly if there is a line that is not UTF-8.
-/

namespace PrefixCalc
namespace CommandLine

/-- The editor can be opened, remembers lines without a fault, shows nothing, and takes each line as
it stands in the input. -/
structure LineEditor.ReadsLines (e : LineEditor) (s : Surroundings) : Prop where
  opens : ∃ state, e.opened s = .ok state
  remembers : ∀ line state, ∃ state', e.remember line state = .ok state'
  reads : ∀ prompt state input, ∃ state',
    e.read s prompt state input =
      { shown := []
        outcome := lineOf (Text.cutLine input).1
        state := state'
        rest := (Text.cutLine input).2 }

theorem LineEditor.plain_readsLines {s : Surroundings} (hterminal : s.inputTerminal = false)
    (hdumb : s.namesDumbTerminal = false) : plain.ReadsLines s where
  opens := ⟨(), rfl⟩
  remembers _ _ := ⟨(), rfl⟩
  reads prompt _ input := by
    refine ⟨(), ?_⟩
    simp only [plain, plainPrompt, hterminal, hdumb, Bool.or_self, Bool.false_eq_true, if_false]

namespace Desk

/-! ## Steps that may fail -/

section

variable {ε σ α β : Type} {x : ExceptT ε (StateM σ) α} {f : α → ExceptT ε (StateM σ) β} {d d' : σ}

theorem run_bind_of_ok {a : α} (h : x.run.run d = (.ok a, d')) :
    (x >>= f).run.run d = (f a).run.run d' := by
  rw [ExceptT.run_bind, StateT.run_bind, h]
  rfl

theorem run_bind_of_error {fault : ε} (h : x.run.run d = (.error fault, d')) :
    (x >>= f).run.run d = (.error fault, d') := by
  rw [ExceptT.run_bind, StateT.run_bind, h]
  rfl

end

section

variable {ε σ : Type} [Nonempty σ] {f : Unit → ExceptT ε (StateM σ) (Unit ⊕ Unit)} {d d' : σ}

theorem repeatM_of_inl (h : (f ()).run.run d = (.ok (.inl ()), d')) :
    (repeatM f ()).run.run d = (repeatM f ()).run.run d' := by
  conv_lhs => rw [repeatM_eq_of_monadTail]
  exact run_bind_of_ok h

theorem repeatM_of_inr (h : (f ()).run.run d = (.ok (.inr ()), d')) :
    (repeatM f ()).run.run d = (.ok (), d') := by
  rw [repeatM_eq_of_monadTail]
  exact run_bind_of_ok h

theorem repeatM_of_error {fault : ε} (h : (f ()).run.run d = (.error fault, d')) :
    (repeatM f ()).run.run d = (.error fault, d') := by
  rw [repeatM_eq_of_monadTail]
  exact run_bind_of_error h

end

/-! ## One round -/

variable {e : LineEditor} {s : Surroundings} {session : Session} {prompt : String}

instance : Nonempty (Desk e.State) := ⟨.initial e []⟩

theorem note_run (event : Event) (d : Desk e.State) :
    (liftM ((console e s).note event) : ExceptT ShellError (StateM _) Unit).run.run d =
      (.ok (), { d with events := d.events.push event }) :=
  rfl

theorem write_run (bytes : List UInt8) (d : Desk e.State) :
    ((console e s).write bytes).run.run d = (.ok (), { d with output := d.output ++ bytes }) :=
  rfl

theorem forM_note_run (events : List Event) (d : Desk e.State) :
    (events.forM fun event =>
        (liftM ((console e s).note event) : ExceptT ShellError (StateM _) Unit)).run.run d =
      (.ok (), { d with events := d.events ++ events }) := by
  induction events generalizing d with
  | nil =>
    rw [Array.appendList_nil]
    rfl
  | cons event events ih =>
    refine (run_bind_of_ok (note_run event d)).trans ((ih _).trans ?_)
    simp

theorem forM_write_run (ls : List String) (d : Desk e.State) :
    (ls.forM fun l => (console e s).write (lineBytes [l])).run.run d =
      (.ok (), { d with output := d.output ++ lineBytes ls }) := by
  induction ls generalizing d with
  | nil =>
    rw [show lineBytes [] = [] from rfl, Array.appendList_nil]
    rfl
  | cons l ls ih =>
    refine (run_bind_of_ok (write_run (lineBytes [l]) d)).trans ((ih _).trans ?_)
    have hwritten :
        d.output ++ lineBytes [l] ++ lineBytes ls = d.output ++ lineBytes (l :: ls) := by
      apply Array.toList_inj.mp
      simp [lineBytes]
    rw [hwritten]

theorem update_run {σ : Type} (state : σ) (d : Desk σ) :
    (update (.ok state)).run.run d = (.ok (), { d with editor := state }) :=
  rfl

theorem remember_run {line : String} {d : Desk e.State} {state : e.State}
    (h : e.remember line d.editor = .ok state) :
    ((console e s).remember line).run.run d = (.ok (), { d with editor := state }) := by
  show (update (e.remember line d.editor)).run.run d = _
  rw [h, update_run]

section

variable (h : e.ReadsLines s)

include h

theorem prepare_run (d : Desk e.State) :
    ∃ state, (console e s).prepare.run.run d = (.ok (), { d with editor := state }) := by
  obtain ⟨state, hstate⟩ := h.opens
  refine ⟨state, ?_⟩
  show (update (e.opened s)).run.run d = _
  rw [hstate, update_run]

theorem ask_run (prompt : String) (d : Desk e.State) :
    ∃ state, (liftM ((console e s).ask prompt) : ExceptT ShellError (StateM _) _).run.run d =
      (.ok (LineEditor.lineOf (Text.cutLine d.input).1),
        { d with editor := state, input := (Text.cutLine d.input).2 }) := by
  obtain ⟨state, hread⟩ := h.reads prompt d.editor d.input
  refine ⟨state, ?_⟩
  have hask : (liftM ((console e s).ask prompt) : ExceptT ShellError (StateM _) _).run.run d =
      (.ok (e.read s prompt d.editor d.input).outcome,
        { d with
          editor := (e.read s prompt d.editor d.input).state
          input := (e.read s prompt d.editor d.input).rest
          output := d.output ++ (e.read s prompt d.editor d.input).shown }) := rfl
  rw [hask, hread, Array.appendList_nil]

theorem replyTo_run (session : Session) (line : String) (d : Desk e.State) :
    ∃ state, (session.replyTo (console e s) line).run.run d =
      (.ok (),
        { d with
          editor := state
          output := d.output ++ (session.respond line).reply.bytes session.display
          events := d.events ++ (session.respond line).events }) := by
  by_cases hblank : (session.respond line).reply = .blank
  · refine ⟨d.editor, (run_bind_of_ok (forM_note_run _ d)).trans ?_⟩
    rw [if_neg (not_not_intro hblank)]
    exact forM_write_run _ _
  · obtain ⟨state, hstate⟩ := h.remembers (Text.trim line) d.editor
    refine ⟨state, (run_bind_of_ok (forM_note_run _ d)).trans ?_⟩
    have hremember := @remember_run e s (Text.trim line)
      { d with events := d.events ++ (session.respond line).events } state hstate
    rw [if_pos hblank]
    exact (run_bind_of_ok hremember).trans (forM_write_run _ _)

theorem turn_of_nil {d : Desk e.State} (hd : d.input = []) :
    ∃ state, (session.turn (console e s) prompt).run.run d =
      (.ok (.inr ()), { d with editor := state, input := [] }) := by
  obtain ⟨state, hask⟩ := ask_run h prompt d
  rw [hd] at hask
  exact ⟨state, run_bind_of_ok hask⟩

section

variable {d : Desk e.State} {raw rest : List UInt8} (hd : Text.cutLine d.input = (raw, rest))
  (hne : raw ≠ [])

include hd hne

theorem turn_of_none (hraw : Text.decode? raw = none) :
    ∃ state, (session.turn (console e s) prompt).run.run d =
      (.error (.input (.stream .invalidText)), { d with editor := state, input := rest }) := by
  obtain ⟨state, hask⟩ := ask_run h prompt d
  rw [hd, LineEditor.lineOf, if_neg hne, Text.readLine?, hraw] at hask
  exact ⟨state, run_bind_of_ok hask⟩

theorem turn_of_some {t : String} (hraw : Text.decode? raw = some t) :
    let answer := session.respond (Text.withoutEnd t)
    ∃ state, (session.turn (console e s) prompt).run.run d =
      (.ok (.inl ()),
        { editor := state
          input := rest
          output := d.output ++ answer.reply.bytes session.display
          events := d.events ++ answer.events }) := by
  obtain ⟨state, hask⟩ := ask_run h prompt d
  rw [hd, LineEditor.lineOf, if_neg hne, Text.readLine?, hraw] at hask
  obtain ⟨state', hreply⟩ :=
    replyTo_run h session (Text.withoutEnd t) { d with editor := state, input := rest }
  exact ⟨state', (run_bind_of_ok hask).trans (run_bind_of_ok hreply)⟩

end

/-! ## All rounds -/

/-- By induction on the lines that are left, whatever has been written so far. -/
theorem rounds_spec {raws : List (List UInt8)} {d : Desk e.State}
    (hd : Text.rawLines d.input = raws) :
    ∃ d', (repeatM (fun () => session.turn (console e s) prompt) ()).run.run d =
        (if Text.Decodable raws then .ok () else .error (.input (.stream .invalidText)), d') ∧
      d'.output.toList = d.output.toList ++ session.transcript (session.repliesTo raws) := by
  induction raws generalizing d with
  | nil =>
    have hinput : d.input = [] := by rw [← Text.flatten_rawLines d.input, hd, List.flatten_nil]
    obtain ⟨state, hturn⟩ := @turn_of_nil e s session prompt h d hinput
    rw [if_pos Text.decodable_nil]
    exact ⟨_, repeatM_of_inr hturn, (List.append_nil _).symm⟩
  | cons raw raws ih =>
    cases hinput : d.input with
    | nil =>
      rw [hinput] at hd
      cases hd
    | cons b bytes =>
      rw [hinput, Text.rawLines_cons] at hd
      obtain ⟨hfirst, hrest⟩ := List.cons.inj hd
      have hcut : Text.cutLine d.input = (raw, (Text.cutLine (b :: bytes)).2) := by
        rw [hinput, ← hfirst]
      have hne : raw ≠ [] := hfirst ▸ Text.cutLine_ne_nil b bytes
      cases hraw : Text.decode? raw with
      | none =>
        obtain ⟨state, hturn⟩ := @turn_of_none e s session prompt h d raw _ hcut hne hraw
        rw [if_neg (Text.not_decodable_cons_of_none hraw raws),
          Session.repliesTo_cons_of_none (Session.hear?_of_none hraw)]
        exact ⟨_, repeatM_of_error hturn, (List.append_nil _).symm⟩
      | some t =>
        obtain ⟨state, hturn⟩ := @turn_of_some e s session prompt h d raw _ hcut hne t hraw
        obtain ⟨d', hrounds, hwritten⟩ := @ih
          { editor := state
            input := (Text.cutLine (b :: bytes)).2
            output := d.output ++ (session.respond (Text.withoutEnd t)).reply.bytes session.display
            events := d.events ++ (session.respond (Text.withoutEnd t)).events } hrest
        simp only [Text.decodable_cons_of_some hraw,
          Session.repliesTo_cons (Session.hear?_of_some hraw), Session.transcript_cons]
        refine ⟨d', (repeatM_of_inl hturn).trans hrounds, ?_⟩
        rw [hwritten, Array.toList_appendList, List.append_assoc]

/-- The greeting, with all rounds still to come. -/
theorem exists_greeted (session : Session) (prompt : String) (input : List UInt8) :
    ∃ d : Desk e.State, d.input = input ∧ d.output.toList = session.greeting ∧
      (session.converse (console e s) prompt).run.run (initial e input) =
        (do
          repeatM (fun () => session.turn (console e s) prompt) ()
          (console e s).note .sessionEnded :
            ExceptT ShellError (StateM (Desk e.State)) Unit).run.run d := by
  obtain ⟨state, hprepare⟩ := prepare_run h (initial e input)
  have hgreet := write_run (s := s) session.greeting { initial e input with editor := state }
  have hstart := note_run (s := s) .sessionStarted
    { initial e input with editor := state, output := (#[] : Array UInt8) ++ session.greeting }
  refine ⟨_, ?_, ?_, (run_bind_of_ok hprepare).trans ((run_bind_of_ok hgreet).trans
    (run_bind_of_ok hstart))⟩
  · rfl
  · exact Array.toList_appendList

theorem converse_spec (session : Session) (prompt : String) (input : List UInt8) :
    ∃ desk, (session.converse (console e s) prompt).run.run (initial e input) =
        (if (Text.decode? input).isSome then .ok () else .error (.input (.stream .invalidText)),
          desk) ∧
      desk.output.toList =
        session.greeting ++ session.transcript (session.repliesTo (Text.rawLines input)) := by
  obtain ⟨d, hinput, houtput, hgreeted⟩ := exists_greeted h session prompt input
  obtain ⟨desk, hrounds, hwritten⟩ :=
    @rounds_spec e s session prompt h _ d (congrArg Text.rawLines hinput)
  rw [houtput] at hwritten
  simp only [hgreeted, Text.isSome_decode?_iff]
  split at hrounds
  · rename_i hall
    rw [if_pos hall]
    exact ⟨_, run_bind_of_ok hrounds, hwritten⟩
  · rename_i hbad
    rw [if_neg hbad]
    exact ⟨desk, run_bind_of_error hrounds, hwritten⟩

end

end Desk
end CommandLine
end PrefixCalc
