import PrefixCalc.Proofs.Calculator
import PrefixCalc.Proofs.Text.Lines
import PrefixCalc.Session.Basic

/-!
# PrefixCalc.Proofs.Session.Basic

How a session answers.

* `respond_congr`: only the trimmed line counts.
* `hear?_crlf`: a carriage return at the end of a line is white space like any other.
* `respond_expression`: an operation on words, joined with single spaces, is answered with its
  value, whichever way the session finds its tokens.
-/

namespace PrefixCalc
namespace Session

variable {s : Session}

theorem respond_congr {l l' : String} (h : Text.trim l = Text.trim l') :
    s.respond l = s.respond l' := by
  rw [respond, respond, h]

/-! ## Lines of a stream -/

theorem hear?_of_some {raw : List UInt8} {t : String} (h : Text.decode? raw = some t) :
    s.hear? raw = some (s.respond (Text.withoutEnd t)) := by
  rw [hear?, Text.readLine?, h, Option.map_some, Option.map_some]

theorem hear?_of_none {raw : List UInt8} (h : Text.decode? raw = none) : s.hear? raw = none := by
  rw [hear?, Text.readLine?, h, Option.map_none, Option.map_none]

theorem hear?_rawLines (t : String) :
    (Text.rawLines (Text.encode t)).map s.hear? = (Text.lines t).map (some ∘ s.respond) := by
  have h := congrArg (List.map (Option.map s.respond)) (Text.readLine?_rawLines t)
  rwa [List.map_map, List.map_map] at h

theorem hear?_crlf {raw script : List UInt8} (h : raw ∈ Text.rawLines script) :
    s.hear? (Text.crlf raw) = s.hear? raw := by
  obtain ⟨w, hw, rfl | rfl⟩ := Text.exists_of_mem_rawLines h
  · rw [Text.crlf_open hw]
  · rw [Text.crlf_closed hw]
    have hfeed : ∀ bytes, Text.decode? (bytes ++ [Text.lineFeed]) =
        (Text.decode? bytes).map (· ++ "\n") :=
      fun bytes => Text.decode?_concat (by decide) (by decide)
    have hreturn : Text.decode? (w ++ [Text.carriageReturn]) =
        (Text.decode? w).map (· ++ "\r") := Text.decode?_concat (by decide) (by decide)
    cases hdecode : Text.decode? w with
    | none =>
      rw [hdecode] at hreturn
      rw [hear?_of_none (by rw [hfeed, hreturn]; rfl), hear?_of_none (by rw [hfeed, hdecode]; rfl)]
    | some t =>
      rw [hdecode] at hreturn
      rw [hear?_of_some (by rw [hfeed, hreturn]; rfl), hear?_of_some (by rw [hfeed, hdecode]; rfl),
        Text.withoutEnd_append_lineFeed, Text.withoutEnd_append_lineFeed, String.toList_append,
        show "\r".toList = ['\r'] from rfl, Text.dropReturn_append_return, String.ofList_toList,
        respond_congr (Text.trim_dropReturn t)]

/-! ## Expressions -/

theorem answer_of_ok {input : String} {x : Binary64}
    (h : (s.calculator.run input).outcome = .ok x) : (s.answer input).reply = .value x := by
  simp only [answer, h]

theorem respond_expression
    (ht : s.calculator.tokenizer = .spaces ∨ s.calculator.tokenizer = .words) {name : String}
    {words : List String} {operation : Operation}
    (hfound : (s.calculator.vocabulary name).outcome = .ok operation)
    (hlen : words.length = operation.arity.count) (h : ∀ w ∈ name :: words, Text.IsWord w) :
    (s.respond (" ".intercalate (name :: words))).reply =
      .value (operation.apply (words.map readOperand)) := by
  have htrim := Text.trim_intercalate h
  have hspace : ' ' ∈ (" ".intercalate (name :: words)).toList := by
    cases words with
    | nil => cases operation <;> cases hlen
    | cons w ws =>
      rw [String.toList_intercalate, List.map_cons, List.map_cons, List.intercalate_cons_cons]
      simp
  rw [respond_answer, htrim]
  · apply answer_of_ok
    exact Calculator.run_of_tokens (Tokenizer.tokens_intercalate ht (List.cons_ne_nil _ _) h)
      (h name List.mem_cons_self).ne_empty hfound hlen
  · rw [htrim]
    intro hempty
    rw [hempty] at hspace
    cases hspace
  · rw [htrim]
    intro hhelp
    rw [hhelp] at hspace
    exact absurd hspace (by decide)

end Session
end PrefixCalc
