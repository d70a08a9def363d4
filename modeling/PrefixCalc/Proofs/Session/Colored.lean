import PrefixCalc.Proofs.Session.Script
import PrefixCalc.Proofs.Text.Unstyled

/-!
# PrefixCalc.Proofs.Session.Colored

Sessions with and without colours.

* `Reply.lines_congr`: a reply looks the same on all displays that show no styles.
* `repliesTo_congr`: what is replied has nothing to do with how it looks.
* `runLines_of_bytes_eq`: a run depends on the display only through the bytes of replies.
* `runScript_colored`: a script has the same replies and the same report in colours, and its lines
  are the plain ones once their codes are taken out. A terminal without codes gets the plain bytes.
-/

namespace PrefixCalc

namespace Reply

theorem lines_congr {d d' : Text.Display} (h : d.styles = d'.styles) (r : Reply) :
    r.lines d = r.lines d' := by
  have hpaint : ∀ style text, d.paint style text = d'.paint style text := by
    intro style text
    rw [Text.Display.paint, Text.Display.paint, h]
  cases r with
  | blank => rfl
  | help => simp only [lines, helpLines, valueLine, hpaint]
  | value x => simp only [lines, valueLine, hpaint]
  | failure e => simp only [lines, errorLine, hpaint]

section

variable {d d' : Text.Display} (hd : d.styles = true) (hd' : d'.styles = false)

include hd hd'

theorem unstyled?_value (x : Binary64) :
    ((value x).lines d).mapM (Text.unstyled? "" "\x1b[32m") = some ((value x).lines d') := by
  have hcode : String.ofList Text.Style.value.opening = "\x1b[32m" := by decide
  have hplain : d'.paint .value (writeResult x) = writeResult x := by
    rw [Text.Display.paint, hd', if_neg Bool.false_ne_true]
  have hline := Text.unstyled?_paint hd .value "" (writeResult x)
  rw [hcode, String.empty_append, String.empty_append] at hline
  rw [lines, lines, valueLine, valueLine, hplain, List.mapM_cons, hline, List.mapM_nil]
  rfl

theorem unstyled?_failure (e : EvalError) :
    ((failure e).lines d).mapM (Text.unstyled? "Error: " "\x1b[1;31m") =
      some ((failure e).lines d') := by
  have hcode : String.ofList Text.Style.error.opening = "\x1b[1;31m" := by decide
  have hplain : d'.paint .error e.message = e.message := by
    rw [Text.Display.paint, hd', if_neg Bool.false_ne_true]
  have hline := Text.unstyled?_paint hd .error "Error: " e.message
  rw [hcode] at hline
  rw [lines, lines, errorLine, errorLine, hplain, List.mapM_cons, hline, List.mapM_nil]
  rfl

end

end Reply

namespace Session

section

variable {s s' : Session}

theorem repliesTo_congr (h : ∀ line, s.respond line = s'.respond line)
    (raws : List (List UInt8)) : s.repliesTo raws = s'.repliesTo raws := by
  have hhear : ∀ raw, s.hear? raw = s'.hear? raw := by
    intro raw
    rw [hear?, hear?, funext h]
  induction raws with
  | nil => rfl
  | cons raw raws ih => rw [repliesTo, repliesTo, hhear, ih]

/-- By induction on the lines that are left. -/
theorem runLines_of_bytes_eq (h : ∀ line, s.respond line = s'.respond line)
    (hbytes : ∀ r : Reply, r.bytes s.display = r.bytes s'.display) (report : Report) (sink : Sink)
    (events : Array Event) (raws : List (List UInt8)) :
    s.runLines report sink events raws = s'.runLines report sink events raws := by
  have hhear : ∀ raw, s.hear? raw = s'.hear? raw := by
    intro raw
    rw [hear?, hear?, funext h]
  induction raws generalizing report sink events with
  | nil => rfl
  | cons raw raws ih => simp only [runLines, hhear, hbytes, ih]

end

/-- Colours change neither what is replied to a line nor the report. On a terminal that takes codes,
the line of a value is the plain one behind its code and in front of a reset, and so is that of an
error behind its label; one copy of the code more stands behind each reset in between, whatever
codes the name of an operation brings along. On any other terminal all bytes are the same. -/
theorem runScript_colored (c : Calculator) (ansi : Bool) (script : List UInt8) :
    let session (d : Text.Display) : Session := { calculator := c, display := d }
    let plain := session { color := false, ansi := ansi }
    let colored := session { color := true, ansi := true }
    let uncoded := session { color := true, ansi := false }
    let replies := plain.repliesTo (Text.rawLines script)
    (∀ line, colored.respond line = plain.respond line) ∧
      (colored.runScript .unlimited script).result = (plain.runScript .unlimited script).result ∧
      (plain.runScript .unlimited script).sink.written.toList =
        lineBytes (replies.flatMap (·.lines plain.display)) ∧
      (colored.runScript .unlimited script).sink.written.toList =
        lineBytes (replies.flatMap (·.lines colored.display)) ∧
      (∀ x, ((Reply.value x).lines colored.display).mapM (Text.unstyled? "" "\x1b[32m") =
        some ((Reply.value x).lines plain.display)) ∧
      (∀ e, ((Reply.failure e).lines colored.display).mapM
          (Text.unstyled? "Error: " "\x1b[1;31m") =
        some ((Reply.failure e).lines plain.display)) ∧
      ∀ sink, uncoded.runScript sink script = plain.runScript sink script := by
  intro session plain colored uncoded replies
  have hrespond : ∀ line, colored.respond line = plain.respond line := fun _ => rfl
  have hreplies := repliesTo_congr hrespond (Text.rawLines script)
  refine ⟨hrespond, ?report, ?plainBytes, ?coloredBytes, ?value, ?failure, ?uncoded⟩
  case report => rw [runScript_result, runScript_result, hreplies]
  case plainBytes => rw [runScript_written, transcript_eq_lineBytes]
  case coloredBytes => rw [runScript_written, transcript_eq_lineBytes, hreplies]
  case value => exact fun x => Reply.unstyled?_value rfl rfl x
  case failure => exact fun e => Reply.unstyled?_failure rfl rfl e
  case uncoded =>
    intro sink
    refine @runLines_of_bytes_eq uncoded plain (fun _ => rfl) ?_ _ _ _ _
    intro r
    have hstyles : uncoded.display.styles = plain.display.styles := rfl
    rw [Reply.bytes, Reply.bytes, Reply.lines_congr hstyles]

end Session
end PrefixCalc
