import PrefixCalc.Proofs.Session.Script
import PrefixCalc.Proofs.Text.Faults

/-!
# PrefixCalc.Proofs.Session.Decoding

Scripts that are not UTF-8. Lines are decoded one by one, yet whether a run succeeds is a property
of the whole stream, and what it writes ends in front of the first line that is not well-formed.

* `runScript_ok_iff`: a run without a limit succeeds exactly on well-formed streams.
* `repliesTo_of_isFirstFault`: only the lines in front of the first fault are answered.
* `runScript_decodes`: the two together, for a whole run.
-/

namespace PrefixCalc
namespace Session

variable {s : Session}

theorem decodable_rawLines_iff {script : List UInt8} :
    Text.Decodable (Text.rawLines script) ↔ Text.WellFormed script := by
  rw [Text.wellFormed_iff_isSome, Text.isSome_decode?_iff]

theorem runScript_ok_iff {script : List UInt8} :
    (∃ report, (s.runScript .unlimited script).result = .ok report) ↔ Text.WellFormed script := by
  rw [← decodable_rawLines_iff, runScript_result]
  split
  · rename_i hgood
    exact iff_of_true ⟨_, rfl⟩ hgood
  · rename_i hbad
    refine iff_of_false ?_ hbad
    rintro ⟨report, h⟩
    cases h

theorem runScript_error_of_not_wellFormed {script : List UInt8} (h : ¬ Text.WellFormed script) :
    (s.runScript .unlimited script).result = .error .invalidText :=
  runScript_result_of_none (Text.not_wellFormed_iff.mp h)

section

variable {front line behind script : List UInt8}
  (h : Text.IsFirstFault front line behind script)

include h

theorem repliesTo_of_isFirstFault :
    s.repliesTo (Text.rawLines script) = s.repliesTo (Text.rawLines front) := by
  have hline : s.hear? line = none := hear?_of_none (Text.not_wellFormed_iff.mp h.not_wellFormed)
  rw [h.rawLines_eq, repliesTo_append (decodable_rawLines_iff.mpr h.wellFormed),
    repliesTo_cons_of_none hline, List.append_nil]

theorem runScript_written_of_isFirstFault :
    (s.runScript .unlimited script).sink.written = (s.runScript .unlimited front).sink.written := by
  rw [← Array.toList_inj, runScript_written, runScript_written, repliesTo_of_isFirstFault h]

end

/-- A run without a limit succeeds exactly if the stream as a whole is well-formed, although it is
decoded line by line. Otherwise it writes what the lines in front of the first fault write, as a
script of their own, and nothing for that line or any behind it. -/
theorem runScript_decodes (s : Session) (script : List UInt8) :
    let run := s.runScript .unlimited
    ((∃ report, (run script).result = .ok report) ↔ Text.WellFormed script) ∧
      (Text.WellFormed script ↔ ∀ raw ∈ Text.rawLines script, Text.WellFormed raw) ∧
      (¬ Text.WellFormed script →
        (run script).result = .error .invalidText ∧
          ∃ front line behind, Text.IsFirstFault front line behind script) ∧
      (∀ front line behind, Text.IsFirstFault front line behind script →
        (run script).sink.written = (run front).sink.written ∧
          ∃ report, (run front).result = .ok report) ∧
      (ShellError.stream .invalidText).message =
        "I/O error: stream did not contain valid UTF-8" := by
  intro run
  refine ⟨runScript_ok_iff, Text.wellFormed_iff_rawLines, ?invalid, ?written, by decide⟩
  case invalid =>
    intro h
    exact ⟨runScript_error_of_not_wellFormed h, Text.exists_isFirstFault h⟩
  case written =>
    intro front line behind h
    exact ⟨runScript_written_of_isFirstFault h, runScript_ok_iff.mpr h.wellFormed⟩

/-- A surrogate on a line of its own, between two lines that could be answered. -/
theorem runScript_decodes_around_surrogate :
    let s : Session := { calculator := standard, display := .plain }
    let front := Text.encode "+ 1 2\n"
    let line : List UInt8 := [0xED, 0xA0, 0x80, 0x0A]
    let script := front ++ line ++ Text.encode "+ 3 4\n"
    ¬ Text.WellFormed script ∧ Text.IsFirstFault front line (Text.encode "+ 3 4\n") script ∧
      (s.runScript .unlimited script).result = .error .invalidText ∧
      (s.runScript .unlimited script).sink.written = (Text.encode "3\n").toArray := by
  intro s front line script
  have hbad : ¬ Text.WellFormed script := by decide +kernel
  have hfault : Text.IsFirstFault front line (Text.encode "+ 3 4\n") script :=
    { split := rfl
      ended := .inr (by decide)
      wellFormed := by decide +kernel
      isLine := .ended (w := [0xED, 0xA0, 0x80]) (by decide)
      not_wellFormed := by decide +kernel }
  obtain ⟨-, -, hinvalid, hwritten, -⟩ := runScript_decodes s script
  refine ⟨hbad, hfault, (hinvalid hbad).1, (hwritten _ _ _ hfault).1.trans ?_⟩
  decide +kernel

end Session
end PrefixCalc
