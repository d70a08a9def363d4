import PrefixCalc.Proofs.Text.Utf8

/-!
# PrefixCalc.Proofs.Text.WellFormed

Streams of well-formed UTF-8.

* `wellFormed_iff`: a stream is well-formed exactly if it encodes a text.
* `wellFormed_iff_isSome`: these are the streams that decode.
-/

namespace PrefixCalc
namespace Text

/-- A stream of whole characters. -/
def WellFormed (bytes : List UInt8) : Prop :=
  ∃ seqs : List (List UInt8), (∀ s ∈ seqs, IsSequence s) ∧ seqs.flatten = bytes

theorem wellFormed_iff {bytes : List UInt8} : WellFormed bytes ↔ ∃ t, encode t = bytes := by
  constructor
  · rintro ⟨seqs, hseqs, rfl⟩
    induction seqs with
    | nil => exact ⟨"", rfl⟩
    | cons s seqs ih =>
      rw [List.forall_mem_cons] at hseqs
      obtain ⟨c, hc⟩ := isSequence_iff.mp hseqs.1
      obtain ⟨t, ht⟩ := ih hseqs.2
      refine ⟨String.ofList (c :: t.toList), ?_⟩
      rw [encode_ofList, List.flatMap_cons, hc, ← encode_eq_flatMap, ht, List.flatten_cons]
  · rintro ⟨t, rfl⟩
    refine ⟨t.toList.map String.utf8EncodeChar, ?_, ?_⟩
    · intro s hs
      obtain ⟨c, -, rfl⟩ := List.mem_map.mp hs
      exact isSequence_utf8EncodeChar c
    · rw [encode_eq_flatMap, List.flatMap_def]

theorem wellFormed_iff_isSome {bytes : List UInt8} :
    WellFormed bytes ↔ (decode? bytes).isSome = true := by
  simp only [wellFormed_iff, Option.isSome_iff_exists, decode?_eq_some_iff]

instance (bytes : List UInt8) : Decidable (WellFormed bytes) :=
  decidable_of_iff _ wellFormed_iff_isSome.symm

/-- A slash in two bytes, a surrogate, and a number above the last character. -/
example : ¬ WellFormed [0xC0, 0xAF] ∧ ¬ WellFormed [0xED, 0xA0, 0x80] ∧
    ¬ WellFormed [0xF4, 0x90, 0x80, 0x80] := by
  decide +kernel

end Text
end PrefixCalc
