import PrefixCalc.Proofs.Text.Lines
import PrefixCalc.Proofs.Text.WellFormed

/-!
# PrefixCalc.Proofs.Text.Faults

The first line of a stream that is not UTF-8.

* `wellFormed_iff_rawLines`: a stream is well-formed exactly if each of its lines is.
* `IsFirstFault`: a stream, cut around its first line that is not well-formed.
* `exists_isFirstFault`: every stream that is not well-formed has such a line.
* `IsFirstFault.rawLines_eq`: the lines of the stream are those in front, it, and those behind.
-/

namespace PrefixCalc
namespace Text

theorem wellFormed_iff_rawLines {bytes : List UInt8} :
    WellFormed bytes ↔ ∀ raw ∈ rawLines bytes, WellFormed raw := by
  simp only [wellFormed_iff_isSome]
  exact isSome_decode?_iff

theorem not_wellFormed_iff {bytes : List UInt8} : ¬ WellFormed bytes ↔ decode? bytes = none := by
  rw [wellFormed_iff_isSome, Option.not_isSome_iff_eq_none]

/-- A line of a stream: a line feed is at its end or nowhere, and without one nothing stands behind
it. -/
inductive IsLine : List UInt8 → List UInt8 → Prop where
  | ended {w behind : List UInt8} (whole : lineFeed ∉ w) : IsLine (w ++ [lineFeed]) behind
  | last {w : List UInt8} (whole : lineFeed ∉ w) : IsLine w []

structure IsFirstFault (front line behind bytes : List UInt8) : Prop where
  split : front ++ line ++ behind = bytes
  ended : front = [] ∨ front.getLast? = some lineFeed
  wellFormed : WellFormed front
  isLine : IsLine line behind
  not_wellFormed : ¬ WellFormed line

/-! ## Lines that are followed by another -/

theorem getLast?_of_mem_dropLast_rawLines {bytes raw : List UInt8}
    (h : raw ∈ (rawLines bytes).dropLast) : raw.getLast? = some lineFeed := by
  induction bytes generalizing raw with
  | nil => cases h
  | cons b bytes ih =>
    change raw ∈ (extendLines b (rawLines bytes)).dropLast at h
    cases hl : rawLines bytes with
    | nil =>
      rw [hl] at h
      cases h
    | cons l ls =>
      rw [hl] at h ih
      rw [extendLines] at h
      split at h
      · rename_i hb
        rcases List.mem_cons.mp h with rfl | h
        · rw [hb]
          rfl
        · exact ih h
      · cases ls with
        | nil => cases h
        | cons l' ls =>
          rcases List.mem_cons.mp h with rfl | h
          · have hfront := ih List.mem_cons_self
            rw [List.getLast?_cons, hfront]
            rfl
          · exact ih (List.mem_cons_of_mem _ h)

theorem getLast?_flatten_rawLines {bytes raw : List UInt8} {raws raws' : List (List UInt8)}
    (h : rawLines bytes = raws ++ raw :: raws') :
    raws.flatten = [] ∨ raws.flatten.getLast? = some lineFeed := by
  rcases List.eq_nil_or_concat raws with rfl | ⟨front, last, rfl⟩
  · exact .inl rfl
  · right
    have hmem : last ∈ (rawLines bytes).dropLast := by simp [h]
    have hlast := getLast?_of_mem_dropLast_rawLines hmem
    rw [List.concat_eq_append, List.flatten_append, List.flatten_singleton,
      List.getLast?_append_of_ne_nil _ (by rintro rfl; cases hlast), hlast]

theorem isLine_of_rawLines {bytes raw : List UInt8} {raws raws' : List (List UInt8)}
    (h : rawLines bytes = raws ++ raw :: raws') : IsLine raw raws'.flatten := by
  have hmem : raw ∈ rawLines bytes := by simp [h]
  obtain ⟨w, hw, rfl | rfl⟩ := exists_of_mem_rawLines hmem
  · cases raws' with
    | nil => exact .last hw
    | cons raw' raws' =>
      have hfront : raw ∈ (rawLines bytes).dropLast := by simp [h]
      have hlast := getLast?_of_mem_dropLast_rawLines hfront
      exact absurd (List.mem_of_getLast? hlast) hw
  · exact .ended hw

/-! ## The first fault -/

theorem exists_isFirstFault {bytes : List UInt8} (h : ¬ WellFormed bytes) :
    ∃ front line behind, IsFirstFault front line behind bytes := by
  cases hfind : (rawLines bytes).find? (fun raw => decide (¬ WellFormed raw)) with
  | none =>
    rw [List.find?_eq_none] at hfind
    refine absurd (wellFormed_iff_rawLines.mpr ?_) h
    intro raw hraw
    simpa using hfind raw hraw
  | some raw =>
    obtain ⟨hbad, raws, raws', hcut, hgood⟩ := List.find?_eq_some_iff_append.mp hfind
    have hfront : Decodable raws := by
      intro r hr
      rw [← wellFormed_iff_isSome]
      simpa using hgood r hr
    refine ⟨raws.flatten, raw, raws'.flatten, ?_, getLast?_flatten_rawLines hcut,
      wellFormed_iff.mpr (exists_encode_flatten hfront), isLine_of_rawLines hcut,
      of_decide_eq_true hbad⟩
    rw [← flatten_rawLines bytes, hcut, List.flatten_append, List.flatten_cons, List.append_assoc]

theorem wellFormed_nil : WellFormed [] := wellFormed_iff.mpr ⟨"", rfl⟩

theorem rawLines_line {line behind : List UInt8} (h : IsLine line behind) (hne : line ≠ []) :
    rawLines (line ++ behind) = line :: rawLines behind := by
  cases h with
  | @ended w _ whole =>
    rw [rawLines_append (.inr List.getLast?_concat)]
    have hline : rawLines (w ++ [lineFeed]) = [w ++ [lineFeed]] := by
      rw [rawLines, List.foldr_append]
      exact foldr_extendLines whole [lineFeed] []
    rw [hline, List.singleton_append]
  | last whole =>
    rw [List.append_nil]
    exact foldr_extendLines_nil whole hne

namespace IsFirstFault

variable {front line behind bytes : List UInt8} (h : IsFirstFault front line behind bytes)

include h

theorem rawLines_eq : rawLines bytes = rawLines front ++ line :: rawLines behind := by
  have hne : line ≠ [] := by
    rintro rfl
    exact h.not_wellFormed wellFormed_nil
  rw [← h.split, List.append_assoc, rawLines_append h.ended, rawLines_line h.isLine hne]

end IsFirstFault

end Text
end PrefixCalc
