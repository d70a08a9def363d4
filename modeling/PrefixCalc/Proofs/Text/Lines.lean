import PrefixCalc.Proofs.Text.Blank
import PrefixCalc.Proofs.Text.Pieces
import PrefixCalc.Proofs.Text.Utf8

/-!
# PrefixCalc.Proofs.Text.Lines

The lines of a byte stream and the lines of the text that it encodes.

* `lines`: the lines of a text, found in the text and not in its bytes.
* `readLine?_rawLines`: reading the lines of an encoded text gives the lines of the text.
* `isSome_decode?_iff`: a stream is UTF-8 as a whole exactly if each of its lines is.
* `rawLines_cons`: the first line and the lines behind it.
* `rawLines_append`: behind a line feed a stream can be cut without cutting a line.
* `rawLines_crlf`: carriage returns in front of the line feeds stay in their lines.
-/

namespace PrefixCalc
namespace Text

/-! ## Lines of a text -/

/-- The content of a line that ended in a line feed: a carriage return at its end belongs to the end
of the line. -/
def dropReturn (cs : List Char) : List Char :=
  if cs.getLast? = some '\r' then cs.dropLast else cs

/-- The pieces between line feeds as lines. The last piece is a line only if it has a character,
since it has no line feed behind it. -/
def closeLines : List (List Char) → List (List Char)
  | [] => []
  | [p] => if p = [] then [] else [p]
  | p :: q :: ps => dropReturn p :: closeLines (q :: ps)

def lines (t : String) : List String :=
  (closeLines (pieces (· == '\n') t.toList)).map String.ofList

/-- The pieces between line feeds with the line feeds behind them. -/
def withEnds : List (List Char) → List (List Char)
  | [] => []
  | [p] => if p = [] then [] else [p]
  | p :: q :: ps => (p ++ ['\n']) :: withEnds (q :: ps)

/-! ## Cutting a stream -/

theorem extendLines_lineFeed (ls : List (List UInt8)) :
    extendLines lineFeed ls = [lineFeed] :: ls := by
  cases ls <;> rfl

theorem cutLine_of_ne {b : UInt8} (hb : b ≠ lineFeed) (bytes : List UInt8) :
    cutLine (b :: bytes) = (b :: (cutLine bytes).1, (cutLine bytes).2) := by
  rw [cutLine, if_neg hb]

theorem cutLine_ne_nil (b : UInt8) (bytes : List UInt8) : (cutLine (b :: bytes)).1 ≠ [] := by
  rw [cutLine]
  split <;> exact List.cons_ne_nil _ _

/-- Lines that are cut off one after the other are the lines of the stream. -/
theorem rawLines_cons (b : UInt8) (bytes : List UInt8) :
    rawLines (b :: bytes) = (cutLine (b :: bytes)).1 :: rawLines (cutLine (b :: bytes)).2 := by
  induction bytes generalizing b with
  | nil =>
    by_cases hb : b = lineFeed
    · subst hb
      rfl
    · rw [cutLine_of_ne hb]
      rfl
  | cons c bytes ih =>
    show extendLines b (rawLines (c :: bytes)) = _
    by_cases hb : b = lineFeed
    · subst hb
      rw [extendLines_lineFeed, cutLine, if_pos rfl]
    · rw [ih, extendLines, if_neg hb, cutLine_of_ne hb]

theorem foldr_extendLines {w : List UInt8} (h : lineFeed ∉ w) (l : List UInt8)
    (ls : List (List UInt8)) : w.foldr extendLines (l :: ls) = (w ++ l) :: ls := by
  induction w with
  | nil => rfl
  | cons b w ih =>
    rw [List.mem_cons, not_or] at h
    rw [List.foldr_cons, ih h.2, extendLines, if_neg (Ne.symm h.1)]
    rfl

theorem foldr_extendLines_nil {w : List UInt8} (h : lineFeed ∉ w) (hw : w ≠ []) :
    w.foldr extendLines [] = [w] := by
  rcases List.eq_nil_or_concat w with rfl | ⟨v, b, rfl⟩
  · exact absurd rfl hw
  · rw [List.concat_eq_append] at h ⊢
    rw [List.foldr_append, List.foldr_cons, List.foldr_nil]
    exact foldr_extendLines (fun hv => h (List.mem_append_left _ hv)) [b] []

theorem rawLines_append {a : List UInt8} (ha : a = [] ∨ a.getLast? = some lineFeed)
    (b : List UInt8) : rawLines (a ++ b) = rawLines a ++ rawLines b := by
  rcases ha with rfl | ha
  · rfl
  · induction a with
    | nil => cases ha
    | cons x a ih =>
      show extendLines x (rawLines (a ++ b)) = extendLines x (rawLines a) ++ rawLines b
      cases a with
      | nil =>
        obtain rfl : x = lineFeed := Option.some.inj ha
        exact extendLines_lineFeed (rawLines b)
      | cons y a =>
        rw [ih (by rwa [List.getLast?_cons_cons] at ha)]
        cases h : rawLines (y :: a) with
        | nil =>
          have hflat := flatten_rawLines (y :: a)
          simp [h] at hflat
        | cons l ls =>
          simp only [extendLines, List.cons_append]
          split <;> rfl

/-- What a line is made of. -/
theorem exists_of_mem_rawLines {bytes raw : List UInt8} (h : raw ∈ rawLines bytes) :
    ∃ w, lineFeed ∉ w ∧ (raw = w ∨ raw = w ++ [lineFeed]) := by
  induction bytes generalizing raw with
  | nil => cases h
  | cons b bytes ih =>
    change raw ∈ extendLines b (rawLines bytes) at h
    by_cases hb : b = lineFeed
    · subst hb
      rw [extendLines_lineFeed] at h
      rcases List.mem_cons.mp h with rfl | h
      · exact ⟨[], List.not_mem_nil, .inr rfl⟩
      · exact ih h
    · have hopen : ∀ w, lineFeed ∉ w → lineFeed ∉ b :: w := by
        intro w hw hmem
        rcases List.mem_cons.mp hmem with h | h
        · exact hb h.symm
        · exact hw h
      cases hl : rawLines bytes with
      | nil =>
        rw [hl, extendLines, List.mem_singleton] at h
        exact ⟨[b], hopen [] List.not_mem_nil, .inl h⟩
      | cons l ls =>
        rw [hl, extendLines, if_neg hb] at h
        rw [hl] at ih
        rcases List.mem_cons.mp h with rfl | h
        · obtain ⟨w, hw, hraw⟩ := ih List.mem_cons_self
          refine ⟨b :: w, hopen w hw, ?_⟩
          rcases hraw with h | h
          · exact .inl (by rw [h])
          · exact .inr (by rw [h, List.cons_append])
        · exact ih (List.mem_cons_of_mem _ h)

/-! ## Streams that encode a text -/

theorem lineFeed_not_mem_utf8EncodeChar {c : Char} (hc : c ≠ '\n') :
    lineFeed ∉ String.utf8EncodeChar c := by
  intro h
  have hnat := (mem_utf8EncodeChar (by decide) h).1
  exact hc (Char.toNat_inj.mp hnat)

theorem rawLines_encode (cs : List Char) :
    rawLines (encode (String.ofList cs)) =
      (withEnds (pieces (· == '\n') cs)).map fun p => encode (String.ofList p) := by
  simp only [encode_ofList]
  induction cs with
  | nil => rfl
  | cons c cs ih =>
    rw [List.flatMap_cons, rawLines, List.foldr_append, ← rawLines, ih]
    obtain ⟨p, ps, hp⟩ := List.exists_cons_of_ne_nil (pieces_ne_nil (· == '\n') cs)
    by_cases hc : c = '\n'
    · subst hc
      rw [show String.utf8EncodeChar '\n' = [lineFeed] by decide, List.foldr_cons, List.foldr_nil,
        extendLines_lineFeed, pieces, if_pos (beq_self_eq_true '\n'), hp]
      rfl
    · have hopen := lineFeed_not_mem_utf8EncodeChar hc
      rw [pieces, if_neg (by simpa using hc), hp, extendFirst]
      cases ps with
      | nil =>
        by_cases hnil : p = []
        · subst hnil
          simpa [withEnds] using foldr_extendLines_nil hopen String.utf8EncodeChar_ne_nil
        · simpa [withEnds, hnil] using foldr_extendLines hopen (p.flatMap String.utf8EncodeChar) []
      | cons q ps =>
        simp only [withEnds, List.map_cons, foldr_extendLines hopen, List.cons_append,
          List.flatMap_cons]

theorem withoutEnd_open {p : List Char} (h : '\n' ∉ p) :
    withoutEnd (String.ofList p) = String.ofList p := by
  rw [withoutEnd, String.toList_ofList]
  rcases List.eq_nil_or_concat p with rfl | ⟨q, c, rfl⟩
  · rfl
  · rw [List.concat_eq_append] at h ⊢
    have hc : c ≠ '\n' := by
      rintro rfl
      exact h (List.mem_append_right _ List.mem_cons_self)
    rw [List.reverse_append, List.reverse_singleton, List.singleton_append, dropEnd]
    · simp
    · intro cs hcs
      exact hc (List.cons.inj hcs).1
    · intro cs hcs
      exact hc (List.cons.inj hcs).1

theorem withoutEnd_closed (p : List Char) :
    withoutEnd (String.ofList (p ++ ['\n'])) = String.ofList (dropReturn p) := by
  rw [withoutEnd, String.toList_ofList, List.reverse_append, List.reverse_singleton,
    List.singleton_append]
  rcases List.eq_nil_or_concat p with rfl | ⟨q, c, rfl⟩
  · rfl
  · rw [List.concat_eq_append, List.reverse_append, List.reverse_singleton, List.singleton_append,
      dropReturn, List.getLast?_concat, List.dropLast_concat]
    by_cases hc : c = '\r'
    · subst hc
      rw [dropEnd, if_pos rfl, List.reverse_reverse]
    · rw [dropEnd, if_neg (fun h => hc (Option.some.inj h))]
      · simp
      · intro cs hcs
        exact hc (List.cons.inj hcs).1

theorem readLine?_encode (s : String) : readLine? (encode s) = some (withoutEnd s) := by
  rw [readLine?, decode?_encode, Option.map_some]

theorem readLine?_withEnds {ps : List (List Char)} (h : ∀ p ∈ ps, '\n' ∉ p) :
    (withEnds ps).map (fun p => readLine? (encode (String.ofList p))) =
      (closeLines ps).map fun p => some (String.ofList p) := by
  induction ps with
  | nil => rfl
  | cons p ps ih =>
    have hp := h p List.mem_cons_self
    cases ps with
    | nil =>
      rw [withEnds, closeLines]
      split
      · rfl
      · rw [List.map_singleton, readLine?_encode, withoutEnd_open hp, List.map_singleton]
    | cons q ps =>
      rw [withEnds, closeLines, List.map_cons, List.map_cons, readLine?_encode,
        withoutEnd_closed, ih fun r hr => h r (List.mem_cons_of_mem _ hr)]

theorem readLine?_rawLines (t : String) :
    (rawLines (encode t)).map readLine? = (lines t).map some := by
  have hopen : ∀ p ∈ pieces (· == '\n') t.toList, '\n' ∉ p := by
    intro p hp hmem
    simpa using not_mem_of_mem_pieces hp '\n' hmem
  have hraw := rawLines_encode t.toList
  rw [String.ofList_toList] at hraw
  rw [hraw, List.map_map, lines, List.map_map]
  exact readLine?_withEnds hopen

theorem lines_of_not_mem {t : String} (h : '\n' ∉ t.toList) :
    lines t = if t = "" then [] else [t] := by
  rw [lines, pieces_of_not_mem h, closeLines]
  by_cases ht : t = ""
  · subst ht
    rfl
  · rw [if_neg (fun hnil => ht (String.toList_eq_nil_iff.mp hnil)), if_neg ht, List.map_singleton,
      String.ofList_toList]

/-! ## Streams that are UTF-8 -/

/-- Lines that are UTF-8, all of them. -/
def Decodable (raws : List (List UInt8)) : Prop := ∀ raw ∈ raws, (decode? raw).isSome = true

instance (raws : List (List UInt8)) : Decidable (Decodable raws) :=
  inferInstanceAs (Decidable (∀ raw ∈ raws, (decode? raw).isSome = true))

theorem decodable_nil : Decodable [] := by
  intro raw h
  cases h

theorem decodable_cons_of_some {raw : List UInt8} {t : String} (h : decode? raw = some t)
    (raws : List (List UInt8)) : Decodable (raw :: raws) ↔ Decodable raws := by
  rw [Decodable, List.forall_mem_cons, h]
  exact and_iff_right rfl

theorem not_decodable_cons_of_none {raw : List UInt8} (h : decode? raw = none)
    (raws : List (List UInt8)) : ¬ Decodable (raw :: raws) := by
  intro hall
  have hsome := hall raw List.mem_cons_self
  rw [h] at hsome
  cases hsome

theorem exists_encode_flatten {raws : List (List UInt8)} (h : Decodable raws) :
    ∃ t, encode t = raws.flatten := by
  induction raws with
  | nil => exact ⟨"", rfl⟩
  | cons raw raws ih =>
    obtain ⟨s, hs⟩ := Option.isSome_iff_exists.mp (h raw List.mem_cons_self)
    obtain ⟨t, ht⟩ := ih ((decodable_cons_of_some hs raws).mp h)
    refine ⟨s ++ t, ?_⟩
    rw [encode_append, encode_of_decode? hs, ht, List.flatten_cons]

theorem isSome_decode?_iff {bytes : List UInt8} :
    (decode? bytes).isSome = true ↔ Decodable (rawLines bytes) := by
  constructor
  · intro h raw hraw
    obtain ⟨t, ht⟩ := Option.isSome_iff_exists.mp h
    rw [← encode_of_decode? ht] at hraw
    have hmem : readLine? raw ∈ (lines t).map some := by
      rw [← readLine?_rawLines]
      exact List.mem_map_of_mem hraw
    obtain ⟨l, -, hl⟩ := List.mem_map.mp hmem
    rw [readLine?] at hl
    obtain ⟨u, hu, -⟩ := Option.map_eq_some_iff.mp hl.symm
    rw [hu]
    rfl
  · intro h
    obtain ⟨t, ht⟩ := exists_encode_flatten h
    rw [flatten_rawLines] at ht
    rw [← ht, decode?_encode]
    rfl

/-! ## Carriage returns -/

def carriageReturn : UInt8 := 0x0D

/-- A stream with a carriage return in front of each line feed. -/
def crlf (bytes : List UInt8) : List UInt8 :=
  bytes.flatMap fun b => if b = lineFeed then [carriageReturn, lineFeed] else [b]

theorem rawLines_crlf (bytes : List UInt8) :
    rawLines (crlf bytes) = (rawLines bytes).map crlf := by
  induction bytes with
  | nil => rfl
  | cons b bytes ih =>
    show rawLines ((if b = lineFeed then [carriageReturn, lineFeed] else [b]) ++ crlf bytes) =
      (extendLines b (rawLines bytes)).map crlf
    by_cases hb : b = lineFeed
    · subst hb
      rw [if_pos rfl, extendLines_lineFeed, List.map_cons, ← ih]
      show extendLines carriageReturn (extendLines lineFeed (rawLines (crlf bytes))) = _
      rw [extendLines_lineFeed]
      rfl
    · rw [if_neg hb]
      show extendLines b (rawLines (crlf bytes)) = _
      rw [ih]
      cases rawLines bytes with
      | nil => simp [extendLines, crlf, hb]
      | cons l ls => simp [extendLines, crlf, hb]

theorem withoutEnd_append_lineFeed (t : String) :
    withoutEnd (t ++ "\n") = String.ofList (dropReturn t.toList) := by
  rw [← withoutEnd_closed, String.ofList_append, String.ofList_toList]

theorem dropReturn_append_return (cs : List Char) : dropReturn (cs ++ ['\r']) = cs := by
  rw [dropReturn, List.getLast?_concat, if_pos rfl, List.dropLast_concat]

theorem trim_dropReturn (t : String) : trim (String.ofList (dropReturn t.toList)) = trim t := by
  rw [dropReturn]
  split
  · rename_i hlast
    have ht : String.ofList t.toList.dropLast ++ "\r" = t := by
      apply String.toList_inj.mp
      rw [String.toList_append, String.toList_ofList]
      exact List.dropLast_append_getLast? _ hlast
    have hwhite : ∀ c ∈ "\r".toList, isWhiteSpace c = true := by
      rw [show "\r".toList = ['\r'] from rfl, List.forall_mem_singleton]
      decide
    conv => rhs; rw [← ht]
    exact (trim_append_white hwhite _).symm
  · rw [String.ofList_toList]

theorem crlf_open {w : List UInt8} (h : lineFeed ∉ w) : crlf w = w := by
  induction w with
  | nil => rfl
  | cons b w ih =>
    rw [List.mem_cons, not_or] at h
    rw [crlf, List.flatMap_cons, if_neg (Ne.symm h.1), ← crlf, ih h.2]
    rfl

theorem crlf_closed {w : List UInt8} (h : lineFeed ∉ w) :
    crlf (w ++ [lineFeed]) = w ++ [carriageReturn] ++ [lineFeed] := by
  rw [crlf, List.flatMap_append, ← crlf, crlf_open h, List.append_assoc]
  rfl

end Text
end PrefixCalc
