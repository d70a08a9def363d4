import PrefixCalc.Proofs.Text.Sequences
import PrefixCalc.Text.Lines

/-!
# PrefixCalc.Proofs.Text.Utf8

Encoding and decoding of texts.

* `decode?_eq_some_iff`: bytes decode to a text exactly if they are its encoding.
* `mem_utf8EncodeChar`: a byte below 128 stands for one character only, and nowhere else.
* `decode?_concat`: such a byte at the end has no influence on whether the bytes in front decode.
-/

namespace PrefixCalc
namespace Text

theorem encode_ofList (cs : List Char) :
    encode (String.ofList cs) = cs.flatMap String.utf8EncodeChar := by
  rw [encode, String.toUTF8_eq_toByteArray, String.toByteArray_ofList, List.utf8Encode,
    List.data_toByteArray]

theorem encode_eq_flatMap (s : String) : encode s = s.toList.flatMap String.utf8EncodeChar := by
  rw [← encode_ofList, String.ofList_toList]

theorem encode_append (s t : String) : encode (s ++ t) = encode s ++ encode t := by
  simp only [encode_eq_flatMap, String.toList_append, List.flatMap_append]

theorem toByteArray_encode (s : String) : (encode s).toByteArray = s.toByteArray := by
  apply ByteArray.ext
  rw [List.data_toByteArray, encode, Array.toArray_toList]
  rfl

theorem decode?_encode (s : String) : decode? (encode s) = some s := by
  rw [decode?, toByteArray_encode, String.fromUTF8?, dif_pos s.isValidUTF8]
  rfl

theorem encode_of_decode? {bytes : List UInt8} {s : String} (h : decode? bytes = some s) :
    encode s = bytes := by
  rw [decode?, String.fromUTF8?] at h
  split at h
  · cases h
    exact congrArg Array.toList List.data_toByteArray
  · cases h

theorem decode?_eq_some_iff {bytes : List UInt8} {s : String} :
    decode? bytes = some s ↔ encode s = bytes := by
  constructor
  · exact encode_of_decode?
  · rintro rfl
    exact decode?_encode s

/-! ## Bytes below 128 -/

/-- A character is one byte below 128, or all its bytes are higher. -/
theorem utf8EncodeChar_cases (c : Char) :
    (c.toNat < 128 ∧ String.utf8EncodeChar c = [UInt8.ofNat c.toNat]) ∨
      ∀ b ∈ String.utf8EncodeChar c, 128 ≤ b.toNat := by
  by_cases hlow : c.toNat < 128
  · exact .inl ⟨hlow, utf8EncodeChar_one hlow⟩
  · right
    apply (isSequence_utf8EncodeChar c).high
    rw [String.length_utf8EncodeChar, Ne, Char.utf8Size_eq_one_iff, UInt32.le_iff_toNat_le,
      Char.toNat_val]
    exact fun h => hlow (Nat.lt_succ_of_le h)

theorem mem_utf8EncodeChar {b : UInt8} {c : Char} (hb : b.toNat < 128)
    (h : b ∈ String.utf8EncodeChar c) : c.toNat = b.toNat ∧ String.utf8EncodeChar c = [b] := by
  rcases utf8EncodeChar_cases c with ⟨hc, henc⟩ | hhigh
  · rw [henc, List.mem_singleton] at h
    subst h
    refine ⟨?_, henc⟩
    rw [UInt8.toNat_ofNat', Nat.mod_eq_of_lt (by omega)]
  · have := hhigh b h
    omega

theorem decode?_concat {bytes : List UInt8} {b : UInt8} {t : String} (hb : b.toNat < 128)
    (ht : encode t = [b]) : decode? (bytes ++ [b]) = (decode? bytes).map (· ++ t) := by
  cases h : decode? bytes with
  | some s => rw [Option.map_some, decode?_eq_some_iff, encode_append, ht, encode_of_decode? h]
  | none =>
    rw [Option.map_none, Option.eq_none_iff_forall_ne_some]
    intro u hu
    have henc := encode_of_decode? hu
    rw [encode_eq_flatMap] at henc
    rcases List.eq_nil_or_concat u.toList with hnil | ⟨cs, c, hcs⟩
    · simp [hnil] at henc
    · rw [hcs, List.concat_eq_append, List.flatMap_append, List.flatMap_singleton] at henc
      have hmem : b ∈ String.utf8EncodeChar c := by
        have hlast := congrArg List.getLast? henc
        rw [List.getLast?_append_of_ne_nil _ String.utf8EncodeChar_ne_nil,
          List.getLast?_concat] at hlast
        exact List.mem_of_getLast? hlast
      rw [(mem_utf8EncodeChar hb hmem).2] at henc
      have hfront := List.append_cancel_right henc
      rw [← encode_ofList, ← decode?_eq_some_iff, h] at hfront
      cases hfront

end Text
end PrefixCalc
