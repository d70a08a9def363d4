import PrefixCalc.Proofs.Text.Utf8
import PrefixCalc.Text.Access

/-!
# PrefixCalc.Proofs.Text.Access

Byte indices and the characters on both sides of them.

* `head?_encode_eq_some_iff`, `length_takeWhile_encode`: characters of one byte are found among the
  bytes where they are among the characters. No byte of another character is taken for one.
* `At t i front rest`: the index is where the characters `front` of the text end and `rest` begin.
* `At.bytesFrom`, `At.textFrom`, `At.textUpTo`: every cut at such an index succeeds.
* `At.past`, `At.advance`: behind more characters, the index is greater by their size, which is
  their number if they have one byte each.
-/

namespace PrefixCalc
namespace Text

/-! ## Characters of one byte -/

theorem encode_cons (c : Char) (cs : List Char) :
    encode (String.ofList (c :: cs)) = String.utf8EncodeChar c ++ encode (String.ofList cs) := by
  rw [encode_ofList, encode_ofList, List.flatMap_cons]

theorem length_encode (t : String) : (encode t).length = t.utf8ByteSize := by
  rw [encode, Array.length_toList]
  rfl

theorem length_encode_low {cs : List Char} (h : ∀ c ∈ cs, c.toNat < 128) :
    (encode (String.ofList cs)).length = cs.length := by
  induction cs with
  | nil => rfl
  | cons c cs ih =>
    obtain ⟨hc, hcs⟩ := List.forall_mem_cons.mp h
    rw [encode_cons, utf8EncodeChar_one hc, List.singleton_append, List.length_cons, ih hcs,
      List.length_cons]

theorem ofUInt8_ofNat {c : Char} (h : c.toNat < 128) : Char.ofUInt8 (UInt8.ofNat c.toNat) = c := by
  apply Char.toNat_inj.mp
  show (UInt8.ofNat c.toNat).toNat = c.toNat
  rw [UInt8.toNat_ofNat', Nat.mod_eq_of_lt (by omega)]

/-- The first byte of a character stands for a character of one byte only if it is that byte. -/
theorem exists_utf8EncodeChar_cons (c : Char) :
    ∃ b bs, String.utf8EncodeChar c = b :: bs ∧
      (c.toNat < 128 ∧ bs = [] ∧ Char.ofUInt8 b = c ∨
        128 ≤ c.toNat ∧ 128 ≤ (Char.ofUInt8 b).toNat) := by
  by_cases hlow : c.toNat < 128
  · exact ⟨_, _, utf8EncodeChar_one hlow, .inl ⟨hlow, rfl, ofUInt8_ofNat hlow⟩⟩
  · have hhigh := (utf8EncodeChar_cases c).resolve_left fun h => hlow h.1
    obtain ⟨b, bs, henc⟩ := List.exists_cons_of_ne_nil (String.utf8EncodeChar_ne_nil (c := c))
    exact ⟨b, bs, henc, .inr ⟨Nat.le_of_not_lt hlow, hhigh b (henc ▸ List.mem_cons_self)⟩⟩

theorem head?_encode_eq_some_iff {cs : List Char} {c : Char} (hc : c.toNat < 128) :
    (encode (String.ofList cs)).head?.map Char.ofUInt8 = some c ↔ cs.head? = some c := by
  cases cs with
  | nil => exact Iff.rfl
  | cons d cs =>
    obtain ⟨b, bs, henc, hcases⟩ := exists_utf8EncodeChar_cons d
    rw [encode_cons, henc, List.cons_append, List.head?_cons, Option.map_some, List.head?_cons,
      Option.some_inj, Option.some_inj]
    rcases hcases with ⟨-, -, hb⟩ | ⟨hd, hb⟩
    · rw [hb]
    · refine iff_of_false ?_ ?_
      · rintro rfl
        omega
      · rintro rfl
        omega

theorem length_takeWhile_encode {p : Char → Bool} (hp : ∀ c, p c = true → c.toNat < 128)
    (cs : List Char) :
    ((encode (String.ofList cs)).takeWhile fun b => p (Char.ofUInt8 b)).length =
      (cs.takeWhile p).length := by
  induction cs with
  | nil => rfl
  | cons c cs ih =>
    obtain ⟨b, bs, henc, hcases⟩ := exists_utf8EncodeChar_cons c
    rw [encode_cons, henc, List.cons_append, List.takeWhile_cons, List.takeWhile_cons]
    rcases hcases with ⟨-, rfl, hb⟩ | ⟨hc, hb⟩
    · rw [hb, List.nil_append]
      cases p c with
      | true => rw [if_pos rfl, if_pos rfl, List.length_cons, List.length_cons, ih]
      | false => rfl
    · have hhigh : ∀ d : Char, 128 ≤ d.toNat → p d = false := by
        intro d hd
        apply Bool.eq_false_iff.mpr
        intro hpd
        have := hp d hpd
        omega
      rw [hhigh c hc, hhigh _ hb]
      rfl

/-! ## Indices between characters -/

/-- An index at which the text can be cut. -/
def IsCut (t : String) (i : Nat) : Prop :=
  i ≤ (encode t).length ∧ String.Pos.Raw.IsValid t ⟨i⟩

structure At (t : String) (i : Nat) (front rest : List Char) : Prop where
  text : t = String.ofList front ++ String.ofList rest
  index : i = (String.ofList front).utf8ByteSize

namespace At

variable {t : String} {i : Nat} {front rest : List Char}

theorem start (t : String) : At t 0 [] t.toList where
  text := by rw [String.ofList_toList]; rfl
  index := rfl

section

variable (h : At t i front rest)

include h

theorem encode_eq : encode t = encode (String.ofList front) ++ encode (String.ofList rest) := by
  rw [h.text, encode_append]

theorem length_front : (encode (String.ofList front)).length = i := by
  rw [length_encode, h.index]

theorem le : i ≤ (encode t).length := by
  rw [h.encode_eq, List.length_append, h.length_front]
  exact Nat.le_add_right _ _

theorem isValid : String.Pos.Raw.IsValid t ⟨i⟩ := by
  rw [String.Pos.Raw.isValid_iff_exists_append]
  exact ⟨_, _, h.text, congrArg String.Pos.Raw.mk h.index⟩

theorem isCut : IsCut t i := ⟨h.le, h.isValid⟩

theorem drop : (encode t).drop i = encode (String.ofList rest) := by
  rw [h.encode_eq, List.drop_left' h.length_front]

theorem bytesFrom : Text.bytesFrom (encode t) i = .ok (encode (String.ofList rest)) := by
  rw [Text.bytesFrom, if_pos h.le, h.drop]

theorem splits : (⟨⟨i⟩, h.isValid⟩ : t.Pos).Splits (String.ofList front) (String.ofList rest) where
  eq_append := h.text
  offset_eq_rawEndPos := congrArg String.Pos.Raw.mk h.index

theorem textFrom : Text.textFrom t i = .ok (String.ofList rest) := by
  rw [Text.textFrom, position, dif_pos h.isValid]
  exact congrArg Except.ok ((String.Pos.splits _).eq_right h.splits)

theorem textUpTo : Text.textUpTo t i = .ok (String.ofList front) := by
  rw [Text.textUpTo, position, dif_pos h.isValid]
  exact congrArg Except.ok ((String.Pos.splits _).eq_left h.splits)

theorem charAt?_eq_some_iff {c : Char} (hc : c.toNat < 128) :
    charAt? (encode t) i = some c ↔ rest.head? = some c := by
  rw [charAt?, ← List.head?_drop, h.drop, head?_encode_eq_some_iff hc]

end

theorem byteAt {c : Char} {cs : List Char} (h : At t i front (c :: cs)) :
    ∃ b, Text.byteAt (encode t) i = .ok b ∧
      ∀ d : Char, d.toNat < 128 → (Char.ofUInt8 b = d ↔ c = d) := by
  obtain ⟨b, bs, henc, hcases⟩ := exists_utf8EncodeChar_cons c
  have hbyte : (encode t)[i]? = some b := by
    rw [← List.head?_drop, h.drop, encode_cons, henc, List.cons_append, List.head?_cons]
  refine ⟨b, by rw [Text.byteAt, hbyte], ?_⟩
  intro d hd
  have hchar := h.charAt?_eq_some_iff hd
  rwa [charAt?, hbyte, Option.map_some, List.head?_cons, Option.some_inj, Option.some_inj] at hchar

theorem past {cs : List Char} (h : At t i front (cs ++ rest)) :
    At t (i + (String.ofList cs).utf8ByteSize) (front ++ cs) rest where
  text := by rw [h.text, String.ofList_append, String.ofList_append, String.append_assoc]
  index := by rw [String.ofList_append, String.utf8ByteSize_append, ← h.index]

theorem advance {cs : List Char} (h : At t i front (cs ++ rest)) (hcs : ∀ c ∈ cs, c.toNat < 128) :
    At t (i + cs.length) (front ++ cs) rest := by
  rw [← length_encode_low hcs, length_encode]
  exact h.past

theorem next {c : Char} (h : At t i front (c :: rest)) (hc : c.toNat < 128) :
    At t (i + 1) (front ++ [c]) rest :=
  advance h (List.forall_mem_singleton.mpr hc)

end At

end Text
end PrefixCalc
