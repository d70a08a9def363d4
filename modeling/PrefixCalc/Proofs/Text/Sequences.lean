import Mathlib.Data.List.Basic

/-!
# PrefixCalc.Proofs.Text.Sequences

The bytes of one character in UTF-8, told from the bytes alone.

* `IsSequence`: no form is longer than it has to be, and none stands for a surrogate or for a number
  above `0x10FFFF`.
* `isSequence_iff`: these are the encodings of the characters.
* `IsSequence.high`: a byte below 128 is a sequence of its own, and part of no other.
-/

namespace PrefixCalc
namespace Text

def IsTail (b : UInt8) : Prop := 0x80 ≤ b.toNat ∧ b.toNat ≤ 0xBF

inductive IsSequence : List UInt8 → Prop where
  | one {b : UInt8} (lead : b.toNat ≤ 0x7F) : IsSequence [b]
  | two {b₀ b₁ : UInt8} (lead : 0xC2 ≤ b₀.toNat ∧ b₀.toNat ≤ 0xDF) (tail : IsTail b₁) :
      IsSequence [b₀, b₁]
  | three {b₀ b₁ b₂ : UInt8} (lead : 0xE0 ≤ b₀.toNat ∧ b₀.toNat ≤ 0xEF)
      (tail₁ : IsTail b₁) (tail₂ : IsTail b₂) (short : b₀.toNat = 0xE0 → 0xA0 ≤ b₁.toNat)
      (scalar : b₀.toNat = 0xED → b₁.toNat ≤ 0x9F) : IsSequence [b₀, b₁, b₂]
  | four {b₀ b₁ b₂ b₃ : UInt8} (lead : 0xF0 ≤ b₀.toNat ∧ b₀.toNat ≤ 0xF4)
      (tail₁ : IsTail b₁) (tail₂ : IsTail b₂) (tail₃ : IsTail b₃)
      (short : b₀.toNat = 0xF0 → 0x90 ≤ b₁.toNat) (scalar : b₀.toNat = 0xF4 → b₁.toNat ≤ 0x8F) :
      IsSequence [b₀, b₁, b₂, b₃]

/-- A byte below 128 is part of no longer sequence. -/
theorem IsSequence.high {bytes : List UInt8} (h : IsSequence bytes) (hlen : bytes.length ≠ 1) :
    ∀ b ∈ bytes, 128 ≤ b.toNat := by
  cases h with
  | one _ => exact absurd rfl hlen
  | two lead tail =>
    simp only [List.forall_mem_cons]
    exact ⟨by omega, tail.1, List.forall_mem_nil _⟩
  | three lead tail₁ tail₂ _ _ =>
    simp only [List.forall_mem_cons]
    exact ⟨by omega, tail₁.1, tail₂.1, List.forall_mem_nil _⟩
  | four lead tail₁ tail₂ tail₃ _ _ =>
    simp only [List.forall_mem_cons]
    exact ⟨by omega, tail₁.1, tail₂.1, tail₃.1, List.forall_mem_nil _⟩

/-! ## The number of a character in its bytes -/

section

variable {c : Char}

theorem utf8EncodeChar_one (h : c.toNat < 0x80) :
    String.utf8EncodeChar c = [UInt8.ofNat c.toNat] := by
  simp only [String.utf8EncodeChar, Char.toNat_val]
  rw [if_pos (by omega)]

theorem utf8EncodeChar_two (hlow : 0x80 ≤ c.toNat) (hhigh : c.toNat < 0x800) :
    String.utf8EncodeChar c =
      [UInt8.ofNat (c.toNat / 64 + 0xC0), UInt8.ofNat (c.toNat % 64 + 0x80)] := by
  simp only [String.utf8EncodeChar, Char.toNat_val]
  rw [if_neg (by omega), if_pos (by omega), Nat.mod_eq_of_lt (a := c.toNat / 64) (by omega)]

theorem utf8EncodeChar_three (hlow : 0x800 ≤ c.toNat) (hhigh : c.toNat < 0x10000) :
    String.utf8EncodeChar c =
      [UInt8.ofNat (c.toNat / 4096 + 0xE0), UInt8.ofNat (c.toNat / 64 % 64 + 0x80),
       UInt8.ofNat (c.toNat % 64 + 0x80)] := by
  simp only [String.utf8EncodeChar, Char.toNat_val]
  rw [if_neg (by omega), if_neg (by omega), if_pos (by omega),
    Nat.mod_eq_of_lt (a := c.toNat / 4096) (by omega)]

theorem utf8EncodeChar_four (hlow : 0x10000 ≤ c.toNat) :
    String.utf8EncodeChar c =
      [UInt8.ofNat (c.toNat / 262144 + 0xF0), UInt8.ofNat (c.toNat / 4096 % 64 + 0x80),
       UInt8.ofNat (c.toNat / 64 % 64 + 0x80), UInt8.ofNat (c.toNat % 64 + 0x80)] := by
  have hvalid : c.toNat < 0xD800 ∨ 0xDFFF < c.toNat ∧ c.toNat < 0x110000 := c.valid
  simp only [String.utf8EncodeChar, Char.toNat_val]
  rw [if_neg (by omega), if_neg (by omega), if_neg (by omega),
    Nat.mod_eq_of_lt (a := c.toNat / 262144) (by omega)]

end

/-! ## One character -/

theorem ofNat_eq {b : UInt8} {n : Nat} (h : n = b.toNat) : UInt8.ofNat n = b := by
  rw [h, UInt8.ofNat_toNat]

theorem isTail_ofNat (n : Nat) : IsTail (UInt8.ofNat (n % 64 + 0x80)) := by
  rw [IsTail, UInt8.toNat_ofNat']
  omega

theorem isSequence_utf8EncodeChar (c : Char) : IsSequence (String.utf8EncodeChar c) := by
  have hvalid : c.toNat < 0xD800 ∨ 0xDFFF < c.toNat ∧ c.toNat < 0x110000 := c.valid
  rcases Nat.lt_or_ge c.toNat 0x80 with h₁ | h₁
  · rw [utf8EncodeChar_one h₁]
    refine .one ?_
    rw [UInt8.toNat_ofNat']
    omega
  rcases Nat.lt_or_ge c.toNat 0x800 with h₂ | h₂
  · rw [utf8EncodeChar_two h₁ h₂]
    refine .two ?_ (isTail_ofNat _)
    rw [UInt8.toNat_ofNat']
    omega
  rcases Nat.lt_or_ge c.toNat 0x10000 with h₃ | h₃
  · rw [utf8EncodeChar_three h₂ h₃]
    refine .three ?_ (isTail_ofNat _) (isTail_ofNat _) ?_ ?_
    all_goals
      simp only [UInt8.toNat_ofNat']
      omega
  · rw [utf8EncodeChar_four h₃]
    refine .four ?_ (isTail_ofNat _) (isTail_ofNat _) (isTail_ofNat _) ?_ ?_
    all_goals
      simp only [UInt8.toNat_ofNat']
      omega

theorem exists_char {n : Nat} (h : n < 0xD800 ∨ 0xDFFF < n ∧ n < 0x110000) :
    ∃ c : Char, c.toNat = n := ⟨Char.ofNatAux n h, rfl⟩

/-- The bytes give the number of the character in base 64, behind the mark of the first one. -/
theorem exists_utf8EncodeChar {bytes : List UInt8} (h : IsSequence bytes) :
    ∃ c, String.utf8EncodeChar c = bytes := by
  cases h with
  | @one b lead =>
    obtain ⟨c, hc⟩ := @exists_char b.toNat (by omega)
    refine ⟨c, ?_⟩
    rw [utf8EncodeChar_one (by omega), ofNat_eq hc]
  | @two b₀ b₁ lead tail =>
    obtain ⟨low, high⟩ := tail
    obtain ⟨c, hc⟩ := @exists_char ((b₀.toNat - 0xC0) * 64 + (b₁.toNat - 0x80)) (by omega)
    refine ⟨c, ?_⟩
    rw [utf8EncodeChar_two (by omega) (by omega), @ofNat_eq b₀ _ (by omega),
      @ofNat_eq b₁ _ (by omega)]
  | @three b₀ b₁ b₂ lead tail₁ tail₂ short scalar =>
    obtain ⟨low₁, high₁⟩ := tail₁
    obtain ⟨low₂, high₂⟩ := tail₂
    obtain ⟨c, hc⟩ := @exists_char
      ((b₀.toNat - 0xE0) * 4096 + (b₁.toNat - 0x80) * 64 + (b₂.toNat - 0x80)) (by omega)
    refine ⟨c, ?_⟩
    rw [utf8EncodeChar_three (by omega) (by omega), @ofNat_eq b₀ _ (by omega),
      @ofNat_eq b₁ _ (by omega), @ofNat_eq b₂ _ (by omega)]
  | @four b₀ b₁ b₂ b₃ lead tail₁ tail₂ tail₃ short scalar =>
    obtain ⟨low₁, high₁⟩ := tail₁
    obtain ⟨low₂, high₂⟩ := tail₂
    obtain ⟨low₃, high₃⟩ := tail₃
    obtain ⟨c, hc⟩ := @exists_char
      ((b₀.toNat - 0xF0) * 262144 + (b₁.toNat - 0x80) * 4096 + (b₂.toNat - 0x80) * 64 +
        (b₃.toNat - 0x80)) (by omega)
    refine ⟨c, ?_⟩
    rw [utf8EncodeChar_four (by omega), @ofNat_eq b₀ _ (by omega), @ofNat_eq b₁ _ (by omega),
      @ofNat_eq b₂ _ (by omega), @ofNat_eq b₃ _ (by omega)]

theorem isSequence_iff {bytes : List UInt8} :
    IsSequence bytes ↔ ∃ c, String.utf8EncodeChar c = bytes := by
  constructor
  · exact exists_utf8EncodeChar
  · rintro ⟨c, rfl⟩
    exact isSequence_utf8EncodeChar c

end Text
end PrefixCalc
