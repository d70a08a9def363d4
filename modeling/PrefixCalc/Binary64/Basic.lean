/-!
# PrefixCalc.Binary64.Basic

The numbers of the calculator: IEEE 754 binary64 values, as mathematics rather than as machine
words.

* `Magnitude` — a finite magnitude, `sig * 2 ^ exp` units of `2 ^ (-1074)`, in its only form.
* `Binary64`  — not a number, an infinity, or a signed magnitude; not-a-number is either quiet or
  signaling, and every operation that meets one answers with the quiet one or passes over it.
* `ofBits`, `toBits` — the interchange encoding; `ofBits_toBits` and `toBits_ofBits` say that they
  are inverse to each other on everything but the many encodings of not-a-number.
-/

namespace PrefixCalc

/-- A finite magnitude of `sig * 2 ^ exp` units, where the unit is the least positive value
`2 ^ (-1074)`. Above the least exponent the significand has its full 53 bits, so each magnitude has
one form. -/
structure Magnitude where
  sig : Nat
  exp : Nat
  sig_lt : sig < 0x20000000000000 := by decide
  full : 0x10000000000000 ≤ sig ∨ exp = 0 := by decide
  exp_le : exp ≤ 2045 := by decide
  deriving DecidableEq

namespace Magnitude

/-- The value, counted in units. -/
def units (m : Magnitude) : Nat := m.sig <<< m.exp

/-- The number of units in one. -/
def unitsPerOne : Nat := 1 <<< 1074

def zero : Magnitude := { sig := 0, exp := 0 }

def one : Magnitude := { sig := 0x10000000000000, exp := 1022 }

/-- Zero is the only magnitude without a significand bit. -/
def isZero (m : Magnitude) : Bool := m.sig == 0

/-- The encoding without the sign: the biased exponent above the 52 stored bits. The leading bit of
a full significand carries into the exponent field, so one sum serves both kinds. -/
def code (m : Magnitude) : Nat := m.exp * 0x10000000000000 + m.sig

/-- The code of the infinities; every smaller number is the code of a magnitude. -/
def codeLimit : Nat := 0x7FF0000000000000

theorem code_lt (m : Magnitude) : m.code < codeLimit := by
  have := m.sig_lt
  have := m.exp_le
  simp only [code, codeLimit]
  omega

/-- The magnitude with a given code. -/
def ofCode (c : Nat) (h : c < codeLimit) : Magnitude :=
  if hs : c < 0x10000000000000 then
    { sig := c, exp := 0, sig_lt := by omega, full := .inr rfl, exp_le := by decide }
  else
    { sig := 0x10000000000000 + c % 0x10000000000000
      exp := c / 0x10000000000000 - 1
      sig_lt := by omega
      full := .inl (by omega)
      exp_le := by simp only [codeLimit] at h; omega }

theorem ext {m n : Magnitude} (hs : m.sig = n.sig) (he : m.exp = n.exp) : m = n := by
  cases m; cases n; cases hs; cases he; rfl

theorem code_ofCode {c : Nat} (h : c < codeLimit) : (ofCode c h).code = c := by
  unfold ofCode
  split
  · simp [code]
  · simp only [code]; omega

theorem ofCode_code (m : Magnitude) : ofCode m.code m.code_lt = m := by
  have hl := m.sig_lt
  have hf := m.full
  unfold ofCode
  split
  · rename_i h
    simp only [code] at h
    apply ext <;> simp only [code] <;> omega
  · rename_i h
    simp only [code] at h
    apply ext <;> simp only [code] <;> omega

end Magnitude

/-- A binary64 value. Zero has a sign; not-a-number has neither sign nor payload, but may signal. -/
inductive Binary64 where
  | nan (signaling : Bool)
  | infinite (negative : Bool)
  | finite (negative : Bool) (mag : Magnitude)
  deriving DecidableEq

namespace Binary64

def quietNaN : Binary64 := .nan false

def infinity : Binary64 := .infinite false

def zero : Binary64 := .finite false .zero

def one : Binary64 := .finite false .one

def isNaN : Binary64 → Bool
  | .nan _ => true
  | _ => false

def isSignaling : Binary64 → Bool
  | .nan signaling => signaling
  | _ => false

def isZero : Binary64 → Bool
  | .finite _ m => m.isZero
  | _ => false

/-- Equality of values as arithmetic sees it: not-a-number differs from itself, and the two zeros
are equal. -/
def equal : Binary64 → Binary64 → Bool
  | .infinite s, .infinite t => s == t
  | .finite s m, .finite t n => (s == t && m == n) || (m.isZero && n.isZero)
  | _, _ => false

/-! ## Interchange encoding -/

def signBit (negative : Bool) : Nat := if negative then 0x8000000000000000 else 0

/-- The least code of a quiet not-a-number; the codes below it, down to the infinities, signal. -/
def quietCode : Nat := 0x7FF8000000000000

/-- The encoding as a natural number; each not-a-number gets one positive pattern. -/
def word : Binary64 → Nat
  | .nan signaling => if signaling then 0x7FF4000000000000 else quietCode
  | .infinite s => signBit s + Magnitude.codeLimit
  | .finite s m => signBit s + m.code

def toBits (x : Binary64) : UInt64 := UInt64.ofNat x.word

def ofBits (b : UInt64) : Binary64 :=
  let negative := decide (0x8000000000000000 ≤ b.toNat)
  let code := b.toNat % 0x8000000000000000
  if h : code < Magnitude.codeLimit then .finite negative (.ofCode code h)
  else if code = Magnitude.codeLimit then .infinite negative
  else .nan (decide (code < quietCode))

theorem word_lt (x : Binary64) : x.word < 0x10000000000000000 := by
  match x with
  | .nan signaling => simp only [word, quietCode]; split <;> omega
  | .infinite s => simp only [word, signBit, Magnitude.codeLimit]; split <;> omega
  | .finite s m =>
    have h := m.code_lt
    simp only [word, signBit, Magnitude.codeLimit] at h ⊢
    split <;> omega

theorem toNat_toBits (x : Binary64) : x.toBits.toNat = x.word := by
  simp only [toBits, UInt64.toNat_ofNat']
  exact Nat.mod_eq_of_lt x.word_lt

/-- A word is split at its top bit. -/
theorem signBit_split (negative : Bool) {c : Nat} (h : c < 0x8000000000000000) :
    decide (0x8000000000000000 ≤ signBit negative + c) = negative ∧
      (signBit negative + c) % 0x8000000000000000 = c := by
  cases negative
  · simp only [signBit, Bool.false_eq_true, ↓reduceIte, decide_eq_false_iff_not]; omega
  · simp only [signBit, ↓reduceIte, decide_eq_true_eq]; omega

/-- Decoding undoes encoding. -/
theorem ofBits_toBits (x : Binary64) : ofBits x.toBits = x := by
  simp only [ofBits, toNat_toBits]
  match x with
  | .nan signaling => cases signaling <;> decide +kernel
  | .infinite s =>
    have h := signBit_split s (c := Magnitude.codeLimit) (by simp only [Magnitude.codeLimit]; omega)
    simp only [word, h.2, Nat.lt_irrefl, ↓reduceDIte, ↓reduceIte]
    exact congrArg infinite h.1
  | .finite s m =>
    have hc := m.code_lt
    have h := signBit_split s (c := m.code) (by simp only [Magnitude.codeLimit] at hc; omega)
    simp only [word, h.2, hc, ↓reduceDIte, Magnitude.ofCode_code]
    exact congrArg (finite · m) h.1

/-- Encoding undoes decoding, except that every not-a-number comes back as the pattern of its
kind. -/
theorem toBits_ofBits {b : UInt64} (h : (ofBits b).isNaN = false) : (ofBits b).toBits = b := by
  apply UInt64.toNat.inj
  rw [toNat_toBits]
  have hb : signBit (decide (0x8000000000000000 ≤ b.toNat)) + b.toNat % 0x8000000000000000 =
      b.toNat := by
    have hlt := b.toNat_lt
    simp only [signBit, decide_eq_true_eq]
    split <;> omega
  simp only [ofBits] at h ⊢
  split
  · simp only [word, Magnitude.code_ofCode, hb]
  · rename_i hfin
    split
    · rename_i hinf
      simp only [word, ← hinf, hb]
    · rename_i hinf
      rw [dif_neg hfin, if_neg hinf] at h
      cases h

end Binary64
end PrefixCalc
