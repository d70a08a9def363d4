import PrefixCalc.Binary64.Basic

/-!
# PrefixCalc.Binary64.Rounding

Rounding to nearest, ties to even. An exact non-negative result is a quotient `a / d` counted in
units of `2 ^ (-1074)`, and every operation and every decimal numeral is rounded here, once.

* `roundQuotient` — the integer nearest a quotient, the even one on a tie.
* `Magnitude.nearest?` — the magnitude nearest a quotient, `none` from `2 ^ 1024 - 2 ^ 970` on.
* `Binary64.rounded` — the same with a sign; what is too large becomes an infinity.
-/

namespace PrefixCalc

/-- The integer nearest `a / d`; of two equally near, the even one. -/
def roundQuotient (a d : Nat) : Nat :=
  let q := a / d
  let r := a % d
  if 2 * r < d then q
  else if d < 2 * r then q + 1
  else if q % 2 = 0 then q
  else q + 1

theorem roundQuotient_cases (a d : Nat) :
    (roundQuotient a d = a / d ∧ 2 * (a % d) ≤ d) ∨
      (roundQuotient a d = a / d + 1 ∧ d ≤ 2 * (a % d)) := by
  simp only [roundQuotient]
  split
  · exact .inl ⟨rfl, by omega⟩
  · split
    · exact .inr ⟨rfl, by omega⟩
    · split
      · exact .inl ⟨rfl, by omega⟩
      · exact .inr ⟨rfl, by omega⟩

namespace Magnitude

/-- The exponent of the last place of a magnitude near `a / d`: it leaves 53 bits of the quotient
above it, or all of them if there are fewer. -/
def lastPlace (a d : Nat) : Nat := (a / d).log2 - 52

/-- Counted in last places, a quotient has less than 54 bits, and 53 unless the last place is the
unit itself. -/
theorem lastPlace_bounds (a d : Nat) :
    a / d <<< lastPlace a d < 0x20000000000000 ∧
      (0x10000000000000 ≤ a / d <<< lastPlace a d ∨ lastPlace a d = 0) := by
  rw [Nat.shiftLeft_eq, ← Nat.div_div_eq_div_mul, show 0x20000000000000 = 2 ^ 53 by decide,
    show 0x10000000000000 = 2 ^ 52 by decide]
  simp only [lastPlace]
  generalize a / d = q
  have hlt : q < 2 ^ (q.log2 + 1) := Nat.lt_log2_self
  refine ⟨?_, ?_⟩
  · rw [Nat.div_lt_iff_lt_mul (Nat.two_pow_pos _), ← Nat.pow_add]
    exact Nat.lt_of_lt_of_le hlt (Nat.pow_le_pow_right (by decide) (by omega))
  · rcases Nat.lt_or_ge q.log2 53 with h | h
    · exact .inr (by omega)
    · refine .inl ((Nat.le_div_iff_mul_le (Nat.two_pow_pos _)).mpr ?_)
      have hq : q ≠ 0 := by rintro rfl; simp [Nat.log2_zero] at h
      rw [← Nat.pow_add, show 52 + (q.log2 - 52) = q.log2 by omega]
      exact Nat.log2_self_le hq

/-- The magnitude nearest `a / d` units, ties to the even significand, or `none` if that lies above
the greatest magnitude. A significand rounded up to `2 ^ 53` moves to the next exponent. -/
@[irreducible] def nearest? (a d : Nat) : Option Magnitude :=
  let p := lastPlace a d
  let s := roundQuotient a (d <<< p)
  if hs : s < 0x20000000000000 then
    if hp : p ≤ 2045 then
      some
        { sig := s
          exp := p
          sig_lt := hs
          full := by
            have hb := (lastPlace_bounds a d).2
            have hc := roundQuotient_cases a (d <<< lastPlace a d)
            simp only [s, p]
            omega
          exp_le := hp }
    else none
  else if hp : p + 1 ≤ 2045 then
    some
      { sig := 0x10000000000000
        exp := p + 1
        sig_lt := one.sig_lt
        full := .inl (Nat.le_refl _)
        exp_le := hp }
  else none

end Magnitude

namespace Binary64

/-- The value nearest `a / d` units with the given sign, which stays on a result of zero. -/
def rounded (negative : Bool) (a d : Nat) : Binary64 :=
  match Magnitude.nearest? a d with
  | some m => .finite negative m
  | none => .infinite negative

theorem rounded_of_some {a d : Nat} {m : Magnitude} (h : Magnitude.nearest? a d = some m)
    (negative : Bool) : rounded negative a d = .finite negative m := by
  simp only [rounded, h]

theorem rounded_of_none {a d : Nat} (h : Magnitude.nearest? a d = none) (negative : Bool) :
    rounded negative a d = .infinite negative := by
  simp only [rounded, h]

end Binary64
end PrefixCalc
