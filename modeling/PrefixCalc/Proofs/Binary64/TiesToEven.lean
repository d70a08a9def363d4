import Mathlib.Algebra.Order.Field.Power
import Mathlib.Algebra.Order.Field.Rat
import Mathlib.Tactic.FieldSimp
import Mathlib.Tactic.Linarith
import Mathlib.Tactic.Positivity
import Mathlib.Tactic.Ring
import PrefixCalc.Proofs.Binary64.Nearest

/-!
# PrefixCalc.Proofs.Binary64.TiesToEven

Rounding to nearest, ties to even, said of rational numbers and all magnitudes.

* `IsNearest`: no magnitude is closer to a rational number, and if another one is as close, the
  significand is even.
* `nearest?_closer`: the magnitude nearest a quotient beats every other one, by its distance or by
  its parity.
* `nearest?_eq_none_iff`, `nearest?_eq_some_iff`: rounding gives the only nearest magnitude below
  `2 ^ 1024 - 2 ^ 970`, and none from there on.
-/

namespace PrefixCalc

theorem one_le_abs_sub {k j : Nat} (h : k ≠ j) : (1 : ℚ) ≤ |(k : ℚ) - j| := by
  have hint : (1 : ℤ) ≤ |(k : ℤ) - j| := Int.one_le_abs (by omega)
  exact_mod_cast hint

/-! ## Rounding a quotient to an integer -/

section Quotient

variable (a : Nat) {d : Nat} (hd : 0 < d)

include hd

/-- The quotient is rounded down below a half and up above it; at a half its parity decides. -/
theorem roundQuotient_fraction :
    ∃ r : ℚ, (a / d : ℚ) = (a / d : ℕ) + r ∧
      (roundQuotient a d = a / d ∧ 0 ≤ r ∧ (r < 1 / 2 ∨ r = 1 / 2 ∧ a / d % 2 = 0) ∨
        roundQuotient a d = a / d + 1 ∧ r < 1 ∧ (1 / 2 < r ∨ r = 1 / 2 ∧ a / d % 2 = 1)) := by
  have hd' : (0 : ℚ) < d := Nat.cast_pos.mpr hd
  have hmod : ((a % d : ℕ) : ℚ) < d := Nat.cast_lt.mpr (Nat.mod_lt a hd)
  have hsplit : (a : ℚ) = d * (a / d : ℕ) + (a % d : ℕ) := by
    exact_mod_cast (Nat.div_add_mod a d).symm
  refine ⟨(a % d : ℕ) / d, by rw [hsplit]; field_simp, ?_⟩
  have hlt : (a % d : ℕ) / (d : ℚ) < 1 / 2 ↔ 2 * (a % d) < d := by
    rw [div_lt_iff₀ hd', ← Nat.cast_lt (α := ℚ)]
    push_cast
    constructor <;> intro h <;> linarith
  have hgt : 1 / 2 < (a % d : ℕ) / (d : ℚ) ↔ d < 2 * (a % d) := by
    rw [lt_div_iff₀ hd', ← Nat.cast_lt (α := ℚ)]
    push_cast
    constructor <;> intro h <;> linarith
  have hone : (a % d : ℕ) / (d : ℚ) < 1 := (div_lt_one hd').mpr hmod
  have hzero : 0 ≤ (a % d : ℕ) / (d : ℚ) := by positivity
  have htie : ¬ 2 * (a % d) < d → ¬ d < 2 * (a % d) → (a % d : ℕ) / (d : ℚ) = 1 / 2 :=
    fun h h' => le_antisymm (not_lt.mp (hgt.not.mpr h')) (not_lt.mp (hlt.not.mpr h))
  simp only [roundQuotient]
  split
  · rename_i h
    exact .inl ⟨rfl, hzero, .inl (hlt.mpr h)⟩
  · rename_i hnlt
    split
    · rename_i h
      exact .inr ⟨rfl, hone, .inl (hgt.mpr h)⟩
    · rename_i hngt
      split
      · rename_i heven
        exact .inl ⟨rfl, hzero, .inr ⟨htie hnlt hngt, heven⟩⟩
      · rename_i hodd
        exact .inr ⟨rfl, hone, .inr ⟨htie hnlt hngt, by omega⟩⟩

theorem abs_roundQuotient_sub_le : |(roundQuotient a d : ℚ) - a / d| ≤ 1 / 2 := by
  obtain ⟨r, hr, ⟨h, hpos, hhalf⟩ | ⟨h, hlt, hhalf⟩⟩ := roundQuotient_fraction a hd
  · have hle : r ≤ 1 / 2 := hhalf.elim le_of_lt fun h => h.1.le
    rw [hr, h, abs_le]
    constructor <;> linarith
  · have hle : 1 / 2 ≤ r := hhalf.elim le_of_lt fun h => h.1.ge
    rw [hr, h, abs_le]
    push_cast
    constructor <;> linarith

theorem roundQuotient_even_of_tie (h : |(roundQuotient a d : ℚ) - a / d| = 1 / 2) :
    roundQuotient a d % 2 = 0 := by
  obtain ⟨r, hr, ⟨hq, hpos, hlt | ⟨-, heven⟩⟩ | ⟨hq, hone, hgt | ⟨-, hodd⟩⟩⟩ :=
    roundQuotient_fraction a hd
  · rw [hr, hq, abs_sub_comm, abs_of_nonneg (by linarith)] at h
    linarith
  · rw [hq]
    exact heven
  · rw [hr, hq, abs_of_nonneg (by push_cast; linarith)] at h
    push_cast at h
    linarith
  · omega

/-- Every other integer is farther away, or as far away and odd. -/
theorem roundQuotient_closer {k : Nat} (hk : k ≠ roundQuotient a d) :
    |(roundQuotient a d : ℚ) - a / d| < |(k : ℚ) - a / d| ∨
      |(roundQuotient a d : ℚ) - a / d| = |(k : ℚ) - a / d| ∧
        roundQuotient a d % 2 = 0 ∧ k % 2 = 1 := by
  have hhalf := abs_roundQuotient_sub_le a hd
  have heven := roundQuotient_even_of_tie a hd
  generalize roundQuotient a d = s at *
  generalize (a / d : ℚ) = x at *
  have htri : |(k : ℚ) - s| ≤ |(k : ℚ) - x| + |(s : ℚ) - x| := by
    rw [abs_sub_comm (s : ℚ) x]
    exact abs_sub_le _ _ _
  have hone := one_le_abs_sub hk
  rcases lt_or_ge |(s : ℚ) - x| |(k : ℚ) - x| with hlt | hge
  · exact .inl hlt
  · have hs : |(s : ℚ) - x| = 1 / 2 := by linarith
    have hk : |(k : ℚ) - x| = 1 / 2 := by linarith
    refine .inr ⟨by rw [hs, hk], heven hs, ?_⟩
    -- An even integer other than the even one in front of it is at least two away.
    by_contra hodd
    have heven := heven hs
    have htwo : (2 : ℤ) ≤ |(k : ℤ) - s| := le_abs.mpr (by omega)
    have htwo : (2 : ℚ) ≤ |(k : ℚ) - s| := by exact_mod_cast htwo
    linarith

end Quotient

namespace Magnitude

/-! ## Magnitudes as multiples of a last place -/

/-- Where the significand and the exponent of the nearest magnitude come from. -/
theorem nearest?_form {a d : Nat} {m : Magnitude} (h : nearest? a d = some m) :
    m.sig = roundQuotient a (d * 2 ^ lastPlace a d) ∧ m.exp = lastPlace a d ∨
      m.sig = 2 ^ 52 ∧ m.exp = lastPlace a d + 1 ∧
        roundQuotient a (d * 2 ^ lastPlace a d) = 2 ^ 53 := by
  rw [← Nat.shiftLeft_eq]
  unfold nearest? at h
  dsimp only at h
  have hle := roundQuotient_le a (d <<< lastPlace a d)
  have hlt := (lastPlace_bounds a d).1
  split at h
  · split at h
    · cases h
      exact .inl ⟨rfl, rfl⟩
    · cases h
  · split at h
    · cases h
      exact .inr ⟨rfl, rfl, by omega⟩
    · cases h

theorem eq_of_units_eq {m n : Magnitude} (h : m.units = n.units) : m = n := by
  have hm := nearest?_units m Nat.one_pos
  rw [h, nearest?_units n Nat.one_pos] at hm
  exact (Option.some.inj hm).symm

/-- A magnitude counts whole last places, or lies below all magnitudes with the full significand of
that last place. -/
theorem units_multiple (n : Magnitude) (p : Nat) :
    (∃ k, n.units = k * 2 ^ p ∧ (k % 2 = 1 → n.sig % 2 = 1)) ∨
      0 < p ∧ n.units < 2 ^ 52 * 2 ^ p := by
  have hlt : n.sig < 2 ^ 53 := n.sig_lt
  rw [units_eq]
  rcases Nat.lt_or_ge n.exp p with hp | hp
  · refine .inr ⟨by omega, ?_⟩
    calc n.sig * 2 ^ n.exp < 2 ^ 53 * 2 ^ n.exp := Nat.mul_lt_mul_of_pos_right hlt (by positivity)
      _ = 2 ^ (53 + n.exp) := (Nat.pow_add ..).symm
      _ ≤ 2 ^ (52 + p) := Nat.pow_le_pow_right (by decide) (by omega)
      _ = 2 ^ 52 * 2 ^ p := Nat.pow_add ..
  · refine .inl ⟨n.sig * 2 ^ (n.exp - p), ?_, ?_⟩
    · rw [Nat.mul_assoc, ← Nat.pow_add, Nat.sub_add_cancel hp]
    · intro hodd
      exact (Nat.odd_iff.mp (Nat.odd_mul.mp (Nat.odd_iff.mpr hodd)).1)

section Nearest

variable {a d : Nat} (hd : 0 < d)

include hd

/-- A quotient, counted in last places. -/
theorem div_eq_mul_two_pow (p : Nat) : (a / d : ℚ) = a / (d * 2 ^ p : ℕ) * 2 ^ p := by
  have hd' : (0 : ℚ) < d := Nat.cast_pos.mpr hd
  push_cast
  field_simp

theorem abs_multiple_sub (k p : Nat) :
    |((k * 2 ^ p : ℕ) : ℚ) - a / d| = |(k : ℚ) - a / (d * 2 ^ p : ℕ)| * 2 ^ p := by
  have hscale : ((k * 2 ^ p : ℕ) : ℚ) - a / d = (k - a / (d * 2 ^ p : ℕ)) * 2 ^ p := by
    rw [sub_mul, ← div_eq_mul_two_pow hd]
    push_cast
    rfl
  rw [hscale, abs_mul, abs_of_pos (show (0 : ℚ) < 2 ^ p by positivity)]

/-- A quotient has at least the full significand in front of its last place, unless that is the
unit. -/
theorem le_quotient_of_lastPlace_pos (hp : 0 < lastPlace a d) :
    (2 : ℚ) ^ 52 ≤ a / (d * 2 ^ lastPlace a d : ℕ) := by
  have hpos : 0 < d * 2 ^ lastPlace a d := by positivity
  have hfloor := (lastPlace_bounds a d).2.resolve_right (by omega)
  rw [Nat.shiftLeft_eq, Nat.le_div_iff_mul_le hpos] at hfloor
  rw [le_div_iff₀ (Nat.cast_pos.mpr hpos)]
  exact_mod_cast hfloor

theorem nearest?_closer {m n : Magnitude} (h : nearest? a d = some m) (hn : n ≠ m) :
    |(m.units : ℚ) - a / d| < |(n.units : ℚ) - a / d| ∨
      |(m.units : ℚ) - a / d| = |(n.units : ℚ) - a / d| ∧ m.sig % 2 = 0 ∧ n.sig % 2 = 1 := by
  have hpos : 0 < d * 2 ^ lastPlace a d := by positivity
  have hg : (0 : ℚ) < 2 ^ lastPlace a d := by positivity
  have hcloser := fun k => roundQuotient_closer a hpos (k := k)
  have heven : roundQuotient a (d * 2 ^ lastPlace a d) % 2 = 0 → m.sig % 2 = 0 := by
    rcases nearest?_form h with ⟨hsig, -⟩ | ⟨hsig, -⟩ <;> omega
  have hm := units_nearest? h
  rcases n.units_multiple (lastPlace a d) with ⟨k, hk, hodd⟩ | ⟨hp, hlt⟩
  · have hne : k ≠ roundQuotient a (d * 2 ^ lastPlace a d) := by
      rintro rfl
      exact hn (eq_of_units_eq (hk.trans hm.symm))
    rw [hm, hk, abs_multiple_sub hd, abs_multiple_sub hd]
    rcases hcloser k hne with hlt | ⟨heq, hs, hk⟩
    · exact .inl (mul_lt_mul_of_pos_right hlt hg)
    · exact .inr ⟨by rw [heq], heven hs, hodd hk⟩
  · -- The least magnitude with the full significand stands between `n` and the quotient.
    left
    have hbetween : ((2 ^ 52 * 2 ^ lastPlace a d : ℕ) : ℚ) ≤ a / d := by
      rw [div_eq_mul_two_pow hd (lastPlace a d)]
      push_cast
      exact_mod_cast mul_le_mul_of_nonneg_right (le_quotient_of_lastPlace_pos hd hp) hg.le
    have hle : |(m.units : ℚ) - a / d| ≤ |((2 ^ 52 * 2 ^ lastPlace a d : ℕ) : ℚ) - a / d| := by
      rw [hm, abs_multiple_sub hd, abs_multiple_sub hd]
      refine mul_le_mul_of_nonneg_right ?_ hg.le
      by_cases hs : 2 ^ 52 = roundQuotient a (d * 2 ^ lastPlace a d)
      · rw [hs]
      · exact (hcloser _ hs).elim le_of_lt fun h => h.1.le
    have hlt : (n.units : ℚ) < (2 ^ 52 * 2 ^ lastPlace a d : ℕ) := Nat.cast_lt.mpr hlt
    generalize ((2 ^ 52 * 2 ^ lastPlace a d : ℕ) : ℚ) = b at *
    rw [abs_of_nonpos (sub_nonpos.mpr hbetween)] at hle
    rw [abs_of_neg (a := (n.units : ℚ) - a / d) (by linarith)]
    linarith

/-- The nearest magnitude is at most half of its own last place away. -/
theorem abs_units_sub_le {m : Magnitude} (h : nearest? a d = some m) :
    |(m.units : ℚ) - a / d| ≤ 2 ^ m.exp / 2 := by
  have hpos : 0 < d * 2 ^ lastPlace a d := by positivity
  have hexp : lastPlace a d ≤ m.exp := by
    rcases nearest?_form h with ⟨-, hexp⟩ | ⟨-, hexp, -⟩ <;> omega
  rw [units_nearest? h, abs_multiple_sub hd]
  calc |(roundQuotient a (d * 2 ^ lastPlace a d) : ℚ) - a / (d * 2 ^ lastPlace a d : ℕ)| *
        2 ^ lastPlace a d
      ≤ 1 / 2 * 2 ^ lastPlace a d :=
        mul_le_mul_of_nonneg_right (abs_roundQuotient_sub_le a hpos) (by positivity)
    _ ≤ 1 / 2 * 2 ^ m.exp :=
        mul_le_mul_of_nonneg_left (pow_le_pow_right₀ (by norm_num) hexp) (by norm_num)
    _ = 2 ^ m.exp / 2 := by ring

/-! ## Quotients that are too large -/

theorem quotient_lt (a : Nat) : (a / (d * 2 ^ lastPlace a d : ℕ) : ℚ) < 2 ^ 53 := by
  have hpos : 0 < d * 2 ^ lastPlace a d := by positivity
  have hfloor := (lastPlace_bounds a d).1
  rw [Nat.shiftLeft_eq, Nat.div_lt_iff_lt_mul hpos] at hfloor
  rw [div_lt_iff₀ (Nat.cast_pos.mpr hpos)]
  exact_mod_cast hfloor

/-- What is rounded to a magnitude lies below the middle between the greatest magnitude and the
next multiple of its last place. -/
theorem lt_of_nearest?_eq_some {m : Magnitude} (h : nearest? a d = some m) :
    (a / d : ℚ) < (2 ^ 54 - 1) * 2 ^ 2044 := by
  have hpos : 0 < d * 2 ^ lastPlace a d := by positivity
  have hlt := quotient_lt hd a
  have hhalf := abs_roundQuotient_sub_le a hpos
  have htie := roundQuotient_even_of_tie a hpos
  rw [div_eq_mul_two_pow hd (lastPlace a d)]
  rcases Nat.lt_or_ge (lastPlace a d) 2045 with hp | hp
  · calc (a / (d * 2 ^ lastPlace a d : ℕ) : ℚ) * 2 ^ lastPlace a d
        < 2 ^ 53 * 2 ^ lastPlace a d := mul_lt_mul_of_pos_right hlt (by positivity)
      _ ≤ 2 ^ 53 * 2 ^ 2044 := by
        gcongr
        · norm_num
        · omega
      _ ≤ (2 ^ 54 - 1) * 2 ^ 2044 := by
        gcongr
        norm_num
  · have hsig : roundQuotient a (d * 2 ^ lastPlace a d) < 2 ^ 53 := by
      have := m.sig_lt
      have := m.exp_le
      rcases nearest?_form h with ⟨hsig, -⟩ | ⟨-, hexp, -⟩ <;> omega
    have hp : lastPlace a d = 2044 + 1 := by
      have := lastPlace_le_of_nearest? h
      omega
    generalize roundQuotient a (d * 2 ^ lastPlace a d) = s at *
    generalize (a / (d * 2 ^ lastPlace a d : ℕ) : ℚ) = y at *
    have hy : y < 2 ^ 53 - 1 / 2 := by
      rcases Nat.lt_or_ge (s + 1) (2 ^ 53) with hs | hs
      · have hs : (s : ℚ) + 2 ≤ 2 ^ 53 := by exact_mod_cast hs
        have := (abs_le.mp hhalf).1
        linarith
      · -- The greatest significand is odd, so nothing is rounded to it from the middle above it.
        obtain rfl : s = 2 ^ 53 - 1 := by omega
        have hne : |((2 ^ 53 - 1 : ℕ) : ℚ) - y| ≠ 1 / 2 := fun h => absurd (htie h) (by decide)
        have := (abs_lt.mp (lt_of_le_of_ne hhalf hne)).1
        norm_num at this ⊢
        linarith
    rw [hp, pow_succ, ← mul_assoc, mul_right_comm]
    refine mul_lt_mul_of_pos_right ?_ (by positivity)
    linarith

theorem le_of_nearest?_eq_none (h : nearest? a d = none) :
    ((2 : ℚ) ^ 54 - 1) * 2 ^ 2044 ≤ a / d := by
  have hpos : 0 < d * 2 ^ lastPlace a d := by positivity
  have hform : 2044 + 1 < lastPlace a d ∨
      lastPlace a d = 2044 + 1 ∧ 2 ^ 53 ≤ roundQuotient a (d * 2 ^ lastPlace a d) := by
    rw [← Nat.shiftLeft_eq]
    unfold nearest? at h
    dsimp only at h
    split at h
    · split at h
      · cases h
      · exact .inl (by omega)
    · split at h
      · cases h
      · rcases Nat.lt_or_ge (2044 + 1) (lastPlace a d) with hp | hp
        · exact .inl hp
        · exact .inr ⟨by omega, by omega⟩
  have hfull := le_quotient_of_lastPlace_pos (a := a) hd (by omega)
  have hhalf := (abs_le.mp (abs_roundQuotient_sub_le a hpos)).2
  rw [div_eq_mul_two_pow hd (lastPlace a d)]
  generalize (a / (d * 2 ^ lastPlace a d : ℕ) : ℚ) = y at *
  generalize 2044 = k at *
  rcases hform with hp | ⟨hp, hs⟩
  · calc ((2 : ℚ) ^ 54 - 1) * 2 ^ k ≤ 2 ^ 54 * 2 ^ k := by
          gcongr
          linarith
      _ = 2 ^ 52 * 2 ^ (k + 2) := by ring
      _ ≤ y * 2 ^ lastPlace a d := by
          gcongr
          · norm_num
          · omega
  · have hs : (2 : ℚ) ^ 53 ≤ roundQuotient a (d * 2 ^ lastPlace a d) := by exact_mod_cast hs
    rw [hp, pow_succ 2 k, ← mul_assoc, mul_right_comm]
    refine mul_le_mul_of_nonneg_right ?_ (by positivity)
    linarith

end Nearest

/-! ## Rational numbers -/

theorem unitsPerOne_eq : (unitsPerOne : ℚ) = 2 ^ 1074 := by
  rw [unitsPerOne]
  generalize 1074 = k
  rw [Nat.one_shiftLeft]
  push_cast
  rfl

theorem unitsPerOne_pos : (0 : ℚ) < unitsPerOne := by
  rw [unitsPerOne_eq]
  positivity

def toRat (m : Magnitude) : ℚ := m.units / unitsPerOne

/-- The middle between the greatest magnitude and the power of two behind it. -/
def overflow : ℚ := 2 ^ 1024 - 2 ^ 970

/-- No magnitude is closer to the rational number, and none with an odd significand is as close as
another one. -/
structure IsNearest (q : ℚ) (m : Magnitude) : Prop where
  closest : ∀ n : Magnitude, |m.toRat - q| ≤ |n.toRat - q|
  even_of_tie : ∀ n : Magnitude, n ≠ m → |n.toRat - q| = |m.toRat - q| → m.sig % 2 = 0

theorem overflow_eq : overflow = (2 ^ 54 - 1) * 2 ^ 2044 / unitsPerOne := by
  rw [eq_div_iff unitsPerOne_pos.ne', unitsPerOne_eq, overflow,
    show 1024 = 54 + 970 by rfl, show 2044 = 970 + 1074 by rfl]
  generalize 970 = j
  generalize 1074 = k
  rw [pow_add, pow_add]
  ring

theorem toRat_nonneg (m : Magnitude) : 0 ≤ m.toRat :=
  div_nonneg (Nat.cast_nonneg _) unitsPerOne_pos.le

theorem eq_of_toRat_eq {m n : Magnitude} (h : m.toRat = n.toRat) : m = n := by
  rw [toRat, toRat, div_left_inj' unitsPerOne_pos.ne'] at h
  exact eq_of_units_eq (Nat.cast_injective h)

theorem abs_toRat_sub (m : Magnitude) (x : ℚ) :
    |m.toRat - x / unitsPerOne| = |(m.units : ℚ) - x| / unitsPerOne := by
  rw [toRat, ← sub_div, abs_div, abs_of_pos unitsPerOne_pos]

section Rational

variable {a d : Nat} (hd : 0 < d)

include hd

theorem nearest?_eq_none_iff : nearest? a d = none ↔ overflow ≤ a / d / unitsPerOne := by
  rw [overflow_eq, div_le_div_iff_of_pos_right unitsPerOne_pos]
  constructor
  · exact le_of_nearest?_eq_none hd
  · intro h
    cases hm : nearest? a d with
    | none => rfl
    | some m => exact absurd h (not_le.mpr (lt_of_nearest?_eq_some hd hm))

theorem isNearest_of_nearest? {m : Magnitude} (h : nearest? a d = some m) :
    IsNearest (a / d / unitsPerOne) m where
  closest := fun n => by
    rw [abs_toRat_sub, abs_toRat_sub, div_le_div_iff_of_pos_right unitsPerOne_pos]
    by_cases hn : n = m
    · rw [hn]
    · exact (nearest?_closer hd h hn).elim le_of_lt fun h => h.1.le
  even_of_tie := fun n hn htie => by
    rw [abs_toRat_sub, abs_toRat_sub, div_left_inj' unitsPerOne_pos.ne'] at htie
    rcases nearest?_closer hd h hn with hlt | ⟨-, heven, -⟩
    · exact absurd htie.symm hlt.ne
    · exact heven

/-- Of two magnitudes that are as close only one is even. -/
theorem nearest?_of_isNearest {m : Magnitude} (hlt : a / d / unitsPerOne < overflow)
    (h : IsNearest (a / d / unitsPerOne) m) : nearest? a d = some m := by
  cases hm : nearest? a d with
  | none => exact absurd ((nearest?_eq_none_iff hd).mp hm) (not_le.mpr hlt)
  | some n =>
    by_cases hn : m = n
    · rw [hn]
    · have hclosest := h.closest n
      have htie := h.even_of_tie n (Ne.symm hn)
      rw [abs_toRat_sub, abs_toRat_sub] at hclosest htie
      rw [div_le_div_iff_of_pos_right unitsPerOne_pos] at hclosest
      rcases nearest?_closer hd hm hn with hlt | ⟨heq, -, hodd⟩
      · exact absurd hclosest (not_le.mpr hlt)
      · have heven := htie (by rw [heq])
        omega

theorem nearest?_eq_some_iff {m : Magnitude} :
    nearest? a d = some m ↔ a / d / unitsPerOne < overflow ∧ IsNearest (a / d / unitsPerOne) m := by
  constructor
  · intro h
    refine ⟨?_, isNearest_of_nearest? hd h⟩
    rw [← not_le, ← nearest?_eq_none_iff hd, h]
    exact Option.some_ne_none m
  · rintro ⟨hlt, hm⟩
    exact nearest?_of_isNearest hd hlt hm

end Rational

end Magnitude
end PrefixCalc
