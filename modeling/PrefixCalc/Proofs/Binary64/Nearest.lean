import Mathlib.Algebra.Group.Nat.Defs
import PrefixCalc.Binary64.Rounding

/-!
# PrefixCalc.Proofs.Binary64.Nearest

The magnitude nearest a quotient.

* `nearest?_congr`: it depends on the value of the quotient alone.
* `nearest?_units`: a quotient that is a magnitude is its own nearest magnitude.
* `units_nearest?`: the value of the nearest magnitude, a rounded quotient of last places.
* `le_of_nearest?`, `lt_of_nearest?`: a quotient whose nearest magnitude is not zero is at least
  half a unit, and one that has a nearest magnitude is less than `2 ^ 53` of the greatest last
  places.
-/

namespace PrefixCalc

theorem roundQuotient_mul_right (a d : Nat) {c : Nat} (hc : 0 < c) :
    roundQuotient (a * c) (d * c) = roundQuotient a d := by
  have hlt : 2 * (a % d * c) < d * c ↔ 2 * (a % d) < d := by
    rw [← Nat.mul_assoc]
    exact Nat.mul_lt_mul_right hc
  have hgt : d * c < 2 * (a % d * c) ↔ d < 2 * (a % d) := by
    rw [← Nat.mul_assoc]
    exact Nat.mul_lt_mul_right hc
  simp only [roundQuotient, Nat.mul_div_mul_right _ _ hc, Nat.mul_mod_mul_right, hlt, hgt]

theorem roundQuotient_mul_self (k : Nat) {d : Nat} (hd : 0 < d) : roundQuotient (k * d) d = k := by
  simp only [roundQuotient, Nat.mul_div_cancel _ hd, Nat.mul_mod_left, Nat.mul_zero, if_pos hd]

theorem roundQuotient_eq_zero {a d : Nat} (h : 2 * a < d) : roundQuotient a d = 0 := by
  have ha : a < d := by omega
  simp only [roundQuotient, Nat.div_eq_of_lt ha, Nat.mod_eq_of_lt ha, if_pos h]

theorem roundQuotient_le (a d : Nat) : roundQuotient a d ≤ a / d + 1 := by
  rcases roundQuotient_cases a d with ⟨h, -⟩ | ⟨h, -⟩ <;> omega

namespace Magnitude

theorem units_eq (m : Magnitude) : m.units = m.sig * 2 ^ m.exp := Nat.shiftLeft_eq _ _

theorem eq_zero_of_isZero {m : Magnitude} (h : m.isZero = true) : m = .zero := by
  have hsig : m.sig = 0 := beq_iff_eq.mp h
  have hfull := m.full
  apply Magnitude.ext
  · exact hsig
  · show m.exp = 0
    omega

theorem sig_pos {m : Magnitude} (h : m.isZero = false) : 0 < m.sig :=
  Nat.pos_of_ne_zero (by simpa [isZero] using h)

theorem two_pow_le_units {m : Magnitude} (h : m.isZero = false) : 2 ^ m.exp ≤ m.units := by
  rw [units_eq]
  exact Nat.le_mul_of_pos_left _ (sig_pos h)

theorem units_pos {m : Magnitude} (h : m.isZero = false) : 0 < m.units :=
  Nat.lt_of_lt_of_le (Nat.two_pow_pos _) (two_pow_le_units h)

theorem exists_unitsPerOne : ∃ k, unitsPerOne = 2 ^ k := by
  rw [unitsPerOne]
  generalize 1074 = k
  exact ⟨k, Nat.one_shiftLeft k⟩

theorem one_le_unitsPerOne : 1 ≤ unitsPerOne := by
  obtain ⟨k, hk⟩ := exists_unitsPerOne
  rw [hk]
  exact Nat.one_le_two_pow

theorem lastPlace_mul_right (a d : Nat) {c : Nat} (hc : 0 < c) :
    lastPlace (a * c) (d * c) = lastPlace a d := by
  simp only [lastPlace, Nat.mul_div_mul_right _ _ hc]

theorem nearest?_mul_right (a d : Nat) {c : Nat} (hc : 0 < c) :
    nearest? (a * c) (d * c) = nearest? a d := by
  unfold nearest?
  simp only [lastPlace_mul_right a d hc, Nat.shiftLeft_eq, Nat.mul_right_comm d c,
    roundQuotient_mul_right _ _ hc]

/-- Equal quotients have the same nearest magnitude. -/
theorem nearest?_congr {a d a' d' : Nat} (hd : 0 < d) (hd' : 0 < d') (h : a * d' = a' * d) :
    nearest? a d = nearest? a' d' := by
  rw [← nearest?_mul_right a d hd', h, Nat.mul_comm d d', nearest?_mul_right a' d' hd]

theorem units_nearest? {a d : Nat} {m : Magnitude} (h : nearest? a d = some m) :
    m.units = roundQuotient a (d * 2 ^ lastPlace a d) * 2 ^ lastPlace a d := by
  rw [← Nat.shiftLeft_eq, ← Nat.shiftLeft_eq]
  unfold nearest? at h
  dsimp only at h
  have hle := roundQuotient_le a (d <<< lastPlace a d)
  have hlt := (lastPlace_bounds a d).1
  split at h
  · split at h
    · cases h; rfl
    · cases h
  · split at h
    · cases h
      have heq : roundQuotient a (d <<< lastPlace a d) = 0x20000000000000 := by omega
      rw [units, heq]
      dsimp only
      rw [Nat.shiftLeft_eq, Nat.shiftLeft_eq, Nat.pow_succ]
      omega
    · cases h

theorem lastPlace_le_of_nearest? {a d : Nat} {m : Magnitude} (h : nearest? a d = some m) :
    lastPlace a d ≤ 2045 := by
  unfold nearest? at h
  dsimp only at h
  split at h
  · split at h
    · assumption
    · cases h
  · split at h
    · omega
    · cases h

/-- The last place of a magnitude's own value is that of its significand. -/
theorem lastPlace_units (m : Magnitude) {d : Nat} (hd : 0 < d) :
    lastPlace (m.units * d) d = m.exp := by
  have hlt : m.sig < 2 ^ 53 := m.sig_lt
  rw [lastPlace, Nat.mul_div_cancel _ hd, units_eq]
  rcases m.full with hfull | hexp
  · have hne : m.sig * 2 ^ m.exp ≠ 0 :=
      Nat.mul_ne_zero (by omega) (Nat.ne_of_gt (Nat.two_pow_pos _))
    have hlog : (m.sig * 2 ^ m.exp).log2 = 52 + m.exp := by
      rw [Nat.log2_eq_iff hne, Nat.pow_add, Nat.mul_comm (2 ^ 52), Nat.mul_comm m.sig]
      refine ⟨Nat.mul_le_mul_left _ hfull, ?_⟩
      rw [show 52 + m.exp + 1 = m.exp + 53 by omega, Nat.pow_add]
      exact Nat.mul_lt_mul_of_pos_left hlt (Nat.two_pow_pos _)
    omega
  · rw [hexp, Nat.pow_zero, Nat.mul_one]
    rcases Nat.eq_zero_or_pos m.sig with hz | hpos
    · rw [hz, Nat.log2_zero]
    · have := (Nat.log2_lt (Nat.ne_of_gt hpos)).mpr hlt
      omega

/-- A quotient that is a magnitude needs no rounding. -/
theorem nearest?_units (m : Magnitude) {d : Nat} (hd : 0 < d) :
    nearest? (m.units * d) d = some m := by
  have hlt := m.sig_lt
  have hle := m.exp_le
  have hround : roundQuotient (m.units * d) (d <<< m.exp) = m.sig := by
    rw [units_eq, Nat.shiftLeft_eq, Nat.mul_assoc, Nat.mul_comm (2 ^ m.exp) d]
    exact roundQuotient_mul_self _ (Nat.mul_pos hd (Nat.two_pow_pos _))
  unfold nearest?
  simp only [lastPlace_units m hd, hround, hlt, hle, ↓reduceDIte]

theorem le_of_nearest? {a d : Nat} {m : Magnitude} (h : nearest? a d = some m)
    (hm : m.isZero = false) : d ≤ 2 * a := by
  apply Nat.le_of_not_lt
  intro hlt
  have hp : 2 * a < d * 2 ^ lastPlace a d :=
    Nat.lt_of_lt_of_le hlt (Nat.le_mul_of_pos_right d (Nat.two_pow_pos _))
  have hunits := units_nearest? h
  rw [roundQuotient_eq_zero hp, Nat.zero_mul, units_eq] at hunits
  have hsig : m.sig = 0 :=
    (Nat.mul_eq_zero.mp hunits).resolve_right (Nat.ne_of_gt (Nat.two_pow_pos _))
  simp [isZero, hsig] at hm

theorem lt_of_nearest? {a d : Nat} {m : Magnitude} (hd : 0 < d) (h : nearest? a d = some m) :
    ∃ p ≤ 2045, a < d * 2 ^ (53 + p) := by
  refine ⟨lastPlace a d, lastPlace_le_of_nearest? h, ?_⟩
  have hq := (lastPlace_bounds a d).1
  rw [Nat.shiftLeft_eq, Nat.div_lt_iff_lt_mul (Nat.mul_pos hd (Nat.two_pow_pos _))] at hq
  rwa [Nat.pow_add, Nat.mul_left_comm]

end Magnitude
end PrefixCalc
