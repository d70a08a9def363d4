import PrefixCalc.Decimal.Shortest
import PrefixCalc.Proofs.Decimal.Value

/-!
# PrefixCalc.Proofs.Decimal.Shortest

The digits of a magnitude read back.

* `nearest?_shortest`: the decimal that is chosen for a magnitude rounds to it, on whichever grid it
  was found.
-/

namespace PrefixCalc
namespace Magnitude

theorem nearest?_of_shortestOn? {m : Magnitude} {n : Nat} {d : Decimal}
    (h : m.shortestOn? n = some d) : d.nearest? = some m := by
  unfold shortestOn? at h
  split at h
  · rename_i hbelow
    split at h
    · rename_i habove
      cases h
      exact habove.1
    · cases h
      exact hbelow
  · split at h
    · rename_i habove
      cases h
      exact habove
    · cases h

theorem nearest?_negative_exponent (m : Magnitude) {k : Nat} (hk : unitsPerOne = 1 <<< k) :
    Decimal.nearest? { digits := m.units * Nat.pow 5 k, exp := -(k : Int) } = some m := by
  have hnumer : Decimal.unitNumer { digits := m.units * Nat.pow 5 k, exp := -(k : Int) } =
      m.units * 10 ^ k := by
    rw [Decimal.unitNumer, hk, Int.toNat_neg_natCast, Nat.pow_eq, Nat.pow_eq, Nat.pow_zero,
      Nat.mul_one, Nat.one_shiftLeft, Nat.mul_assoc, ← Nat.mul_pow]
  have hdenom : Decimal.unitDenom { digits := m.units * Nat.pow 5 k, exp := -(k : Int) } =
      10 ^ k := by
    rw [Decimal.unitDenom, Int.neg_neg, Int.toNat_natCast, Nat.pow_eq]
  rw [Decimal.nearest?, hnumer, hdenom]
  exact nearest?_units m (Nat.pow_pos (by decide))

/-- The exact value is its own decimal, so it needs no rounding. -/
theorem nearest?_exactDecimal (m : Magnitude) : m.exactDecimal.nearest? = some m := by
  have hk : unitsPerOne = 1 <<< 1074 := by rw [unitsPerOne]
  rw [exactDecimal, show (-1074 : Int) = -((1074 : Nat) : Int) from rfl]
  -- The power of five is too large to be computed in passing.
  revert hk
  generalize 1074 = k
  exact nearest?_negative_exponent m

theorem nearest?_shortest (m : Magnitude) : m.shortest.nearest? = some m := by
  rw [shortest, Decimal.nearest?_eq_of_toRat_eq (Decimal.toRat_dropZeros _)]
  cases h : (List.range' 1 17).findSome? m.shortestOn? with
  | none => exact nearest?_exactDecimal m
  | some d =>
    obtain ⟨n, -, hn⟩ := List.exists_of_findSome?_eq_some h
    exact nearest?_of_shortestOn? hn

end Magnitude
end PrefixCalc
