/-!
# PrefixCalc.Binary64.SquareRoot

The integer square root, one binary digit at a time from the top. `floorSqrt_sq_le` and
`lt_succ_floorSqrt_sq` say that it is the floor of the real root.
-/

namespace PrefixCalc

/-- Adds to `r` each of the lowest `k` binary digits that keeps its square at most `n`. -/
def rootDigits (n : Nat) : Nat → Nat → Nat
  | 0, r => r
  | k + 1, r =>
    if (r + 1 <<< k) * (r + 1 <<< k) ≤ n then rootDigits n k (r + 1 <<< k) else rootDigits n k r

/-- The greatest natural number whose square is at most `n`. -/
def floorSqrt (n : Nat) : Nat := rootDigits n (n.log2 / 2 + 1) 0

/-- Each digit keeps the root between `r` and `r + 2 ^ k`. -/
theorem rootDigits_bounds {n : Nat} : ∀ {k r : Nat}, r * r ≤ n →
    n < (r + 1 <<< k) * (r + 1 <<< k) →
    rootDigits n k r * rootDigits n k r ≤ n ∧
      n < (rootDigits n k r + 1) * (rootDigits n k r + 1)
  | 0, r, hle, hlt => ⟨hle, hlt⟩
  | k + 1, r, hle, hlt => by
    simp only [rootDigits]
    split
    · rename_i h
      refine rootDigits_bounds h ?_
      rwa [Nat.add_assoc, ← Nat.two_mul, ← Nat.shiftLeft_succ]
    · rename_i h
      exact rootDigits_bounds hle (Nat.lt_of_not_le h)

theorem floorSqrt_bounds (n : Nat) :
    floorSqrt n * floorSqrt n ≤ n ∧ n < (floorSqrt n + 1) * (floorSqrt n + 1) := by
  refine rootDigits_bounds (Nat.zero_le n) ?_
  rw [Nat.zero_add, Nat.one_shiftLeft, ← Nat.pow_add]
  exact Nat.lt_of_lt_of_le Nat.lt_log2_self (Nat.pow_le_pow_right (by decide) (by omega))

theorem floorSqrt_sq_le (n : Nat) : floorSqrt n * floorSqrt n ≤ n := (floorSqrt_bounds n).1

theorem lt_succ_floorSqrt_sq (n : Nat) : n < (floorSqrt n + 1) * (floorSqrt n + 1) :=
  (floorSqrt_bounds n).2

end PrefixCalc
