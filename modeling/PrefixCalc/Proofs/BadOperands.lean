import PrefixCalc.Proofs.Calculator
import PrefixCalc.Proofs.Operand

/-!
# PrefixCalc.Proofs.BadOperands

What a built-in operation gives when one of its words is not a number.

* `Operation.Propagates`: an operand that is not a number makes the result not a number. All
  built-in operations but the power are of this kind.
* `pow_of_isNaN`: a power with such an operand is not a number either, unless its base is one or its
  exponent is zero.
* `evaluate_of_isNaN`: the same for expressions.
-/

namespace PrefixCalc
namespace Binary64

theorem pow_of_isNaN {x y : Binary64} (hx : x.isSignaling = false) (hy : y.isSignaling = false)
    (h : x.isNaN = true ∨ y.isNaN = true) :
    pow x y = if x = one ∨ y.isZero = true then one else quietNaN := by
  have hsignal : ¬(x.isSignaling || y.isSignaling) = true := by rw [hx, hy]; decide
  have hnan : (x.isNaN || y.isNaN) = true := Bool.or_eq_true_iff.mpr h
  rw [pow, if_neg hsignal]
  by_cases hzero : y.isZero = true
  · rw [if_pos hzero, if_pos (.inr hzero)]
  · rw [if_neg hzero]
    by_cases hone : x = one
    · rw [if_pos hone, if_pos (.inl hone)]
    · rw [if_neg hone, if_pos hnan, if_neg (not_or.mpr ⟨hone, hzero⟩)]

end Binary64

open Binary64

namespace Operation

/-- The result is not a number if any of the operands is not. -/
def Propagates : Operation → Prop
  | .unary f => ∀ x, x.isNaN = true → f x = quietNaN
  | .binary f => ∀ x y, x.isNaN = true ∨ y.isNaN = true → f x y = quietNaN

theorem propagates_binary {f : Binary64 → Binary64 → Binary64}
    (hleft : ∀ signaling y, f (.nan signaling) y = quietNaN)
    (hright : ∀ x signaling, f x (.nan signaling) = quietNaN) : Propagates (.binary f) := by
  intro x y h
  rcases h with h | h
  · obtain ⟨signaling, rfl⟩ := eq_nan_of_isNaN h
    exact hleft signaling y
  · obtain ⟨signaling, rfl⟩ := eq_nan_of_isNaN h
    exact hright x signaling

theorem propagates_sqrt : Propagates (.unary sqrt) := by
  intro x h
  obtain ⟨signaling, rfl⟩ := eq_nan_of_isNaN h
  rfl

theorem propagates_of_mem {name : String} {operation : Operation}
    (h : (name, operation) ∈ builtins) (hname : name ≠ "^") : operation.Propagates := by
  simp only [builtins, List.mem_cons, Prod.mk.injEq, List.not_mem_nil, or_false] at h
  rcases h with ⟨-, rfl⟩ | ⟨-, rfl⟩ | ⟨-, rfl⟩ | ⟨-, rfl⟩ | ⟨rfl, -⟩ | ⟨-, rfl⟩
  · exact propagates_binary (fun _ _ => rfl) add_nan_right
  · exact propagates_binary sub_nan_left sub_nan_right
  · exact propagates_binary (fun _ _ => rfl) mul_nan_right
  · exact propagates_binary (fun _ _ => rfl) div_nan_right
  · exact absurd rfl hname
  · exact propagates_sqrt

theorem Propagates.apply_eq {operation : Operation} {xs : List Binary64}
    (h : operation.Propagates) (hlen : xs.length = operation.arity.count)
    (hbad : ∃ x ∈ xs, x.isNaN = true) : operation.apply xs = quietNaN := by
  obtain ⟨x, hx, hnan⟩ := hbad
  cases operation with
  | unary f =>
    obtain ⟨y, rfl⟩ := List.length_eq_one_iff.mp hlen
    obtain rfl := List.mem_singleton.mp hx
    exact h x hnan
  | binary f =>
    obtain ⟨y, z, rfl⟩ := List.length_eq_two.mp hlen
    rcases List.mem_pair.mp hx with rfl | rfl
    · exact h x z (.inl hnan)
    · exact h y x (.inr hnan)

end Operation

/-- The operands whose power is one although one of them is not a number. -/
def settlesPower : List Binary64 → Bool
  | [x, y] => x == one || y.isZero
  | _ => false

theorem apply_pow_of_isNaN {xs : List Binary64} (hlen : xs.length = 2)
    (hquiet : ∀ x ∈ xs, x.isSignaling = false) (hbad : ∃ x ∈ xs, x.isNaN = true) :
    Operation.apply (.binary pow) xs = if settlesPower xs then one else quietNaN := by
  obtain ⟨x, y, rfl⟩ := List.length_eq_two.mp hlen
  have hnan : x.isNaN = true ∨ y.isNaN = true := by
    obtain ⟨z, hz, hnan⟩ := hbad
    rcases List.mem_pair.mp hz with rfl | rfl
    · exact .inl hnan
    · exact .inr hnan
  rw [Operation.apply_binary, pow_of_isNaN (hquiet x (by simp)) (hquiet y (by simp)) hnan]
  simp only [settlesPower, Bool.or_eq_true, beq_iff_eq]

theorem readOperand_isSignaling (t : String) : (readOperand t).isSignaling = false := by
  cases h : (readOperand t).isNaN with
  | true =>
    rw [eq_quietNaN_of_isNaN h]
    rfl
  | false =>
    cases hx : readOperand t with
    | nan signaling =>
      rw [hx] at h
      cases h
    | infinite s => rfl
    | finite s m => rfl

/-- A built-in operation on words of which one is not a number gives not-a-number, except that a
power of one and a power to zero are one. -/
theorem evaluate_of_isNaN {name : String} {operation : Operation} {words : List String}
    (h : builtin? name = some operation) (hspace : ∀ w ∈ words, ' ' ∉ w.toList)
    (hlen : words.length = operation.arity.count)
    (hbad : ∃ w ∈ words, (readOperand w).isNaN = true) :
    evaluate (" ".intercalate (name :: words)) =
      .ok (if name = "^" ∧ settlesPower (words.map readOperand) = true then one else quietNaN) := by
  have hlen' : (words.map readOperand).length = operation.arity.count := by
    rw [List.length_map, hlen]
  have hbad' : ∃ x ∈ words.map readOperand, x.isNaN = true := by
    obtain ⟨w, hw, hnan⟩ := hbad
    exact ⟨readOperand w, List.mem_map_of_mem hw, hnan⟩
  have hquiet : ∀ x ∈ words.map readOperand, x.isSignaling = false := by
    intro x hx
    obtain ⟨w, -, rfl⟩ := List.mem_map.mp hx
    exact readOperand_isSignaling w
  rw [evaluate_intercalate h hspace hlen]
  by_cases hname : name = "^"
  · obtain rfl : Operation.binary pow = operation := by
      rw [hname] at h
      exact Option.some.inj h
    rw [apply_pow_of_isNaN hlen' hquiet hbad']
    simp only [hname, true_and]
  · have hprop := Operation.propagates_of_mem (mem_builtins h) hname
    rw [hprop.apply_eq hlen' hbad', if_neg (fun hsettled => hname hsettled.1)]

theorem evaluate_times_infinity_x :
    builtin? "*" = some (.binary mul) ∧ (∀ w ∈ ["Infinity", "x"], ' ' ∉ w.toList) ∧
      (readOperand "x").isNaN = true ∧ evaluate "* Infinity x" = .ok quietNaN := by
  have hspace : ∀ w ∈ ["Infinity", "x"], ' ' ∉ w.toList := by decide
  have hbad : (readOperand "x").isNaN = true := by decide +kernel
  have h := @evaluate_of_isNaN "*" (.binary mul) ["Infinity", "x"] rfl hspace rfl
    ⟨"x", List.mem_cons_of_mem _ (List.mem_singleton_self _), hbad⟩
  rw [if_neg (fun hsettled => absurd hsettled.1 (by decide)),
    show " ".intercalate ["*", "Infinity", "x"] = "* Infinity x" by decide] at h
  exact ⟨rfl, hspace, hbad, h⟩

/-- The base settles the power, although the exponent is not a number. -/
theorem evaluate_power_one_x :
    (readOperand "x").isNaN = true ∧ evaluate "^ 1 x" = .ok one ∧ one ≠ quietNaN := by
  decide +kernel

end PrefixCalc
