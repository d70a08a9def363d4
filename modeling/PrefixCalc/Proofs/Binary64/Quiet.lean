import PrefixCalc.Operation

/-!
# PrefixCalc.Proofs.Binary64.Quiet

No operation gives a signaling not-a-number.

* `isSignaling_ofBits_toBits`: the machine itself has one not-a-number only, and that is quiet.
* `isSignaling_apply`: the result of a built-in operation never signals, whatever its operands are.
-/

namespace PrefixCalc
namespace Binary64

open Float.Model (Format UnpackedFloat)

theorem isSignaling_rounded (negative : Bool) (a d : Nat) :
    (rounded negative a d).isSignaling = false := by
  unfold rounded
  split <;> rfl

theorem isSignaling_add (x y : Binary64) : (add x y).isSignaling = false := by
  unfold add
  split
  · rfl
  · rfl
  · split <;> rfl
  · rfl
  · rfl
  · split
    · exact isSignaling_rounded _ _ _
    · split
      · exact isSignaling_rounded _ _ _
      · split
        · exact isSignaling_rounded _ _ _
        · rfl

theorem isSignaling_sub (x y : Binary64) : (sub x y).isSignaling = false :=
  isSignaling_add x (neg y)

theorem isSignaling_mul (x y : Binary64) : (mul x y).isSignaling = false := by
  unfold mul
  split
  · rfl
  · rfl
  · rfl
  · split <;> rfl
  · split <;> rfl
  · exact isSignaling_rounded _ _ _

theorem isSignaling_div (x y : Binary64) : (div x y).isSignaling = false := by
  unfold div
  split
  · rfl
  · rfl
  · rfl
  · rfl
  · rfl
  · split
    · split <;> rfl
    · exact isSignaling_rounded _ _ _

theorem isSignaling_sqrt (x : Binary64) : (sqrt x).isSignaling = false := by
  unfold sqrt
  split
  · rfl
  · split <;> rfl
  · split
    · rfl
    · split
      · rfl
      · dsimp only
        split <;> exact isSignaling_rounded _ _ _

/-! ## Powers -/

/-- Of the many encodings of not-a-number a float holds the one with the highest mantissa bit. -/
theorem isSignaling_ofBits_toBits (x : Float) : (ofBits x.toBits).isSignaling = false := by
  have hlt := x.toBits.toNat_lt
  simp only [ofBits]
  split
  · rfl
  · rename_i hfin
    split
    · rfl
    · rename_i hinf
      simp only [Magnitude.codeLimit] at hfin hinf
      have hexp : @UnpackedFloat.unpackExponent Format.binary64 x.toBits.toBitVec = -1#11 := by
        apply BitVec.eq_of_toNat_eq
        simp [UnpackedFloat.unpackExponent, Nat.shiftRight_eq_div_pow]
        omega
      have hman : @UnpackedFloat.unpackMantissa Format.binary64 x.toBits.toBitVec ≠ 0#52 := by
        intro h
        have hzero := congrArg BitVec.toNat h
        simp [UnpackedFloat.unpackMantissa] at hzero
        omega
      have hbits : x.toBits.toNat = (UnpackedFloat.packedNaN Format.binary64).toNat :=
        congrArg BitVec.toNat (x.toModel.valid.eq_packedNaN hexp hman)
      rw [hbits]
      rfl

theorem isSignaling_pow (x y : Binary64) : (pow x y).isSignaling = false := by
  unfold pow
  split
  · rfl
  · split
    · rfl
    · split
      · rfl
      · split
        · rfl
        · exact isSignaling_ofBits_toBits _

end Binary64

open Binary64

theorem isSignaling_apply {name : String} {operation : Operation}
    (h : (name, operation) ∈ builtins) (xs : List Binary64) :
    (operation.apply xs).isSignaling = false := by
  simp only [builtins, List.mem_cons, Prod.mk.injEq, List.not_mem_nil, or_false] at h
  rcases h with ⟨-, rfl⟩ | ⟨-, rfl⟩ | ⟨-, rfl⟩ | ⟨-, rfl⟩ | ⟨-, rfl⟩ | ⟨-, rfl⟩
  · exact isSignaling_add _ _
  · exact isSignaling_sub _ _
  · exact isSignaling_mul _ _
  · exact isSignaling_div _ _
  · exact isSignaling_pow _ _
  · exact isSignaling_sqrt _

end PrefixCalc
