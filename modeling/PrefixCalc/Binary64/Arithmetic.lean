import PrefixCalc.Binary64.Rounding
import PrefixCalc.Binary64.SquareRoot

/-!
# PrefixCalc.Binary64.Arithmetic

The operations of the calculator. Each one settles the special values first, then forms the exact
result in units of `2 ^ (-1074)` and rounds it once.

* `add`, `sub`, `mul`, `div`, `sqrt` — nothing is guarded: division by zero gives an infinity, the
  root of a negative value is not a number.
* `pow` — the power with a floating-point exponent. A zero exponent or a base of one gives one,
  whatever the other operand is, a quiet not-a-number included; a signaling one always counts.
-/

namespace PrefixCalc
namespace Binary64

def neg : Binary64 → Binary64
  | .nan signaling => .nan signaling
  | .infinite s => .infinite !s
  | .finite s m => .finite (!s) m

/-- The sum. Opposite values cancel to positive zero; a sum of zeros keeps a common sign. -/
def add : Binary64 → Binary64 → Binary64
  | .nan _, _ => quietNaN
  | _, .nan _ => quietNaN
  | .infinite s, .infinite t => if s = t then .infinite s else quietNaN
  | .infinite s, .finite _ _ => .infinite s
  | .finite _ _, .infinite t => .infinite t
  | .finite s m, .finite t n =>
    if s = t then rounded s (m.units + n.units) 1
    else if n.units < m.units then rounded s (m.units - n.units) 1
    else if m.units < n.units then rounded t (n.units - m.units) 1
    else zero

def sub (x y : Binary64) : Binary64 := add x (neg y)

def mul : Binary64 → Binary64 → Binary64
  | .nan _, _ => quietNaN
  | _, .nan _ => quietNaN
  | .infinite s, .infinite t => .infinite (s != t)
  | .infinite s, .finite t n => if n.isZero then quietNaN else .infinite (s != t)
  | .finite s m, .infinite t => if m.isZero then quietNaN else .infinite (s != t)
  | .finite s m, .finite t n => rounded (s != t) (m.units * n.units) Magnitude.unitsPerOne

def div : Binary64 → Binary64 → Binary64
  | .nan _, _ => quietNaN
  | _, .nan _ => quietNaN
  | .infinite _, .infinite _ => quietNaN
  | .infinite s, .finite t _ => .infinite (s != t)
  | .finite s _, .infinite t => .finite (s != t) .zero
  | .finite s m, .finite t n =>
    if n.isZero then (if m.isZero then quietNaN else .infinite (s != t))
    else rounded (s != t) (m.units * Magnitude.unitsPerOne) n.units

/-- The square root; negative zero is its own root. An inexact root lies strictly between the floor
and the next integer, far below the last place, so half a unit more than the floor rounds alike. -/
def sqrt : Binary64 → Binary64
  | .nan _ => quietNaN
  | .infinite s => if s then quietNaN else .infinite false
  | .finite s m =>
    if m.isZero then .finite s m
    else if s then quietNaN
    else
      let square := m.units * Magnitude.unitsPerOne
      let root := floorSqrt square
      if root * root = square then rounded false root 1 else rounded false (2 * root + 1) 2

/-- The power of two ordinary operands, to the last place that the machine's power function has. -/
def machinePow (x y : Binary64) : Binary64 :=
  ofBits (Float.pow (Float.ofBits x.toBits) (Float.ofBits y.toBits)).toBits

def pow (x y : Binary64) : Binary64 :=
  if x.isSignaling || y.isSignaling then quietNaN
  else if y.isZero then one
  else if x = one then one
  else if x.isNaN || y.isNaN then quietNaN
  else machinePow x y

theorem sub_nan_left (signaling : Bool) (y : Binary64) : sub (.nan signaling) y = quietNaN := rfl

theorem add_nan_right (x : Binary64) (signaling : Bool) : add x (.nan signaling) = quietNaN := by
  cases x <;> rfl

theorem sub_nan_right (x : Binary64) (signaling : Bool) : sub x (.nan signaling) = quietNaN :=
  add_nan_right x signaling

theorem mul_nan_right (x : Binary64) (signaling : Bool) : mul x (.nan signaling) = quietNaN := by
  cases x <;> rfl

theorem div_nan_right (x : Binary64) (signaling : Bool) : div x (.nan signaling) = quietNaN := by
  cases x <;> rfl

theorem pow_signaling_left (y : Binary64) : pow (.nan true) y = quietNaN := rfl

theorem pow_signaling_right (x : Binary64) : pow x (.nan true) = quietNaN := by
  simp only [pow, isSignaling, Bool.or_true, ↓reduceIte]

/-- A base of one outweighs an exponent that is quietly not a number. -/
theorem pow_one_left {y : Binary64} (h : y.isSignaling = false) : pow one y = one := by
  simp only [pow, h]
  split
  · rename_i hs
    cases hs
  · split
    · rfl
    · simp

end Binary64
end PrefixCalc
