import PrefixCalc.Binary64.Arithmetic
import PrefixCalc.Error

/-!
# PrefixCalc.Operation

Operations on numbers and their arity, and the table of built-in operations.

* `Arity.check`     — refuses any other number of operands.
* `Operation.apply` — the result for a list of operands; those that are missing count as not a
  number and those that are left over are ignored.
* `builtins`        — the operations by their names, in the order in which they are shown.
-/

namespace PrefixCalc

inductive Arity where
  | unary
  | binary
  deriving DecidableEq

namespace Arity

def count : Arity → Nat
  | .unary => 1
  | .binary => 2

def name : Arity → String
  | .unary => "unary"
  | .binary => "binary"

def check (a : Arity) (got : Nat) : Except EvalError Unit :=
  if got = a.count then .ok () else .error (.arityMismatch a.count got)

theorem check_ok_iff {a : Arity} {got : Nat} : a.check got = .ok () ↔ got = a.count := by
  simp only [check]
  split <;> simp_all

theorem check_error {a : Arity} {got : Nat} (h : got ≠ a.count) :
    a.check got = .error (.arityMismatch a.count got) := by
  simp only [check, if_neg h]

end Arity

inductive Operation where
  | unary (f : Binary64 → Binary64)
  | binary (f : Binary64 → Binary64 → Binary64)

namespace Operation

def arity : Operation → Arity
  | .unary _ => .unary
  | .binary _ => .binary

def apply : Operation → List Binary64 → Binary64
  | .unary f, xs => f (xs[0]?.getD .quietNaN)
  | .binary f, xs => f (xs[0]?.getD .quietNaN) (xs[1]?.getD .quietNaN)

theorem apply_unary (f : Binary64 → Binary64) (x : Binary64) : apply (.unary f) [x] = f x := rfl

theorem apply_binary (f : Binary64 → Binary64 → Binary64) (x y : Binary64) :
    apply (.binary f) [x, y] = f x y := rfl

end Operation

def builtins : List (String × Operation) :=
  [("+", .binary .add), ("-", .binary .sub), ("*", .binary .mul), ("/", .binary .div),
   ("^", .binary .pow), ("sqrt", .unary .sqrt)]

def builtinNames : List String := builtins.map Prod.fst

def builtin? (name : String) : Option Operation := builtins.lookup name

end PrefixCalc
