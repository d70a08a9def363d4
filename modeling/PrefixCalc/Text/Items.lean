import PrefixCalc.Text.Access

/-!
# PrefixCalc.Text.Items

The items of a text, as rules find them from left to right. Where one item ends, the rule that takes
most of what follows comes next. A character that no rule takes is an item without a kind.

* `CharClass`, `Rule` — a rule takes one or more characters of a class, as many as there are.
* `longest?`          — the rule that takes most.
* `itemsFrom`         — the items of what stands behind a byte index, with their spans.
* `Span.text`         — the stretch of a text that a span covers.
-/

namespace PrefixCalc
namespace Text

/-- A set of characters, by its members or by all that are no members. -/
inductive CharClass where
  | only (cs : List Char)
  | allBut (cs : List Char)

def CharClass.has : CharClass → Char → Bool
  | .only cs, c => cs.contains c
  | .allBut cs, c => !cs.contains c

/-- What a rule takes becomes an item of its kind. Without a kind it is passed over. -/
structure Rule (κ : Type) where
  takes : CharClass
  kind? : Option κ

/-- A stretch of a text, from one byte index up to another. -/
structure Span where
  start : Nat
  stop : Nat
  deriving DecidableEq

structure Item (κ : Type) where
  kind? : Option κ
  span : Span
  deriving DecidableEq

/-- A text cannot be cut inside a character, and not from a later index to an earlier one. -/
def Span.text (s : Span) (t : String) : Except IndexFault String := do
  textFrom (← textUpTo t s.stop) s.start

variable {κ : Type}

def Rule.taken (r : Rule κ) (cs : List Char) : List Char := cs.takeWhile r.takes.has

/-- Of rules that take equally much, the first one. -/
def longest? (cs : List Char) : List (Rule κ) → Option (Rule κ)
  | [] => none
  | r :: rs =>
    match longest? cs rs with
    | none => if r.taken cs = [] then none else some r
    | some best => if (best.taken cs).length ≤ (r.taken cs).length then some r else some best

def itemsFrom (rules : List (Rule κ)) (i : Nat) : List Char → List (Item κ)
  | [] => []
  | c :: cs =>
    match longest? (c :: cs) rules with
    | none =>
      let stop := i + c.utf8Size
      { kind? := none, span := ⟨i, stop⟩ } :: itemsFrom rules stop cs
    | some r =>
      let stop := i + (String.ofList (r.taken (c :: cs))).utf8ByteSize
      -- The rule takes `c` and goes on behind it.
      let others := itemsFrom rules stop (cs.dropWhile r.takes.has)
      match r.kind? with
      | none => others
      | some kind => { kind? := some kind, span := ⟨i, stop⟩ } :: others
termination_by cs => cs.length
decreasing_by
  · exact Nat.lt_succ_self _
  · exact Nat.lt_succ_of_le (List.dropWhile_sublist _).length_le

def items (rules : List (Rule κ)) (t : String) : List (Item κ) := itemsFrom rules 0 t.toList

end Text
end PrefixCalc
