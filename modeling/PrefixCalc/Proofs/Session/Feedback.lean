import PrefixCalc.Proofs.Binary64.Quiet
import PrefixCalc.Proofs.Result
import PrefixCalc.Proofs.Session.Basic

/-!
# PrefixCalc.Proofs.Session.Feedback

Results that are typed in again as operands. A chain of operations can be calculated on numbers, or
by a session on text alone, each printed result being the first operand of the next line.

* `Link`: one operation of a chain, with its second operand.
* `Link.values`: all values of a chain, calculated on numbers.
* `Session.feedBack`: all lines that a session prints for a chain, if it prints one at a time.
* `respond_line`: one link, on text, is answered with the value that it has on numbers.
* `feedBack_writeResult`: the lines are the values, written down; nothing is lost on the way.
-/

namespace PrefixCalc

open Binary64

/-- The only number whose text stands for another one. -/
def Binary64.negativeZero : Binary64 := .finite true .zero

theorem Binary64.written_eq_self {x : Binary64} (hquiet : x.isSignaling = false)
    (hzero : x ≠ negativeZero) : x.written = x := by
  cases x with
  | nan signaling => rw [show signaling = false from hquiet]; rfl
  | infinite s => rfl
  | finite s m =>
    rw [written]
    split
    · rename_i hm
      obtain rfl := Magnitude.eq_zero_of_isZero hm
      cases s with
      | false => rfl
      | true => exact absurd rfl hzero
    · rfl

/-- A binary operation of a chain, which the previous value is the first operand of. -/
structure Link where
  name : String
  apply : Binary64 → Binary64 → Binary64
  operand : Binary64
  isBuiltin : builtin? name = some (.binary apply)

namespace Link

/-- The values of a chain, from its start to its end. -/
def values (x : Binary64) : List Link → List Binary64
  | [] => [x]
  | l :: ls => x :: values (l.apply x l.operand) ls

theorem values_ne_nil (x : Binary64) (ls : List Link) : values x ls ≠ [] := by
  cases ls <;> exact List.cons_ne_nil _ _

def line (l : Link) (text : String) : String :=
  l.name ++ " " ++ text ++ " " ++ writeResult l.operand

/-- What a link needs of a number to read it back as it was. -/
structure Readable (x : Binary64) : Prop where
  quiet : x.isSignaling = false
  ne_negativeZero : x ≠ negativeZero

theorem isSignaling_apply (l : Link) (x : Binary64) :
    (l.apply x l.operand).isSignaling = false :=
  PrefixCalc.isSignaling_apply (mem_builtins l.isBuiltin) [x, l.operand]

theorem isWord_name (l : Link) : Text.IsWord l.name := by
  have hall : ∀ n ∈ builtinNames, Text.IsWord n := by decide
  exact hall l.name (List.mem_map_of_mem (mem_builtins l.isBuiltin))

theorem line_eq_intercalate (l : Link) (text : String) :
    l.line text = " ".intercalate [l.name, text, writeResult l.operand] := by
  simp [line, String.append_assoc]

end Link

namespace Session

def feedBack (s : Session) : String → List Link → Option (List String)
  | text, [] => some [text]
  | text, l :: ls =>
    match (s.respond (l.line text)).reply.lines s.display with
    | [next] => (s.feedBack next ls).map (text :: ·)
    | _ => none

section

variable {s : Session}

theorem respond_line
    (ht : s.calculator.tokenizer = .spaces ∨ s.calculator.tokenizer = .words)
    (hv : s.calculator.vocabulary = .builtin) {l : Link} (x : Binary64) :
    (s.respond (l.line (writeResult x))).reply = .value (l.apply x.written l.operand.written) := by
  have hfound : (s.calculator.vocabulary l.name).outcome = .ok (.binary l.apply) := by
    rw [hv, Vocabulary.builtin_of_some l.isBuiltin]
  have hwords : ∀ w ∈ [l.name, writeResult x, writeResult l.operand], Text.IsWord w := by
    intro w hw
    simp only [List.mem_cons, List.not_mem_nil, or_false] at hw
    rcases hw with rfl | rfl | rfl
    · exact l.isWord_name
    · exact isWord_writeResult x
    · exact isWord_writeResult l.operand
  rw [Link.line_eq_intercalate, respond_expression ht hfound rfl hwords]
  simp only [List.map_cons, List.map_nil, readOperand_writeResult, Operation.apply_binary]

theorem feedBack_cons
    (ht : s.calculator.tokenizer = .spaces ∨ s.calculator.tokenizer = .words)
    (hv : s.calculator.vocabulary = .builtin) (hplain : s.display.color = false) {l : Link}
    {x : Binary64} (hx : Link.Readable x) (hc : Link.Readable l.operand) (ls : List Link) :
    s.feedBack (writeResult x) (l :: ls) =
      (s.feedBack (writeResult (l.apply x l.operand)) ls).map (writeResult x :: ·) := by
  have hpaint : ∀ style text, s.display.paint style text = text := by
    intro style text
    rw [Text.Display.paint, Text.Display.styles, hplain]
    rfl
  rw [feedBack, respond_line ht hv, written_eq_self hx.quiet hx.ne_negativeZero,
    written_eq_self hc.quiet hc.ne_negativeZero]
  simp only [Reply.lines, valueLine, hpaint]

end

/-- As long as no negative zero is typed in, the lines that a session without colour prints for a
chain are the values of the chain, written down. -/
theorem feedBack_writeResult {s : Session} {x : Binary64} {links : List Link}
    (ht : s.calculator.tokenizer = .spaces ∨ s.calculator.tokenizer = .words)
    (hv : s.calculator.vocabulary = .builtin) (hplain : s.display.color = false)
    (hx : x.isSignaling = false) (hoperands : ∀ l ∈ links, Link.Readable l.operand)
    (hfed : ∀ v ∈ (Link.values x links).dropLast, v ≠ negativeZero) :
    s.feedBack (writeResult x) links = some ((Link.values x links).map writeResult) := by
  induction links generalizing x with
  | nil => rfl
  | cons l ls ih =>
    rw [Link.values, List.dropLast_cons_of_ne_nil (Link.values_ne_nil _ ls),
      List.forall_mem_cons] at hfed
    rw [List.forall_mem_cons] at hoperands
    rw [feedBack_cons ht hv hplain ⟨hx, hfed.1⟩ hoperands.1, ih (l.isSignaling_apply x) hoperands.2
      hfed.2]
    rfl

/-- Two results that have to be rounded, `/ 1 10` and `+ 0.1 0.2`, and then out of the finite
numbers and back: `/` by `0`, `- Infinity Infinity` and `^ NaN 0`. -/
def detour : List Link :=
  [{ name := "/", apply := div, operand := readOperand "10", isBuiltin := rfl },
   { name := "+", apply := add, operand := readOperand "0.2", isBuiltin := rfl },
   { name := "/", apply := div, operand := zero, isBuiltin := rfl },
   { name := "-", apply := sub, operand := infinity, isBuiltin := rfl },
   { name := "^", apply := pow, operand := zero, isBuiltin := rfl }]

theorem feedBack_detour :
    (∀ l ∈ detour, Link.Readable l.operand) ∧
      (∀ v ∈ (Link.values one detour).dropLast, v ≠ negativeZero) ∧
      Session.feedBack { calculator := standard, display := .plain } "1" detour =
        some ["1", "0.1", "0.30000000000000004", "Infinity", "NaN", "1"] := by
  have hvalues : Link.values one detour =
      [one, readOperand "0.1", readOperand "0.30000000000000004", infinity, quietNaN, one] := by
    decide +kernel
  have hoperands : ∀ l ∈ detour, Link.Readable l.operand := by
    intro l hl
    simp only [detour, List.mem_cons, List.not_mem_nil, or_false] at hl
    rcases hl with rfl | rfl | rfl | rfl | rfl <;> exact ⟨by decide +kernel, by decide +kernel⟩
  have hfed : ∀ v ∈ (Link.values one detour).dropLast, v ≠ negativeZero := by
    rw [hvalues]
    decide +kernel
  have h := @feedBack_writeResult { calculator := standard, display := .plain } one detour
    (.inl rfl) rfl rfl rfl hoperands hfed
  rw [hvalues, show writeResult one = "1" by decide +kernel] at h
  refine ⟨hoperands, hfed, h.trans ?_⟩
  decide +kernel

end Session
end PrefixCalc
