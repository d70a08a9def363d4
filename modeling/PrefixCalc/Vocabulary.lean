import PrefixCalc.Event

/-!
# PrefixCalc.Vocabulary

A vocabulary says which operation a name stands for. It is any function of the name, so a calculator
can be given other operations than the built-in ones.

* `Vocabulary.builtin` — the built-in operations under their own names.
* `Vocabulary.aliases` — built-in operations under other names.
-/

namespace PrefixCalc

structure Lookup where
  outcome : Except EvalError Operation
  events : List Event

abbrev Vocabulary := String → Lookup

namespace Vocabulary

def builtin : Vocabulary := fun name =>
  match builtin? name with
  | some operation => { outcome := .ok operation, events := [] }
  | none => { outcome := .error (.unknownFunction name), events := [.noBuiltin name] }

/-- Each alias stands for a built-in name. One that stands for no operation is an error of the name
behind it; a name that is no alias is an error of its own. -/
def aliases (table : List (String × String)) : Vocabulary := fun name =>
  match table.lookup name with
  | some target => builtin target
  | none => { outcome := .error (.unknownFunction name), events := [] }

theorem builtin_of_some {name : String} {operation : Operation}
    (h : builtin? name = some operation) :
    builtin name = { outcome := .ok operation, events := [] } := by
  simp only [builtin, h]

theorem builtin_of_none {name : String} (h : builtin? name = none) :
    builtin name = { outcome := .error (.unknownFunction name), events := [.noBuiltin name] } := by
  simp only [builtin, h]

end Vocabulary
end PrefixCalc
