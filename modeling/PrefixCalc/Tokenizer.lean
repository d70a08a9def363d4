import PrefixCalc.Text.Items
import PrefixCalc.Text.Pieces

/-!
# PrefixCalc.Tokenizer

A tokenizer cuts an expression into the name of an operation and its operands.

* `Tokenizer.spaces` — at every single space. Two spaces in a row have an empty token between them.
* `Tokenizer.words`  — at runs of ASCII blanks: two rules find the items of the expression, and
  those that are text are cut out. No token is empty.
-/

namespace PrefixCalc

abbrev Tokenizer := String → List String

namespace Tokenizer

def spaces : Tokenizer := fun s => (Text.pieces (· == ' ') s.toList).map String.ofList

/-- What an expression consists of, apart from blanks. -/
inductive Word where
  | text
  deriving DecidableEq

/-- Blanks are passed over, and everything else is text. -/
def wordRules : List (Text.Rule Word) :=
  [{ takes := .only [' ', '\t', '\r', '\n', '\x0c'], kind? := none },
   { takes := .allBut [' ', '\t', '\r', '\n', '\x0c'], kind? := some .text }]

/-- The texts of all items that have a kind. -/
def words? (s : String) : Except IndexFault (List String) :=
  ((Text.items wordRules s).filter (·.kind?.isSome)).mapM (·.span.text s)

/-- There would be no tokens after a fault, but every span can be cut out (`words?_eq_ok`). -/
def words : Tokenizer := fun s =>
  match words? s with
  | .ok tokens => tokens
  | .error _ => []

/-- Even an empty text has a token. -/
theorem spaces_ne_nil (s : String) : spaces s ≠ [] := by
  simp [spaces, Text.pieces_ne_nil]

end Tokenizer
end PrefixCalc
