import PrefixCalc.Text.Blank

/-!
# PrefixCalc.Text.Pieces

The pieces of a text between separators. It is cut at every separator, so an empty text has one
empty piece and two separators in a row have an empty piece between them.
-/

namespace PrefixCalc
namespace Text

/-- Puts a character in front of the first piece. -/
def extendFirst (c : Char) : List (List Char) → List (List Char)
  | [] => [[c]]
  | w :: ws => (c :: w) :: ws

def pieces (isSeparator : Char → Bool) : List Char → List (List Char)
  | [] => [[]]
  | c :: cs =>
    if isSeparator c then [] :: pieces isSeparator cs else extendFirst c (pieces isSeparator cs)

theorem pieces_ne_nil (isSeparator : Char → Bool) (cs : List Char) :
    pieces isSeparator cs ≠ [] := by
  cases cs with
  | nil => simp [pieces]
  | cons c cs =>
    simp only [pieces]
    split
    · simp
    · cases pieces isSeparator cs <;> simp [extendFirst]

end Text
end PrefixCalc
