import PrefixCalc.Text.Ranges

/-!
# PrefixCalc.Text.Blank

Two sets of blank characters, one for each place where blanks of all kinds are passed over.

* `isWhiteSpace` — trimmed from both ends of a line: the Unicode property White_Space.
* `isPadding` — in front of an operand: the byte order mark, but not the next-line control.
-/

namespace PrefixCalc
namespace Text

/-- The blanks that both ends of a line and the front of an operand have in common. -/
def commonBlanks : List (Nat × Nat) :=
  [(0x09, 0x0D), (0x20, 0x20), (0xA0, 0xA0), (0x1680, 0x1680), (0x2000, 0x200A), (0x2028, 0x2029),
   (0x202F, 0x202F), (0x205F, 0x205F), (0x3000, 0x3000)]

def isWhiteSpace (c : Char) : Bool := inRanges commonBlanks c.toNat || c.toNat == 0x85

def isPadding (c : Char) : Bool := inRanges commonBlanks c.toNat || c.toNat == 0xFEFF

def trimStart (cs : List Char) : List Char := cs.dropWhile isWhiteSpace

def trimEnd (cs : List Char) : List Char := (cs.reverse.dropWhile isWhiteSpace).reverse

/-- A text without the white space at its two ends. -/
def trim (s : String) : String := String.ofList (trimEnd (trimStart s.toList))

end Text
end PrefixCalc
