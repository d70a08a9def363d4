import PrefixCalc.Text.Unprintable

/-!
# PrefixCalc.Text.Quoted

Texts between double quotes, as the log shows them. A quote and a backslash are escaped, four
controls have a letter, and every other unprintable character is given by its code point.
-/

namespace PrefixCalc
namespace Text

/-- A character by its code point, in hexadecimal between braces. -/
def codePoint (c : Char) : List Char :=
  ['\\', 'u', '\x7b'] ++ Nat.toDigits 16 c.toNat ++ ['\x7d']

def escape (c : Char) : List Char :=
  if c = '\x22' then ['\\', '\x22']
  else if c = '\\' then ['\\', '\\']
  else if c = '\t' then ['\\', 't']
  else if c = '\n' then ['\\', 'n']
  else if c = '\r' then ['\\', 'r']
  else if c = '\x00' then ['\\', '0']
  else if isUnprintable c then codePoint c
  else [c]

def quoted (s : String) : String :=
  String.ofList ('\x22' :: (s.toList.flatMap escape ++ ['\x22']))

/-- Items between brackets, with a comma and a space between them. -/
def listed (items : List String) : String := "[" ++ ", ".intercalate items ++ "]"

end Text
end PrefixCalc
