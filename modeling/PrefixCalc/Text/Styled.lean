/-!
# PrefixCalc.Text.Styled

Terminal styles. A styled text stands between the codes that turn the style on and the code that
resets the terminal; where the text itself resets the terminal, the style is turned on again.
-/

namespace PrefixCalc
namespace Text

inductive Style where
  | value
  | error
  | hint
  | key
  deriving DecidableEq

namespace Style

/-- The parameters of a style: green, bold red, dimmed, dimmed yellow. -/
def parameters : Style → List Char
  | .value => ['3', '2']
  | .error => ['1', ';', '3', '1']
  | .hint => ['2']
  | .key => ['2', ';', '3', '3']

def opening (s : Style) : List Char := '\x1b' :: '[' :: (s.parameters ++ ['m'])

def reset : List Char := ['\x1b', '[', '0', 'm']

/-- Turns the style on again after every reset. -/
def restore (s : Style) : List Char → List Char
  | [] => []
  | '\x1b' :: '[' :: '0' :: 'm' :: cs => reset ++ s.opening ++ restore s cs
  | c :: cs => c :: restore s cs

def apply (s : Style) (cs : List Char) : List Char := s.opening ++ s.restore cs ++ reset

end Style

/-- Where output goes: whether colour is wanted, and whether the terminal takes style codes. -/
structure Display where
  color : Bool
  ansi : Bool
  deriving DecidableEq

namespace Display

def plain : Display := { color := false, ansi := false }

def styles (d : Display) : Bool := d.color && d.ansi

/-- A text in a style, if the display shows styles. -/
def paint (d : Display) (s : Style) (text : String) : String :=
  if d.styles then String.ofList (s.apply text.toList) else text

end Display
end Text
end PrefixCalc
