/-!
# PrefixCalc.Text.Lines

Lines of a byte stream. A line ends after a line feed or where the stream ends; it is decoded as
UTF-8 as a whole, and then loses its line feed and a carriage return in front of that.

`flatten_rawLines` says that the lines, with their ends, make up the stream.
-/

namespace PrefixCalc
namespace Text

def lineFeed : UInt8 := 0x0A

/-- Puts a byte in front of a stream that is cut into lines. -/
def extendLines (b : UInt8) : List (List UInt8) → List (List UInt8)
  | [] => [[b]]
  | l :: ls => if b = lineFeed then [b] :: l :: ls else (b :: l) :: ls

/-- The lines with their line feeds. -/
def rawLines (bytes : List UInt8) : List (List UInt8) := bytes.foldr extendLines []

/-- The first line of a stream with its line feed, and what stands behind it. -/
def cutLine : List UInt8 → List UInt8 × List UInt8
  | [] => ([], [])
  | b :: bytes =>
    if b = lineFeed then ([b], bytes)
    else
      let (line, rest) := cutLine bytes
      (b :: line, rest)

def decode? (bytes : List UInt8) : Option String := String.fromUTF8? bytes.toByteArray

def encode (s : String) : List UInt8 := s.toUTF8.data.toList

/-- Takes the end off a line, given in reverse. Only a line feed makes a carriage return part of the
end. -/
def dropEnd : List Char → List Char
  | '\n' :: '\r' :: cs => cs
  | '\n' :: cs => cs
  | cs => cs

def withoutEnd (s : String) : String := String.ofList (dropEnd s.toList.reverse).reverse

/-- The text of a line, or nothing if it is not UTF-8. -/
def readLine? (raw : List UInt8) : Option String := (decode? raw).map withoutEnd

theorem flatten_extendLines (b : UInt8) (ls : List (List UInt8)) :
    (extendLines b ls).flatten = b :: ls.flatten := by
  cases ls with
  | nil => rfl
  | cons l ls => simp only [extendLines]; split <;> simp

theorem flatten_rawLines (bytes : List UInt8) : (rawLines bytes).flatten = bytes := by
  induction bytes with
  | nil => rfl
  | cons b bytes ih => exact (flatten_extendLines b (rawLines bytes)).trans (congrArg (b :: ·) ih)

end Text
end PrefixCalc
