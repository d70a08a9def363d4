import PrefixCalc.Text.Lines

/-!
# PrefixCalc.Text.Access

Reading and cutting at byte indices. A byte has an index below the length, and bytes can be cut at
every index up to the length. A text can only be cut where a character starts or the text ends.
-/

namespace PrefixCalc

inductive IndexFault where
  | beyondEnd
  | insideCharacter
  deriving DecidableEq

namespace Text

def byteAt (bytes : List UInt8) (i : Nat) : Except IndexFault UInt8 :=
  match bytes[i]? with
  | some b => .ok b
  | none => .error .beyondEnd

def bytesFrom (bytes : List UInt8) (i : Nat) : Except IndexFault (List UInt8) :=
  if i ≤ bytes.length then .ok (bytes.drop i) else .error .beyondEnd

/-- The byte at an index, if there is one, as the character of the same number. -/
def charAt? (bytes : List UInt8) (i : Nat) : Option Char := bytes[i]?.map Char.ofUInt8

def position (t : String) (i : Nat) : Except IndexFault t.Pos :=
  if h : String.Pos.Raw.IsValid t ⟨i⟩ then .ok ⟨⟨i⟩, h⟩
  else .error (if i ≤ t.utf8ByteSize then .insideCharacter else .beyondEnd)

def textFrom (t : String) (i : Nat) : Except IndexFault String :=
  (position t i).map fun p => (t.sliceFrom p).copy

def textUpTo (t : String) (i : Nat) : Except IndexFault String :=
  (position t i).map fun p => (t.sliceTo p).copy

end Text
end PrefixCalc
