import PrefixCalc.Numeral.Basic

/-!
# PrefixCalc.Numeral.Scan

The numeral at the start of a text. Each optional part is taken when it is complete and left in the
text otherwise, so the numeral is as long as it can be.

`scan_spelling` says that nothing is lost: the spelling of the numeral, followed by the rest, is the
text. `scan_wellFormed` says that what is found obeys the grammar.
-/

namespace PrefixCalc
namespace Numeral

def scanSign : List Char → Option Sign × List Char
  | '+' :: cs => (some .plus, cs)
  | '-' :: cs => (some .minus, cs)
  | cs => (none, cs)

def scanDigits (cs : List Char) : List Char × List Char :=
  (cs.takeWhile Char.isDigit, cs.dropWhile Char.isDigit)

def scanFraction : List Char → Option (List Char) × List Char
  | '.' :: cs => (some (scanDigits cs).1, (scanDigits cs).2)
  | cs => (none, cs)

/-- An exponent needs a digit: a mark without one belongs to the rest. -/
def scanExponent : List Char → Option ExponentPart × List Char
  | [] => (none, [])
  | c :: cs =>
    if c = 'e' ∨ c = 'E' then
      let sign := scanSign cs
      let digits := scanDigits sign.2
      if digits.1 = [] then (none, c :: cs)
      else (some { mark := c, sign := sign.1, digits := digits.1 }, digits.2)
    else (none, c :: cs)

/-- A decimal literal needs a digit before its exponent. -/
def scanDecimal (cs : List Char) : Option (Unsigned × List Char) :=
  let whole := scanDigits cs
  let fraction := scanFraction whole.2
  if whole.1 ++ fraction.1.getD [] = [] then none
  else
    let exponent := scanExponent fraction.2
    some (.decimal whole.1 fraction.1 exponent.1, exponent.2)

def scanUnsigned (cs : List Char) : Option (Unsigned × List Char) :=
  match Unsigned.infinityWord.isPrefixOf? cs with
  | some rest => some (.infinity, rest)
  | none => scanDecimal cs

/-- The longest numeral at the start of the text, and what follows it. -/
def scan (cs : List Char) : Option (Numeral × List Char) :=
  let sign := scanSign cs
  match scanUnsigned sign.2 with
  | some (u, rest) => some ({ sign := sign.1, unsigned := u }, rest)
  | none => none

theorem scanSign_spelling (cs : List Char) :
    Sign.spelling (scanSign cs).1 ++ (scanSign cs).2 = cs := by
  unfold scanSign
  split <;> rfl

theorem scanDigits_append (cs : List Char) : (scanDigits cs).1 ++ (scanDigits cs).2 = cs :=
  List.takeWhile_append_dropWhile

theorem scanDigits_isDigit (cs : List Char) : ∀ c ∈ (scanDigits cs).1, c.isDigit = true := by
  intro c hc
  exact List.all_eq_true.mp (List.all_takeWhile (l := cs) (p := Char.isDigit)) c hc

theorem scanFraction_spelling (cs : List Char) :
    Unsigned.fractionSpelling (scanFraction cs).1 ++ (scanFraction cs).2 = cs := by
  unfold scanFraction
  split
  · exact congrArg ('.' :: ·) (scanDigits_append _)
  · rfl

theorem scanFraction_isDigit (cs : List Char) :
    ∀ c ∈ (scanFraction cs).1.getD [], c.isDigit = true := by
  unfold scanFraction
  split
  · exact scanDigits_isDigit _
  · simp

theorem scanExponent_spelling (cs : List Char) :
    ((scanExponent cs).1.map ExponentPart.spelling).getD [] ++ (scanExponent cs).2 = cs := by
  unfold scanExponent
  split
  · rfl
  · rename_i c cs
    split
    · dsimp only
      split
      · rfl
      · simp only [Option.map_some, Option.getD_some, ExponentPart.spelling, List.cons_append,
          List.append_assoc, scanDigits_append, scanSign_spelling]
    · rfl

theorem scanExponent_wellFormed (cs : List Char) :
    ∀ e, (scanExponent cs).1 = some e → e.WellFormed := by
  intro e h
  unfold scanExponent at h
  split at h
  · cases h
  · rename_i c cs
    split at h
    · rename_i hmark
      dsimp only at h
      split at h
      · cases h
      · rename_i hne
        cases h
        exact ⟨hmark, scanDigits_isDigit _, hne⟩
    · cases h

theorem scanDecimal_spelling {cs rest : List Char} {u : Unsigned}
    (h : scanDecimal cs = some (u, rest)) : u.spelling ++ rest = cs := by
  unfold scanDecimal at h
  dsimp only at h
  split at h
  · cases h
  · cases h
    simp only [Unsigned.spelling, List.append_assoc, scanExponent_spelling, scanFraction_spelling,
      scanDigits_append]

theorem scanDecimal_wellFormed {cs rest : List Char} {u : Unsigned}
    (h : scanDecimal cs = some (u, rest)) : u.WellFormed := by
  unfold scanDecimal at h
  dsimp only at h
  split at h
  · cases h
  · rename_i hne
    cases h
    refine .decimal ?_ hne (scanExponent_wellFormed _)
    intro c hc
    rcases List.mem_append.mp hc with hc | hc
    · exact scanDigits_isDigit _ c hc
    · exact scanFraction_isDigit _ c hc

theorem isPrefixOf?_append {p cs rest : List Char} (h : p.isPrefixOf? cs = some rest) :
    p ++ rest = cs := by
  induction p generalizing cs with
  | nil =>
    cases h
    rfl
  | cons a p ih =>
    cases cs with
    | nil => cases h
    | cons b cs =>
      have h : (if a == b then p.isPrefixOf? cs else none) = some rest := h
      split at h
      · rename_i hab
        rw [eq_of_beq hab, List.cons_append, ih h]
      · cases h

theorem scanUnsigned_spelling {cs rest : List Char} {u : Unsigned}
    (h : scanUnsigned cs = some (u, rest)) : u.spelling ++ rest = cs := by
  unfold scanUnsigned at h
  split at h
  · rename_i hp
    cases h
    exact isPrefixOf?_append hp
  · exact scanDecimal_spelling h

theorem scanUnsigned_wellFormed {cs rest : List Char} {u : Unsigned}
    (h : scanUnsigned cs = some (u, rest)) : u.WellFormed := by
  unfold scanUnsigned at h
  split at h
  · cases h
    exact .infinity
  · exact scanDecimal_wellFormed h

/-- The numeral and the rest make up the text. -/
theorem scan_spelling {cs rest : List Char} {n : Numeral} (h : scan cs = some (n, rest)) :
    n.spelling ++ rest = cs := by
  unfold scan at h
  dsimp only at h
  split at h
  · rename_i u r hu
    cases h
    simp only [spelling, List.append_assoc, scanUnsigned_spelling hu, scanSign_spelling]
  · cases h

theorem scan_wellFormed {cs rest : List Char} {n : Numeral} (h : scan cs = some (n, rest)) :
    n.WellFormed := by
  unfold scan at h
  dsimp only at h
  split at h
  · rename_i u r hu
    cases h
    exact scanUnsigned_wellFormed hu
  · cases h

end Numeral
end PrefixCalc
