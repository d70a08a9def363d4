import PrefixCalc.Proofs.Text.Access
import PrefixCalc.Proofs.Text.Words
import PrefixCalc.Text.Items

/-!
# PrefixCalc.Proofs.Text.Items

The items of a text under two rules, one for separators, which are passed over, and one for all
other characters.

* `Span.text_of_at`: a span can be cut out if characters begin and end there.
* `longest?_of_separator`, `longest?_of_not_separator`: no character is left without a rule.
* `itemsFrom_spec`: every item has a kind, its span can be cut out, and what the spans cover are the
  words of the text.
-/

namespace PrefixCalc
namespace Text

theorem Span.text_of_at {t : String} {i : Nat} {front w rest : List Char}
    (h : At t i front (w ++ rest)) :
    Span.text ⟨i, i + (String.ofList w).utf8ByteSize⟩ t = .ok (String.ofList w) := by
  have hfront : At (String.ofList (front ++ w)) i front w := ⟨String.ofList_append, h.index⟩
  show (textUpTo t _).bind (textFrom · i) = _
  rw [h.past.textUpTo]
  exact hfront.textFrom

variable {κ : Type} {gap field : CharClass} {kind : κ} {isSeparator : Char → Bool}

/-- What the first rule takes is passed over. -/
def fieldRules (gap field : CharClass) (kind : κ) : List (Rule κ) :=
  [{ takes := gap, kind? := none }, { takes := field, kind? := some kind }]

section

variable (hgap : ∀ c, gap.has c = isSeparator c) (hfield : ∀ c, field.has c = !isSeparator c)

include hgap hfield

theorem longest?_of_separator {c : Char} (hc : isSeparator c = true) (cs : List Char) :
    longest? (c :: cs) (fieldRules gap field kind) = some { takes := gap, kind? := none } := by
  simp [fieldRules, longest?, Rule.taken, hgap, hfield, hc]

theorem longest?_of_not_separator {c : Char} (hc : isSeparator c = false) (cs : List Char) :
    longest? (c :: cs) (fieldRules gap field kind) =
      some { takes := field, kind? := some kind } := by
  simp [fieldRules, longest?, Rule.taken, hgap, hfield, hc]

theorem itemsFrom_of_separator {c : Char} (hc : isSeparator c = true) (i : Nat) (cs : List Char) :
    itemsFrom (fieldRules gap field kind) i (c :: cs) =
      itemsFrom (fieldRules gap field kind)
        (i + (String.ofList (c :: cs.takeWhile isSeparator)).utf8ByteSize)
        (cs.dropWhile isSeparator) := by
  have htakes : gap.has = isSeparator := funext hgap
  rw [itemsFrom, longest?_of_separator hgap hfield hc]
  simp only [Rule.taken, htakes, List.takeWhile_cons_of_pos hc]

theorem itemsFrom_of_not_separator {c : Char} (hc : isSeparator c = false) (i : Nat)
    (cs : List Char) :
    itemsFrom (fieldRules gap field kind) i (c :: cs) =
      let stop := i + (String.ofList (c :: cs.takeWhile (!isSeparator ·))).utf8ByteSize
      { kind? := some kind, span := ⟨i, stop⟩ } ::
        itemsFrom (fieldRules gap field kind) stop (cs.dropWhile (!isSeparator ·)) := by
  have htakes : field.has = (!isSeparator ·) := funext hfield
  rw [itemsFrom, longest?_of_not_separator hgap hfield hc]
  simp only [Rule.taken, htakes]
  rw [List.takeWhile_cons_of_pos (by rw [hc]; rfl)]

/-- By induction on the number of characters that are left: each rule takes one at least. -/
theorem itemsFrom_spec {t : String} {i : Nat} {front cs : List Char} (h : At t i front cs) :
    (∀ item ∈ itemsFrom (fieldRules gap field kind) i cs, item.kind? = some kind) ∧
      (itemsFrom (fieldRules gap field kind) i cs).mapM (·.span.text t) =
        .ok ((words isSeparator cs).map String.ofList) := by
  induction hn : cs.length using Nat.strong_induction_on generalizing i front cs with
  | _ n ih =>
    subst hn
    cases cs with
    | nil =>
      rw [itemsFrom]
      exact ⟨List.forall_mem_nil _, by simp [words]; rfl⟩
    | cons c cs =>
      cases hc : isSeparator c with
      | true =>
        have hcut : c :: cs = (c :: cs.takeWhile isSeparator) ++ cs.dropWhile isSeparator := by
          rw [List.cons_append, List.takeWhile_append_dropWhile]
        have hblank : ∀ d ∈ c :: cs.takeWhile isSeparator, isSeparator d = true :=
          List.forall_mem_cons.mpr ⟨hc, fun d hd => List.mem_takeWhile_imp hd⟩
        rw [itemsFrom_of_separator hgap hfield hc]
        rw [hcut] at h ⊢
        rw [words_gap_append hblank]
        exact ih _ (Nat.lt_succ_of_le (List.dropWhile_sublist _).length_le) h.past rfl
      | false =>
        have hcut : c :: cs =
            (c :: cs.takeWhile (!isSeparator ·)) ++ cs.dropWhile (!isSeparator ·) := by
          rw [List.cons_append, List.takeWhile_append_dropWhile]
        have h' := hcut ▸ h
        obtain ⟨hkind, htexts⟩ :=
          ih _ (Nat.lt_succ_of_le (List.dropWhile_sublist _).length_le) h'.past rfl
        rw [itemsFrom_of_not_separator hgap hfield hc, words_cons hc]
        refine ⟨List.forall_mem_cons.mpr ⟨rfl, hkind⟩, ?_⟩
        rw [List.mapM_cons, Span.text_of_at h', htexts]
        rfl

end

end Text
end PrefixCalc
