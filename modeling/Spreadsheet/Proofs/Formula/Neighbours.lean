import Spreadsheet.Proofs.Formula.Rendering

/-!
# Neighbouring Tokens

A word that is no token is left out, so tokens can be neighbours whose words were not. Still no
number, reference or function ever follows another one. Of two plain words no second one stands
directly behind the first, so there is a mark between them, and a mark is always a token: whatever
is left out, a mark is not. The tokens of a text have this and a few other properties, whatever the
text is (`Token.scan_shape`).

## Main definitions

* `Token.Shaped`: what all sequences of scanned tokens have in common.

## Main results

* `Scan.Cut.isChain_tokens`: no plain token follows another one.
* `Token.scan_shape`: the words and the tokens of a text.
-/

namespace Spreadsheet

namespace Scan

variable {ws : List (List Char)}

/-- **No number, reference or function follows another one**, also where words have been left out
between them. -/
theorem Cut.isChain_tokens (h : Cut ws) :
    (ws.filterMap token?).IsChain fun t u => ¬ (t.IsPlain ∧ u.IsPlain) := by
  induction ws with
  | nil => exact List.isChain_nil
  | cons w ws ih =>
      cases hw : token? w with
      | none =>
          rw [List.filterMap_cons_none hw]
          exact ih h.tail
      | some t =>
          rw [List.filterMap_cons_some hw]
          refine List.isChain_cons.mpr ⟨?_, ih h.tail⟩
          rintro u hu ⟨ht, hplain⟩
          have hword := (token?_eq_some_iff.mp hw).plain ht (h.plain_or_mark w List.mem_cons_self)
          cases ws with
          | nil => cases hu
          | cons v ws =>
              -- The mark behind the word has not been left out, so it is the token that follows.
              have hmark : Mark v := h.mark_of_plain hword
              obtain ⟨t', ht'⟩ := exists_token?_of_mark hmark
              rw [List.filterMap_cons_some ht'] at hu
              obtain rfl : t' = u := Option.some.inj hu
              exact hmark.not_plain ((token?_eq_some_iff.mp ht').plain hplain (Or.inr hmark))

end Scan

namespace Token

open Scan

/-- Tokens are **shaped** as those of a text are: no text is among them, no number, reference or
function follows another one, the numbers are not negative, and references are names of cells. -/
structure Shaped (ts : List Token) : Prop where
  /-- No token is a text. -/
  text : ∀ content, Token.text content ∉ ts
  /-- No two plain tokens are neighbours. -/
  isChain : ts.IsChain fun t u => ¬ (t.IsPlain ∧ u.IsPlain)
  /-- Every number is one, and it is not negative. -/
  number : ∀ x, Token.number x ∈ ts → 0 ≤ x ∧ x.isNaN = false
  /-- Every reference is the name of a cell, and nothing else. -/
  reference : ∀ name, Token.reference name ∈ ts → Address.IsName name.toList

/-- The tokens of a text are shaped, whatever the text is. -/
theorem shaped_scan (s : String) : Shaped (scan s) := by
  refine ⟨fun content hmem => not_scannable_text content (scannable_of_mem_scanChars hmem),
    (cut_words _).isChain_tokens, fun x hmem => ?_,
    fun name hmem => (scannable_of_mem_scanChars hmem).isName⟩
  have hle : 0 ≤ x := by
    rcases (scannable_of_mem_scanChars hmem).isUnsigned_or_eq with hx | rfl
    · exact hx.2.1
    · decide +kernel
  exact ⟨hle, Number.isNaN_eq_false_of_zero_le hle⟩

/-- A word that is left out brings marks together, but no numbers. -/
example : scan "2*foo+3" = [.number 2, .operator .multiply, .operator .add, .number 3] := by
  decide +kernel

/-- **The shape of what is scanned.** The words of a text are not empty and make up its normal form,
which is its own normal form. Each of them is a separator alone or has no separator in it, and no
two without one are neighbours. The tokens are shaped, however many words are left out. -/
theorem scan_shape (s : String) :
    ([] ∉ words (normalForm s.toList) ∧
      (words (normalForm s.toList)).flatten = normalForm s.toList ∧
      Cut (words (normalForm s.toList))) ∧
    normalForm (normalForm s.toList) = normalForm s.toList ∧
    Shaped (scan s) :=
  have hcut : Cut (words (normalForm s.toList)) := cut_words _
  ⟨⟨hcut.nil_notMem, flatten_words _, hcut⟩, normalForm_normalForm _, shaped_scan s⟩

end Token

end Spreadsheet
