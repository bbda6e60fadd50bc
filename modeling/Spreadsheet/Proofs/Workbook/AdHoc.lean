import Spreadsheet.Proofs.Sheet.Locality
import Spreadsheet.Proofs.Text.Trimming
import Spreadsheet.Proofs.Workbook.Arising

/-!
# Formulas that are Not Stored

A formula can be typed into a cell, and it can be evaluated without being stored. Either way its
text is trimmed, its equals sign is taken off, and the tokens of the rest are evaluated. The cell
is in progress while it is read. But an edit is only accepted if no path leads back to the cell,
so this makes no difference, and neither does it matter whether the formula is evaluated before or
after it has been stored (`Sheet.valueOf_insert`).

There is one exception. A permissive workbook takes off the equals sign of a text that is
evaluated, and then passes it on to be evaluated as a text of its own, which may begin with an
equals sign as well. Of two equals signs both are taken off, whereas an edit takes off the first
and leaves the second to the word behind it, which becomes unknown by that
(`Workbook.valueOfText_twice`). A strict workbook takes off only one.

## Main definitions

* `Workbook.adHocTokens`: the tokens that are evaluated for a formula that is not stored.

## Main results

* `Workbook.valueOfText_of_set`: an accepted formula is worth the same, stored or not.
* `Workbook.valueOfText_twice`: one with two equals signs is not.
-/

open Relation

namespace Spreadsheet

/-! ### Texts of formulas -/

/-- Only the end of a text behind an equals sign is trimmed. -/
theorem trim_equals (f : String) : trim ("=" ++ f).toList = '=' :: trimEnd f.toList := by
  have hequals : isBlank '=' = false := by decide
  have hstart : trimStart ('=' :: f.toList) = '=' :: f.toList :=
    List.dropWhile_cons_of_neg (by simp [hequals])
  rw [String.toList_append]
  show trim ('=' :: f.toList) = _
  rw [trim, hstart, trimEnd_cons hequals]

/-- A text behind an equals sign makes a formula with the tokens of the text. -/
theorem Cell.ofTyped_equals (f : String) :
    Cell.ofTyped ("=" ++ f) = .ofFormula ⟨String.ofList (trimEnd f.toList), Token.scan f⟩ := by
  rw [ofTyped, trim_equals, ofTrimmed, Formula.ofSource, Token.scan, String.toList_ofList,
    Token.scanChars_trimEnd]
  rfl

/-! ### Values -/

namespace Sheet

variable {s : Sheet} {a : Address} {f : Formula}

/-- **A formula is worth the same before and after it is put into a cell**, and so is the cell,
unless a path leads back to it. -/
theorem valueOf_insert (draw : Float)
    (ha : ¬ TransGen (s.insert a (.ofFormula f)).Refers a a) :
    (s.insert a (.ofFormula f)).value draw a = (s.insert a (.ofFormula f)).valueOf draw f.tokens ∧
      s.valueOf draw f.tokens = (s.insert a (.ofFormula f)).valueOf draw f.tokens := by
  have hf : (s.insert a (.ofFormula f)).content a = .formula f := by
    rw [content_insert, if_pos rfl]
    rfl
  refine ⟨value_eq_valueOf hf ha, (valueOf_congr fun b hb => value_congr fun c hbc => ?_).symm⟩
  have hca : a ≠ c := by
    rintro rfl
    exact ha (.head' ⟨f, hf, hb⟩ hbc)
  rw [content_insert, if_neg hca]
  exact .refl _

end Sheet

namespace Workbook

open Sheet

variable {w w' : Workbook} {a : Address} {f : String} {c : Cell} {g : List Char} {strict : Bool}

/-- The tokens that are evaluated for a text behind an equals sign. A permissive workbook takes
off a second one. -/
def adHocTokens (strict : Bool) (f : String) : List Token :=
  if strict then Token.scan f
  else Token.scanChars <|
    match trim f.toList with
    | '=' :: rest => rest
    | cs => cs

/-- These are the tokens of a text behind an equals sign, if a cell can be made of the text. -/
theorem tokensOfText_equals (hcell : w.cellOfTyped ("=" ++ f) = .ok c) :
    w.tokensOfText ("=" ++ f) = .ok (adHocTokens w.strict f) := by
  rw [tokensOfText, trim_equals, adHocTokens]
  cases hstrict : w.strict with
  | true =>
      rw [cellOfTyped, hstrict, trim_equals] at hcell
      obtain ⟨ts, hscan, -⟩ := exists_of_bind_eq_ok hcell
      have hts : Token.scan f = ts := by
        rw [← Token.scan_of_scanStrict_eq_ok hscan, Token.scan, Token.scan, String.toList_ofList,
          Token.scanChars_trimEnd]
      rw [if_pos rfl, if_pos rfl, hts]
      exact hscan
  | false =>
      rw [if_neg Bool.false_ne_true, if_neg Bool.false_ne_true, ← trimStart_trimEnd]
      rfl

/-- The value of a text behind an equals sign is that of its tokens, if a cell can be made of the
text. -/
theorem valueOfText_equals (draw : Float) (hcell : w.cellOfTyped ("=" ++ f) = .ok c) :
    w.valueOfText draw ("=" ++ f) =
      (w.sheet.valueOf draw (adHocTokens w.strict f)).mapError .formula := by
  rw [valueOfText_eq, tokensOfText_equals hcell]
  rfl

/-- Without a second equals sign the tokens of the whole text are evaluated. -/
theorem adHocTokens_eq_scan (h : strict = true ∨ (trim f.toList).head? ≠ some '=') :
    adHocTokens strict f = Token.scan f := by
  rw [adHocTokens]
  split
  · rfl
  · rename_i hpermissive
    split
    · rename_i rest hrest
      rw [hrest] at h
      exact absurd rfl (h.resolve_left hpermissive)
    · exact Token.scanChars_trim f.toList

/-- A formula that is accepted is put into its cell, to which no path leads back. -/
theorem sheet_of_set_equals (hlists : w.sheet.ListsReferences)
    (h : w.set a ("=" ++ f) = (.ok (), w')) :
    ∃ source, w.cellOfTyped ("=" ++ f) = .ok (.ofFormula ⟨source, Token.scan f⟩) ∧
      w' = { w with
        sheet := w.sheet.insert a (.ofFormula ⟨source, Token.scan f⟩), modified := true } ∧
      ¬ TransGen (w.sheet.insert a (.ofFormula ⟨source, Token.scan f⟩)).Refers a a := by
  have htyping := typing_set w a ("=" ++ f)
  rw [h] at htyping
  cases htyping with
  | accepted hcell hsearch =>
      have hafter : (w.sheet.insert a (Cell.ofTyped ("=" ++ f))).ListsReferences :=
        hlists.insert (Cell.references_ofTyped _)
      have hacyclic := Sheet.not_transGen_insert hafter hsearch
      rw [Cell.ofTyped_equals] at hcell hacyclic ⊢
      exact ⟨_, hcell, rfl, hacyclic⟩

/-- **Evaluating a formula agrees with storing it.** If a workbook accepts a formula, then its
value without being stored, before the edit as well as after it, is the value of its cell, with
one exception: a permissive workbook evaluates only what stands behind a second equals sign. In
that case the cell has the value of the tokens with the second sign, and the value of the formula
is that of the tokens behind it. The lists of references that the search relies on are right in
all workbooks that arise (`Workbook.Arises.listsReferences`). -/
theorem valueOfText_of_set (hlists : w.sheet.ListsReferences)
    (h : w.set a ("=" ++ f) = (.ok (), w')) (draw : Float) :
    (w.strict = true ∨ (trim f.toList).head? ≠ some '=' →
        w'.valueOfText draw ("=" ++ f) = (w'.sheet.value draw a).mapError .formula ∧
          w.valueOfText draw ("=" ++ f) = w'.valueOfText draw ("=" ++ f)) ∧
      ∀ g, w.strict = false → trim f.toList = '=' :: g →
        w'.sheet.value draw a = w'.sheet.valueOf draw (Token.scanChars ('=' :: g)) ∧
          w'.valueOfText draw ("=" ++ f) =
            (w'.sheet.valueOf draw (Token.scanChars g)).mapError .formula := by
  obtain ⟨source, hcell, hw', hacyclic⟩ := sheet_of_set_equals hlists h
  obtain ⟨hvalue, hbefore⟩ := Sheet.valueOf_insert draw hacyclic
  have hsheet : w'.sheet = w.sheet.insert a (.ofFormula ⟨source, Token.scan f⟩) := by rw [hw']
  have hstrict : w'.strict = w.strict := by rw [hw']
  have hafter : w'.valueOfText draw ("=" ++ f) =
      (w'.sheet.valueOf draw (adHocTokens w.strict f)).mapError .formula := by
    have hcell' : w'.cellOfTyped ("=" ++ f) = .ok (.ofFormula ⟨source, Token.scan f⟩) := by
      rw [cellOfTyped, hstrict]
      exact hcell
    rw [← hstrict]
    exact valueOfText_equals draw hcell'
  rw [← hsheet] at hvalue hbefore
  refine ⟨fun hplain => ?_, fun g hpermissive htwice => ?_⟩
  · rw [hafter, valueOfText_equals draw hcell, adHocTokens_eq_scan hplain, hvalue, hbefore]
    exact ⟨rfl, rfl⟩
  · have hscan : Token.scan f = Token.scanChars ('=' :: g) := by
      rw [← htwice, Token.scanChars_trim, Token.scan]
    have hbehind : adHocTokens false f = Token.scanChars g := by
      rw [adHocTokens, htwice]
      rfl
    rw [hafter, hpermissive, hbehind, hvalue, ← hscan]
    exact ⟨rfl, rfl⟩

/-- Of two equals signs, the cell keeps one: its formula is a word that is left out, and it has no
value. Without being stored, the same text is worth a number. -/
theorem valueOfText_twice :
    (({} : Workbook).set ⟨0, 0⟩ "==1").1 = .ok () ∧
      (({} : Workbook).set ⟨0, 0⟩ "==1").2.sheet.value 0 ⟨0, 0⟩ =
        .error (.malformed .emptyFormula) ∧
      (({} : Workbook).set ⟨0, 0⟩ "==1").2.valueOfText 0 "==1" = .ok 1 := by
  decide +kernel

/-- A strict workbook with the sheet `loop`, which has a cycle. -/
def strictLoop : Workbook :=
  { sheet := loop, strict := true }

/-- In the workbook `strictLoop` the formula `B1+1` is accepted at `D4`, and it meets the cycle
that was there before, with the same report whether it is stored or not. -/
theorem valueOfText_of_set_strictLoop :
    strictLoop.sheet.ListsReferences ∧
      (strictLoop.set ⟨3, 3⟩ ("=" ++ "B1+1")).1 = .ok () ∧
      (strictLoop.set ⟨3, 3⟩ ("=" ++ "B1+1")).2.sheet.value 0 ⟨3, 3⟩ =
        .error (.circular [⟨0, 1⟩, ⟨0, 2⟩, ⟨0, 1⟩]) ∧
      strictLoop.valueOfText 0 ("=" ++ "B1+1") =
        .error (.formula (.circular [⟨0, 1⟩, ⟨0, 2⟩, ⟨0, 1⟩])) := by
  have hlists : strictLoop.sheet.ListsReferences :=
    (((listsReferences_empty.insert rfl).insert rfl).insert rfl).insert rfl
  have haccepted : (strictLoop.set ⟨3, 3⟩ ("=" ++ "B1+1")).1 = .ok () := by
    decide +kernel
  have hvalue : (strictLoop.set ⟨3, 3⟩ ("=" ++ "B1+1")).2.sheet.value 0 ⟨3, 3⟩ =
      .error (.circular [⟨0, 1⟩, ⟨0, 2⟩, ⟨0, 1⟩]) := by
    decide +kernel
  have hset : strictLoop.set ⟨3, 3⟩ ("=" ++ "B1+1") =
      (.ok (), (strictLoop.set ⟨3, 3⟩ ("=" ++ "B1+1")).2) := by
    rw [← haccepted]
  obtain ⟨hstored, hbefore⟩ := (valueOfText_of_set hlists hset 0).1 (Or.inl rfl)
  refine ⟨hlists, haccepted, hvalue, ?_⟩
  rw [hbefore, hstored, hvalue]
  rfl

end Workbook

end Spreadsheet
