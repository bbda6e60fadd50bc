import Spreadsheet.Proofs.Formula.Scanning
import Spreadsheet.Workbook.Basic

/-!
# Edits of a Workbook

A workbook is edited by typing into its cells and by clearing them; between edits it may be
made strict or permissive. Whatever an edit does, and whether it is accepted or refused, it
changes the sheet in at most one place, and what it puts there is what some text makes
(`Workbook.sheet_apply`). A strict workbook refuses more texts than a permissive one, but it
makes the same cells (`Workbook.eq_ofTyped_of_cellOfTyped_eq_ok`).

## Main definitions

* `Edit`, `Workbook.apply`: one edit.
* `Workbook.ofEdits`: what becomes of a new workbook.
* `Workbook.Typing`: what can come of typing a text into a cell.

## Main results

* `Workbook.typing_set`: what comes of typing a text into a cell.
* `Workbook.sheet_apply`: what an edit does to the sheet.
* `Workbook.ofEdits_induction`: what holds of a new sheet and survives an edit always holds.
* `Workbook.exists_eq_ofTyped`: every cell is what some text makes.
-/

namespace Spreadsheet

/-! ### Typed cells -/

/-- The cell that a typed text makes lists what its formula refers to. -/
theorem Cell.references_ofTyped (input : String) :
    (Cell.ofTyped input).references =
      Token.references ((Cell.ofTyped input).tokens?.getD []) := by
  rw [ofTyped, ofTrimmed.eq_def]
  split
  · rfl
  · rfl
  · split
    · rfl
    · split <;> rfl

namespace Sheet

variable {s : Sheet} {a : Address} {c d : Cell}

/-- Of two cells at one place, the first one leaves no trace. -/
theorem insert_insert : (s.insert a c).insert a d = s.insert a d := by
  ext b
  rw [get?_insert, get?_insert, get?_insert]
  split <;> rfl

/-- Putting in again what is there changes nothing. -/
theorem insert_eq_self (h : s.get? a = some c) : s.insert a c = s := by
  ext b
  rw [get?_insert]
  split
  · rename_i hab
    rw [← hab, h]
  · rfl

end Sheet

/-! ### Edits -/

/-- What can be done to a workbook that is being edited. -/
inductive Edit where
  /-- A text is typed into a cell. -/
  | set (a : Address) (input : String)
  /-- A cell is cleared. -/
  | clear (a : Address)
  /-- From now on, formulas with unknown words are refused, or no longer refused. -/
  | strict (on : Bool)

namespace Workbook

/-- The workbook after an edit, which may have been refused. -/
def apply (w : Workbook) : Edit → Workbook
  | .set a input => (w.set a input).2
  | .clear a => w.clear a
  | .strict on => { w with strict := on }

/-- What becomes of a new workbook that is edited. -/
def ofEdits (edits : List Edit) : Workbook :=
  edits.foldl apply {}

/-- The cell that a typed text makes does not depend on strictness. -/
theorem eq_ofTyped_of_cellOfTyped_eq_ok {w : Workbook} {input : String} {c : Cell}
    (h : w.cellOfTyped input = .ok c) : c = Cell.ofTyped input := by
  rw [cellOfTyped] at h
  rw [Cell.ofTyped]
  split at h
  · rename_i source htrim
    simp only [bind, Except.bind] at h
    split at h
    · cases h
    · rename_i ts hscan
      cases h
      rw [htrim, Cell.ofTrimmed, Formula.ofSource, Token.scan_of_scanStrict_eq_ok hscan]
  · cases h
    rfl

/-- Putting back a cell that was there restores the sheet. -/
theorem restore_insert {s : Sheet} {a : Address} {d : Cell} (h : s.get? a = some d) (c : Cell) :
    restore (s.insert a c) a (some d) = s := by
  rw [restore, Sheet.insert_insert]
  exact Sheet.insert_eq_self h

/-- What can come of typing a text into a cell. -/
inductive Typing (w : Workbook) (a : Address) (input : String) :
    Except WorkbookError Unit × Workbook → Prop where
  /-- The text is refused because of a word, and nothing is changed. -/
  | unknown {cause : FormulaError} (hcell : w.cellOfTyped input = .error cause) :
      Typing w a input (.error (.formula cause), w)
  /-- The formula closes a cycle, and the cell that was there is put back. -/
  | circular {path : List Address} {d : Cell} (hformula : (Cell.ofTyped input).isFormula = true)
      (hsearch : (w.sheet.insert a (Cell.ofTyped input)).cycleThrough? a = some path)
      (hold : w.sheet.get? a = some d) :
      Typing w a input (.error (.circular path), w)
  /-- The formula closes a cycle, and an empty cell is put where there was no entry. -/
  | circularNew {path : List Address} (hformula : (Cell.ofTyped input).isFormula = true)
      (hsearch : (w.sheet.insert a (Cell.ofTyped input)).cycleThrough? a = some path)
      (hnew : w.sheet.get? a = none) :
      Typing w a input
        (.error (.circular path), { w with sheet := w.sheet.insert a .empty })
  /-- The text is accepted. -/
  | accepted (hcell : w.cellOfTyped input = .ok (Cell.ofTyped input))
      (hsearch : (Cell.ofTyped input).isFormula = true →
        (w.sheet.insert a (Cell.ofTyped input)).cycleThrough? a = none) :
      Typing w a input
        (.ok (), { w with sheet := w.sheet.insert a (Cell.ofTyped input), modified := true })

/-- **What comes of typing a text into a cell.** -/
theorem typing_set (w : Workbook) (a : Address) (input : String) :
    Typing w a input (w.set a input) := by
  rw [Workbook.set]
  cases hcell : w.cellOfTyped input with
  | error cause => exact .unknown hcell
  | ok c =>
      obtain rfl := eq_ofTyped_of_cellOfTyped_eq_ok hcell
      dsimp only
      cases hformula : (Cell.ofTyped input).isFormula with
      | false =>
          refine .accepted hcell fun htrue => ?_
          rw [hformula] at htrue
          cases htrue
      | true =>
          rw [if_pos rfl]
          cases hsearch : (w.sheet.insert a (Cell.ofTyped input)).cycleThrough? a with
          | none => exact .accepted hcell fun _ => hsearch
          | some path =>
              cases hget : w.sheet.get? a with
              | some d =>
                  dsimp only
                  rw [restore_insert hget]
                  exact .circular hformula hsearch hget
              | none =>
                  have hclear : restore (w.sheet.insert a (Cell.ofTyped input)) a none =
                      w.sheet.insert a .empty := Sheet.insert_insert
                  dsimp only
                  rw [hclear]
                  exact .circularNew hformula hsearch hget

/-- **An edit changes a sheet in at most one place.** What it puts there is what some text
makes, and if that is a formula, then no cycle through its cell was found. -/
theorem sheet_apply (w : Workbook) (e : Edit) :
    (w.apply e).sheet = w.sheet ∨
      ∃ a input, (w.apply e).sheet = w.sheet.insert a (Cell.ofTyped input) ∧
        ((Cell.ofTyped input).isFormula = true →
          (w.apply e).sheet.cycleThrough? a = none) := by
  have hempty : Cell.ofTyped "" = .empty := by decide +kernel
  have hplain : (Cell.ofTyped "").isFormula ≠ true := by
    rw [hempty]
    exact Bool.false_ne_true
  cases e with
  | strict on => exact Or.inl rfl
  | clear a =>
      rw [apply, Workbook.clear]
      split
      · exact Or.inl rfl
      · refine Or.inr ⟨a, "", ?_, fun hformula => absurd hformula hplain⟩
        rw [hempty]
        rfl
  | set a input =>
      have htyping := typing_set w a input
      rw [apply]
      generalize w.set a input = outcome at htyping ⊢
      cases htyping with
      | unknown hcell => exact Or.inl rfl
      | circular hformula hsearch hold => exact Or.inl rfl
      | circularNew hformula hsearch hnew =>
          refine Or.inr ⟨a, "", ?_, fun hformula => absurd hformula hplain⟩
          rw [hempty]
      | accepted hcell hsearch => exact Or.inr ⟨a, input, rfl, hsearch⟩

/-- **What holds of the empty sheet and survives every edit** holds of all sheets that come
about by edits. -/
theorem ofEdits_induction {P : Sheet → Prop} (hnew : P .empty)
    (happly : ∀ (w : Workbook) (e : Edit), P w.sheet → P (w.apply e).sheet)
    (edits : List Edit) : P (ofEdits edits).sheet := by
  rw [ofEdits]
  have hstart : P ({} : Workbook).sheet := hnew
  generalize ({} : Workbook) = w at hstart
  induction edits generalizing w with
  | nil => exact hstart
  | cons e edits ih => exact ih (w.apply e) (happly w e hstart)

/-- Every entry that comes about by edits is what some text makes. -/
theorem exists_eq_ofTyped {edits : List Edit} {a : Address} {c : Cell}
    (h : (ofEdits edits).sheet.get? a = some c) : ∃ input, c = Cell.ofTyped input := by
  refine ofEdits_induction
    (P := fun s => ∀ a c, s.get? a = some c → ∃ input, c = Cell.ofTyped input) ?_ ?_ edits a c h
  · intro a c hc
    rw [Sheet.get?_empty] at hc
    cases hc
  · intro w e ih a c hc
    rcases w.sheet_apply e with hsheet | ⟨b, input, hsheet, -⟩
    · exact ih a c (hsheet ▸ hc)
    · rw [hsheet, Sheet.get?_insert] at hc
      split at hc
      · exact ⟨input, (Option.some.inj hc).symm⟩
      · exact ih a c hc

/-- The first cell to be set is set unless it refers to something. -/
theorem sheet_ofEdits_set {a : Address} {input : String}
    (h : (Cell.ofTyped input).references = []) :
    (ofEdits [.set a input]).sheet = Sheet.empty.insert a (Cell.ofTyped input) := by
  have hget : (Sheet.empty.insert a (Cell.ofTyped input)).get? a = some (Cell.ofTyped input) := by
    rw [Sheet.get?_insert, if_pos rfl]
  have hsearch : (Sheet.empty.insert a (Cell.ofTyped input)).cycleThrough? a = none := by
    rw [Sheet.cycleThrough?, Cycle.search]
    simp [hget, h, Cycle.firstPath]
  show (Workbook.set {} a input).2.sheet = _
  have hcell : ({} : Workbook).cellOfTyped input = .ok (Cell.ofTyped input) := rfl
  rw [Workbook.set, hcell]
  dsimp only
  split
  · rename_i path hpath
    split at hpath
    · exact absurd (hsearch.symm.trans hpath) (by simp)
    · cases hpath
  · rfl

end Workbook

end Spreadsheet
