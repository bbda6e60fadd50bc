import Spreadsheet.Proofs.Json.Sheet
import Spreadsheet.Proofs.Sheet.Listing
import Spreadsheet.Proofs.Sheet.Locality
import Spreadsheet.Proofs.Workbook.Edits
import Spreadsheet.Workbook.File

/-!
# Refused Edits

A text with an unknown word is refused before anything is done. A formula that closes a cycle
is refused only after its cell has been put into the sheet, where the search for the cycle needs
it, and then the edit is taken back. If the cell had an entry before, this restores the workbook.
If it had none, the workbook is not what it was: an entry can be emptied but not removed, so an
empty one stays behind (`Workbook.set_self_leaves_entry`).

This is all that a refused edit ever leaves behind (`Workbook.set_refused`). Such an entry counts
among the entries of the sheet and is listed with them, but no value depends on it, and it is not
written to a file.

## Main results

* `FileFormat.render_eq_of_filled_eq`: only filled entries are written to files.
* `Workbook.set_refused`: what a refused edit leaves behind.
* `Workbook.set_self_leaves_entry`: a refused edit is not always without a trace.
-/

namespace Spreadsheet

/-! ### Empty entries -/

namespace Sheet

variable {s : Sheet} {a : Address}

/-- An empty cell that is put where there was no entry does not change what cells hold. -/
theorem content_insert_empty (h : s.get? a = none) (b : Address) :
    (s.insert a .empty).content b = s.content b := by
  rw [content_insert]
  split
  · rename_i hab
    rw [← hab, content, h]
    rfl
  · rfl

/-- An empty cell that is put where there was no entry is not filled, and replaces no filled
one. -/
theorem filled_insert_empty (h : s.get? a = none) : (s.insert a .empty).filled = s.filled := by
  refine filled_eq_of_forall fun b c hc => ?_
  rw [get?_insert]
  split
  · rename_i hab
    rw [← hab, h]
    constructor
    · rintro ⟨⟩
      cases hc
    · rintro ⟨⟩
  · rfl

/-- A sheet changes if a cell is put where there was no entry. -/
theorem insert_ne_self (h : s.get? a = none) (c : Cell) : s.insert a c ≠ s := by
  intro heq
  have hget : (s.insert a c).get? a = some c := by rw [get?_insert, if_pos rfl]
  rw [heq, h] at hget
  cases hget

end Sheet

/-- **Only filled entries are written to files**, whatever the format. -/
theorem FileFormat.render_eq_of_filled_eq {s t : Sheet} (h : s.filled = t.filled)
    (format : FileFormat) : format.render s = format.render t := by
  have hstored : s.stored = t.stored := by rw [Sheet.stored_eq, Sheet.stored_eq, h]
  cases format with
  | listing =>
      show s.toListing = t.toListing
      rw [Sheet.toListing_eq, Sheet.toListing_eq, h]
  | json =>
      have hjson : ∀ s : Sheet, s.toJson = .record [("cells", .list s.stored)] := fun _ => rfl
      show s.toJsonText = t.toJsonText
      rw [Sheet.toJsonText, Sheet.toJsonText, hjson, hjson, hstored]

/-! ### Refusals -/

namespace Workbook

variable {w w' : Workbook} {a : Address} {input : String} {e : WorkbookError}

/-- A refused edit restores the workbook, unless it was refused because of a cycle and its cell
had no entry. -/
theorem eq_or_of_set_eq_error (h : w.set a input = (.error e, w')) :
    w' = w ∧ ¬ ((∃ path, e = .circular path) ∧ w.sheet.get? a = none) ∨
      ((∃ path, e = .circular path) ∧ w.sheet.get? a = none) ∧
        w' = { w with sheet := w.sheet.insert a .empty } := by
  have htyping := typing_set w a input
  rw [h] at htyping
  cases htyping with
  | unknown hcell =>
      refine Or.inl ⟨rfl, ?_⟩
      rintro ⟨⟨path, hpath⟩, -⟩
      cases hpath
  | circular hformula hsearch hold =>
      refine Or.inl ⟨rfl, ?_⟩
      rintro ⟨-, hnone⟩
      rw [hold] at hnone
      cases hnone
  | circularNew hformula hsearch hnew => exact Or.inr ⟨⟨⟨_, rfl⟩, hnew⟩, rfl⟩

/-- **What a refused edit leaves behind.** The workbook is what it was, except if the edit closed
a cycle through a cell without an entry; then this cell has an empty entry. In either case the
file, the marks of the workbook and all entries are kept, no other entry is added, every cell has
the value that it had, and what is written to a file is the same. -/
theorem set_refused (h : w.set a input = (.error e, w')) :
    (w' = w ↔ ¬ ((∃ path, e = .circular path) ∧ w.sheet.get? a = none)) ∧
      w'.path? = w.path? ∧ w'.modified = w.modified ∧ w'.strict = w.strict ∧
      (∀ b c, w.sheet.get? b = some c → w'.sheet.get? b = some c) ∧
      (∀ b c, w'.sheet.get? b = some c → w.sheet.get? b = some c ∨ b = a ∧ c = .empty) ∧
      (∀ draw b, w'.sheet.value draw b = w.sheet.value draw b) ∧
      ∀ format : FileFormat, format.render w'.sheet = format.render w.sheet := by
  rcases eq_or_of_set_eq_error h with ⟨rfl, hkept⟩ | ⟨hcircular, rfl⟩
  · exact ⟨iff_of_true rfl hkept, rfl, rfl, rfl, fun b c hc => hc, fun b c hc => Or.inl hc,
      fun draw b => rfl, fun format => rfl⟩
  · have hnew := hcircular.2
    have hne : { w with sheet := w.sheet.insert a .empty } ≠ w := fun heq =>
      Sheet.insert_ne_self hnew .empty (congrArg Workbook.sheet heq)
    refine ⟨iff_of_false hne (not_not_intro hcircular), rfl, rfl, rfl, fun b c hc => ?_,
      fun b c hc => ?_, ?_, ?_⟩
    · rw [Sheet.get?_insert, if_neg, hc]
      rintro rfl
      rw [hnew] at hc
      cases hc
    · rw [Sheet.get?_insert] at hc
      split at hc
      · rename_i hab
        exact Or.inr ⟨hab.symm, (Option.some.inj hc).symm⟩
      · exact Or.inl hc
    · exact Sheet.value_eq_of_content_eq (Sheet.content_insert_empty hnew)
    · exact FileFormat.render_eq_of_filled_eq (Sheet.filled_insert_empty hnew)

/-- A formula that refers to its own cell is refused by a new workbook, and yet the workbook has
an entry afterwards. -/
theorem set_self_leaves_entry :
    (({} : Workbook).set ⟨2, 2⟩ "=C3").1 = .error (.circular [⟨2, 2⟩, ⟨2, 2⟩]) ∧
      ({} : Workbook).sheet.size = 0 ∧
      (({} : Workbook).set ⟨2, 2⟩ "=C3").2.sheet.size = 1 ∧
      (({} : Workbook).set ⟨2, 2⟩ "=C3").2.sheet.get? ⟨2, 2⟩ = some .empty := by
  decide +kernel

/-- With an entry at its cell, the same formula is refused without a trace. -/
theorem set_self_restores :
    ((Workbook.mk (.ofList [(⟨2, 2⟩, .ofNumber 4)]) none false true).set ⟨2, 2⟩ "=C3").2 =
      Workbook.mk (.ofList [(⟨2, 2⟩, .ofNumber 4)]) none false true := by
  have hrefused : ((Workbook.mk (.ofList [(⟨2, 2⟩, .ofNumber 4)]) none false true).set
      ⟨2, 2⟩ "=C3").1 = .error (.circular [⟨2, 2⟩, ⟨2, 2⟩]) := by
    decide +kernel
  have hold : (Workbook.mk (.ofList [(⟨2, 2⟩, .ofNumber 4)]) none false true).sheet.get? ⟨2, 2⟩ =
      some (.ofNumber 4) := by
    decide +kernel
  refine (set_refused (Prod.ext hrefused rfl)).1.mpr fun hcircular => ?_
  rw [hold] at hcircular
  cases hcircular.2

end Workbook

end Spreadsheet
