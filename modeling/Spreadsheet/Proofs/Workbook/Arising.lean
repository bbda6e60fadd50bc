import Spreadsheet.Proofs.Json.Sheet
import Spreadsheet.Proofs.Sheet.Listing
import Spreadsheet.Proofs.Workbook.Circularity
import Spreadsheet.Proofs.Workbook.Handling

/-!
# How Workbooks Arise

A workbook begins as a new one or as that of a file. From then on it is edited, loaded again and
saved. Loading may bring anything into the sheet that a file can hold, cycles among it, so less is
true of all these workbooks than of those that come about by edits alone. But both readers derive
the list of references of a cell from the formula that they have read, as an edit does. The lists,
which the search for cycles relies on, are therefore always right
(`Workbook.Arises.listsReferences`).

## Main definitions

* `Workbook.Arises`: what can become of workbooks.

## Main results

* `Workbook.Arises.listsReferences`: every entry lists what its formula refers to.
* `Workbook.Arises.isCycle_of_isCycle_apply`: an edit of such a workbook closes no cycle.
-/

namespace Spreadsheet

/-- Whatever is read from a file lists what its formulas refer to. -/
theorem FileFormat.listsReferences_of_read {format : FileFormat} {text : String} {s : Sheet}
    (h : format.read text = .ok s) : s.ListsReferences := by
  intro a c hc
  cases format with
  | listing => exact (Sheet.listable_of_ofListing (eq_ok_of_mapError_eq_ok h) hc).2.references
  | json => exact (Sheet.within_and_references_of_ofJsonText (eq_ok_of_mapError_eq_ok h) hc).2

namespace Workbook

variable {w w' : Workbook} {d d' : Disk} {path : String}

/-- The workbooks that **arise**, beginning with a new one or with that of a file. -/
inductive Arises : Workbook → Prop where
  /-- A workbook is opened. -/
  | opened {d : Disk} {path? : Option String} {w : Workbook} (h : openFile d path? = .ok w) :
      Arises w
  /-- A workbook is edited. -/
  | edited {w : Workbook} (e : Edit) (h : Arises w) : Arises (w.apply e)
  /-- The cells are replaced by those of a file. -/
  | loaded {w w' : Workbook} {d : Disk} {path : String} (h : Arises w)
      (hload : w.load d path = .ok w') : Arises w'
  /-- The cells are written to the file that the workbook belongs to. -/
  | saved {w w' : Workbook} {d d' : Disk} (h : Arises w) (hsave : w.save d = .ok (d', w')) :
      Arises w'
  /-- The cells are written to a file. -/
  | savedAs {w w' : Workbook} {d d' : Disk} {path : String} (h : Arises w)
      (hsave : w.saveAs d path = .ok (d', w')) : Arises w'

/-- A workbook that is opened is new, or it has the cells that were read. -/
theorem sheet_openFile {path? : Option String} (h : openFile d path? = .ok w) :
    w.sheet = .empty ∨ ∃ format text, FileFormat.read text format = .ok w.sheet := by
  rw [openFile.eq_def] at h
  split at h
  · cases h
    exact Or.inl rfl
  · split at h
    · obtain ⟨text, s, -, hread, rfl⟩ := load_eq_ok_iff.mp h
      exact Or.inr ⟨_, text, hread⟩
    · cases h
      exact Or.inl rfl

/-- **Every entry lists what its formula refers to**, however a workbook has arisen. -/
theorem Arises.listsReferences (h : w.Arises) : w.sheet.ListsReferences := by
  induction h with
  | opened h =>
      rcases sheet_openFile h with hsheet | ⟨format, text, hread⟩
      · rw [hsheet]
        exact Sheet.listsReferences_empty
      · exact FileFormat.listsReferences_of_read hread
  | edited e _ ih => exact listsReferences_apply ih
  | loaded _ hload _ =>
      obtain ⟨text, s, -, hread, rfl⟩ := load_eq_ok_iff.mp hload
      exact FileFormat.listsReferences_of_read hread
  | saved _ hsave ih =>
      obtain ⟨path, -, -, rfl⟩ := save_eq_ok_iff.mp hsave
      exact ih
  | savedAs _ hsave ih =>
      obtain ⟨-, rfl⟩ := saveAs_eq_ok_iff.mp hsave
      exact ih

/-- **An edit closes no cycle**, however the workbook has arisen, and also if it was loaded with
cycles. -/
theorem Arises.isCycle_of_isCycle_apply {e : Edit} {cycle : List Address} (h : w.Arises)
    (hcycle : (w.apply e).sheet.IsCycle cycle) : w.sheet.IsCycle cycle :=
  Workbook.isCycle_of_isCycle_apply h.listsReferences hcycle

end Workbook

end Spreadsheet
