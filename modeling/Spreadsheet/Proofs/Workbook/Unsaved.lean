import Spreadsheet.Proofs.Workbook.Handling
import Spreadsheet.Proofs.Workbook.Refusal

/-!
# Unsaved Changes

A workbook that is not marked as modified may be closed without a loss, so the mark must never be
missing where something has changed. Beside the workbook a session keeps its cells as they were
when it was last made, loaded or saved. As long as the workbook is not marked, it has these cells
and no others: only edits change cells, and an edit either sets the mark or leaves the filled
entries as they are. In particular an edit that is taken back leaves at most an empty entry.

The operations are carried out in place, one assignment after the other, so that whatever is done
before a failure stays done. That loading and saving assign nothing before the last step that can
fail is therefore something to prove. It is why they come to the same as the functions that yield a
new workbook or none (`Operation.runOn_perform`).

## Main definitions

* `Operation`, `Operation.perform`: what can be done with a workbook, carried out in place.
* `Session`, `Session.after`: a workbook, and its cells as they were last kept.

## Main results

* `Operation.runOn_perform`: what comes of an operation that is carried out in place.
* `Session.Honest.perform`: no operation makes the mark dishonest.
* `Session.kept_of_not_modified`: what can be relied on after any operations.
-/

namespace Spreadsheet

/-! ### Operations -/

/-- What can be done with a workbook. Each operation on a file finds a disk of its own, since
others may change the files in between. -/
inductive Operation where
  /-- A new workbook is made. -/
  | new
  /-- The workbook of a file is made. -/
  | openFile (d : Disk) (path? : Option String)
  /-- The workbook is edited. -/
  | edit (e : Edit)
  /-- The cells are replaced by those of a file. -/
  | load (d : Disk) (path : String)
  /-- The cells are written to the file that the workbook belongs to. -/
  | save (d : Disk)
  /-- The cells are written to a file. -/
  | saveAs (d : Disk) (path : String)

/-- Carries out an edit in place. Only typing can fail. -/
def Edit.perform : Edit → Handling Id Unit
  | .set a input => ExceptT.mk fun w => w.set a input
  | .clear a => modify (·.clear a)
  | .strict on => modify ({ · with strict := on })

namespace Operation

/-- Carries out an operation in place. -/
def perform : Operation → Handling Id Unit
  | new => modify fun _ => {}
  | openFile d path? => do
    let w ← Handling.ofOutcome (Workbook.openFile d path?)
    modify fun _ => w
  | edit e => e.perform
  | load d path => Handling.load d path
  | save d => do
    let _ ← Handling.save Disk.write d
    return
  | saveAs d path => do
    let _ ← Handling.saveAs Disk.write d path
    return

/-- Whether an operation that has succeeded leaves nothing to be saved. -/
def keeps : Operation → Bool
  | edit _ => false
  | _ => true

/-- What is yielded by the function that an operation stands for. -/
def outcome (w : Workbook) : Operation → Except WorkbookError Unit × Workbook
  | new => (.ok (), {})
  | openFile d path? => w.orSame (Workbook.openFile d path?)
  | edit (.set a input) => w.set a input
  | edit e => (.ok (), w.apply e)
  | load d path => w.orSame (w.load d path)
  | save d => w.orSame ((w.save d).map Prod.snd)
  | saveAs d path => w.orSame ((w.saveAs d path).map Prod.snd)

variable {w w' : Workbook} {op : Operation} {e : WorkbookError}

/-- **Carried out in place**, an operation comes to what its function yields: the workbook that it
makes, or else the one that there was. -/
theorem runOn_perform (op : Operation) (w : Workbook) : op.perform.runOn w = op.outcome w := by
  cases op with
  | new => rfl
  | openFile d path? =>
      rw [perform, outcome, Handling.runOn, Handling.runIn_bind, Handling.runIn_ofOutcome]
      cases Workbook.openFile d path? <;> rfl
  | edit e => cases e <;> rfl
  | load d path =>
      have hload := Handling.runOn_load w d path
      rw [perform, outcome, Workbook.load, Handling.map_attempt_of_orSame hload]
      exact hload
  | save d => exact Handling.runOn_bind_pure fun _ _ => Handling.eq_of_runOn_save_eq_error
  | saveAs d path => exact Handling.runOn_bind_pure fun _ _ => Handling.eq_of_runOn_saveAs_eq_error

end Operation

namespace Workbook

variable {w : Workbook} {d : Disk}

/-- A workbook that is opened is not marked as modified. -/
theorem modified_openFile {path? : Option String} (h : openFile d path? = .ok w) :
    w.modified = false := by
  rw [openFile.eq_def] at h
  split at h
  · cases h
    rfl
  · split at h
    · obtain ⟨text, s, -, -, rfl⟩ := load_eq_ok_iff.mp h
      rfl
    · cases h
      rfl

end Workbook

namespace Operation

variable {w w' : Workbook} {op : Operation} {e : WorkbookError}

/-- **An operation on files that fails changes nothing**, neither the cells nor what the workbook
knows about them. -/
theorem eq_of_perform_eq_error (hkeeps : op.keeps = true)
    (h : op.perform.runOn w = (.error e, w')) : w' = w := by
  rw [runOn_perform] at h
  cases op with
  | new => simp [outcome] at h
  | openFile d path? => exact Workbook.eq_of_orSame_eq_error h
  | edit e => simp [keeps] at hkeeps
  | load d path => exact Workbook.eq_of_orSame_eq_error h
  | save d => exact Workbook.eq_of_orSame_eq_error h
  | saveAs d path => exact Workbook.eq_of_orSame_eq_error h

/-- **An operation on files that succeeds leaves nothing marked as modified.** -/
theorem modified_of_perform_eq_ok (hkeeps : op.keeps = true)
    (h : op.perform.runOn w = (.ok (), w')) : w'.modified = false := by
  rw [runOn_perform] at h
  cases op with
  | new =>
      simp only [outcome, Prod.mk.injEq, true_and] at h
      rw [← h]
  | openFile d path? => exact Workbook.modified_openFile (Workbook.eq_ok_of_orSame_eq_ok h)
  | edit e => simp [keeps] at hkeeps
  | load d path =>
      have hload := Workbook.eq_ok_of_orSame_eq_ok h
      obtain ⟨text, s, -, -, rfl⟩ := Workbook.load_eq_ok_iff.mp hload
      rfl
  | save d =>
      have hmap := Workbook.eq_ok_of_orSame_eq_ok h
      obtain ⟨⟨d', v⟩, hsave, rfl⟩ := exists_of_map_eq_ok hmap
      obtain ⟨path, -, -, rfl⟩ := Workbook.save_eq_ok_iff.mp hsave
      rfl
  | saveAs d path =>
      have hmap := Workbook.eq_ok_of_orSame_eq_ok h
      obtain ⟨⟨d', v⟩, hsave, rfl⟩ := exists_of_map_eq_ok hmap
      obtain ⟨-, rfl⟩ := Workbook.saveAs_eq_ok_iff.mp hsave
      rfl

/-- A workbook that has been loaded has the cells of the file. -/
theorem read_of_perform_load {d : Disk} {path : String}
    (h : (load d path).perform.runOn w = (.ok (), w')) :
    ∃ text, d.read path = .ok text ∧ (FileFormat.ofPath path).read text = .ok w'.sheet := by
  rw [runOn_perform] at h
  obtain ⟨text, s, htext, hs, rfl⟩ := Workbook.load_eq_ok_iff.mp (Workbook.eq_ok_of_orSame_eq_ok h)
  exact ⟨text, htext, hs⟩

/-- The cells of a workbook that has been saved have been written to its file. -/
theorem write_of_perform_save {d : Disk} (h : (save d).perform.runOn w = (.ok (), w')) :
    w'.sheet = w.sheet ∧ ∃ path d', w.path? = some path ∧
      d.write path ((FileFormat.ofPath path).render w.sheet) = .ok d' := by
  rw [runOn_perform] at h
  obtain ⟨⟨d', v⟩, hsave, rfl⟩ := exists_of_map_eq_ok (Workbook.eq_ok_of_orSame_eq_ok h)
  obtain ⟨path, hpath, hwrite, rfl⟩ := Workbook.save_eq_ok_iff.mp hsave
  exact ⟨rfl, path, d', hpath, hwrite⟩

/-- The cells of a workbook that has been saved elsewhere have been written there. -/
theorem write_of_perform_saveAs {d : Disk} {path : String}
    (h : (saveAs d path).perform.runOn w = (.ok (), w')) :
    w'.sheet = w.sheet ∧ ∃ d', d.write path ((FileFormat.ofPath path).render w.sheet) = .ok d' := by
  rw [runOn_perform] at h
  obtain ⟨⟨d', v⟩, hsave, rfl⟩ := exists_of_map_eq_ok (Workbook.eq_ok_of_orSame_eq_ok h)
  obtain ⟨hwrite, rfl⟩ := Workbook.saveAs_eq_ok_iff.mp hsave
  exact ⟨rfl, d', hwrite⟩

end Operation

/-! ### Sessions -/

/-- A workbook, and its cells as they were when it was last made, loaded or saved. -/
structure Session where
  /-- The workbook in hand. -/
  workbook : Workbook := {}
  /-- The cells as they were last kept. -/
  kept : Sheet := .empty

namespace Session

variable {s : Session} {op : Operation}

/-- The session after an operation, which may have failed. -/
def perform (s : Session) (op : Operation) : Session :=
  match op.perform.runOn s.workbook with
  | (.ok (), w) => { workbook := w, kept := if op.keeps then w.sheet else s.kept }
  | (.error _, w) => { s with workbook := w }

/-- What becomes of a new session. -/
def after (ops : List Operation) : Session :=
  ops.foldl perform {}

/-- A session is **honest** if a workbook that is not marked as modified has the cells that were
last kept. -/
def Honest (s : Session) : Prop :=
  s.workbook.modified = false → s.workbook.sheet.filled = s.kept.filled

end Session

/-- An edit marks the workbook as modified, or it keeps the mark and the filled entries. -/
theorem Workbook.modified_or_of_outcome_edit (w : Workbook) (e : Edit) :
    ((Operation.edit e).outcome w).2.modified = true ∨
      ((Operation.edit e).outcome w).2.modified = w.modified ∧
        ((Operation.edit e).outcome w).2.sheet.filled = w.sheet.filled := by
  cases e with
  | set a input =>
      have htyping : Typing w a input ((Operation.edit (.set a input)).outcome w) :=
        typing_set w a input
      generalize (Operation.edit (.set a input)).outcome w = outcome at htyping
      cases htyping with
      | unknown hcell => exact Or.inr ⟨rfl, rfl⟩
      | circular hformula hsearch hold => exact Or.inr ⟨rfl, rfl⟩
      | circularNew hformula hsearch hnew =>
          exact Or.inr ⟨rfl, Sheet.filled_insert_empty hnew⟩
      | accepted hcell hsearch => exact Or.inl rfl
  | clear a =>
      have hclear : ((Operation.edit (.clear a)).outcome w).2 = w.clear a := rfl
      rw [hclear, Workbook.clear]
      split
      · exact Or.inr ⟨rfl, rfl⟩
      · exact Or.inl rfl
  | strict on => exact Or.inr ⟨rfl, rfl⟩

namespace Session

variable {s : Session}

/-- **No operation makes a session dishonest.** -/
theorem Honest.perform (h : s.Honest) (op : Operation) : (s.perform op).Honest := by
  intro hmark
  rw [Session.perform] at hmark ⊢
  rcases hout : op.perform.runOn s.workbook with ⟨r, w⟩
  simp only [hout] at hmark ⊢
  cases hkeeps : op.keeps with
  | true =>
      cases r with
      | ok u => simp
      | error e =>
          obtain rfl := Operation.eq_of_perform_eq_error hkeeps hout
          exact h hmark
  | false =>
      -- Only an edit keeps nothing, whether it is accepted or refused.
      obtain ⟨e, rfl⟩ : ∃ e, op = .edit e := by
        cases op with
        | edit e => exact ⟨e, rfl⟩
        | _ => simp [Operation.keeps] at hkeeps
      have hedit := s.workbook.modified_or_of_outcome_edit e
      rw [← Operation.runOn_perform, hout] at hedit
      have hw : w.modified = false := by
        cases r <;> exact hmark
      rw [hw] at hedit
      obtain hfalse | ⟨hmodified, hfilled⟩ := hedit
      · exact absurd hfalse Bool.false_ne_true
      · have hkept := h hmodified.symm
        cases r with
        | ok u => simpa using hfilled.trans hkept
        | error e => exact hfilled.trans hkept

/-- Every session is honest. -/
theorem honest_after (ops : List Operation) : (after ops).Honest := by
  have hstart : ({} : Session).Honest := fun _ => rfl
  rw [after]
  generalize ({} : Session) = s at hstart
  induction ops generalizing s with
  | nil => exact hstart
  | cons op ops ih => exact ih (s.perform op) (hstart.perform op)

/-- **The mark never hides unsaved changes.** Whatever has been done, with or without success: as
long as the workbook is not marked as modified, its filled entries are those that it had when it
was last made, loaded or saved. Whenever it is made, loaded or saved, the mark is taken off. And
whenever that fails, the workbook stays what it was, with all entries, its mark and its file.

What is done in place here is what the functions yield that make a new workbook or none. Cells that
are loaded are those of the file, and cells that are saved have been written to it. -/
theorem kept_of_not_modified :
    (∀ (op : Operation) (w : Workbook), op.perform.runOn w = op.outcome w) ∧
    (∀ ops : List Operation, (after ops).workbook.modified = false →
      (after ops).workbook.sheet.filled = (after ops).kept.filled) ∧
    (∀ (op : Operation) (w w' : Workbook), op.keeps = true →
      (op.perform.runOn w = (.ok (), w') → w'.modified = false) ∧
        ∀ e, op.perform.runOn w = (.error e, w') → w' = w) ∧
    ∀ (w w' : Workbook) (d : Disk) (path : String),
      ((Operation.load d path).perform.runOn w = (.ok (), w') →
        ∃ text, d.read path = .ok text ∧ (FileFormat.ofPath path).read text = .ok w'.sheet) ∧
      ((Operation.save d).perform.runOn w = (.ok (), w') →
        w'.sheet = w.sheet ∧ ∃ file d', w.path? = some file ∧
          d.write file ((FileFormat.ofPath file).render w.sheet) = .ok d') ∧
      ((Operation.saveAs d path).perform.runOn w = (.ok (), w') →
        w'.sheet = w.sheet ∧
          ∃ d', d.write path ((FileFormat.ofPath path).render w.sheet) = .ok d') :=
  ⟨Operation.runOn_perform, honest_after,
    fun _ _ _ hkeeps => ⟨Operation.modified_of_perform_eq_ok hkeeps,
      fun _ => Operation.eq_of_perform_eq_error hkeeps⟩,
    fun _ _ _ _ => ⟨Operation.read_of_perform_load, Operation.write_of_perform_save,
      Operation.write_of_perform_saveAs⟩⟩

/-- A number is saved, its cell is then set in vain, and a file that is not there is loaded in
vain. -/
def sampleOperations : List Operation :=
  [.edit (.set ⟨0, 0⟩ "5"), .saveAs {} "a.grd", .edit (.set ⟨0, 1⟩ "=B1"), .load {} "b.grd"]

/-- After that the workbook is not marked, and its filled entry is the one that was saved. -/
theorem kept_of_not_modified_sample :
    (after sampleOperations).workbook.modified = false ∧
      (after sampleOperations).workbook.sheet.filled = (after sampleOperations).kept.filled ∧
      (after sampleOperations).kept.filled = [(⟨0, 0⟩, .ofNumber 5)] ∧
      (after sampleOperations).workbook.sheet.size = 2 := by
  have hmark : (after sampleOperations).workbook.modified = false := by
    decide +kernel
  exact ⟨hmark, kept_of_not_modified.2.1 _ hmark, by decide +kernel, by decide +kernel⟩

end Session

end Spreadsheet
