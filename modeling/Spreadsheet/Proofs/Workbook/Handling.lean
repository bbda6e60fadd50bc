import Mathlib.Tactic.Common
import Spreadsheet.Proofs.Outcome
import Spreadsheet.Workbook.File

/-!
# Workbooks Handled in Place

Loading and saving a workbook are sequences of assignments, some of which come behind a step that
can fail. What they come to can be told without the sequence. Nothing is assigned before the last
step that can fail, so the workbook is either what it was or what it is to become
(`Handling.runOn_load`). A text is written exactly once in any way of writing, and what is assigned
depends on the outcome of that only (`Handling.runIn_saveAs`).

## Main definitions

* `Workbook.orSame`: what is in hand after an attempt that may have failed.
* `Workbook.orWritten`: what is in hand after an attempt to write.

## Main results

* `Handling.runIn_bind`: computations in place, one after the other.
* `Handling.runOn_load`, `Handling.runIn_save`, `Handling.runIn_saveAs`: what loading and saving
  come to.
* `Workbook.load_eq_ok_iff`, `Workbook.save_eq_ok_iff`, `Workbook.saveAs_eq_ok_iff`: when they
  succeed.
-/

namespace Spreadsheet

namespace Workbook

/-- What is in hand after an attempt to make another workbook of one: that workbook, or still the
first. -/
def orSame (w : Workbook) : Except WorkbookError Workbook → Except WorkbookError Unit × Workbook
  | .ok w' => (.ok (), w')
  | .error e => (.error e, w)

/-- What is in hand after an attempt to write, which is to make another workbook of one. -/
def orWritten (w w' : Workbook) : Except FileError Disk → Except WorkbookError Disk × Workbook
  | .ok d => (.ok d, w')
  | .error cause => (.error (.file cause), w)

variable {w v w' : Workbook}

/-- An attempt that fails leaves the workbook that there was. -/
theorem eq_of_orSame_eq_error {x : Except WorkbookError Workbook} {e : WorkbookError}
    (h : w.orSame x = (.error e, w')) : w' = w := by
  cases x with
  | ok v => simp [orSame] at h
  | error e' =>
      simp only [orSame, Prod.mk.injEq] at h
      exact h.2.symm

/-- An attempt that succeeds leaves the workbook that was made. -/
theorem eq_ok_of_orSame_eq_ok {x : Except WorkbookError Workbook}
    (h : w.orSame x = (.ok (), w')) : x = .ok w' := by
  cases x with
  | ok v =>
      simp only [orSame, Prod.mk.injEq, true_and] at h
      rw [h]
  | error e => simp [orSame] at h

/-- An attempt to write that fails leaves the workbook that there was. -/
theorem eq_of_orWritten_eq_error {x : Except FileError Disk} {e : WorkbookError}
    (h : w.orWritten v x = (.error e, w')) : w' = w := by
  cases x with
  | ok d => simp [orWritten] at h
  | error cause =>
      simp only [orWritten, Prod.mk.injEq] at h
      exact h.2.symm

end Workbook

/-! ### Computations in place -/

namespace Handling

variable {m : Type → Type} [Monad m] {α β : Type}

/-- A result is there without anything being done. -/
@[simp]
theorem runIn_pure (a : α) (w : Workbook) :
    (pure a : Handling m α).runIn w = pure (.ok a, w) := rfl

/-- A step that may fail changes nothing. -/
@[simp]
theorem runIn_ofOutcome (x : Except WorkbookError α) (w : Workbook) :
    (ofOutcome x : Handling m α).runIn w = pure (x, w) := rfl

/-- **Of two computations in a row**, the second is run on the workbook that the first leaves,
unless the first fails. -/
theorem runIn_bind (x : Handling m α) (f : α → Handling m β) (w : Workbook) :
    (x >>= f).runIn w = x.runIn w >>= fun r =>
      match r with
      | (.ok a, w) => (f a).runIn w
      | (.error e, w) => pure (.error e, w) := by
  rw [runIn, ExceptT.run_bind, StateT.run_bind]
  refine bind_congr fun r => ?_
  rcases r with ⟨a | e, w'⟩ <;> rfl

variable [LawfulMonad m]

/-- The workbook can be looked at. -/
@[simp]
theorem runIn_get (w : Workbook) : (get : Handling m Workbook).runIn w = pure (.ok w, w) := by
  have hget : (get : Handling m Workbook).runIn w =
      (Except.ok <$> (get : StateT Workbook m Workbook)).run w := rfl
  simp [hget]

/-- An assignment to the workbook. -/
@[simp]
theorem runIn_modify (f : Workbook → Workbook) (w : Workbook) :
    (modify f : Handling m PUnit).runIn w = pure (.ok (), f w) := by
  have hmodify : (modify f : Handling m PUnit).runIn w =
      (Except.ok <$> (modify f : StateT Workbook m PUnit)).run w := rfl
  simp [hmodify]

/-- A step outside of the workbook changes nothing in it. -/
@[simp]
theorem runIn_outside (x : m α) (w : Workbook) :
    (outside x).runIn w = x >>= fun a => pure (.ok a, w) := by
  simp [outside, runIn]

/-! ### Reading and writing -/

variable (w : Workbook) (d : Disk) (path : String) (write : Writing m)

/-- **Loading** assigns nothing unless the file has been read. -/
theorem runOn_load :
    (load d path).runOn w = w.orSame (do
      let text ← (d.read path).mapError .file
      let sheet ← (FileFormat.ofPath path).read text
      return { w with sheet, path? := some path, modified := false }) := by
  rw [runOn, load, runIn_bind, runIn_ofOutcome, pure_bind]
  cases (d.read path).mapError WorkbookError.file with
  | error e => rfl
  | ok text =>
      dsimp only
      rw [runIn_bind, runIn_ofOutcome, pure_bind]
      rcases hread : (FileFormat.ofPath path).read text with e | sheet
      · simp [hread, Workbook.orSame, bind, Except.bind]
      · simp only [runIn_bind, runIn_modify, pure_bind, Id.run_pure]
        simp [hread, Workbook.orSame, bind, Except.bind, pure, Except.pure]

/-- **A file is written** once, and nothing is assigned if that fails. -/
theorem runIn_writeFile :
    (writeFile write d path).runIn w = w.orWritten { w with modified := false } <$>
      write d path ((FileFormat.ofPath path).render w.sheet) := by
  simp only [writeFile, runIn_bind, runIn_get, runIn_outside, pure_bind, bind_assoc,
    runIn_ofOutcome, map_eq_pure_bind]
  refine bind_congr fun written => ?_
  cases written with
  | error cause => rfl
  | ok d' => simp [Except.mapError, Workbook.orWritten]

/-- **Saving** writes to the file that the workbook belongs to, if it belongs to one. -/
theorem runIn_save :
    (save write d).runIn w =
      match w.path? with
      | none => pure (.error .noFile, w)
      | some path => (writeFile write d path).runIn w := by
  rw [save, runIn_bind, runIn_get, pure_bind]
  dsimp only
  cases w.path? <;> rfl

/-- **Saving elsewhere** writes the cells once, and nothing is assigned if that fails. -/
theorem runIn_saveAs :
    (saveAs write d path).runIn w =
      w.orWritten { w with path? := some path, modified := false } <$>
        write d path ((FileFormat.ofPath path).render w.sheet) := by
  rw [saveAs, runIn_bind, runIn_writeFile, map_eq_pure_bind, map_eq_pure_bind, bind_assoc]
  refine bind_congr fun written => ?_
  cases written with
  | error cause => simp [Workbook.orWritten]
  | ok d' => simp only [Workbook.orWritten, pure_bind, runIn_bind, runIn_modify, runIn_pure]

omit [LawfulMonad m] in
/-- **Saving elsewhere**, as the program writes files. -/
theorem runOn_saveAs :
    (saveAs Disk.write d path).runOn w =
      w.orWritten { w with path? := some path, modified := false }
        (d.write path ((FileFormat.ofPath path).render w.sheet)) :=
  runIn_saveAs (m := Id) w d path _

section

variable {w : Workbook} {d : Disk} {path : String}

/-- A workbook that belongs to no file cannot be saved. -/
theorem runOn_save_of_none (h : w.path? = none) :
    (save Disk.write d).runOn w = (.error .noFile, w) := by
  rw [runOn, runIn_save, h]
  rfl

/-- **Saving**, as the program writes files. -/
theorem runOn_save_of_some (h : w.path? = some path) :
    (save Disk.write d).runOn w =
      w.orWritten { w with modified := false }
        (d.write path ((FileFormat.ofPath path).render w.sheet)) := by
  have hsave : (save (m := Id) Disk.write d).runIn w = (writeFile Disk.write d path).runIn w := by
    rw [runIn_save]
    simp only [h]
  rw [runOn, hsave]
  exact runIn_writeFile (m := Id) w d path _

/-- Saving in vain changes nothing. -/
theorem eq_of_runOn_save_eq_error {w' : Workbook} {e : WorkbookError}
    (h : (save Disk.write d).runOn w = (.error e, w')) : w' = w := by
  obtain hpath | ⟨path, hpath⟩ := Option.eq_none_or_eq_some w.path?
  · rw [runOn_save_of_none hpath] at h
    exact (Prod.mk.inj h).2.symm
  · rw [runOn_save_of_some hpath] at h
    exact Workbook.eq_of_orWritten_eq_error h

/-- Saving elsewhere in vain changes nothing. -/
theorem eq_of_runOn_saveAs_eq_error {w' : Workbook} {e : WorkbookError}
    (h : (saveAs Disk.write d path).runOn w = (.error e, w')) : w' = w := by
  rw [runOn_saveAs] at h
  exact Workbook.eq_of_orWritten_eq_error h

end

/-! ### What is yielded -/

variable {w w' : Workbook} {x : Handling Id α}

/-- What is yielded by a computation that leaves either the workbook that it makes or the one that
there was. -/
theorem map_attempt_of_orSame {r : Except WorkbookError Workbook} {x : Handling Id Unit}
    (h : x.runOn w = w.orSame r) : (x.attempt w).map Prod.snd = r := by
  rw [attempt, h]
  cases r <;> rfl

/-- A computation that comes down to writing a file yields something if the file is written. -/
theorem attempt_eq_ok_iff_of_orWritten {r : Except FileError Disk} {x : Handling Id Disk}
    {v : Workbook} {d' : Disk} (h : x.runOn w = w.orWritten w' r) :
    x.attempt w = .ok (d', v) ↔ r = .ok d' ∧ v = w' := by
  rw [attempt, h]
  cases r <;> simp [Workbook.orWritten, eq_comm]

/-- If a computation changes nothing unless it succeeds, then what it leaves is told by what it
yields. -/
theorem runOn_bind_pure (h : ∀ e w', x.runOn w = (.error e, w') → w' = w) :
    (x >>= fun _ => pure ()).runOn w = w.orSame ((x.attempt w).map Prod.snd) := by
  rw [runOn, runIn_bind, attempt]
  change Id.run (x.runOn w >>= _) = _
  rcases hout : x.runOn w with ⟨a | e, w'⟩
  · obtain rfl := h _ _ hout
    rfl
  · rfl

end Handling

/-! ### When files are read and written -/

namespace Workbook

variable {w w' : Workbook} {d d' : Disk} {path : String}

/-- **A workbook is loaded** if its file can be read, and then it has the cells that were read. -/
theorem load_eq_ok_iff :
    w.load d path = .ok w' ↔
      ∃ text s, d.read path = .ok text ∧ (FileFormat.ofPath path).read text = .ok s ∧
        w' = { w with sheet := s, path? := some path, modified := false } := by
  rw [load, Handling.map_attempt_of_orSame (Handling.runOn_load w d path)]
  constructor
  · intro h
    obtain ⟨text, htext, h⟩ := exists_of_bind_eq_ok h
    obtain ⟨s, hs, h⟩ := exists_of_bind_eq_ok h
    exact ⟨text, s, eq_ok_of_mapError_eq_ok htext, hs, (Except.ok.inj h).symm⟩
  · rintro ⟨text, s, htext, hs, rfl⟩
    rw [htext]
    simp [Except.mapError, bind, Except.bind, hs, pure, Except.pure]

/-- **Saving** writes the cells to the file that the workbook belongs to. -/
theorem save_eq_ok_iff :
    w.save d = .ok (d', w') ↔
      ∃ path, w.path? = some path ∧
        d.write path ((FileFormat.ofPath path).render w.sheet) = .ok d' ∧
        w' = { w with modified := false } := by
  rw [save]
  obtain hpath | ⟨path, hpath⟩ := Option.eq_none_or_eq_some w.path?
  · rw [Handling.attempt, Handling.runOn_save_of_none hpath]
    simp [hpath]
  · rw [Handling.attempt_eq_ok_iff_of_orWritten (Handling.runOn_save_of_some hpath)]
    constructor
    · exact fun h => ⟨path, hpath, h⟩
    · rintro ⟨named, hnamed, h⟩
      obtain rfl := Option.some.inj (hpath.symm.trans hnamed)
      exact h

/-- **Saving elsewhere** writes the cells to a file, to which the workbook then belongs. -/
theorem saveAs_eq_ok_iff :
    w.saveAs d path = .ok (d', w') ↔
      d.write path ((FileFormat.ofPath path).render w.sheet) = .ok d' ∧
        w' = { w with path? := some path, modified := false } :=
  Handling.attempt_eq_ok_iff_of_orWritten (Handling.runOn_saveAs w d path)

end Workbook

end Spreadsheet
