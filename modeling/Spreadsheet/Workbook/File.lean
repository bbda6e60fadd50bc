import Spreadsheet.Workbook.Basic

/-!
# Workbooks and Their Files

A workbook is kept as JSON if its file's name ends in `.json`, in any case, and
as a listing otherwise.

A workbook is loaded and saved in place, one assignment after the other, and what has been
done before a failure stays done. Loading replaces the cells only after the whole file has been
read, so that an operation that fails changes nothing. How texts are written is left open: the
program just writes them, and other ways of writing may take notes of it.

## Main definitions

* `Handling`, `Handling.load`, `Handling.save`, `Handling.saveAs` — reading and writing in place.
* `Workbook.load`, `Workbook.save`, `Workbook.saveAs` — the workbooks that come of it.
* `Workbook.openFile` — the workbook of a file that may not exist yet.
-/

namespace Spreadsheet

/-- How a sheet is written to a file. -/
inductive FileFormat where
  /-- As plain text with one cell on a line. -/
  | listing
  /-- As JSON. -/
  | json
deriving DecidableEq, Repr

namespace FileFormat

/-- The format that a path's extension asks for. -/
def ofPath (path : String) : FileFormat :=
  if (Path.extension? path).map (List.map Char.toLower) = some ['j', 's', 'o', 'n'] then
    .json
  else .listing

/-- The text of a sheet. -/
def render (s : Sheet) : FileFormat → String
  | .listing => s.toListing
  | .json => s.toJsonText

/-- The sheet of a text. -/
def read (text : String) : FileFormat → Except WorkbookError Sheet
  | .listing => (Sheet.ofListing text).mapError .listing
  | .json => (Sheet.ofJsonText text).mapError .json

end FileFormat

/-! ### In place -/

/-- A way of writing a text to a path. -/
abbrev Writing (m : Type → Type) : Type :=
  Disk → String → String → m (Except FileError Disk)

/-- A computation that handles a workbook in place: what it has done before it fails stays
done. -/
abbrev Handling (m : Type → Type) (α : Type) : Type :=
  ExceptT WorkbookError (StateT Workbook m) α

namespace Handling

variable {m : Type → Type} [Monad m] {α : Type}

/-- Runs a computation on a workbook, in any way of writing. -/
def runIn (x : Handling m α) (w : Workbook) : m (Except WorkbookError α × Workbook) :=
  (ExceptT.run x).run w

/-- Runs a computation on a workbook. -/
def runOn (x : Handling Id α) (w : Workbook) : Except WorkbookError α × Workbook :=
  Id.run (x.runIn w)

/-- What comes of a computation if it succeeds: its result, and the workbook as it is then. -/
def attempt (x : Handling Id α) (w : Workbook) : Except WorkbookError (α × Workbook) :=
  match x.runOn w with
  | (.ok a, w) => .ok (a, w)
  | (.error e, _) => .error e

/-- A step that does not touch the workbook but may fail. -/
def ofOutcome (x : Except WorkbookError α) : Handling m α :=
  ExceptT.mk (pure x)

/-- A step outside of the workbook. -/
def outside (x : m α) : Handling m α :=
  ExceptT.lift (StateT.lift x)

/-- Replaces the cells by those of a file, to which the workbook then belongs. -/
def load (d : Disk) (path : String) : Handling m Unit := do
  let text ← ofOutcome ((d.read path).mapError .file)
  let sheet ← ofOutcome ((FileFormat.ofPath path).read text)
  modify fun w => { w with sheet }
  modify fun w => { w with path? := some path }
  modify fun w => { w with modified := false }

variable (write : Writing m)

/-- Writes the cells to a file. -/
def writeFile (d : Disk) (path : String) : Handling m Disk := do
  let w ← get
  let written ← outside (write d path ((FileFormat.ofPath path).render w.sheet))
  let d ← ofOutcome (written.mapError .file)
  modify fun w => { w with modified := false }
  return d

/-- Writes the cells to the file that the workbook belongs to. -/
def save (d : Disk) : Handling m Disk := do
  match (← get).path? with
  | none => throw .noFile
  | some path => writeFile write d path

/-- Writes the cells to a file, to which the workbook then belongs. -/
def saveAs (d : Disk) (path : String) : Handling m Disk := do
  let d ← writeFile write d path
  modify fun w => { w with path? := some path }
  return d

end Handling

/-! ### Reading and writing -/

namespace Workbook

/-- The workbook with the cells of a file, to which it then belongs. -/
def load (w : Workbook) (d : Disk) (path : String) : Except WorkbookError Workbook :=
  ((Handling.load d path).attempt w).map Prod.snd

/-- Writes the cells to the file that the workbook belongs to. -/
def save (w : Workbook) (d : Disk) : Except WorkbookError (Disk × Workbook) :=
  (Handling.save (m := Id) Disk.write d).attempt w

/-- Writes the cells to a file, to which the workbook then belongs. -/
def saveAs (w : Workbook) (d : Disk) (path : String) : Except WorkbookError (Disk × Workbook) :=
  (Handling.saveAs (m := Id) Disk.write d path).attempt w

/-- The workbook of a file. A file that does not exist yet is where the workbook will be
saved. -/
def openFile (d : Disk) : Option String → Except WorkbookError Workbook
  | none => .ok {}
  | some path =>
    if d.pathExists path then ({} : Workbook).load d path
    else .ok { path? := some path }

end Workbook

end Spreadsheet
