import Spreadsheet.Sheet.Circularity
import Spreadsheet.Sheet.Display
import Spreadsheet.Sheet.Listing
import Spreadsheet.Json.Sheet
import Spreadsheet.Workbook.Disk

/-!
# Workbooks

A workbook is a sheet that is being edited: it knows the file it belongs to, whether it
has changed since it was last loaded or saved, and whether it refuses formulas with
unknown words. An edit that would make a cell depend on itself is refused.

## Main definitions

* `Workbook`, `WorkbookError` — the state, and why an operation fails.
* `Workbook.set`, `Workbook.clear` — edits.
* `Workbook.valueOfText` — the value of a formula that is not stored.
-/

namespace Spreadsheet

/-- Why an operation on a workbook fails. -/
inductive WorkbookError where
  /-- A file cannot be read or written. -/
  | file (cause : FileError)
  /-- A listing is faulty. -/
  | listing (cause : ListingError)
  /-- A JSON text is faulty. -/
  | json (cause : JsonError)
  /-- An edit would close a cycle. -/
  | circular (path : List Address)
  /-- The workbook belongs to no file. -/
  | noFile
  /-- A formula has no value or is refused. -/
  | formula (cause : FormulaError)
deriving DecidableEq, Repr

/-- The text that reports why an operation fails. What is wrong with a JSON text is
not told in detail. -/
def WorkbookError.message : WorkbookError → String
  | file cause => "IO error: " ++ cause.message
  | listing cause =>
    "Parse error at line " ++ toString cause.line ++ ": " ++ cause.fault.message
  | json _ => "JSON error"
  | circular path => "Circular dependency detected: " ++ pathText path
  | noFile => "No file path set"
  | formula cause => "Formula error: " ++ cause.message

/-- The texts that report a failure together with its cause. -/
def WorkbookError.chain (e : WorkbookError) : List String :=
  match e with
  | file cause => [e.message, cause.message]
  | formula cause => [e.message, cause.message]
  | _ => [e.message]

/-- A sheet that is being edited. -/
structure Workbook where
  /-- The cells. -/
  sheet : Sheet := {}
  /-- The file that the workbook belongs to. -/
  path? : Option String := none
  /-- Whether the cells have changed since they were loaded or saved. -/
  modified : Bool := false
  /-- Whether formulas with unknown words are refused. -/
  strict : Bool := false

namespace Workbook

/-- The cell that a typed text makes. A strict workbook refuses a formula with an
unknown word. -/
def cellOfTyped (w : Workbook) (input : String) : Except FormulaError Cell :=
  match w.strict, trim input.toList with
  | true, '=' :: source => do
    let source := String.ofList source
    return .ofFormula ⟨source, ← Token.scanStrict source⟩
  | _, cs => .ok (.ofTrimmed cs)

/-- Puts the cell back that an edit replaced; where there was none, an empty one
remains. -/
def restore (s : Sheet) (a : Address) : Option Cell → Sheet
  | some c => s.insert a c
  | none => s.clear a

/-- Sets a cell to a typed text. A formula that would make the cell depend on itself is
refused, and the cell keeps what it held. -/
def set (w : Workbook) (a : Address) (input : String) :
    Except WorkbookError Unit × Workbook :=
  match w.cellOfTyped input with
  | .error cause => (.error (.formula cause), w)
  | .ok c =>
    let sheet := w.sheet.insert a c
    match if c.isFormula then sheet.cycleThrough? a else none with
    | some path =>
      (.error (.circular path), { w with sheet := restore sheet a (w.sheet.get? a) })
    | none => (.ok (), { w with sheet, modified := true })

/-- Clears a cell. Where there is nothing to clear, nothing changes. -/
def clear (w : Workbook) (a : Address) : Workbook :=
  match w.sheet.content a with
  | .empty => w
  | _ => { w with sheet := w.sheet.clear a, modified := true }

/-- The value of a formula's text against the cells, with or without an equals sign in
front. A strict workbook refuses unknown words. -/
def valueOfText (w : Workbook) (draw : Float) (text : String) : Except WorkbookError Float :=
  let cs := match trim text.toList with
    | '=' :: rest => rest
    | cs => cs
  let outcome :=
    if w.strict then do
      w.sheet.valueOf draw (← Token.scanStrict (String.ofList cs))
    else w.sheet.valueOfText draw (String.ofList cs)
  outcome.mapError .formula

end Workbook

end Spreadsheet
