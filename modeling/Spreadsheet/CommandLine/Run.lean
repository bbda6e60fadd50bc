import Spreadsheet.CommandLine.Options
import Spreadsheet.Settings
import Spreadsheet.Workbook.File

/-!
# Runs of the Command Line

A run loads the settings and the sheet, makes the edits in order, evaluates a formula or
prints the sheet, and saves it if that is asked for. What a run does is a function of
its arguments and of the disk: the two texts it prints, its exit code, and the disk as
it leaves it. The first failure ends the run, except that a formula without a value does
not keep the sheet from being saved. How the sheet is written is left open, as it is for
workbooks; the program just writes it.

## Main definitions

* `Outcome` — what a run prints and leaves behind.
* `RunError` — why a run ends early.
* `Options.runIn`, `runArgumentsIn` — a run, in any way of writing.
* `runArguments` — what the program does.
-/

namespace Spreadsheet

/-- What a run prints and leaves behind. -/
structure Outcome where
  /-- The exit code. -/
  code : Nat := 0
  /-- The printed results. -/
  out : String := ""
  /-- The printed messages. -/
  err : String := ""
  /-- The file that has been written, if any. -/
  saved? : Option String := none
  /-- The disk after the run. -/
  disk : Disk

/-- Why a run ends early. -/
inductive RunError where
  /-- The settings cannot be loaded. -/
  | settings (cause : SettingsError)
  /-- The sheet cannot be loaded. -/
  | load (path : String) (cause : WorkbookError)
  /-- An edit has no equals sign. -/
  | badEdit (edit : String)
  /-- An edit names no cell. -/
  | badAddress (name : String)
  /-- An edit is refused. -/
  | set (name : String) (cause : WorkbookError)
  /-- The sheet cannot be saved. -/
  | save (path : String) (cause : WorkbookError)
deriving DecidableEq, Repr

namespace RunError

/-- The texts that report why a run ends early, each followed by its cause. -/
def chain : RunError → List String
  | settings (.unreadable path cause) =>
    ["Failed to read " ++ path ++ ": " ++ cause.message, cause.message]
  | settings (.invalid path) => ["Failed to parse " ++ path]
  | load path cause => ("Failed to load " ++ path) :: cause.chain
  | badEdit edit => ["Expected CELL=INPUT, got '" ++ edit ++ "'"]
  | badAddress name => ["Invalid cell reference: " ++ name]
  | set name cause => ("Failed to set " ++ name) :: cause.chain
  | save path cause => ("Failed to save " ++ path) :: cause.chain

/-- The line that reports why a run ends early. -/
def report (e : RunError) : String :=
  "Error: " ++ ": ".intercalate e.chain ++ "\n"

end RunError

/-! ### Edits -/

/-- Makes an edit: a cell name and a typed text, divided by the first equals sign. -/
def Workbook.edit (w : Workbook) (edit : String) : Except RunError Workbook :=
  match edit.toList.dropWhile (· ≠ '=') with
  | [] => .error (.badEdit edit)
  | _ :: input =>
    let name := trim (edit.toList.takeWhile (· ≠ '='))
    match Address.readChars? (name.map Char.toUpper) with
    | none => .error (.badAddress (String.ofList name))
    | some a =>
      match w.set a (String.ofList input) with
      | (.ok (), w) => .ok w
      | (.error cause, _) => .error (.set (String.ofList name) cause)

/-! ### Printed texts -/

/-- A text filled up with blanks to a width. -/
def padRight (width : Nat) (s : String) : String :=
  s ++ String.ofList (List.replicate (width - s.toList.length) ' ')

/-- The list of operators and functions. -/
def catalogue : String :=
  "Operators:\n" ++
  "".intercalate (Operator.all.map fun op =>
    "  " ++ padRight 8 op.symbol.toString ++ " " ++ op.description ++
      " (precedence " ++ toString op.rank ++ ")\n") ++
  "Functions:\n" ++
  "".intercalate (Builtin.all.map fun f =>
    "  " ++ padRight 8 f.name ++ " " ++ f.description ++ "\n")

/-- The sheet with one entry on a line. All formulas are computed in one pass. -/
def Sheet.printed (s : Sheet) (draw : Float) : String :=
  let (outcomes, _) := s.recalculate draw
  "".intercalate <| s.entries.map fun (a, _) =>
    let shown := match outcomes.lookup a with
      | some outcome => shownOutcome outcome
      | none => s.shown draw a
    a.name ++ ": " ++ shown ++ "\n"

/-- What is printed in place of a value. -/
def WorkbookError.marker : WorkbookError → String
  | formula cause => shownOutcome (.error cause)
  | _ => "#ERR!"

/-! ### Runs -/

namespace Options

/-- The workbook that a run works on: the settings and the sheet are loaded, and the
edits are made in order. -/
def prepare (o : Options) (usual? : Option String) (d : Disk) : Except RunError Workbook := do
  let settings ← (Settings.load d o.settings? usual?).mapError .settings
  let w ← (Workbook.openFile d o.file?).mapError (.load (o.file?.getD ""))
  let w := { w with strict := o.strict || settings.strict }
  o.edits.foldlM Workbook.edit w

/-- What a run prints about its workbook: the value of the formula, or else the sheet if
there is one, or else the help text unless the sheet is to be saved. -/
def answer (o : Options) (draw : Float) (w : Workbook) (d : Disk) : Outcome :=
  match o.formula? with
  | some formula =>
    match w.valueOfText draw formula with
    | .ok x => { out := Number.shown x ++ "\n", disk := d }
    | .error e =>
      { code := 1, out := e.marker ++ "\n", err := "Error: " ++ e.message ++ "\n", disk := d }
  | none =>
    if o.file?.isSome || !o.edits.isEmpty then { out := w.sheet.printed draw, disk := d }
    else if o.output?.isNone then { code := 1, err := usage, disk := d }
    else { disk := d }

end Options

/-- What is printed and left behind after the attempt to save a sheet. -/
def Outcome.afterSaving (before : Outcome) (path : String) :
    Except WorkbookError Disk → Outcome
  | .ok disk =>
    { before with err := before.err ++ "Saved to " ++ path ++ "\n", saved? := some path, disk }
  | .error cause =>
    { before with code := 1, err := before.err ++ (RunError.save path cause).report }

section

variable {m : Type → Type} [Monad m] (write : Writing m)

namespace Options

/-- Saves the workbook, if that is asked for, after what has been printed before. -/
def finishIn (o : Options) (w : Workbook) (before : Outcome) : m Outcome := do
  match o.output? with
  | none => return before
  | some path =>
    let (written, _) ← (Handling.saveAs write before.disk path).runIn w
    return before.afterSaving path written

/-- A run. The path `usual?` is where settings are looked for if no file is named. -/
def runIn (o : Options) (usual? : Option String) (draw : Float) (d : Disk) : m Outcome := do
  if o.list then return { out := catalogue, disk := d }
  else match o.prepare usual? d with
    | .error e => return { code := 1, err := e.report, disk := d }
    | .ok w => o.finishIn write w (o.answer draw w d)

end Options

/-- What is done with arguments, in any way of writing. -/
def runArgumentsIn (args : List String) (usual? : Option String) (draw : Float) (d : Disk) :
    m Outcome := do
  match Request.ofArguments args with
  | .help => return { err := usage, disk := d }
  | .misuse cause =>
    return { code := 1, err := "Error: " ++ cause.message ++ "\n" ++ usage, disk := d }
  | .run o => o.runIn write usual? draw d

end

/-- What the program does with its arguments. -/
def runArguments (args : List String) (usual? : Option String) (draw : Float) (d : Disk) :
    Outcome :=
  Id.run (runArgumentsIn Disk.write args usual? draw d)

end Spreadsheet
