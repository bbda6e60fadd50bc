import Spreadsheet.Toml.Reader
import Spreadsheet.Workbook.Disk

/-!
# Settings

Settings come from a TOML file. The only one is `strict`, a truth value that is false
unless it is set; whatever else the file holds does not count.

## Main definitions

* `Settings` — the settings.
* `Settings.ofText?` — the settings of a file's text.
* `Settings.load` — the settings of a named file, or of the usual one if it exists.
-/

namespace Spreadsheet

/-- The settings of the program. -/
structure Settings where
  /-- Whether formulas with unknown words are refused. -/
  strict : Bool := false
deriving DecidableEq, Repr

/-- Why settings cannot be loaded. -/
inductive SettingsError where
  /-- The file cannot be read. -/
  | unreadable (path : String) (cause : FileError)
  /-- The file is no TOML, or a setting in it is of the wrong kind. -/
  | invalid (path : String)
deriving DecidableEq, Repr

namespace Settings

/-- The settings of a file's text. -/
def ofText? (text : String) : Option Settings := do
  let fields ← Toml.ofText? text
  match fields.lookup "strict" with
  | none => return {}
  | some (.bool strict) => return { strict }
  | some _ => none

/-- The settings of a file. -/
def ofFile (d : Disk) (path : String) : Except SettingsError Settings :=
  match d.read path with
  | .error cause => .error (.unreadable path cause)
  | .ok text =>
    match ofText? text with
    | some settings => .ok settings
    | none => .error (.invalid path)

/-- The settings of the file that is named, or else of the usual file. If that does not
exist, nothing is set. -/
def load (d : Disk) (named? usual? : Option String) : Except SettingsError Settings :=
  match named?, usual?.filter d.isFile with
  | some path, _ | none, some path => ofFile d path
  | none, none => .ok {}

end Settings

end Spreadsheet
