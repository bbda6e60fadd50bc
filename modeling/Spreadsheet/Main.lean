import Spreadsheet.CommandLine.Run

/-!
# The Program

The program copies what it may need from the file system, runs on that copy, prints what
the run prints, and writes the file that the run has written.
-/

open Spreadsheet

/-- Where settings are looked for if no file is named. -/
def usualSettings : IO (Option String) := do
  let named ← IO.getEnv "XDG_CONFIG_HOME"
  let home ← IO.getEnv "HOME"
  return match named.filter fun path => path.toList.head? = some '/', home with
    | some path, _ => some (path ++ "/cellcalc/config.toml")
    | none, some path => some (path ++ "/.config/cellcalc/config.toml")
    | none, none => none

/-- What a path of the file system leads to. -/
def nodeOf (path : String) : IO (Option Node) := do
  try
    let bytes ← IO.FS.readBinFile path
    return some (.file (String.fromUTF8? bytes))
  catch
    | .noFileOrDirectory .. => return none
    -- The other error of this type says that the path goes on behind a file.
    | .inappropriateType _ code _ => return if code = 21 then some .directory else none
    | e => return some (.unreadable (toString e))

/-- The paths to the directories along a path, and to what it leads to itself. -/
def pathsAlong (path : String) : List String :=
  (List.range ((Path.names path).length + 1)).map fun n => Disk.key ((Path.names path).take n)

/-- Copies what a path leads to onto a disk. -/
def copy (d : Disk) (path : String) : IO Disk := do
  match ← nodeOf path with
  | some node => return d.place path node
  | none => return d

/-- The paths that a request may lead along. -/
def pathsOf (usual? : Option String) : Request → List String
  | .run o =>
    [o.file?, o.settings?.or usual?, o.output?].flatMap fun path? => (path?.map pathsAlong).getD []
  | _ => []

/-- Runs the program with its arguments. -/
def main (args : List String) : IO UInt32 := do
  let usual? ← usualSettings
  let request := Request.ofArguments args
  let disk ← (pathsOf usual? request).foldlM copy {}
  let draw := (← IO.rand 0 (Nat.pow 2 53 - 1)).toFloat / (Nat.pow 2 53).toFloat
  let outcome := runArguments args usual? draw disk
  IO.print outcome.out
  if let some path := outcome.saved? then
    if let .ok text := outcome.disk.read path then
      try
        IO.FS.writeFile path text
      catch e =>
        IO.eprint (RunError.save path (.file (.system (toString e)))).report
        return 1
  IO.eprint outcome.err
  return outcome.code.toUInt32
