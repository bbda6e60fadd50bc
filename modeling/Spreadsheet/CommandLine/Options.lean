/-!
# Command-Line Options

The arguments are read from left to right, and the first one that asks for help or that
cannot be understood ends the reading. An option that may be given once may be repeated;
the last value counts. Only edits accumulate.

## Main definitions

* `Options` — what a run is asked to do.
* `Request` — what the arguments come to: a run, help or misuse.
* `Request.ofArguments` — the request that arguments make.
* `usage` — the help text.
-/

namespace Spreadsheet

/-- What a run is asked to do. -/
structure Options where
  /-- The sheet to load. -/
  file? : Option String := none
  /-- The formula to evaluate. -/
  formula? : Option String := none
  /-- The edits to make, in order. -/
  edits : List String := []
  /-- The file to save the sheet to. -/
  output? : Option String := none
  /-- The file to read settings from. -/
  settings? : Option String := none
  /-- Whether formulas with unknown words are refused. -/
  strict : Bool := false
  /-- Whether operators and functions are listed. -/
  list : Bool := false
deriving DecidableEq, Repr

/-- What is wrong with arguments. -/
inductive Misuse where
  /-- An option lacks its value. -/
  | missingValue (option what : String)
  /-- There is no such option. -/
  | unknownOption (argument : String)
  /-- There is more than one sheet to load. -/
  | unexpected (argument : String)
deriving DecidableEq, Repr

/-- The text that reports what is wrong with arguments. -/
def Misuse.message : Misuse → String
  | missingValue option what => option ++ " requires " ++ what
  | unknownOption argument => "Unknown option: " ++ argument
  | unexpected argument => "Unexpected argument: " ++ argument

/-- What the arguments come to. -/
inductive Request where
  /-- A run. -/
  | run (options : Options)
  /-- The help text. -/
  | help
  /-- Arguments that cannot be understood. -/
  | misuse (cause : Misuse)
deriving DecidableEq, Repr

namespace Request

/-- Reads arguments after those that have led to the given options. -/
def read (o : Options) : List String → Request
  | [] => .run o
  | arg :: rest =>
    if arg = "-h" ∨ arg = "--help" then .help
    else if arg = "-c" ∨ arg = "--command" then
      match rest with
      | formula :: rest => read { o with formula? := some formula } rest
      | [] => .misuse (.missingValue "--command" "a formula")
    else if arg = "-s" ∨ arg = "--set" then
      match rest with
      | edit :: rest => read { o with edits := o.edits ++ [edit] } rest
      | [] => .misuse (.missingValue "--set" "CELL=INPUT")
    else if arg = "-o" ∨ arg = "--output" then
      match rest with
      | path :: rest => read { o with output? := some path } rest
      | [] => .misuse (.missingValue "--output" "a file path")
    else if arg = "--config" then
      match rest with
      | path :: rest => read { o with settings? := some path } rest
      | [] => .misuse (.missingValue "--config" "a file path")
    else if arg = "--strict" then read { o with strict := true } rest
    else if arg = "-l" ∨ arg = "--list" then read { o with list := true } rest
    else if arg.toList.head? = some '-' then .misuse (.unknownOption arg)
    else match o.file? with
      | none => read { o with file? := some arg } rest
      | some _ => .misuse (.unexpected arg)

/-- The request that arguments make. -/
def ofArguments (args : List String) : Request :=
  read {} args

end Request

/-- The help text. -/
def usage : String :=
  "Usage: cellcalc [OPTIONS] [FILE]\n" ++
  "\n" ++
  "Arguments:\n" ++
  "  [FILE]                    Sheet to load (.grd or .json)\n" ++
  "\n" ++
  "Options:\n" ++
  "  -c, --command <FORMULA>   Evaluate a formula and print the result\n" ++
  "  -s, --set <CELL=INPUT>    Set a cell before evaluating (can be repeated)\n" ++
  "  -o, --output <FILE>       Save the sheet after edits (.grd or .json)\n" ++
  "  -l, --list                List operators and functions\n" ++
  "  --strict                  Reject unrecognized formula fragments\n" ++
  "  --config <FILE>           Read settings from FILE instead of config.toml\n" ++
  "  -h, --help                Print help\n"

end Spreadsheet
