import Std.Data.ExtTreeMap

/-!
# Disks

A disk maps paths to files and directories. The directory in which the program runs and
the root are always there, and a file can be written only where its directory exists. Files hold
text; one whose bytes are not valid text is there but cannot be read.

A path leads along the names between its slashes. A single point leads nowhere else. A path that
ends in a slash or in a point leads to a directory or to nothing, also where the names alone lead to
a file. Two points are a name like any other here: they are not resolved to the directory above.

## Main definitions

* `Path.names`, `Path.ToDirectory` — the names along a path, and paths to directories only.
* `Disk` — the files and directories.
* `Disk.read`, `Disk.write` — one file.
* `FileError` — why a file cannot be read or written.
-/

namespace Spreadsheet

/-- Why a file cannot be read or written. -/
inductive FileError where
  /-- There is no such file, or no directory for it. -/
  | notFound
  /-- It is a directory. -/
  | isDirectory
  /-- The path goes on behind a file. -/
  | notDirectory
  /-- Its bytes are not text. -/
  | notText
  /-- The reason that the system gives. -/
  | system (reason : String)
deriving DecidableEq, Repr

/-- The text that reports why a file cannot be read or written. -/
def FileError.message : FileError → String
  | notFound => "No such file or directory (os error 2)"
  | isDirectory => "Is a directory (os error 21)"
  | notDirectory => "Not a directory (os error 20)"
  | notText => "stream did not contain valid UTF-8"
  | system reason => reason

/-- What a path leads to. -/
inductive Node where
  /-- A file with its text, or with bytes that are none. -/
  | file (content : Option String)
  /-- A directory. -/
  | directory
  /-- Something that cannot be read. -/
  | unreadable (reason : String)
deriving DecidableEq, Repr

namespace Path

/-- Divides a text at every slash. -/
def split : List Char → List (List Char)
  | [] => [[]]
  | c :: rest =>
    if c = '/' then [] :: split rest
    else match split rest with
      | [] => [[c]]
      | p :: ps => (c :: p) :: ps

/-- The name that stands for the root of all directories. -/
def root : List Char := ['/']

/-- The names along a path, of which those that lead nowhere else are left out. A path
that begins with a slash begins at the root. -/
def names (path : String) : List (List Char) :=
  let below := (split path.toList).filter fun p => p ≠ [] ∧ p ≠ ['.']
  if path.toList.head? = some '/' then root :: below else below

/-- What stands behind the last slash of a path. -/
def ending (path : String) : List Char :=
  (path.toList.reverse.takeWhile (· ≠ '/')).reverse

/-- A path leads **to a directory** or to nothing if no name stands behind its last slash. -/
def ToDirectory (path : String) : Prop :=
  ending path = [] ∨ ending path = ['.']

/-- Whether a path leads to directories only can be computed. -/
instance (path : String) : Decidable (ToDirectory path) :=
  inferInstanceAs (Decidable (_ ∨ _))

/-- The name of the file that a path leads to. -/
def fileName? (path : String) : Option (List Char) :=
  ((names path).getLast?).filter fun name => name ≠ ['.', '.'] ∧ name ≠ root

/-- What follows the last point of the file's name, unless the name begins with its
only point. -/
def extension? (path : String) : Option (List Char) :=
  (fileName? path).bind fun name =>
    let stem := (name.reverse.dropWhile (· ≠ '.')).drop 1
    if stem.isEmpty then none else some (name.reverse.takeWhile (· ≠ '.')).reverse

end Path

/-- The files and directories, each under the names along its path. -/
structure Disk where
  /-- What the paths lead to. -/
  nodes : Std.ExtTreeMap String Node := ∅

namespace Disk

/-- The names along a path as the key of a node. -/
def key (names : List (List Char)) : String :=
  "/".intercalate (names.map String.ofList)

/-- What names along a path lead to. No name at all leads to the directory in which the
program runs. -/
def nodeAt? (d : Disk) (names : List (List Char)) : Option Node :=
  if names = [] ∨ names = [Path.root] then some .directory else d.nodes[key names]?

/-- What a path leads to. -/
def node? (d : Disk) (path : String) : Option Node :=
  if path = "" then none
  else (d.nodeAt? (Path.names path)).filter fun node =>
    node = .directory ∨ ¬ Path.ToDirectory path

/-- Why nothing is found along names: something that is no directory is in the way, or there is
nothing. -/
def obstacle (d : Disk) (names : List (List Char)) : FileError :=
  let met := (List.range (names.length + 1)).filterMap fun n => d.nodeAt? (names.take n)
  match met.find? (· ≠ .directory) with
  | some (.unreadable reason) => .system reason
  | some _ => .notDirectory
  | none => .notFound

/-- Whether a path leads anywhere. -/
def pathExists (d : Disk) (path : String) : Bool :=
  (d.node? path).isSome

/-- Whether a path leads to a file. -/
def isFile (d : Disk) (path : String) : Bool :=
  match d.node? path with
  | some (.file _) | some (.unreadable _) => true
  | _ => false

/-- Puts a node at a path. -/
def place (d : Disk) (path : String) (node : Node) : Disk :=
  ⟨d.nodes.insert (key (Path.names path)) node⟩

/-- The text of a file. -/
def read (d : Disk) (path : String) : Except FileError String :=
  match d.node? path with
  | none => .error (d.obstacle (Path.names path))
  | some .directory => .error .isDirectory
  | some (.unreadable reason) => .error (.system reason)
  | some (.file none) => .error .notText
  | some (.file (some text)) => .ok text

/-- Writes a file, which replaces the one at that path. No file is made behind a slash without a
name. -/
def write (d : Disk) (path text : String) : Except FileError Disk :=
  match d.node? path with
  | some .directory => .error .isDirectory
  | some (.unreadable reason) => .error (.system reason)
  | some (.file _) => .ok (d.place path (.file (some text)))
  | none =>
    if path = "" then .error .notFound
    else if Path.ending path = ['.'] then .error (d.obstacle (Path.names path))
    else match d.nodeAt? (Path.names path).dropLast with
      | some .directory =>
        if Path.ending path = [] then .error .isDirectory
        else .ok (d.place path (.file (some text)))
      | _ => .error (d.obstacle (Path.names path).dropLast)

end Disk

end Spreadsheet
