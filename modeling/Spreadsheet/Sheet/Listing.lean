import Spreadsheet.Sheet.Basic
import Spreadsheet.Text.Lines

/-!
# Listings

A listing is a sheet as plain text with one cell on a line, as in `B2: =A1 + 1`. A
formula follows an equals sign, a text stands between quotes, a number is bare, and
nothing at all makes an empty cell. Blanks at the ends of a line and around the colon do
not count, and neither do empty lines and those that begin with `#`. Names may be
written in small letters. The last line that names a cell decides what it holds.

## Main definitions

* `ListingError` — what is wrong with a listing, and on which line.
* `Sheet.toListing` — the listing of a sheet's non-empty cells.
* `Sheet.ofListing` — the sheet of a listing.
-/

namespace Spreadsheet

/-- What is wrong with a line of a listing. -/
inductive LineFault where
  /-- There is no colon. -/
  | noColon
  /-- What stands before the colon is no cell name. -/
  | badAddress (name : String)
  /-- What stands behind the colon is no value. -/
  | badValue (text : String)
deriving DecidableEq, Repr

/-- The text that reports what is wrong with a line. -/
def LineFault.message : LineFault → String
  | noColon => "Expected 'CELLREF: VALUE' format"
  | badAddress name => "Invalid cell reference: " ++ name
  | badValue text => "Invalid value: " ++ text ++ ". Use quotes for text."

/-- What is wrong with a listing: the line, counted from one, and its fault. -/
structure ListingError where
  /-- The number of the line. -/
  line : Nat
  /-- What is wrong with it. -/
  fault : LineFault
deriving DecidableEq, Repr

namespace Listing

/-! ### Writing -/

/-- The line that begins every listing. -/
def header : String := "# Cellcalc Spreadsheet\n"

/-- What stands behind the colon for a cell, unless it is empty. -/
def value? : Content → Option (List Char)
  | .empty => none
  | .number x => some (Number.plainChars x)
  | .text s => some ('"' :: (Quoted.encode s.toList ++ ['"']))
  | .formula f => some ('=' :: f.source.toList)

/-- The line of a cell, unless it is empty. -/
def line? (a : Address) (c : Cell) : Option (List Char) :=
  (value? c.content).map fun v => a.nameChars ++ ':' :: ' ' :: (v ++ ['\n'])

/-! ### Reading -/

/-- The cell of what stands behind the colon, without the blanks at its ends. -/
def readValue (cs : List Char) : Except LineFault Cell :=
  match cs with
  | [] => .ok .empty
  | '=' :: source => .ok (.ofFormula (.ofSource (String.ofList source)))
  | cs =>
    match Quoted.inner? cs with
    | some content => .ok (.ofText (String.ofList (Quoted.decode content)))
    | none =>
      match (Number.read? cs).filter Float.isFinite with
      | some x => .ok (.ofNumber x)
      | none => .error (.badValue (String.ofList cs))

/-- The address of what stands before the colon. -/
def readName (cs : List Char) : Except LineFault Address :=
  let name := (trim cs).map Char.toUpper
  match Address.readChars? name with
  | some a => .ok a
  | none => .error (.badAddress (String.ofList name))

/-- The cell on a line without blanks at its ends, if there is one on it. -/
def readLine (cs : List Char) : Except LineFault (Option (Address × Cell)) :=
  if cs.isEmpty ∨ cs.head? = some '#' then .ok none
  else match cs.dropWhile (· ≠ ':') with
    | [] => .error .noColon
    | _ :: rest => do
      let a ← readName (cs.takeWhile (· ≠ ':'))
      let c ← readValue (trim rest)
      return some (a, c)

/-- The cells on lines of which the first has the given number. -/
def readLines (n : Nat) : List (List Char) → Except ListingError (List (Address × Cell))
  | [] => .ok []
  | l :: ls =>
    match readLine (trim l) with
    | .error fault => .error ⟨n, fault⟩
    | .ok entry => (readLines (n + 1) ls).map (entry.toList ++ ·)

end Listing

namespace Sheet

/-- The listing of a sheet: the header, and a line for every cell that is not empty, by
row and then by column. -/
def toListing (s : Sheet) : String :=
  String.ofList <|
    Listing.header.toList ++ (s.entries.filterMap fun e => Listing.line? e.1 e.2).flatten

/-- The sheet of a listing. -/
def ofListing (text : String) : Except ListingError Sheet :=
  (Listing.readLines 1 (lines text.toList)).map ofList

end Sheet

end Spreadsheet
