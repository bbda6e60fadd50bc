import Spreadsheet.Formula.Scan
import Spreadsheet.Text.Quoted

/-!
# Cells

A cell is empty or holds a number, a text or a formula. A formula keeps the text it was
written as beside its tokens; the tokens alone decide its value. Next to its content a
cell lists the cells that its formula refers to.

## Main definitions

* `Token.references` — the cells that tokens refer to, each once.
* `Formula`, `Content`, `Cell` — what a cell holds.
* `Cell.ofTyped` — the cell that a typed text makes.
* `Cell.editText` — the text under which a cell is edited.
-/

namespace Spreadsheet

/-- The cell that a token refers to, if it is a reference within the limits. -/
def Token.address? : Token → Option Address
  | .reference name => Address.read? name
  | _ => none

/-- The cells that tokens refer to, in the order of their first mention. -/
def Token.references (ts : List Token) : List Address :=
  (ts.filterMap Token.address?).foldl (fun seen a => if a ∈ seen then seen else seen ++ [a]) []

/-- A formula: its text without the equals sign, and its tokens. -/
structure Formula where
  /-- The text of the formula. -/
  source : String
  /-- The tokens that are evaluated. -/
  tokens : List Token
deriving DecidableEq, Repr

namespace Formula

/-- The formula that a text writes. -/
def ofSource (source : String) : Formula :=
  ⟨source, Token.scan source⟩

/-- The formula of given tokens, with a text made from them. -/
def ofTokens (tokens : List Token) : Formula :=
  ⟨Token.source tokens, tokens⟩

end Formula

/-- What a cell holds. -/
inductive Content where
  /-- Nothing. -/
  | empty
  /-- A number. -/
  | number (value : Float)
  /-- A text. -/
  | text (content : String)
  /-- A formula. -/
  | formula (f : Formula)
deriving DecidableEq, Repr

/-- A cell: what it holds and which cells that refers to. -/
structure Cell where
  /-- What the cell holds. -/
  content : Content
  /-- The cells that the content refers to. -/
  references : List Address := []
deriving DecidableEq, Repr

namespace Cell

/-- The cell that holds nothing. -/
def empty : Cell := { content := .empty }

/-- The cell that holds a number. -/
def ofNumber (x : Float) : Cell := { content := .number x }

/-- The cell that holds a text. -/
def ofText (s : String) : Cell := { content := .text s }

/-- The cell that holds a formula. -/
def ofFormula (f : Formula) : Cell :=
  { content := .formula f, references := Token.references f.tokens }

/-- Whether the cell holds nothing. -/
def isEmpty (c : Cell) : Bool :=
  c.content = .empty

/-- The tokens of the cell's formula, if it holds one. -/
def tokens? (c : Cell) : Option (List Token) :=
  match c.content with
  | .formula f => some f.tokens
  | _ => none

/-- Whether the cell holds a formula. -/
def isFormula (c : Cell) : Bool :=
  c.tokens?.isSome

/-- The cell that a typed text without blanks at its ends makes. -/
def ofTrimmed (cs : List Char) : Cell :=
  match cs with
  | [] => empty
  | '=' :: source => ofFormula (.ofSource (String.ofList source))
  | cs =>
    match Quoted.inner? cs with
    | some content => ofText (String.ofList content)
    | none =>
      match (Number.read? cs).filter Float.isFinite with
      | some x => ofNumber x
      | none => ofText (String.ofList cs)

/-- The cell that a typed text makes. Blanks at its ends do not count. An equals sign
begins a formula, quotes enclose a text, and what reads as a finite number is one;
anything else is a text. -/
def ofTyped (s : String) : Cell :=
  ofTrimmed (trim s.toList)

/-- The text under which the cell is edited. -/
def editText (c : Cell) : String :=
  match c.content with
  | .empty => ""
  | .text s => s
  | .number x => Number.plain x
  | .formula f => "=" ++ f.source

end Cell

end Spreadsheet
