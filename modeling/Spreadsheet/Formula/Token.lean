import Spreadsheet.Formula.Builtin
import Spreadsheet.Number.Printer

/-!
# Tokens of Formulas

A formula is kept as a sequence of tokens. A reference holds the name of a cell as it
was written, and a token of plain text can only come from a stored sheet.

## Main definitions

* `Token` — one token.
* `Token.Kind`, `Token.kind` — what sort of token it is.
* `Token.chars`, `Token.spelling` — the text that a token is written as.
* `Token.source` — the text of a sequence of tokens.
* `Token.rank?` — how tightly an operator or a function binds.
-/

namespace Spreadsheet

/-- One token of a formula. -/
inductive Token where
  /-- A number. -/
  | number (value : Float)
  /-- The name of a cell. -/
  | reference (name : String)
  /-- An operator. -/
  | operator (op : Operator)
  /-- The name of a function. -/
  | function (f : Builtin)
  /-- An opening bracket. -/
  | openBracket
  /-- A closing bracket. -/
  | closeBracket
  /-- The mark between two arguments of a call. -/
  | separator
  /-- A text, which counts as zero. -/
  | text (content : String)
deriving DecidableEq, Repr

namespace Token

/-- The characters that a token is written as. -/
def chars : Token → List Char
  | number x => Number.plainChars x
  | reference name => name.toList
  | operator op => [op.symbol]
  | function f => f.name.toList
  | openBracket => ['(']
  | closeBracket => [')']
  | separator => [';']
  | text content => content.toList

/-- The text that a token is written as. -/
def spelling (t : Token) : String :=
  String.ofList t.chars

/-- The text of a sequence of tokens, with nothing between them. -/
def source (ts : List Token) : String :=
  String.ofList (ts.flatMap chars)

/-- The kinds of tokens. -/
inductive Kind where
  /-- Numbers. -/
  | number
  /-- References. -/
  | reference
  /-- Operators. -/
  | operator
  /-- Functions. -/
  | function
  /-- Opening brackets. -/
  | openBracket
  /-- Closing brackets. -/
  | closeBracket
  /-- Separators. -/
  | separator
  /-- Texts. -/
  | text
deriving DecidableEq, Repr

/-- The kind of a token. -/
def kind : Token → Kind
  | number _ => .number
  | reference _ => .reference
  | operator _ => .operator
  | function _ => .function
  | openBracket => .openBracket
  | closeBracket => .closeBracket
  | separator => .separator
  | text _ => .text

namespace Kind

/-- All kinds. -/
def all : List Kind :=
  [number, reference, operator, function, openBracket, closeBracket, separator, text]

/-- The name of a kind in stored tokens. -/
def name : Kind → String
  | number => "Number"
  | reference => "CellRef"
  | operator => "Operator"
  | function => "Function"
  | openBracket => "LeftBracket"
  | closeBracket => "RightBracket"
  | separator => "ArgSeparator"
  | text => "Text"

/-- The kind of a name. -/
def ofName? (s : String) : Option Kind :=
  all.find? fun k => k.name = s

end Kind

/-- How tightly a token binds, if it is an operator or a function. -/
def rank? : Token → Option Nat
  | operator op => some op.rank
  | function _ => some Builtin.rank
  | _ => none

end Token

end Spreadsheet
