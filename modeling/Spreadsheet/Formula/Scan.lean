import Spreadsheet.Address
import Spreadsheet.Formula.Error
import Spreadsheet.Formula.Token
import Spreadsheet.Text.Blank

/-!
# Reading Tokens

A formula's text becomes tokens in three steps. It is brought into *normal form*: blanks
are dropped, a comma between two digits becomes a decimal point, and a minus sign that
has nothing on its left gets a zero there, for a formula knows no sign. It is then cut
into *words* at the operators, the brackets and the semicolon, each of which is a word
of its own. Every word finally makes a token by what it is, or by what it begins with.

Words that begin with nothing known are left out by `Token.scan` and refused by
`Token.scanStrict`.

## Main definitions

* `Scan.normalForm`, `Scan.words`, `Scan.token?` — the steps.
* `Token.scan` — the tokens of a text, unknown words being left out.
* `Token.scanStrict` — the tokens of a text, or the first unknown word.
-/

namespace Spreadsheet

namespace Scan

/-! ### Normal text -/

/-- The text without blanks, its decimal commas and its signs adjusted. The argument
`before` is the character on the left of the text. -/
def adjust (before : Option Char) : List Char → List Char
  | [] => []
  | c :: rest =>
    if c = ',' ∧ before.any Char.isDigit ∧ rest.head?.any Char.isDigit then
      '.' :: adjust (some c) rest
    else if c = '-' ∧ (before = none ∨ before = some '(' ∨ before = some ';') then
      '0' :: '-' :: adjust (some c) rest
    else c :: adjust (some c) rest

/-- The normal form of a formula's text. -/
def normalForm (cs : List Char) : List Char :=
  adjust none (cs.filter fun c => !isBlank c)

/-! ### Words -/

/-- Whether a character is a word of its own. -/
def isSeparator (c : Char) : Bool :=
  c = '+' || c = '-' || c = '*' || c = '/' || c = '^' || c = '(' || c = ')' || c = ';'

/-- Puts a character in front of the words of the text that follows it. -/
def attach (c : Char) : List (List Char) → List (List Char)
  | (d :: ds) :: fs => if isSeparator d then [c] :: (d :: ds) :: fs else (c :: d :: ds) :: fs
  | fs => [c] :: fs

/-- Cuts a normal text into words: every separator alone, and every longest stretch
without one. -/
def words : List Char → List (List Char)
  | [] => []
  | c :: rest => if isSeparator c then [c] :: words rest else attach c (words rest)

/-- A character that is attached to words stands in front of their characters. -/
theorem flatten_attach (c : Char) (ws : List (List Char)) :
    (attach c ws).flatten = c :: ws.flatten := by
  unfold attach
  split
  · split <;> rfl
  · rfl

/-- Cutting a text into words loses nothing. -/
theorem flatten_words (cs : List Char) : (words cs).flatten = cs := by
  induction cs with
  | nil => rfl
  | cons c rest ih =>
    rw [words]
    split
    · rw [List.flatten_cons, ih]; rfl
    · rw [flatten_attach, ih]

/-! ### Tokens -/

/-- The punctuation that a whole word is. -/
def punctuation? : List Char → Option Token
  | ['('] => some .openBracket
  | [')'] => some .closeBracket
  | [';'] => some .separator
  | _ => none

/-- The number that a word begins with: digits, and perhaps a point and more digits. -/
def number? (cs : List Char) : Option Float :=
  match Decimal.split cs with
  | (whole, fraction, _) =>
    if whole.isEmpty then none else some (Decimal.ofDigits whole fraction 0).toFloat

/-- The cell name that a word begins with. -/
def reference? (cs : List Char) : Option String :=
  (Address.splitName? cs).map fun (letters, digits, _) => String.ofList (letters ++ digits)

/-- The token that a word is: an operator, punctuation or a function if the whole
word is one, and else the number or the cell name it begins with. -/
def token? (cs : List Char) : Option Token :=
  (Operator.ofChars? cs).map .operator
    <|> punctuation? cs
    <|> (Builtin.ofChars? cs).map .function
    <|> (number? cs).map .number
    <|> (reference? cs).map .reference

end Scan

namespace Token

/-- The tokens of a formula's text, as characters. -/
def scanChars (cs : List Char) : List Token :=
  (Scan.words (Scan.normalForm cs)).filterMap Scan.token?

/-- The tokens of a formula's text. A word that is no token is left out. -/
def scan (s : String) : List Token :=
  scanChars s.toList

/-- The tokens of a formula's text, or the first word that is none. -/
def scanStrict (s : String) : Except FormulaError (List Token) :=
  (Scan.words (Scan.normalForm s.toList)).mapM fun word =>
    match Scan.token? word with
    | some t => .ok t
    | none => .error (.unknownWord (String.ofList word))

end Token

end Spreadsheet
