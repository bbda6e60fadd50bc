import Spreadsheet.Address
import Spreadsheet.Formula.Builtin

/-!
# Errors of Formulas

A formula that has no value fails for one of a few causes. What can go wrong with the
order of its tokens is a `Malformation`; a word that names nothing, a cell name out
of range and a circular reference are the others. Each cause has its wording here and
nowhere else.

## Main definitions

* `Malformation` — the ways in which a sequence of tokens fails to be a formula.
* `FormulaError` — the causes for which a formula has no value.
* `FormulaError.message` — the text that reports a cause.
-/

namespace Spreadsheet

/-- What is wrong with the order of a formula's tokens. -/
inductive Malformation where
  /-- There is nothing to evaluate. -/
  | emptyFormula
  /-- Two operands follow each other. -/
  | missingOperator
  /-- Two operands follow each other inside brackets. -/
  | missingOperatorInBrackets
  /-- Two operands follow each other inside an argument. -/
  | missingOperatorInArgument
  /-- An operator lacks an operand on one of its sides. -/
  | missingOperand (op : Operator)
  /-- An argument separator stands where no argument ends. -/
  | separatorOutsideCall
  /-- An argument holds nothing. -/
  | emptyArgument
  /-- Brackets that belong to no call hold nothing. -/
  | emptyBrackets
  /-- A closing bracket has no opening one. -/
  | unmatchedBracket
  /-- An opening bracket has no closing one. -/
  | unclosedBracket
  /-- A function name is not followed by an opening bracket. -/
  | notCalled (f : Builtin)
deriving DecidableEq, Repr

/-- The text that reports what is wrong with the order of the tokens. -/
def Malformation.message : Malformation → String
  | emptyFormula => "empty formula"
  | missingOperator => "missing operator between operands"
  | missingOperatorInBrackets => "missing operator inside brackets"
  | missingOperatorInArgument => "missing operator in function argument"
  | missingOperand op => "operator " ++ op.symbol.toString ++ " is missing an operand"
  | separatorOutsideCall => "';' outside of a function call"
  | emptyArgument => "empty function argument"
  | emptyBrackets => "empty brackets"
  | unmatchedBracket => "unmatched ')'"
  | unclosedBracket => "unclosed '('"
  | notCalled f => "function " ++ f.name ++ " is not followed by '('"

/-- Why a formula has no value. -/
inductive FormulaError where
  /-- A cell's value depends on itself along a path of cells. -/
  | circular (path : List Address)
  /-- The tokens do not form a formula. -/
  | malformed (cause : Malformation)
  /-- A word of the text is no token. -/
  | unknownWord (word : String)
  /-- A name is no cell name. -/
  | badAddress (name : String)
deriving DecidableEq, Repr

/-- A path of cells as text. -/
def pathText (path : List Address) : String :=
  " -> ".intercalate (path.map Address.name)

/-- The text that reports why a formula has no value. -/
def FormulaError.message : FormulaError → String
  | circular path => "Circular reference: " ++ pathText path
  | malformed cause => "Malformed formula: " ++ cause.message
  | unknownWord word => "Unknown token: " ++ word
  | badAddress name => "Invalid cell reference: " ++ name

end Spreadsheet
