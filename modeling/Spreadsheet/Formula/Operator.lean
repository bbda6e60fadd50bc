/-!
# Binary Operators

The five operators of a formula. Each has a symbol, a rank that says how tightly it
binds, and an arithmetic meaning. Division by zero and the like are no errors: a result
that is not finite counts as zero.

## Main definitions

* `Number.orZero` — a number, or zero if it is not finite.
* `Operator` with `symbol`, `rank`, `description` and `apply`.
-/

namespace Spreadsheet

/-- The number itself if it is finite, and zero otherwise. -/
def Number.orZero (x : Float) : Float :=
  if x.isFinite then x else 0

/-- A binary operator of a formula. -/
inductive Operator where
  /-- The sum. -/
  | add
  /-- The difference. -/
  | subtract
  /-- The product. -/
  | multiply
  /-- The quotient. -/
  | divide
  /-- The power. -/
  | power
deriving DecidableEq, Repr

namespace Operator

/-- All operators, in the order in which they are listed. -/
def all : List Operator := [add, subtract, multiply, divide, power]

/-- The character that stands for the operator. -/
def symbol : Operator → Char
  | add => '+'
  | subtract => '-'
  | multiply => '*'
  | divide => '/'
  | power => '^'

/-- How tightly the operator binds. -/
def rank : Operator → Nat
  | add | subtract => 1
  | multiply | divide => 2
  | power => 3

/-- One line about the operator. -/
def description : Operator → String
  | add => "Sum of two values"
  | subtract => "Difference of two values"
  | multiply => "Product of two values"
  | divide => "Quotient of two values"
  | power => "Left value raised to the right value"

/-- The operator that a whole text stands for. -/
def ofChars? : List Char → Option Operator
  | [c] => all.find? fun op => op.symbol = c
  | _ => none

/-- The arithmetic that the operator stands for. -/
def raw : Operator → Float → Float → Float
  | add, x, y => x + y
  | subtract, x, y => x - y
  | multiply, x, y => x * y
  | divide, x, y => x / y
  | power, x, y => x.pow y

/-- The value of the operator at two operands; a value that is not finite counts as
zero. -/
def apply (op : Operator) (left right : Float) : Float :=
  Number.orZero (op.raw left right)

end Operator

end Spreadsheet
