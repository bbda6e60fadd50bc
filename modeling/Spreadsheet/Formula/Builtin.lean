import Spreadsheet.Formula.Operator
import Spreadsheet.Number.Decimal

/-!
# Built-in Functions

The functions that a formula may call. Their names are recognised in any case. A call
may bring any number of arguments: those that a function does not look at are ignored,
and those that it misses count as zero. Like an operator, a function never yields a
value that is not finite.

The value of `random` comes from outside; `Builtin.apply` takes it as its first
argument, so that a formula's value is a function of that draw and of its cells.

## Main definitions

* `Builtin` with `name`, `description` and `apply`.
* `Number.rounded` — a number rounded to a count of decimal places.
* `Number.lesser`, `Number.greater` — the smaller and the larger of two numbers, where
  a value that is not a number gives way to the other one.
-/

namespace Spreadsheet

namespace Number

/-- The smaller of two numbers; one that is not a number gives way to the other. -/
def lesser (x y : Float) : Float :=
  if x.isNaN then y else if y.isNaN then x else if y < x then y else x

/-- The larger of two numbers; one that is not a number gives way to the other. -/
def greater (x y : Float) : Float :=
  if x.isNaN then y else if y.isNaN then x else if x < y then y else x

/-- The integer part of a number. -/
def truncate (x : Float) : Float :=
  if x < 0 then x.ceil else x.floor

/-- A number rounded to a count of decimal places, of which only the integer part
matters. A half goes away from zero. -/
def rounded (x places : Float) : Float :=
  let factor := (10 : Float).pow (truncate places)
  (x * factor).round / factor

end Number

/-- A function that a formula may call. -/
inductive Builtin where
  /-- A random number. -/
  | random
  /-- Rounding to a given number of places. -/
  | round
  /-- Rounding to one place. -/
  | round1
  /-- Rounding to two places. -/
  | round2
  /-- Rounding to three places. -/
  | round3
  /-- Rounding to four places. -/
  | round4
  /-- The sum of the arguments. -/
  | sum
  /-- The smallest argument. -/
  | min
  /-- The largest argument. -/
  | max
  /-- The choice between two arguments. -/
  | choose
deriving DecidableEq, Repr

namespace Builtin

/-- All functions, in the order in which they are listed. -/
def all : List Builtin :=
  [random, round, round1, round2, round3, round4, sum, min, max, choose]

/-- The name under which a function is called. -/
def name : Builtin → String
  | random => "random"
  | round => "round"
  | round1 => "round1"
  | round2 => "round2"
  | round3 => "round3"
  | round4 => "round4"
  | sum => "sum"
  | min => "min"
  | max => "max"
  | choose => "if"

/-- A call binds more tightly than every operator. -/
def rank : Nat := 4

/-- One line about the function. -/
def description : Builtin → String
  | random => "Uniform random number in [0, 1)"
  | round => "Round to n decimal digits (default 0)"
  | round1 => "Round to 1 decimal digit"
  | round2 => "Round to 2 decimal digits"
  | round3 => "Round to 3 decimal digits"
  | round4 => "Round to 4 decimal digits"
  | sum => "Sum of all arguments"
  | min => "Smallest argument"
  | max => "Largest argument"
  | choose => "Second argument when the first is non-zero, else the third (or 0)"

/-- The function that a whole text names, in any case. -/
def ofChars? (cs : List Char) : Option Builtin :=
  all.find? fun f => f.name.toList = cs.map Char.toLower

/-- The argument at a position, or zero if the call brought fewer. -/
def argument (args : List Float) (i : Nat) : Float :=
  args[i]?.getD 0

/-- What the function computes from its arguments. -/
def raw (draw : Float) (args : List Float) : Builtin → Float
  | random => draw
  | round => Number.rounded (argument args 0) (argument args 1)
  | round1 => Number.rounded (argument args 0) 1
  | round2 => Number.rounded (argument args 0) 2
  | round3 => Number.rounded (argument args 0) 3
  | round4 => Number.rounded (argument args 0) 4
  | sum => args.foldl (fun total x => total + x) 0
  | min => args.foldl Number.lesser Number.infinity
  | max => args.foldl Number.greater (-Number.infinity)
  | choose => if argument args 0 == 0 then argument args 2 else argument args 1

/-- The value of a call; a value that is not finite counts as zero. -/
def apply (draw : Float) (f : Builtin) (args : List Float) : Float :=
  Number.orZero (f.raw draw args)

end Builtin

end Spreadsheet
