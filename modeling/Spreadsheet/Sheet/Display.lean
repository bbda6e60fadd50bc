import Spreadsheet.Sheet.Value

/-!
# Displayed Values

A value is displayed with two places after the point, or with none if it is an integer
of moderate size. Where there is no value a marker stands in its place.

## Main definitions

* `Number.shown` — the display of a number.
* `shownOutcome` — the display of a formula's outcome.
* `Sheet.shown` — the display of a cell.
-/

namespace Spreadsheet

/-- The display of a number: a marker if it is not finite, no places if it is an integer
below ten thousand million in size, and two places otherwise. -/
def Number.shown (x : Float) : String :=
  if x.isNaN then "#NAN!"
  else if x.isInf then "#INF!"
  else if isIntegral x && x.abs < 10000000000 then fixed 0 x
  else fixed 2 x

/-- The display of an outcome: a marker for a circular reference, another for every
other failure. -/
def shownOutcome : Except FormulaError Float → String
  | .ok x => Number.shown x
  | .error (.circular _) => "#CYCLE!"
  | .error _ => "#ERR!"

/-- The display of a cell: a text as it is, a number and a formula's value as
numbers. -/
def Sheet.shown (s : Sheet) (draw : Float) (a : Address) : String :=
  match s.content a with
  | .empty => ""
  | .text content => content
  | .number x => Number.shown x
  | .formula _ => shownOutcome (s.value draw a)

end Spreadsheet
