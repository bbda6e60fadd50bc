import Spreadsheet.Formula.Evaluation
import Spreadsheet.Sheet.Basic
import Spreadsheet.Sheet.Trail

/-!
# Values of Cells

Every cell of a sheet reads as a number: a number as itself, or as zero if it is not
finite; an empty cell, a text and a cell that was never set as zero; and a formula as
the value of its tokens, whose references are read in turn. A trail of the cells in
progress turns a circular reference into an error.

The recursion is bounded by the number of formulas: each level enters a formula cell
that is not on the trail yet. A recalculation reads all formulas in one pass and
remembers the values it has found.

How a reading is run is left open, and so is what stands beside the pass: the program
just runs it, and other ways may keep count of readings.

## Main definitions

* `Sheet.readIn` — the reading of a cell within a pass, with an explicit bound, in any way
  of running it.
* `Sheet.read` — the reading that the program does.
* `Sheet.value` — the number that a cell reads as.
* `Sheet.valueOfText`, `Sheet.valueOf` — the value of a formula that is not stored.
* `Sheet.formulaValues`, `Sheet.recalculate` — the values of all formulas.
-/

namespace Spreadsheet

/-- The state of a pass over a sheet: the cells in progress and, if the pass remembers
values, those found so far. -/
structure Pass where
  /-- The cells in progress. -/
  trail : Trail := {}
  /-- The values found so far, if they are remembered. -/
  memo : Option (Std.ExtTreeMap Address Float) := none

namespace Pass

/-- The value that is remembered for a cell. -/
def found? (p : Pass) (a : Address) : Option Float :=
  p.memo.bind fun m => m[a]?

/-- Remembers the value of a cell, if the pass remembers any. -/
def remember (p : Pass) (a : Address) (x : Float) : Pass :=
  { p with memo := p.memo.map fun m => m.insert a x }

/-- Takes a cell off the trail, and remembers its value if there is one. -/
def close (p : Pass) (a : Address) : Except FormulaError Float → Pass
  | .ok value => { p with trail := p.trail.retract a }.remember a value
  | .error _ => { p with trail := p.trail.retract a }

end Pass

/-- States that hold a pass. -/
class HoldsPass (σ : Type) where
  /-- The pass that a state holds. -/
  pass : σ → Pass
  /-- The state with another pass. -/
  withPass : σ → Pass → σ

/-- A pass holds itself. -/
instance : HoldsPass Pass where
  pass := id
  withPass _ p := p

/-- Something else may stand beside a pass. -/
instance {τ : Type} : HoldsPass (Pass × τ) where
  pass := Prod.fst
  withPass q p := (p, q.2)

open HoldsPass

section

variable {σ : Type} [HoldsPass σ]

/-- Runs a computation while a cell is on the trail, and remembers the value it
yields. A cell that is on the trail already is an error. -/
def Pass.within (a : Address) (x : Evaluation σ Float) : Evaluation σ Float :=
  ExceptT.mk fun q =>
    match (pass q).trail.extend a with
    | .error cause => (.error cause, q)
    | .ok trail =>
      match x.runFrom (withPass q { pass q with trail }) with
      | (outcome, q) => (outcome, withPass q ((pass q).close a outcome))

namespace Sheet

/-- What a cell is read as within a pass, given how the names in its formula are asked
for. -/
def look (s : Sheet) (draw : Float) (ask : String → Evaluation σ Float) (a : Address) :
    Evaluation σ Float := do
  match (pass (← get)).found? a with
  | some x => return x
  | none =>
    match s.content a with
    | .empty | .text _ => return 0
    | .number x => return Number.orZero x
    | .formula f => Pass.within a (evaluate draw ask f.tokens)

/-- The number that a cell reads as within a pass. The bound limits the depth of the
recursion; one that exceeds the number of formulas is never exhausted. Each reading, also
one that is nested in another, is run in the way `nest`. -/
def readIn (nest : Evaluation σ Float → Evaluation σ Float) (s : Sheet) (draw : Float) :
    Nat → Address → Evaluation σ Float
  | 0, a => nest (throw (.circular [a]))
  | bound + 1, a => nest <| s.look draw
      (fun name =>
        match Address.read? name with
        | some b => readIn nest s draw bound b
        | none => pure 0)
      a

/-- What a name in a formula reads as within a pass. A name beyond the limits reads as
zero. -/
def readNameIn (nest : Evaluation σ Float → Evaluation σ Float) (s : Sheet) (draw : Float)
    (bound : Nat) (name : String) : Evaluation σ Float :=
  match Address.read? name with
  | some a => s.readIn nest draw bound a
  | none => pure 0

/-- Reads cells one after the other within a pass, and collects the outcomes. -/
def readAllIn (nest : Evaluation σ Float → Evaluation σ Float) (s : Sheet) (draw : Float)
    (bound : Nat) : List Address → σ → List (Address × Except FormulaError Float) × σ
  | [], q => ([], q)
  | a :: rest, q =>
    match (s.readIn nest draw bound a).runFrom q with
    | (outcome, q) =>
      match readAllIn nest s draw bound rest q with
      | (outcomes, q) => ((a, outcome) :: outcomes, q)

end Sheet

end

namespace Sheet

/-- The number that a cell reads as within a pass. Readings are just run. -/
def read (s : Sheet) (draw : Float) (bound : Nat) (a : Address) : Evaluation Pass Float :=
  s.readIn id draw bound a

/-- A bound on the depth of the recursion that is never exhausted. -/
def depthBound (s : Sheet) : Nat :=
  s.formulas.length + 1

/-- What a name in a formula reads as within a pass, with an explicit bound. -/
def readName (s : Sheet) (draw : Float) (bound : Nat) (name : String) : Evaluation Pass Float :=
  s.readNameIn id draw bound name

/-- What a name in a formula reads as within a pass. -/
def ask (s : Sheet) (draw : Float) (name : String) : Evaluation Pass Float :=
  s.readName draw s.depthBound name

/-- The number that a cell reads as. -/
def value (s : Sheet) (draw : Float) (a : Address) : Except FormulaError Float :=
  ((s.read draw s.depthBound a).runFrom {}).1

/-- The value of tokens against the cells of the sheet. -/
def valueOf (s : Sheet) (draw : Float) (ts : List Token) : Except FormulaError Float :=
  ((Spreadsheet.evaluate draw (s.ask draw) ts).runFrom {}).1

/-- The value of a formula's text against the cells of the sheet. -/
def valueOfText (s : Sheet) (draw : Float) (text : String) : Except FormulaError Float :=
  ((evaluateText draw (s.ask draw) text).runFrom {}).1

/-- Reads cells one after the other within a pass, and collects the outcomes. -/
def readAll (s : Sheet) (draw : Float) (cells : List Address) (p : Pass) :
    List (Address × Except FormulaError Float) :=
  (s.readAllIn id draw s.depthBound cells p).1

/-- The value of every formula of the sheet, by row and then by column, each being
computed at most once. -/
def formulaValues (s : Sheet) (draw : Float) : List (Address × Except FormulaError Float) :=
  s.readAll draw s.formulas { memo := some ∅ }

/-- A recalculation of the sheet: what it reports of the formulas, and their number. -/
def recalculate (s : Sheet) (draw : Float) : List (Address × Except FormulaError Float) × Nat :=
  (s.formulaValues draw, s.formulas.length)

end Sheet

end Spreadsheet
