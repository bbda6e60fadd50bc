import Spreadsheet.Formula.Error
import Std.Data.ExtTreeSet

/-!
# Trails

A trail holds the cells in progress at a moment, the outermost first. A
cell that is entered while it is on the trail closes a cycle, which is reported instead
of being followed. Beside the path a trail keeps the set of its cells, so that the test
need not walk along it.

## Main definitions

* `Trail.extend` — adds a cell, or reports the cycle that it closes.
* `Trail.retract` — takes the innermost cell off.

## Main results

* `Trail.extend_eq_ok_iff` — a cell can be entered unless it is on the trail.
* `Trail.retract_append` — leaving a cell undoes entering it.
-/

namespace Spreadsheet

/-- The cells in progress. -/
structure Trail where
  /-- The cells in the order in which they were entered. -/
  path : List Address := []
  /-- The same cells as a set. -/
  cells : Std.ExtTreeSet Address := ∅

namespace Trail

/-- The cycle that visiting a cell would close: the path from that cell on, and the
cell once more. -/
def cycleTo? (t : Trail) (a : Address) : Option (List Address) :=
  if a ∈ t.cells then some (t.path.dropWhile (· ≠ a) ++ [a]) else none

/-- Adds a cell to the path without a test. -/
def append (t : Trail) (a : Address) : Trail :=
  ⟨t.path ++ [a], t.cells.insert a⟩

/-- Enters a cell. If it is on the trail already, the cycle is reported. -/
def extend (t : Trail) (a : Address) : Except FormulaError Trail :=
  match t.cycleTo? a with
  | some cycle => .error (.circular cycle)
  | none => .ok (t.append a)

/-- Leaves a cell. Only the innermost cell can be left; for any other one nothing
happens. -/
def retract (t : Trail) (a : Address) : Trail :=
  if t.path.getLast? = some a then ⟨t.path.dropLast, t.cells.erase a⟩ else t

/-- A cell can be entered exactly if it is not on the trail. -/
theorem extend_eq_ok_iff {t t' : Trail} {a : Address} :
    t.extend a = .ok t' ↔ a ∉ t.cells ∧ t' = t.append a := by
  by_cases h : a ∈ t.cells <;> simp [extend, cycleTo?, h, eq_comm]

/-- Leaving a cell that was new to a trail undoes entering it. -/
theorem retract_append (t : Trail) {a : Address} (h : a ∉ t.cells) :
    (t.append a).retract a = t := by
  have h' : (t.cells.insert a).erase a = t.cells := by
    apply Std.ExtTreeSet.ext_mem
    intro b
    simp only [Std.ExtTreeSet.mem_erase, Std.ExtTreeSet.mem_insert]
    constructor
    · rintro ⟨hne, hab | hb⟩
      · exact absurd hab hne
      · exact hb
    · intro hb
      refine ⟨fun hab => ?_, Or.inr hb⟩
      exact h (Std.LawfulEqCmp.compare_eq_iff_eq.mp hab ▸ hb)
  simp [append, retract, h']

end Trail

end Spreadsheet
