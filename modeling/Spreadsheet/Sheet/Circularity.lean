import Spreadsheet.Sheet.Basic
import Spreadsheet.Sheet.Trail

/-!
# Cycles of a Sheet

Before a formula is accepted, the sheet is searched for a path of references that leads
from its cell back to it. The search goes depth first along the lists of references and
visits every cell at most once. Cycles that do not pass through the cell are none of
its concern.

## Main definitions

* `Sheet.cycleThrough?` — a cycle through a cell, if there is one.
-/

namespace Spreadsheet

namespace Cycle

/-- Tries a search on one cell after the other until it finds something. The set of
cells that are known to lead nowhere is handed on. -/
def firstPath {α σ : Type} (search : α → σ → Option (List α) × σ) :
    List α → σ → Option (List α) × σ
  | [], dead => (none, dead)
  | a :: rest, dead =>
    match search a dead with
    | (some path, dead) => (some path, dead)
    | (none, dead) => firstPath search rest dead

/-- Searches from a cell for a path back to `start`. The trail holds the cells on the
way from `start`, and `dead` those from which no path was found. The bound limits the
length of the trail; one that exceeds the number of entries is never exhausted. -/
def search (s : Sheet) (start : Address) :
    Nat → Trail → Address → Std.ExtTreeSet Address →
      Option (List Address) × Std.ExtTreeSet Address
  | 0, _, _, dead => (none, dead)
  | bound + 1, trail, a, dead =>
    if a = start ∧ start ∈ trail.cells then (trail.cycleTo? a, dead)
    else if a ∈ trail.cells ∨ a ∈ dead then (none, dead)
    else match s.get? a with
      | none => (none, dead)
      | some c =>
        match firstPath (search s start bound (trail.append a)) c.references dead with
        | (some path, dead) => (some path, dead)
        | (none, dead) => (none, dead.insert a)

end Cycle

/-- A path of references that begins and ends at a cell, if there is one. -/
def Sheet.cycleThrough? (s : Sheet) (a : Address) : Option (List Address) :=
  (Cycle.search s a (s.size + 1) {} a ∅).1

end Spreadsheet
