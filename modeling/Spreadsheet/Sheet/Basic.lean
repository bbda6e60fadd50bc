import Spreadsheet.Cell
import Std.Data.ExtTreeMap

/-!
# Sheets

A sheet maps addresses to cells. Its entries are ordered by row and then by column, and
two sheets with the same entries are equal. An entry may hold an empty cell: clearing a
cell empties its entry without removing it.

## Main definitions

* `Sheet` — the entries.
* `Sheet.get?`, `Sheet.content`, `Sheet.insert`, `Sheet.clear` — one cell.
* `Sheet.entries`, `Sheet.formulas` — all of them, in order.

## Main results

* `Sheet.get?_insert` — the entries after an insertion.
* `Sheet.ext` — a sheet is determined by its entries.
-/

namespace Spreadsheet

/-- A sheet: the cells that have been set, by their addresses. -/
structure Sheet where
  /-- The entries of the sheet. -/
  cells : Std.ExtTreeMap Address Cell := ∅

namespace Sheet

/-- The sheet without entries. -/
def empty : Sheet := {}

/-- A sheet without entries is always there. -/
instance : Inhabited Sheet := ⟨empty⟩

/-- The entry at an address. -/
def get? (s : Sheet) (a : Address) : Option Cell :=
  s.cells[a]?

/-- What the cell at an address holds; a cell that has never been set holds nothing. -/
def content (s : Sheet) (a : Address) : Content :=
  match s.get? a with
  | some c => c.content
  | none => .empty

/-- Replaces the entry at an address. -/
def insert (s : Sheet) (a : Address) (c : Cell) : Sheet :=
  ⟨s.cells.insert a c⟩

/-- Empties the cell at an address. Its entry stays, and is made if there was none. -/
def clear (s : Sheet) (a : Address) : Sheet :=
  s.insert a .empty

/-- Stores the formula that a text writes, with or without an equals sign in front. -/
def insertFormula (s : Sheet) (a : Address) (source : String) : Sheet :=
  let source := match source.toList with
    | '=' :: rest => String.ofList rest
    | _ => source
  s.insert a (.ofFormula (.ofSource source))

/-- The number of entries. -/
def size (s : Sheet) : Nat :=
  s.cells.size

/-- Whether the sheet has no entry. -/
def isEmpty (s : Sheet) : Bool :=
  s.cells.isEmpty

/-- The entries, by row and then by column. -/
def entries (s : Sheet) : List (Address × Cell) :=
  s.cells.toList

/-- The sheet with given entries, of which a later one replaces an earlier one. -/
def ofList (l : List (Address × Cell)) : Sheet :=
  l.foldl (fun s e => s.insert e.1 e.2) empty

/-- The addresses of the cells that hold a formula, by row and then by column. -/
def formulas (s : Sheet) : List Address :=
  (s.entries.filter fun e => e.2.isFormula).map Prod.fst

/-! ### Entries -/

/-- Two sheets with the same entry at every address are equal. -/
@[ext]
theorem ext {s t : Sheet} (h : ∀ a, s.get? a = t.get? a) : s = t := by
  cases s; cases t
  congr 1
  exact Std.ExtTreeMap.ext_getElem? fun a => h a

/-- The empty sheet has no entries. -/
@[simp]
theorem get?_empty (a : Address) : empty.get? a = none :=
  Std.ExtTreeMap.getElem?_empty

/-- An entry takes the place of the one that was there, and the others stay. -/
theorem get?_insert (s : Sheet) (a b : Address) (c : Cell) :
    (s.insert a c).get? b = if a = b then some c else s.get? b := by
  show (s.cells.insert a c)[b]? = _
  rw [Std.ExtTreeMap.getElem?_insert]
  simp only [Std.LawfulEqCmp.compare_eq_iff_eq]
  rfl

/-- The content of a cell is that of its last entry. -/
theorem content_insert (s : Sheet) (a b : Address) (c : Cell) :
    (s.insert a c).content b = if a = b then c.content else s.content b := by
  unfold content
  rw [get?_insert]
  by_cases h : a = b <;> simp [h]

/-- The entries are listed with their addresses. -/
theorem mem_entries {s : Sheet} {a : Address} {c : Cell} :
    (a, c) ∈ s.entries ↔ s.get? a = some c :=
  Std.ExtTreeMap.mem_toList_iff_getElem?_eq_some

end Sheet

end Spreadsheet
