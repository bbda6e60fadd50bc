import Mathlib.Algebra.Order.BigOperators.Group.List
import Mathlib.Algebra.Order.Group.Nat
import Spreadsheet.CommandLine.Run
import Spreadsheet.Proofs.Sheet.Entries
import Spreadsheet.Proofs.Sheet.Recalculation
import Spreadsheet.Proofs.Workbook.Edits

/-!
# Printed Sheets

A printed sheet has one line for every entry, by row and then by column, with the cell as it is
displayed. Formulas are not displayed one by one but come from a recalculation, which makes no
difference: it reports exactly the formula cells, with the values that they have on their own
(`Sheet.printed_eq`).

An entry may hold nothing, and then there is a line for it all the same, a name with nothing behind
it. So the sheet shows what its cells hold and nothing else only if it has no empty entries
(`Sheet.printed_exact`). They come about when a cell is cleared or set to nothing, when nothing
stands behind the colon in a listing, and when an edit is taken back.

## Main definitions

* `Sheet.line`: what is printed for one cell.

## Main results

* `Sheet.printed_eq`: what is printed for a sheet.
* `Sheet.printed_exact`: where that is more than its cells hold.
-/

namespace Spreadsheet

variable {α : Type}

/-! ### Texts of several lines -/

/-- Texts with nothing between them have their characters in a row. -/
theorem toList_intercalate_empty (lines : List String) :
    ("".intercalate lines).toList = (lines.map String.toList).flatten := by
  rw [String.toList_intercalate]
  induction lines.map String.toList with
  | nil => rfl
  | cons l ls ih =>
      cases ls with
      | nil => simp
      | cons l' ls => simpa using ih

/-- If no line is empty, then lines cannot be left out without a trace. -/
theorem forall_of_intercalate_filter_eq {line : α → String} (hline : ∀ a, line a ≠ "")
    {p : α → Bool} {l : List α}
    (h : "".intercalate (l.map line) = "".intercalate ((l.filter p).map line)) :
    ∀ a ∈ l, p a = true := by
  have hpos : ∀ a, 0 < (line a).toList.length := by
    intro a
    rw [List.length_pos_iff]
    exact fun hnil => hline a (String.toList_eq_nil_iff.mp hnil)
  have hsum : ((l.map fun a => (line a).toList.length)).sum =
      ((l.filter p).map fun a => (line a).toList.length).sum := by
    have hlength := congrArg (fun s => s.toList.length) h
    simpa only [toList_intercalate_empty, List.length_flatten, List.map_map,
      Function.comp_def] using hlength
  clear h
  induction l with
  | nil => simp
  | cons a l ih =>
      have hle : ((l.filter p).map fun a => (line a).toList.length).sum ≤
          (l.map fun a => (line a).toList.length).sum :=
        (List.filter_sublist.map _).sum_le_sum fun _ _ => Nat.zero_le _
      have ha := hpos a
      cases hp : p a with
      | false =>
          simp only [List.map_cons, List.sum_cons, List.filter_cons, hp, Bool.false_eq_true,
            if_false] at hsum
          omega
      | true =>
          simp only [List.map_cons, List.sum_cons, List.filter_cons, hp, if_true] at hsum
          simpa [hp] using ih (by omega)

namespace Sheet

variable {s : Sheet} {draw : Float} {a : Address}

/-- What is **printed for one cell**: its name and its display. -/
def line (s : Sheet) (draw : Float) (a : Address) : String :=
  a.name ++ ": " ++ s.shown draw a ++ "\n"

/-- What is printed for a cell is not the empty text. -/
theorem line_ne_empty (s : Sheet) (draw : Float) (a : Address) : s.line draw a ≠ "" := by
  intro h
  have hlist := congrArg String.toList h
  simp [line] at hlist

/-- What a recalculation reports of a cell is what is displayed for it. -/
theorem shown_of_lookup_recalculate {outcome : Except FormulaError Float}
    (h : (s.recalculate draw).1.lookup a = some outcome) :
    s.shown draw a = shownOutcome outcome := by
  rw [recalculate, formulaValues_eq_map] at h
  dsimp only at h
  obtain ⟨before, after, hsplit, -⟩ := List.lookup_eq_some_iff.mp h
  have hmem : (a, outcome) ∈ s.formulas.map fun a => (a, s.value draw a) := by
    rw [hsplit]
    exact List.mem_append_right _ List.mem_cons_self
  obtain ⟨b, hb, heq⟩ := List.mem_map.mp hmem
  obtain ⟨rfl, rfl⟩ := Prod.mk.inj heq
  obtain ⟨f, hf⟩ := mem_formulas.mp hb
  simp only [shown, hf]

/-- **What is printed for a sheet**: the line of every entry, in order. -/
theorem printed_eq (s : Sheet) (draw : Float) :
    s.printed draw = "".intercalate (s.entries.map fun e => s.line draw e.1) := by
  rw [printed]
  refine congrArg "".intercalate (List.map_congr_left fun e _ => ?_)
  dsimp only
  rw [line]
  split
  · rename_i outcome hlookup
    rw [shown_of_lookup_recalculate hlookup]
  · rfl

/-- **A printed sheet shows its entries**, each on one line, by row and then by column, with the
cell's name and its display. It shows what the cells hold and nothing else exactly if none of its
entries is empty. -/
theorem printed_exact (s : Sheet) (draw : Float) :
    ∃ cells : List Address,
      (∀ a, a ∈ cells ↔ ∃ c, s.get? a = some c) ∧
      cells.Pairwise (fun a b => a.row < b.row ∨ a.row = b.row ∧ a.col < b.col) ∧
      s.printed draw = "".intercalate (cells.map (s.line draw)) ∧
      (s.printed draw =
          "".intercalate ((cells.filter fun a => s.content a ≠ .empty).map (s.line draw)) ↔
        ∀ a c, s.get? a = some c → c.isEmpty = false) := by
  have hmem : ∀ a, a ∈ s.entries.map Prod.fst ↔ ∃ c, s.get? a = some c := by
    intro a
    simp [mem_entries]
  have hprinted : s.printed draw = "".intercalate ((s.entries.map Prod.fst).map (s.line draw)) := by
    rw [printed_eq, List.map_map]
    rfl
  refine ⟨s.entries.map Prod.fst, hmem, ?_, hprinted, ?_⟩
  · exact List.pairwise_map.mpr (s.ordered_entries.imp Address.compare_eq_lt_iff.mp)
  · rw [hprinted]
    constructor
    · intro h a c hc
      have hfilled := forall_of_intercalate_filter_eq (line_ne_empty s draw) h a
        ((hmem a).mpr ⟨c, hc⟩)
      simpa [content, hc, Cell.isEmpty] using hfilled
    · intro h
      rw [List.filter_eq_self.mpr]
      intro a ha
      obtain ⟨c, hc⟩ := (hmem a).mp ha
      simpa [content, hc, Cell.isEmpty] using h a c hc

/-- A cell that was cleared, a listing with nothing behind the colon and an edit that was taken back
each leave a sheet that holds nothing, and yet something is printed for it. -/
theorem printed_empty_entries :
    let cleared := (Workbook.ofEdits [.set ⟨0, 0⟩ "5", .clear ⟨0, 0⟩]).sheet
    let refused := (Workbook.ofEdits [.set ⟨0, 0⟩ "=A1"]).sheet
    let read := Sheet.ofList [(⟨0, 0⟩, .empty)]
    cleared.filled = [] ∧ cleared.printed 0 = "A1: \n" ∧
      refused.filled = [] ∧ refused.printed 0 = "A1: \n" ∧
      Listing.readLines 1 (lines "A1:".toList) = .ok [(⟨0, 0⟩, .empty)] ∧
      read.filled = [] ∧ read.printed 0 = "A1: \n" := by
  decide +kernel

end Sheet

end Spreadsheet
