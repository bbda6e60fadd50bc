import Spreadsheet.Proofs.Sheet.Reading

/-!
# Recalculating a Sheet

A recalculation reads all formula cells in one pass, and what it finds for one of them it
remembers for the others. Each reading leaves the pass in order for the next, whether it has
succeeded or not, so what is reported of a cell is what a reading of that cell alone would
have found: the same number, or the same error down to the cells of its path.

## Main results

* `Sheet.valueOf_eq`: the value of tokens against the values of the cells.
* `Sheet.readAll_eq_map`: cells that are read in one pass have the values that they have on
  their own.
* `Sheet.recalculate_eq`: a recalculation reports the value of every formula cell once, in
  order, and returns their number.
-/

namespace Spreadsheet.Sheet

open Evaluation

variable {s : Sheet} {draw : Float}

/-- A pass between two readings is behind the empty trail, and a reading in it yields the
value of the cell. -/
theorem yields_value (s : Sheet) (draw : Float) (a : Address) :
    Pass.Yields s draw {} (s.read draw s.depthBound a) (s.value draw a) := by
  rw [value_eq_guarded]
  exact yields_read_depthBound s draw a

/-- The value of tokens depends on the values of the cells that they refer to. -/
theorem valueOf_eq (s : Sheet) (draw : Float) (ts : List Token) :
    s.valueOf draw ts = evaluateWith draw (answerNames (s.value draw)) ts := by
  have hstart : Pass.Behind s draw {} {} := ⟨rfl, Pass.sound_of_found?_eq_none fun _ => rfl⟩
  refine (evaluate_runFrom_eq (I := Pass.Behind s draw {}) (fun name _ p hp => ?_) hstart).1
  rw [ask, readName_eq]
  cases hread : Address.read? name with
  | some a =>
      rw [answerNames_of_some hread]
      exact yields_value s draw a p hp
  | none =>
      rw [answerNames_of_none hread]
      exact ⟨rfl, hp⟩

/-- Cells are read one after the other, each in the pass that the ones before have left. -/
theorem readAll_cons (s : Sheet) (draw : Float) (a : Address) (cells : List Address) (p : Pass) :
    s.readAll draw (a :: cells) p =
      (a, ((s.read draw s.depthBound a).runFrom p).1) ::
        s.readAll draw cells ((s.read draw s.depthBound a).runFrom p).2 :=
  rfl

/-- **Cells that are read in one pass have the values that they have on their own**, whatever
the pass remembers at its beginning. -/
theorem readAll_eq_map (cells : List Address) {p : Pass} (hp : p.Behind s draw {}) :
    s.readAll draw cells p = cells.map fun a => (a, s.value draw a) := by
  induction cells generalizing p with
  | nil => rfl
  | cons a cells ih =>
      obtain ⟨hout, hafter⟩ := yields_value s draw a p hp
      rcases hrun : (s.read draw s.depthBound a).runFrom p with ⟨r, q⟩
      rw [hrun] at hout hafter
      obtain rfl : r = s.value draw a := hout
      rw [readAll_cons, hrun, List.map_cons]
      exact congrArg _ (ih hafter)

/-- The values of all formulas, found in one pass, are the values of their cells. -/
theorem formulaValues_eq_map (s : Sheet) (draw : Float) :
    s.formulaValues draw = s.formulas.map fun a => (a, s.value draw a) := by
  refine readAll_eq_map s.formulas ⟨rfl, Pass.sound_of_found?_eq_none fun b => ?_⟩
  exact Std.ExtTreeMap.getElem?_empty

/-- **A recalculation agrees with reading every cell on its own.** It reports exactly the
formula cells, each once, by row and then by column, together with their values, and returns
how many there are. -/
theorem recalculate_eq (s : Sheet) (draw : Float) :
    ∃ cells : List Address,
      (∀ a, a ∈ cells ↔ ∃ f, s.content a = .formula f) ∧
      cells.Nodup ∧
      cells.Pairwise (fun a b => a.row < b.row ∨ a.row = b.row ∧ a.col < b.col) ∧
      s.recalculate draw = (cells.map fun a => (a, s.value draw a), cells.length) := by
  refine ⟨s.formulas, fun _ => mem_formulas, ?_, s.ordered_formulas, ?_⟩
  · refine s.ordered_formulas.imp fun {a b} hlt hab => ?_
    subst hab
    omega
  · rw [recalculate, formulaValues_eq_map]

end Spreadsheet.Sheet
