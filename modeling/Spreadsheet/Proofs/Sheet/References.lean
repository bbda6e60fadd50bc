import Mathlib.Data.List.Chain
import Mathlib.Data.List.Perm.Subperm
import Mathlib.Data.Nat.Notation
import Mathlib.Logic.Relation
import Spreadsheet.Sheet.Basic

/-!
# The References Between the Cells of a Sheet

A formula cell refers to every cell that a token of its formula names. These references
make a graph on all addresses, in which only formula cells have successors. A sheet has
finitely many of them, so a route through distinct cells is never longer than their number,
and a cell from which no cycle is reachable is well-founded in the graph.

## Main definitions

* `Sheet.Refers`: one cell refers to another.
* `Sheet.AcyclicFrom`: no cycle of references is reachable from a cell.
* `Sheet.IsCycle`: a path of references that returns to where it begins.
* `Sheet.Route`: distinct cells, each of which refers to the next, on the way to a cell.
* `Sheet.Room`: room for more cells on a route.

## Main results

* `Sheet.mem_formulas`, `Sheet.ordered_formulas`: the list of the formula cells.
* `Sheet.Route.length_le`: a route is no longer than the list of the formula cells.
* `Sheet.acyclicFrom_iff_acc`: without a reachable cycle, references are well-founded.
-/

open Relation

namespace Spreadsheet.Sheet

variable {s : Sheet} {a b : Address} {path : List Address} {bound : ℕ}

/-! ### Formula cells -/

/-- The listed formula cells are the cells that hold a formula. -/
theorem mem_formulas : a ∈ s.formulas ↔ ∃ f, s.content a = .formula f := by
  have hentry : a ∈ s.formulas ↔ ∃ c, s.get? a = some c ∧ c.isFormula = true := by
    simp [formulas, mem_entries]
  rw [hentry]
  constructor
  · rintro ⟨⟨content, references⟩, hget, hformula⟩
    cases content with
    | formula f => exact ⟨f, by simp [content, hget]⟩
    | _ => cases hformula
  · rintro ⟨f, hf⟩
    rw [content] at hf
    split at hf
    · rename_i c hget
      exact ⟨c, hget, by simp [Cell.isFormula, Cell.tokens?, hf]⟩
    · cases hf

/-- The formula cells are listed by row, and within a row by column. -/
theorem ordered_formulas (s : Sheet) :
    s.formulas.Pairwise fun a b => a.row < b.row ∨ a.row = b.row ∧ a.col < b.col := by
  have hentries : s.entries.Pairwise fun d e => compare d.1 e.1 = .lt :=
    Std.ExtTreeMap.ordered_keys_toList
  exact List.pairwise_map.mpr (.filter _ (hentries.imp Address.compare_eq_lt_iff.mp))

/-! ### The graph of references -/

/-- A cell **refers** to another if it holds a formula one of whose tokens names it. -/
def Refers (s : Sheet) (a b : Address) : Prop :=
  ∃ f, s.content a = .formula f ∧ ∃ t ∈ f.tokens, t.address? = some b

/-- No cycle of references is reachable from a cell. -/
def AcyclicFrom (s : Sheet) (a : Address) : Prop :=
  ∀ b, ReflTransGen s.Refers a b → ¬ TransGen s.Refers b b

/-- A **cycle** of references: a path that ends where it begins, that passes no other cell
twice, and on which every cell refers to the next. -/
structure IsCycle (s : Sheet) (path : List Address) : Prop where
  /-- The first cell occurs twice. -/
  two_le_length : 2 ≤ path.length
  /-- The path ends where it begins. -/
  head?_eq_getLast? : path.head? = path.getLast?
  /-- No other cell is passed twice. -/
  nodup : path.dropLast.Nodup
  /-- Every cell refers to the next. -/
  isChain : path.IsChain s.Refers

/-- Only a formula cell refers to others. -/
theorem Refers.mem_formulas (h : s.Refers a b) : a ∈ s.formulas := by
  obtain ⟨f, hf, -⟩ := h
  exact Sheet.mem_formulas.mpr ⟨f, hf⟩

/-- Every cell on a chain of cells leads to its last one. -/
theorem transGen_of_isChain {r : Address → Address → Prop} (h : (path ++ [a]).IsChain r)
    (hb : b ∈ path) : TransGen r b a := by
  obtain ⟨before, after, rfl⟩ := List.append_of_mem hb
  have hrest : (b :: after ++ [a]).IsChain r := by
    rw [List.append_assoc] at h
    exact h.right_of_append
  clear h hb
  induction after generalizing b with
  | nil => exact .single (List.isChain_pair.mp hrest)
  | cons c after ih =>
      obtain ⟨hbc, hrest⟩ := List.isChain_cons_cons.mp hrest
      exact .head hbc (ih hrest)

/-- A cell from which no cycle is reachable refers only to such cells. -/
theorem AcyclicFrom.of_refers (h : s.AcyclicFrom a) (hab : s.Refers a b) : s.AcyclicFrom b :=
  fun c hbc => h c (.head hab hbc)

/-- On a cycle, the first cell leads back to itself. -/
theorem IsCycle.transGen (h : s.IsCycle path) (ha : path.head? = some a) :
    TransGen s.Refers a a := by
  have hlast : path.getLast? = some a := h.head?_eq_getLast?.symm.trans ha
  obtain ⟨front, rfl⟩ := List.getLast?_eq_some_iff.mp hlast
  refine transGen_of_isChain h.isChain ?_
  cases front with
  | nil => exact absurd h.two_le_length (by simp)
  | cons b front =>
      obtain rfl : b = a := Option.some.inj ha
      exact List.mem_cons_self

/-! ### Routes -/

/-- A **route** to a cell: distinct cells, each of which refers to the next, and the last of
which refers to the cell. The cells in progress during a reading form one. -/
structure Route (s : Sheet) (path : List Address) (a : Address) : Prop where
  /-- The cells of the route, and at last the cell that it leads to, refer to each other. -/
  isChain : (path ++ [a]).IsChain s.Refers
  /-- No cell is passed twice. -/
  nodup : path.Nodup

/-- There is **room** for `bound` more cells behind a path: together with the cells of the path
they would be more than the formula cells of the sheet. -/
def Room (s : Sheet) (bound : ℕ) (path : List Address) : Prop :=
  s.formulas.length < bound + path.length

/-- A route that has not passed any cell has room for one cell more than there are formula
cells. -/
theorem room_nil (s : Sheet) : s.Room (s.formulas.length + 1) [] :=
  Nat.lt_succ_self _

/-- A cell that is passed takes up the room of one. -/
theorem Room.snoc (h : s.Room (bound + 1) path) (a : Address) :
    s.Room bound (path ++ [a]) := by
  have hlt : s.formulas.length < bound + 1 + path.length := h
  show s.formulas.length < bound + (path ++ [a]).length
  rw [List.length_append, List.length_singleton]
  omega

namespace Route

/-- Every route begins at its destination. -/
theorem nil (s : Sheet) (a : Address) : s.Route [] a :=
  ⟨List.isChain_singleton a, List.nodup_nil⟩

/-- A route to a cell that it has not passed goes on to whatever the cell refers to. -/
theorem snoc (h : s.Route path a) (ha : a ∉ path) (hab : s.Refers a b) :
    s.Route (path ++ [a]) b := by
  refine ⟨List.isChain_append.mpr ⟨h.isChain, List.isChain_singleton b, ?_⟩, ?_⟩
  · intro c hc d hd
    obtain rfl : a = c := by simpa using hc
    obtain rfl : b = d := by simpa using hd
    exact hab
  · exact List.nodup_append.mpr ⟨h.nodup, by simp, by grind⟩

/-- Every cell of a route leads to its destination. -/
theorem transGen (h : s.Route path a) (hb : b ∈ path) : TransGen s.Refers b a :=
  transGen_of_isChain h.isChain hb

/-- **A route is no longer than the list of the formula cells**, all of its cells being
different formula cells. -/
theorem length_le (h : s.Route path a) : path.length ≤ s.formulas.length := by
  refine (List.subperm_of_subset h.nodup fun b hb => ?_).length_le
  obtain ⟨c, hbc, -⟩ := TransGen.head'_iff.mp (h.transGen hb)
  exact hbc.mem_formulas

/-- No route exhausts its room: it has passed at most all formula cells. -/
theorem not_room_zero (h : s.Route path a) : ¬ s.Room 0 path := by
  intro hroom
  have hlt : s.formulas.length < 0 + path.length := hroom
  have hle := h.length_le
  omega

/-- A cell from which no cycle is reachable is not on a route to itself. -/
theorem not_mem (h : s.Route path a) (hacyclic : s.AcyclicFrom a) : a ∉ path :=
  fun ha => hacyclic a .refl (h.transGen ha)

/-- A route to a cell that it has passed contains a cycle, which begins at that cell. -/
theorem isCycle (h : s.Route path a) (ha : a ∈ path) :
    s.IsCycle (path.dropWhile (· ≠ a) ++ [a]) ∧
      (path.dropWhile (· ≠ a) ++ [a]).head? = some a := by
  obtain ⟨before, after, rfl, hbefore⟩ := List.eq_append_cons_of_mem ha
  have hdrop : (before ++ a :: after).dropWhile (· ≠ a) = a :: after := by
    rw [List.dropWhile_append_of_pos (by grind), List.dropWhile_cons_of_neg (by simp)]
  rw [hdrop]
  refine ⟨⟨by simp, List.getLast?_concat.symm, ?_, ?_⟩, rfl⟩
  · rw [List.dropLast_concat]
    exact (List.nodup_append.mp h.nodup).2.1
  · have hchain := h.isChain
    rw [List.append_assoc] at hchain
    exact hchain.right_of_append

end Route

/-! ### Well-foundedness -/

/-- A cell from which no cycle is reachable is well-founded: every reference makes the route to
it longer, and its room smaller. -/
theorem acc_of_route (h : s.Route path a) (hroom : s.Room bound path)
    (hacyclic : s.AcyclicFrom a) : Acc (fun b a => s.Refers a b) a := by
  induction bound generalizing path a with
  | zero => exact absurd hroom h.not_room_zero
  | succ bound ih =>
      refine Acc.intro a fun b hab => ?_
      have hroute := h.snoc (h.not_mem hacyclic) hab
      exact ih hroute (hroom.snoc a) (hacyclic.of_refers hab)

/-- **References are well-founded at a cell exactly if no cycle is reachable from it.** -/
theorem acyclicFrom_iff_acc : s.AcyclicFrom a ↔ Acc (fun b a => s.Refers a b) a := by
  constructor
  · intro h
    exact acc_of_route (.nil s a) s.room_nil h
  · intro h
    induction h with
    | intro a _ ih =>
        intro b hab hbb
        -- Even if the cycle begins at `a`, it is reachable from a cell that `a` refers to.
        have hnext : ∃ c, s.Refers a c ∧ ReflTransGen s.Refers c b := by
          rcases ReflTransGen.cases_head hab with rfl | hstep
          · exact TransGen.head'_iff.mp hbb
          · exact hstep
        obtain ⟨c, hac, hcb⟩ := hnext
        exact ih c hac b hcb hbb

end Spreadsheet.Sheet
