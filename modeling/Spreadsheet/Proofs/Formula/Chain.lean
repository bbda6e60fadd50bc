import Mathlib.Data.Nat.Notation
import Spreadsheet.Formula.Operator

/-!
# Chains of Operators

A chain is a sequence of numbers with an operator between every two of them. Its value is
what arithmetic teaches: the powers are computed first, then the products and quotients,
then the sums and differences, and those of one rank from left to right.

An evaluation meets the numbers of a chain one after the other and computes what it can.
The operators that have to wait then have strictly decreasing ranks from the last one
back. This module shows that computing early does not change the value
(`value_applyBack`), so that whoever follows this order finds the value of the chain.

## Main definitions

* `Chain.pass`, `Chain.passes`, `Chain.value`: the value of a chain, rank by rank.
* `Chain.after`: a chain with waiting operators in front of it.
* `Chain.applyBack`: the waiting operators of a rank are applied, the last one first.

## Main results

* `Chain.value_split`: higher ranks bind more tightly, and one rank associates to the left.
* `Chain.value_applyBack`: applying waiting operators does not change the value.
-/

namespace Spreadsheet

namespace Operator

/-- Every operator binds more tightly than an open bracket. -/
theorem one_le_rank (op : Operator) : 1 ≤ op.rank := by
  cases op <;> decide

/-- No operator binds more tightly than the power. -/
theorem rank_le_three (op : Operator) : op.rank ≤ 3 := by
  cases op <;> decide

end Operator

/-- Numbers with an operator between every two of them: the first number, and the
operators with the number on their right. -/
structure Chain where
  /-- The first number. -/
  first : Float
  /-- The operators, each with the number that follows it. -/
  rest : List (Operator × Float)

namespace Chain

/-! ### The value -/

/-- The chain that begins with `x`, after its operators of one rank have been applied
from left to right. The others stay. -/
def pass (rank : ℕ) (x : Float) : List (Operator × Float) → Chain
  | [] => ⟨x, []⟩
  | (op, y) :: rest =>
    if op.rank = rank then pass rank (op.apply x y) rest
    else ⟨x, (op, (pass rank y rest).first) :: (pass rank y rest).rest⟩

/-- One pass for each rank from `rank` down to one. -/
def passes : ℕ → Chain → Chain
  | 0, c => c
  | rank + 1, c => passes rank (pass (rank + 1) c.first c.rest)

/-- The **value of a chain**: powers first, then products and quotients, then sums and
differences, each from left to right. -/
def value (c : Chain) : Float :=
  (passes 3 c).first

/-- A pass keeps exactly the operators of other ranks. -/
theorem map_fst_pass (rank : ℕ) (x : Float) (rest : List (Operator × Float)) :
    (pass rank x rest).rest.map Prod.fst =
      (rest.map Prod.fst).filter fun op => op.rank ≠ rank := by
  induction rest generalizing x with
  | nil => rfl
  | cons q rest ih =>
      obtain ⟨op, y⟩ := q
      by_cases h : op.rank = rank
      · simp [pass, h, ih]
      · simp [pass, h, ih]

/-- A chain of one number is worth that number. -/
@[simp]
theorem value_single (x : Float) : value ⟨x, []⟩ = x := rfl

/-! ### Grouping -/

/-- A pass works on both sides of an operator of another rank. -/
theorem pass_append {rank : ℕ} {op : Operator} (hop : op.rank ≠ rank) (x : Float)
    (left : List (Operator × Float)) (y : Float) (right : List (Operator × Float)) :
    pass rank x (left ++ (op, y) :: right) =
      ⟨(pass rank x left).first, (pass rank x left).rest ++
        (op, (pass rank y right).first) :: (pass rank y right).rest⟩ := by
  induction left generalizing x with
  | nil => simp [pass, hop]
  | cons q left ih =>
      obtain ⟨o, z⟩ := q
      rw [List.cons_append, pass, pass, ih, ih]
      split <;> rfl

/-- A pass for the rank of all operators ends with the last of them. -/
theorem pass_concat {op : Operator} (x : Float) {left : List (Operator × Float)}
    (hleft : ∀ q ∈ left, q.1.rank = op.rank) (y : Float) :
    pass op.rank x (left ++ [(op, y)]) =
      ⟨op.apply (pass op.rank x left).first y, (pass op.rank x left).rest⟩ := by
  induction left generalizing x with
  | nil => simp [pass]
  | cons q left ih =>
      obtain ⟨o, z⟩ := q
      have ho : o.rank = op.rank := hleft (o, z) List.mem_cons_self
      rw [List.cons_append, pass, if_pos ho, pass, if_pos ho]
      exact ih _ fun q hq => hleft q (List.mem_cons_of_mem _ hq)

/-- Where there is no operator, the passes change nothing. -/
@[simp]
theorem passes_single (rank : ℕ) (x : Float) : passes rank ⟨x, []⟩ = ⟨x, []⟩ := by
  induction rank with
  | zero => rfl
  | succ rank ih => exact ih

/-- The operators that a pass leaves are among those of the chain, and have other ranks. -/
theorem mem_rest_pass {rank : ℕ} {x : Float} {rest : List (Operator × Float)}
    {q : Operator × Float} (hq : q ∈ (pass rank x rest).rest) :
    q.1.rank ≠ rank ∧ ∃ p ∈ rest, p.1 = q.1 := by
  have hmem : q.1 ∈ (pass rank x rest).rest.map Prod.fst := List.mem_map_of_mem hq
  rw [map_fst_pass] at hmem
  obtain ⟨hop, hne⟩ := List.mem_filter.mp hmem
  exact ⟨of_decide_eq_true hne, List.mem_map.mp hop⟩

/-- A pass for the highest rank leaves lower ranks, and what held of them still holds. -/
theorem rank_le_of_mem_rest_pass {P : ℕ → Prop} {rank : ℕ} {x : Float}
    {rest : List (Operator × Float)} (h : ∀ q ∈ rest, P q.1.rank ∧ q.1.rank ≤ rank + 1) :
    ∀ q ∈ (pass (rank + 1) x rest).rest, P q.1.rank ∧ q.1.rank ≤ rank := by
  intro q hq
  obtain ⟨hne, p, hp, hpq⟩ := mem_rest_pass hq
  obtain ⟨hP, hle⟩ := h p hp
  rw [hpq] at hP hle
  exact ⟨hP, by omega⟩

/-- The passes group a chain at an operator that binds less tightly than those on its
right and no more tightly than those on its left. -/
theorem passes_split {rank : ℕ} {op : Operator} {x y : Float}
    {left right : List (Operator × Float)} (hop : op.rank ≤ rank)
    (hleft : ∀ q ∈ left, op.rank ≤ q.1.rank ∧ q.1.rank ≤ rank)
    (hright : ∀ q ∈ right, op.rank < q.1.rank ∧ q.1.rank ≤ rank) :
    (passes rank ⟨x, left ++ (op, y) :: right⟩).first =
      op.apply (passes rank ⟨x, left⟩).first (passes rank ⟨y, right⟩).first := by
  induction rank generalizing x y left right with
  | zero => exact absurd op.one_le_rank (by omega)
  | succ rank ih =>
      by_cases heq : op.rank = rank + 1
      · -- the last pass that finds operators: those on the left and this one
        obtain rfl : right = [] := by
          refine List.eq_nil_iff_forall_not_mem.mpr fun q hq => ?_
          have := hright q hq
          omega
        have hall : ∀ q ∈ left, q.1.rank = op.rank := fun q hq => by
          have := hleft q hq
          omega
        have hrest : (pass (rank + 1) x left).rest = [] := by
          refine List.eq_nil_iff_forall_not_mem.mpr fun q hq => ?_
          obtain ⟨hne, p, hp, hpq⟩ := mem_rest_pass hq
          exact hne (by rw [← hpq, hall p hp, heq])
        have hpass : pass (rank + 1) x left = ⟨(pass (rank + 1) x left).first, []⟩ := by
          rw [← hrest]
        rw [passes, passes, passes, ← heq, pass_concat x hall, heq, hpass]
        simp only [passes_single, pass]
      · rw [passes, passes, passes, pass_append heq]
        exact ih (by omega) (rank_le_of_mem_rest_pass hleft) (rank_le_of_mem_rest_pass hright)

/-- **How operators group.** The operator of the lowest rank, and of several the last one,
is applied to the values of both sides: higher ranks bind more tightly, and operators of
one rank associate to the left. -/
theorem value_split {op : Operator} {x y : Float} {left right : List (Operator × Float)}
    (hleft : ∀ q ∈ left, op.rank ≤ q.1.rank) (hright : ∀ q ∈ right, op.rank < q.1.rank) :
    value ⟨x, left ++ (op, y) :: right⟩ = op.apply (value ⟨x, left⟩) (value ⟨y, right⟩) :=
  passes_split op.rank_le_three (fun q hq => ⟨hleft q hq, q.1.rank_le_three⟩)
    (fun q hq => ⟨hright q hq, q.1.rank_le_three⟩)

/-! ### Waiting operators -/

/-- A chain with operators in front of it that wait for it, each with its left operand
and the last one first. -/
def after : List (Float × Operator) → Chain → Chain
  | [], c => c
  | (x, op) :: before, c => after before ⟨x, (op, c.first) :: c.rest⟩

/-- Every waiting operator binds more tightly than the one that has waited before. -/
def Ranked (before : List (Float × Operator)) : Prop :=
  before.Pairwise fun p q => q.2.rank < p.2.rank

/-- Applies waiting operators, the last one first, while they bind at least as tightly as
`rank`. What is left are the operators that still wait, and the last number. -/
def applyBack (rank : ℕ) : List (Float × Operator) → Float → List (Float × Operator) × Float
  | [], y => ([], y)
  | (x, op) :: before, y =>
    if op.rank < rank then ((x, op) :: before, y) else applyBack rank before (op.apply x y)

/-- A pass leaves waiting operators of other ranks alone. -/
theorem pass_after {rank : ℕ} {before : List (Float × Operator)}
    (h : ∀ p ∈ before, p.2.rank ≠ rank) (c : Chain) :
    pass rank (after before c).first (after before c).rest =
      after before (pass rank c.first c.rest) := by
  induction before generalizing c with
  | nil => rfl
  | cons p before ih =>
      obtain ⟨x, op⟩ := p
      have hop : op.rank ≠ rank := h (x, op) List.mem_cons_self
      rw [after, ih fun p hp => h p (List.mem_cons_of_mem _ hp), pass, if_neg hop, after]

/-- A pass leaves the first number alone if the first operator has another rank, and
what it makes of the others does not depend on that number. -/
theorem pass_of_head {rank : ℕ} {rest : List (Operator × Float)}
    (h : ∀ q ∈ rest.head?, q.1.rank ≠ rank) :
    ∃ rest', rest'.head?.map Prod.fst = rest.head?.map Prod.fst ∧
      ∀ y, pass rank y rest = ⟨y, rest'⟩ := by
  cases rest with
  | nil => exact ⟨[], rfl, fun _ => rfl⟩
  | cons q rest =>
      obtain ⟨op, z⟩ := q
      have hop : op.rank ≠ rank := h (op, z) rfl
      exact ⟨(op, (pass rank z rest).first) :: (pass rank z rest).rest, rfl,
        fun y => by rw [pass, if_neg hop]⟩

/-- An operator may be applied as soon as the operators that wait before it bind less
tightly and the one that follows does not bind more tightly. -/
theorem passes_after_cons {rank : ℕ} {x y : Float} {op : Operator}
    {before : List (Float × Operator)} {rest : List (Operator × Float)}
    (hrank : op.rank ≤ rank) (hbefore : ∀ p ∈ before, p.2.rank < op.rank)
    (hrest : ∀ o ∈ rest.head?.map Prod.fst, o.rank ≤ op.rank) :
    passes rank (after ((x, op) :: before) ⟨y, rest⟩) =
      passes rank (after before ⟨op.apply x y, rest⟩) := by
  induction rank generalizing y rest with
  | zero => exact absurd op.one_le_rank (by omega)
  | succ rank ih =>
      have hb : ∀ p ∈ before, p.2.rank ≠ rank + 1 := fun p hp => by
        have := hbefore p hp
        omega
      rw [passes, passes, pass_after hb]
      by_cases hop : op.rank = rank + 1
      · -- the pass for the operator's own rank applies it
        rw [after, pass_after hb, pass, if_pos hop]
      · have hcons : ∀ p ∈ (x, op) :: before, p.2.rank ≠ rank + 1 := by
          intro p hp
          rcases List.mem_cons.mp hp with rfl | hp
          · exact hop
          · exact hb p hp
        have hhead : ∀ q ∈ rest.head?, q.1.rank ≠ rank + 1 := fun q hq => by
          have := hrest q.1 (Option.mem_map_of_mem Prod.fst hq)
          omega
        obtain ⟨rest', hfst, hpass⟩ := pass_of_head hhead
        rw [pass_after hcons, hpass, hpass]
        exact ih (by omega) (by rwa [hfst])

/-- **Computing early does not change the value.** Waiting operators that bind at least
as tightly as `rank` may be applied when no operator follows that binds more tightly. -/
theorem value_applyBack {rank : ℕ} {before : List (Float × Operator)} {y : Float}
    {rest : List (Operator × Float)} (hbefore : Ranked before)
    (hrest : ∀ o ∈ rest.head?.map Prod.fst, o.rank ≤ rank) :
    value (after (applyBack rank before y).1 ⟨(applyBack rank before y).2, rest⟩) =
      value (after before ⟨y, rest⟩) := by
  induction before generalizing y with
  | nil => rfl
  | cons p before ih =>
      obtain ⟨x, op⟩ := p
      obtain ⟨hlt, hranked⟩ := List.pairwise_cons.mp hbefore
      by_cases hop : op.rank < rank
      · rw [applyBack, if_pos hop]
      · rw [applyBack, if_neg hop, ih hranked]
        have hnext : ∀ o ∈ rest.head?.map Prod.fst, o.rank ≤ op.rank := fun o ho =>
          Nat.le_trans (hrest o ho) (Nat.le_of_not_lt hop)
        rw [value, value, passes_after_cons op.rank_le_three hlt hnext]

/-- The operators that still wait are ranked as before. -/
theorem ranked_applyBack (rank : ℕ) {before : List (Float × Operator)} (y : Float)
    (h : Ranked before) : Ranked (applyBack rank before y).1 := by
  induction before generalizing y with
  | nil => exact h
  | cons p before ih =>
      obtain ⟨x, op⟩ := p
      by_cases hop : op.rank < rank
      · rwa [applyBack, if_pos hop]
      · rw [applyBack, if_neg hop]
        exact ih _ (List.pairwise_cons.mp h).2

/-- The operators that still wait bind less tightly than the rank. -/
theorem rank_lt_of_mem_applyBack {rank : ℕ} {before : List (Float × Operator)} {y : Float}
    (h : Ranked before) : ∀ p ∈ (applyBack rank before y).1, p.2.rank < rank := by
  induction before generalizing y with
  | nil => exact fun p hp => absurd hp List.not_mem_nil
  | cons p before ih =>
      obtain ⟨x, op⟩ := p
      obtain ⟨hlt, hranked⟩ := List.pairwise_cons.mp h
      by_cases hop : op.rank < rank
      · rw [applyBack, if_pos hop]
        intro q hq
        rcases List.mem_cons.mp hq with rfl | hq
        · exact hop
        · exact Nat.lt_trans (hlt q hq) hop
      · rw [applyBack, if_neg hop]
        exact ih hranked

/-- An operator comes to wait behind those that bind less tightly. -/
theorem ranked_cons_applyBack (op : Operator) {before : List (Float × Operator)} (y : Float)
    (h : Ranked before) :
    Ranked (((applyBack op.rank before y).2, op) :: (applyBack op.rank before y).1) :=
  List.pairwise_cons.mpr ⟨rank_lt_of_mem_applyBack h, ranked_applyBack op.rank y h⟩

/-- No operator still waits once those of every rank have been applied. -/
theorem applyBack_eq_nil {rank : ℕ} {before : List (Float × Operator)} {y : Float}
    (h : Ranked before) (hrank : rank ≤ 1) : (applyBack rank before y).1 = [] := by
  refine List.eq_nil_iff_forall_not_mem.mpr fun p hp => ?_
  have := rank_lt_of_mem_applyBack h p hp
  have := p.2.one_le_rank
  omega

/-- The value of a chain is what remains when all operators that wait are applied. -/
theorem applyBack_snd {rank : ℕ} {before : List (Float × Operator)} {y : Float}
    (h : Ranked before) (hrank : rank ≤ 1) :
    (applyBack rank before y).2 = value (after before ⟨y, []⟩) := by
  have hvalue : value (after (applyBack rank before y).1 ⟨(applyBack rank before y).2, []⟩) =
      value (after before ⟨y, []⟩) := value_applyBack h fun _ ho => absurd ho (by simp)
  rwa [applyBack_eq_nil h hrank, after, value_single] at hvalue

end Chain

end Spreadsheet
