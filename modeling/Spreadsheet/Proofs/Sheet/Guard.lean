import Spreadsheet.Proofs.Formula.Asking
import Spreadsheet.Proofs.Sheet.References
import Spreadsheet.Sheet.Value

/-!
# Reading Cells With and Without a Guard

What a cell reads as depends only on what the cells that it refers to read as
(`Sheet.readWith`). Where no cycle is reachable this determines a number for every cell by
recursion on the references (`Sheet.unguarded`). Where cycles may be, the cells in progress
are kept at hand, and reading one of them again is an error (`Sheet.guarded`). This module
compares the two: the guard never reports a cycle that is not there, it reports one whenever
one is reachable, and it changes nothing where there is none.

Neither function remembers values or changes a state. That the readings of a pass have these
outcomes is shown in `Spreadsheet.Proofs.Sheet.Reading`.

## Main definitions

* `Sheet.readWith`: what a cell reads as, given what it refers to.
* `Sheet.unguarded`: the reference value, by well-founded recursion on the references.
* `Sheet.guarded`: the reading of a cell behind a path of cells in progress.

## Main results

* `Sheet.acyclicFrom_of_guarded_eq_ok`: a cell that reads as a number reaches no cycle.
* `Sheet.isCycle_of_guarded_eq_circular`: a reported path is a cycle, and is reachable.
* `Sheet.guarded_eq_unguarded`: the guard does not change the value of a cell that reaches
  no cycle.
-/

open Relation

namespace Spreadsheet

/-- What names read as, if cells read as given. A name beyond the limits reads as zero. -/
def answerNames (answer : Address → Except FormulaError Float) (name : String) :
    Except FormulaError Float :=
  match Address.read? name with
  | some a => answer a
  | none => .ok 0

/-- The name of a cell is answered as the cell is. -/
theorem answerNames_of_some {answer : Address → Except FormulaError Float} {name : String}
    {a : Address} (h : Address.read? name = some a) : answerNames answer name = answer a := by
  rw [answerNames, h]

/-- A name beyond the limits is worth zero. -/
theorem answerNames_of_none {answer : Address → Except FormulaError Float} {name : String}
    (h : Address.read? name = none) : answerNames answer name = .ok 0 := by
  rw [answerNames, h]

namespace Sheet

variable {s : Sheet} {draw : Float} {a b : Address} {path cycle : List Address} {bound : ℕ}
  {answer answer' : Address → Except FormulaError Float}

/-! ### One cell -/

/-- What a cell reads as, given what the cells that it refers to read as. -/
def readWith (s : Sheet) (draw : Float) (answer : Address → Except FormulaError Float)
    (a : Address) : Except FormulaError Float :=
  match s.content a with
  | .empty | .text _ => .ok 0
  | .number x => .ok (Number.orZero x)
  | .formula f => evaluateWith draw (answerNames answer) f.tokens

/-- A formula cell reads as the value of its tokens. -/
theorem readWith_formula {f : Formula} (hf : s.content a = .formula f) :
    s.readWith draw answer a = evaluateWith draw (answerNames answer) f.tokens := by
  rw [readWith, hf]

/-- A cell without a formula reads as a number, whatever other cells read as. -/
theorem readWith_eq_ok_of_not_mem (ha : a ∉ s.formulas) :
    ∃ x, s.readWith draw answer a = .ok x := by
  rw [readWith]
  cases hcontent : s.content a with
  | formula f => exact absurd (mem_formulas.mpr ⟨f, hcontent⟩) ha
  | _ => exact ⟨_, rfl⟩

/-- What counts is what the cells read as that the cell refers to. -/
theorem readWith_congr (h : ∀ b, s.Refers a b → answer b = answer' b) :
    s.readWith draw answer a = s.readWith draw answer' a := by
  by_cases hmem : a ∈ s.formulas
  · obtain ⟨f, hf⟩ := mem_formulas.mp hmem
    rw [readWith_formula hf, readWith_formula hf]
    refine evaluateWith_congr fun name hname => ?_
    cases hread : Address.read? name with
    | some b =>
        rw [answerNames_of_some hread, answerNames_of_some hread]
        exact h b ⟨f, hf, _, hname, hread⟩
    | none => rw [answerNames_of_none hread, answerNames_of_none hread]
  · rw [readWith, readWith]
    cases hcontent : s.content a with
    | formula f => exact absurd (mem_formulas.mpr ⟨f, hcontent⟩) hmem
    | _ => rfl

/-- A cell reads as a number only if all cells do that it refers to. -/
theorem answer_of_readWith_eq_ok {x : Float} (h : s.readWith draw answer a = .ok x)
    (hab : s.Refers a b) : ∃ y, answer b = .ok y := by
  obtain ⟨f, hf, t, ht, htb⟩ := hab
  rw [readWith_formula hf] at h
  cases t with
  | reference name =>
      obtain ⟨y, hy⟩ := answer_of_evaluateWith_eq_ok h name ht
      rw [answerNames_of_some htb] at hy
      exact ⟨y, hy⟩
  | _ => cases htb

/-- A circular reference is met at a cell only because it is met at one that the cell
refers to. -/
theorem answer_of_readWith_eq_circular
    (h : s.readWith draw answer a = .error (.circular cycle)) :
    ∃ b, s.Refers a b ∧ answer b = .error (.circular cycle) := by
  by_cases hmem : a ∈ s.formulas
  · obtain ⟨f, hf⟩ := mem_formulas.mp hmem
    rw [readWith_formula hf] at h
    rcases answer_of_evaluateWith_eq_error h with ⟨cause, hcause⟩ | ⟨name, hname, hanswer⟩
    · cases hcause
    · cases hread : Address.read? name with
      | some b =>
          rw [answerNames_of_some hread] at hanswer
          exact ⟨b, ⟨f, hf, _, hname, hread⟩, hanswer⟩
      | none =>
          rw [answerNames_of_none hread] at hanswer
          cases hanswer
  · have hok : ∃ x, s.readWith draw answer a = .ok x := readWith_eq_ok_of_not_mem hmem
    obtain ⟨x, hx⟩ := hok
    rw [hx] at h
    cases h

/-! ### Without a guard -/

/-- Whether one cell refers to another can be decided. -/
instance (s : Sheet) (a b : Address) : Decidable (s.Refers a b) :=
  match h : s.content a with
  | .formula f =>
    decidable_of_iff (∃ t ∈ f.tokens, t.address? = some b)
      ⟨fun hb => ⟨f, h, hb⟩, fun ⟨_, hf, hb⟩ => Content.formula.inj (h.symm.trans hf) ▸ hb⟩
  | .empty | .number _ | .text _ => .isFalse fun ⟨_, hf, _⟩ => by rw [h] at hf; cases hf

/-- The cells from which no cycle is reachable, ordered by their references. -/
abbrev Grounded (s : Sheet) : Type :=
  { a : Address // s.AcyclicFrom a }

/-- Cells that reach no cycle are read after those that they refer to. -/
instance (s : Sheet) : WellFoundedRelation s.Grounded where
  rel b a := s.Refers a.1 b.1
  wf := ⟨fun ⟨_, h⟩ => InvImage.accessible Subtype.val (acyclicFrom_iff_acc.mp h)⟩

/-- The **reference value** of a cell from which no cycle is reachable, by recursion on its
references. No cells in progress are kept. -/
def unguarded (s : Sheet) (draw : Float) (a : Address) (h : s.AcyclicFrom a) :
    Except FormulaError Float :=
  -- Only cells that `a` refers to are ever asked for, so the other branch is never taken.
  s.readWith draw
    (fun b => if hab : s.Refers a b then unguarded s draw b (h.of_refers hab) else .ok 0) a
termination_by (⟨a, h⟩ : s.Grounded)

/-- The reference value of a cell comes from those of the cells that it refers to. -/
theorem unguarded_eq_readWith (h : s.AcyclicFrom a)
    (hanswer : ∀ b (hab : s.Refers a b), answer b = s.unguarded draw b (h.of_refers hab)) :
    s.unguarded draw a h = s.readWith draw answer a := by
  rw [unguarded]
  refine readWith_congr fun b hab => ?_
  rw [dif_pos hab, hanswer b hab]

/-! ### Behind a guard -/

/-- The reading of a cell behind a path of cells in progress. A cell on the path is not read
again: the path from there on, and the cell once more, is reported. The bound limits the
length of the path. -/
def guarded (s : Sheet) (draw : Float) :
    ℕ → List Address → Address → Except FormulaError Float
  | 0, _, a => .error (.circular [a])
  | bound + 1, path, a =>
    if a ∈ path then .error (.circular (path.dropWhile (· ≠ a) ++ [a]))
    else s.readWith draw (guarded s draw bound (path ++ [a])) a

/-- A cell that is not in progress is read from the cells that it refers to, while it is in
progress itself. -/
theorem guarded_succ_of_not_mem (ha : a ∉ path) :
    s.guarded draw (bound + 1) path a =
      s.readWith draw (s.guarded draw bound (path ++ [a])) a :=
  if_neg ha

/-- A cell in progress closes a cycle. -/
theorem guarded_succ_of_mem (ha : a ∈ path) :
    s.guarded draw (bound + 1) path a =
      .error (.circular (path.dropWhile (· ≠ a) ++ [a])) :=
  if_pos ha

/-- **A cell that reads as a number reaches no cycle.** All references of a formula are read,
so every cell that is reachable from it has been read as a number, and the reading has
ended. -/
theorem acyclicFrom_of_guarded_eq_ok {x : Float} (h : s.guarded draw bound path a = .ok x) :
    s.AcyclicFrom a := by
  refine acyclicFrom_iff_acc.mpr ?_
  induction bound generalizing path a x with
  | zero => cases h
  | succ bound ih =>
      by_cases ha : a ∈ path
      · rw [guarded_succ_of_mem ha] at h
        cases h
      · rw [guarded_succ_of_not_mem ha] at h
        refine Acc.intro a fun b hab => ?_
        obtain ⟨y, hy⟩ := answer_of_readWith_eq_ok h hab
        exact ih hy

/-- **A reported path is a cycle, and it is reachable.** The cells in progress form a route
to the cell, and the bound leaves room for all others. -/
theorem isCycle_of_guarded_eq_circular (hroute : s.Route path a)
    (hroom : s.Room bound path) (h : s.guarded draw bound path a = .error (.circular cycle)) :
    s.IsCycle cycle ∧ ∃ b, cycle.head? = some b ∧ ReflTransGen s.Refers a b := by
  induction bound generalizing path a with
  | zero => exact absurd hroom hroute.not_room_zero
  | succ bound ih =>
      by_cases ha : a ∈ path
      · rw [guarded_succ_of_mem ha] at h
        cases h
        obtain ⟨hcycle, hhead⟩ := hroute.isCycle ha
        exact ⟨hcycle, a, hhead, .refl⟩
      · rw [guarded_succ_of_not_mem ha] at h
        obtain ⟨b, hab, hb⟩ := answer_of_readWith_eq_circular h
        obtain ⟨hcycle, c, hc, hbc⟩ := ih (hroute.snoc ha hab) (hroom.snoc a) hb
        exact ⟨hcycle, c, hc, .head hab hbc⟩

/-- **The guard does not change the value of a cell from which no cycle is reachable**: such
a cell is never in progress when it is entered. -/
theorem guarded_eq_unguarded (hroute : s.Route path a) (hroom : s.Room bound path)
    (h : s.AcyclicFrom a) :
    s.guarded draw bound path a = s.unguarded draw a h := by
  induction bound generalizing path a with
  | zero => exact absurd hroom hroute.not_room_zero
  | succ bound ih =>
      have ha := hroute.not_mem h
      rw [guarded_succ_of_not_mem ha]
      exact (unguarded_eq_readWith h fun b hab =>
        ih (hroute.snoc ha hab) (hroom.snoc a) (h.of_refers hab)).symm

/-- A cell from which no cycle is reachable has no circular reference. -/
theorem unguarded_ne_circular (h : s.AcyclicFrom a) :
    s.unguarded draw a h ≠ .error (.circular cycle) := by
  intro hcircular
  rw [← guarded_eq_unguarded (.nil s a) s.room_nil h] at hcircular
  obtain ⟨hcycle, b, hb, hab⟩ :=
    isCycle_of_guarded_eq_circular (.nil s a) s.room_nil hcircular
  exact h b hab (hcycle.transGen hb)

end Sheet

end Spreadsheet
