import Mathlib.Data.List.Chain
import Spreadsheet.Proofs.Formula.Bracketing

/-!
# Bases of Open Brackets

A bracket that opens remembers how many operands lie below it. From the outermost open bracket to
the innermost one these bases never decrease, and none exceeds the number of operands. An operator
that lies directly on another one binds more tightly. Tokens keep this, whatever their order, also
where the formula has long been malformed and it has not been noticed yet
(`Stacks.Sound.takesIn`, `Takes.sound`).

The bases are what makes a bracket a floor. What lies below a bracket that stays open is the same
after a token as before (`Stacks.KeepsBelow`): operators inside the bracket find their operands
above its base, and a bracket that ends further inside has a base that is at least as large.

## Main definitions

* `Stacks.bases`: the bases of the open brackets.
* `Stacks.Sound`: stacks in order.
* `Stacks.KeepsBelow`: nothing below an open bracket is touched.

## Main results

* `Stacks.Sound.takesIn`: a token keeps stacks sound, and touches nothing below an open bracket.
* `Takes.keeps`: what every token keeps, a run keeps.
* `Takes.sound`: the stacks are sound after any tokens.
-/

namespace Spreadsheet

/-! ### Sound stacks -/

namespace Waiting

/-- The base of an open bracket. -/
def base? : Waiting → Option ℕ
  | bracket base => some base
  | _ => none

/-- What an entry may lie directly on: an operator on one that binds less tightly, and anything
else on everything. -/
def MayLieOn (w v : Waiting) : Prop :=
  ∀ op op', w = .operator op → v = .operator op' → op'.rank < op.rank

/-- An operator may wait on whatever binds less tightly. -/
theorem mayLieOn_of_rank_lt {op : Operator} {v : Waiting} (h : v.rank < op.rank) :
    (operator op).MayLieOn v := by
  rintro op₁ op₂ hop rfl
  rw [← operator.inj hop]
  exact h

/-- Brackets and calls may wait on anything. -/
theorem mayLieOn_of_ne {w : Waiting} (h : ∀ op, w ≠ .operator op) (v : Waiting) : w.MayLieOn v :=
  fun op _ hop _ => absurd hop (h op)

end Waiting

namespace Stacks

variable {rank base : ℕ} {op : Operator} {operands xs : List Float} {ws : List Waiting}
  {st st' : Stacks} {x : Float} {draw : Float} {answer : String → Except FormulaError Float}
  {t : Token}

/-- The bases of the open brackets, that of the innermost bracket first. -/
def bases (ws : List Waiting) : List ℕ :=
  ws.filterMap Waiting.base?

/-- An operator has no base. -/
@[simp]
theorem bases_operator (op : Operator) (ws : List Waiting) :
    bases (.operator op :: ws) = bases ws := rfl

/-- A call has no base of its own. -/
@[simp]
theorem bases_call (f : Builtin) (args : List Float) (ws : List Waiting) :
    bases (.call f args :: ws) = bases ws := rfl

/-- A bracket has the base that it remembers. -/
@[simp]
theorem bases_bracket (base : ℕ) (ws : List Waiting) :
    bases (.bracket base :: ws) = base :: bases ws := rfl

/-- Bases are **sorted** if none exceeds that of a bracket further inside. -/
def Sorted (ws : List Waiting) : Prop :=
  (bases ws).Pairwise fun inner outer => outer ≤ inner

/-- Stacks are **sound** if the bases are sorted and count operands that are there, and if every
operator that lies directly on another one binds more tightly. -/
structure Sound (st : Stacks) : Prop where
  /-- The bases never decrease from the outermost bracket to the innermost one. -/
  sorted : Sorted st.waiting
  /-- No base exceeds the number of operands. -/
  le_length : ∀ base ∈ bases st.waiting, base ≤ st.operands.length
  /-- An operator directly above another one binds more tightly. -/
  ranked : st.waiting.IsChain Waiting.MayLieOn

/-- What waits below the top is sorted as well. -/
theorem Sorted.tail {w : Waiting} (h : Sorted (w :: ws)) : Sorted ws := by
  cases w with
  | operator op => exact h
  | call f args => exact h
  | bracket base => exact (List.pairwise_cons.mp h).2

/-- Below the innermost bracket there are the bases that it does not fall short of. -/
theorem Sorted.le_of_mem (h : Sorted (.bracket base :: ws)) : ∀ b ∈ bases ws, b ≤ base :=
  (List.pairwise_cons.mp h).1

/-- The base of the innermost bracket is the largest one. -/
theorem Sorted.le_innermostBase (h : Sorted ws) : ∀ b ∈ bases ws, b ≤ innermostBase ws := by
  induction ws with
  | nil => exact fun b hb => absurd hb List.not_mem_nil
  | cons w ws ih =>
      cases w with
      | operator op => exact ih h
      | call f args => exact ih h
      | bracket base => exact List.forall_mem_cons.mpr ⟨Nat.le_refl base, h.le_of_mem⟩

/-- As many operands lie below a base as it says, if there are so many. -/
theorem length_below_of_le (h : base ≤ xs.length) : (below base xs).length = base := by
  rw [below, List.length_drop]
  omega

/-- An operand above a base does not matter to what lies below it. -/
theorem below_cons (h : base ≤ xs.length) : below base (x :: xs) = below base xs := by
  rw [below, below, List.length_cons, Nat.succ_sub h, List.drop_succ_cons]

/-- What lies below a base lies below every base further outside. -/
theorem below_below {b : ℕ} (hb : b ≤ base) (h : base ≤ xs.length) :
    below b (below base xs) = below b xs := by
  rw [below, length_below_of_le h, below, below, List.drop_drop]
  congr 1
  omega

/-- Empty stacks are sound. -/
theorem sound_empty : Sound {} :=
  ⟨.nil, fun _ hbase => absurd hbase List.not_mem_nil, .nil⟩

/-- What lies below an open bracket's base is the same before and after. -/
def KeepsBelow (st st' : Stacks) : Prop :=
  ∀ base ∈ bases st'.waiting, below base st'.operands = below base st.operands

/-! ### What tokens keep -/

/-- Settling keeps stacks sound, touches nothing below an open bracket, and stops at an entry that
binds less tightly. -/
theorem Sound.settle (h : st.Sound) (hok : st.settle rank = .ok st') :
    st'.Sound ∧ st.KeepsBelow st' ∧ ∀ w ∈ st'.waiting.head?, w.rank < rank := by
  have hsettle := settle_induction (P := fun st' => st'.Sound ∧ st.KeepsBelow st') ?_
    ⟨h, fun _ _ => rfl⟩ hok
  · exact ⟨hsettle.1.1, hsettle.1.2, hsettle.2⟩
  · rintro op x y operands ws hbase ⟨hsound, hkept⟩
    have hle : ∀ b ∈ bases ws, b ≤ operands.length := fun b hb =>
      Nat.le_trans (hsound.sorted.tail.le_innermostBase b hb) hbase
    refine ⟨⟨hsound.sorted.tail, fun b hb => Nat.le_succ_of_le (hle b hb), hsound.ranked.tail⟩,
      fun b hb => ?_⟩
    have hbelow := hkept b hb
    rw [below_cons (Nat.le_succ_of_le (hle b hb)), below_cons (hle b hb)] at hbelow
    rw [below_cons (hle b hb), hbelow]

/-- **A token keeps stacks sound**, and touches nothing below a bracket that stays open. -/
theorem Sound.takesIn (h : st.Sound) (hstep : st.TakesIn draw answer t st') :
    st'.Sound ∧ st.KeepsBelow st' := by
  have hcons : ∀ {w : Waiting} {ws : List Waiting}, ws.IsChain Waiting.MayLieOn →
      (∀ op, w ≠ .operator op) → (w :: ws).IsChain Waiting.MayLieOn := fun hws hw =>
    List.isChain_cons.mpr ⟨fun v _ => Waiting.mayLieOn_of_ne hw v, hws⟩
  cases hstep with
  | operand hx =>
      exact ⟨⟨h.sorted, fun b hb => Nat.le_succ_of_le (h.le_length b hb), h.ranked⟩,
        fun b hb => below_cons (h.le_length b hb)⟩
  | name f => exact ⟨⟨h.sorted, h.le_length, hcons h.ranked (by simp)⟩, fun _ _ => rfl⟩
  | operator hsettle =>
      obtain ⟨h, hkept, hhead⟩ := h.settle hsettle
      exact ⟨⟨h.sorted, h.le_length,
        List.isChain_cons.mpr ⟨fun w hw => Waiting.mayLieOn_of_rank_lt (hhead w hw), h.ranked⟩⟩,
        hkept⟩
  | openBracket =>
      exact ⟨⟨List.pairwise_cons.mpr ⟨h.le_length, h.sorted⟩,
        List.forall_mem_cons.mpr ⟨Nat.le_refl _, h.le_length⟩, hcons h.ranked (by simp)⟩,
        fun _ _ => rfl⟩
  | @separator operands base f args ws x hsettle hx =>
      obtain ⟨h, hkept, -⟩ := h.settle hsettle
      have hbase : base ≤ operands.length := h.le_length base List.mem_cons_self
      have hle : ∀ b ∈ base :: bases ws, b ≤ base :=
        List.forall_mem_cons.mpr ⟨Nat.le_refl base, h.sorted.le_of_mem⟩
      refine ⟨⟨h.sorted, fun b hb => ?_, hcons (hcons h.ranked.tail.tail (by simp)) (by simp)⟩,
        fun b hb => ?_⟩
      · rw [length_below_of_le hbase]
        exact hle b hb
      · rw [below_below (hle b hb) hbase]
        exact hkept b hb
  | @call operands base f args ws hsettle hlast =>
      obtain ⟨h, hkept, -⟩ := h.settle hsettle
      have hbase : base ≤ operands.length := h.le_length base List.mem_cons_self
      have hle : ∀ b ∈ bases ws, b ≤ (below base operands).length := fun b hb => by
        rw [length_below_of_le hbase]
        exact h.sorted.le_of_mem b hb
      refine ⟨⟨h.sorted.tail, fun b hb => Nat.le_succ_of_le (hle b hb), h.ranked.tail.tail⟩,
        fun b hb => ?_⟩
      rw [below_cons (hle b hb), below_below (h.sorted.le_of_mem b hb) hbase]
      exact hkept b (List.mem_cons_of_mem base hb)
  | group hsettle hws hx =>
      obtain ⟨h, hkept, -⟩ := h.settle hsettle
      exact ⟨⟨h.sorted.tail, fun b hb => h.le_length b (List.mem_cons_of_mem _ hb), h.ranked.tail⟩,
        fun b hb => hkept b (List.mem_cons_of_mem _ hb)⟩

end Stacks

/-! ### Runs -/

section Runs

open Evaluation Stacks

variable {σ : Type} {ask : String → Evaluation σ Float} {draw : Float} {ts : List Token}
  {t : Token} {st st' : Stacks} {s s' : σ}

/-- However a reference is answered, a token is taken in as if the answer were fixed. -/
theorem exists_takesIn (h : (st.stepAsking draw ask t).runFrom s = (.ok st', s')) :
    ∃ answer, st.TakesIn draw answer t st' := by
  by_cases href : ∃ name, t = .reference name
  · obtain ⟨name, rfl⟩ := href
    obtain ⟨x, s₁, -, hpure⟩ := runFrom_bind_eq_ok h
    cases hpure
    exact ⟨fun _ => .ok x, .operand rfl⟩
  · have hne := not_exists.mp href
    rw [stepAsking_of_ne_reference hne, runFrom_ofStacks] at h
    refine ⟨fun _ => .ok 0, stepWith_eq_ok_iff.mp ?_⟩
    rw [stepWith_of_ne_reference hne]
    exact (Prod.mk.inj h).1

/-- **What every token keeps, a run keeps**, however references are answered. -/
theorem Takes.keeps {P : Stacks → Prop}
    (hstep : ∀ {answer t st st'}, P st → st.TakesIn draw answer t st' → P st')
    (h : Takes draw ask ts st s st' s') (hst : P st) : P st' := by
  induction ts generalizing st s with
  | nil =>
      cases h
      exact hst
  | cons t ts ih =>
      rw [Takes, List.foldlM_cons] at h
      obtain ⟨next, s₁, hfirst, hrest⟩ := runFrom_bind_eq_ok h
      obtain ⟨answer, htakes⟩ := exists_takesIn hfirst
      exact ih hrest (hstep hst htakes)

/-- **The stacks are sound after any tokens** that have been taken in. -/
theorem Takes.sound (h : Takes draw ask ts {} s st s') : st.Sound :=
  h.keeps (fun hst hstep => (hst.takesIn hstep).1) sound_empty

end Runs

end Spreadsheet
