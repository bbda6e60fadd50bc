import Spreadsheet.Proofs.Formula.Expression
import Spreadsheet.Proofs.Formula.Transcript

/-!
# Values Do Not Decide Whether a Formula is Malformed

Which numbers lie on the stacks never decides what a token does to them: that an operator lacks an
operand, that an argument is empty or that a bracket is left open depends on how many operands there
are and on what waits. Two stacks have the *same shape* if they hold equally many operands and the
same operators, brackets and calls. A token keeps that, or it is out of place on both for the same
cause (`Stacks.SameShape.step`), and so two evaluations go along together even if their tokens are
of the same shape, an operand standing against any other operand (`evaluate_parallel`).

## Main definitions

* `Agree`: two outcomes that are values which belong together, or the same error.
* `Stacks.SameShape`: stacks that may differ in their numbers.
* `Token.SameShape`: tokens that may differ in what they are worth.
* `Evaluation.Parallel`: two computations whose outcomes agree from all states.

## Main results

* `Stacks.SameShape.step`: what a token does depends on the shape of the stacks alone.
* `evaluate_parallel`: tokens of the same shape agree in their outcomes.
-/

namespace Spreadsheet

/-! ### Outcomes that agree -/

section Agreement

variable {ε ε' α α' β β' : Type} {R : α → α' → Prop} {S : β → β' → Prop}

/-- Two outcomes **agree**: both are values, which belong together, or both are the same error. -/
inductive Agree (R : α → α' → Prop) : Except ε α → Except ε α' → Prop
  | ok {a : α} {a' : α'} (h : R a a') : Agree R (.ok a) (.ok a')
  | error (e : ε) : Agree R (.error e) (.error e)

/-- Computations in a row agree if each of them does. -/
theorem Agree.bind {x : Except ε α} {y : Except ε α'} {f : α → Except ε β} {g : α' → Except ε β'}
    (h : Agree R x y) (hfg : ∀ a a', R a a' → Agree S (f a) (g a')) :
    Agree S (x >>= f) (y >>= g) := by
  cases h with
  | ok h => exact hfg _ _ h
  | error e => exact .error e

end Agreement

/-! ### Stacks of the same shape -/

/-- Two waiting entries have the **same shape** if they are equal, but for the arguments of a
call. -/
inductive Waiting.SameShape : Waiting → Waiting → Prop
  | operator (op : Operator) : SameShape (.operator op) (.operator op)
  | call (f : Builtin) (args args' : List Float) : SameShape (.call f args) (.call f args')
  | bracket (base : ℕ) : SameShape (.bracket base) (.bracket base)

/-- Entries of the same shape bind equally tightly. -/
theorem Waiting.SameShape.rank_eq {w w' : Waiting} (h : w.SameShape w') : w.rank = w'.rank := by
  cases h <;> rfl

namespace Stacks

/-- Two stacks have the **same shape** if they hold equally many operands and the same operators,
brackets and calls. -/
structure SameShape (st st' : Stacks) : Prop where
  /-- There are equally many operands. -/
  length_eq : st.operands.length = st'.operands.length
  /-- The same waits. -/
  waiting : List.Forall₂ Waiting.SameShape st.waiting st'.waiting

variable {xs ys : List Float} {ws ws' : List Waiting} {st st' : Stacks}

/-- Of equally many numbers there are none on either side, one on each, or more on both. -/
theorem cases_of_length_eq (h : xs.length = ys.length) :
    (xs = [] ∧ ys = []) ∨ (∃ x y, xs = [x] ∧ ys = [y]) ∨
      ∃ x₁ x₂ xs' y₁ y₂ ys', xs = x₁ :: x₂ :: xs' ∧ ys = y₁ :: y₂ :: ys' := by
  rcases xs with - | ⟨x₁, - | ⟨x₂, xs⟩⟩ <;> rcases ys with - | ⟨y₁, - | ⟨y₂, ys⟩⟩ <;>
    simp at h ⊢

/-- What waits in the same shape has the same innermost base. -/
theorem innermostBase_eq (h : List.Forall₂ Waiting.SameShape ws ws') :
    innermostBase ws = innermostBase ws' := by
  induction h with
  | nil => rfl
  | cons hw _ ih =>
      cases hw with
      | operator op => exact ih
      | call f args args' => exact ih
      | bracket base => rfl

/-- An operand is taken on both sides, or it is missing on both. -/
theorem takeOperand_agree (op : Operator) (h : List.Forall₂ Waiting.SameShape ws ws')
    (hlength : xs.length = ys.length) :
    Agree (fun p q => p.2.length = q.2.length) (takeOperand op ws xs) (takeOperand op ws' ys) := by
  have hinnermost := innermostBase_eq h
  by_cases hbase : ys.length ≤ innermostBase ws'
  · have hbase' : xs.length ≤ innermostBase ws := by omega
    rw [takeOperand_of_length_le hbase, takeOperand_of_length_le hbase']
    exact .error _
  · cases ys with
    | nil => exact absurd (Nat.zero_le _) hbase
    | cons y ys =>
        obtain ⟨x, xs, rfl⟩ := List.exists_cons_of_length_eq_add_one hlength
        have hle : innermostBase ws' ≤ ys.length := Nat.le_of_lt_succ (Nat.lt_of_not_le hbase)
        have htail : xs.length = ys.length := Nat.succ.inj hlength
        rw [takeOperand_cons y hle, takeOperand_cons x (by omega)]
        exact .ok htail

/-- Settling keeps the shape, or it fails on both stacks for the same cause. -/
theorem applyWaiting_agree (rank : ℕ) (h : List.Forall₂ Waiting.SameShape ws ws')
    (hlength : xs.length = ys.length) :
    Agree SameShape (applyWaiting rank xs ws) (applyWaiting rank ys ws') := by
  induction h generalizing xs ys with
  | nil => exact .ok ⟨hlength, .nil⟩
  | @cons w w' ws ws' hw hws ih =>
      by_cases hrank : w'.rank < rank
      · have hrank' : w.rank < rank := hw.rank_eq ▸ hrank
        rw [applyWaiting_eq_self fun v hv => Option.some.inj hv ▸ hrank',
          applyWaiting_eq_self fun v hv => Option.some.inj hv ▸ hrank]
        exact .ok ⟨hlength, .cons hw hws⟩
      · cases hw with
        | operator op =>
            rw [applyWaiting_operator_eq_bind (Nat.le_of_not_lt hrank),
              applyWaiting_operator_eq_bind (Nat.le_of_not_lt hrank)]
            exact (takeOperand_agree op hws hlength).bind fun right right' hlength =>
              (takeOperand_agree op hws hlength).bind fun left left' hlength =>
                ih (congrArg Nat.succ hlength)
        | call f args args' =>
            have hrank' : ¬ (Waiting.call f args).rank < rank := hrank
            rw [applyWaiting_call hrank, applyWaiting_call hrank']
            exact .error _
        | bracket base =>
            rw [applyWaiting_bracket hrank, applyWaiting_bracket hrank]
            exact .error _

namespace SameShape

/-- Settling keeps the shape, or it fails on both stacks for the same cause. -/
theorem settle (h : SameShape st st') (rank : ℕ) :
    Agree SameShape (st.settle rank) (st'.settle rank) :=
  applyWaiting_agree rank h.waiting h.length_eq

/-- Operands may be added to both stacks, whatever they are. -/
theorem addOperand (h : SameShape st st') (x y : Float) :
    SameShape (st.addOperand x) (st'.addOperand y) :=
  ⟨congrArg Nat.succ h.length_eq, h.waiting⟩

/-- Entries of the same shape may be added to both stacks. -/
theorem addWaiting (h : SameShape st st') {w w' : Waiting} (hw : w.SameShape w') :
    SameShape (st.addWaiting w) (st'.addWaiting w') :=
  ⟨h.length_eq, .cons hw h.waiting⟩

/-- Equally many operands lie above a base. -/
theorem length_above_eq (h : SameShape st st') (base : ℕ) :
    (above base st.operands).length = (above base st'.operands).length := by
  rw [above, above, List.length_take, List.length_take, h.length_eq]

/-- Equally many operands lie below a base. -/
theorem length_below_eq (h : SameShape st st') (base : ℕ) :
    (below base st.operands).length = (below base st'.operands).length := by
  rw [below, below, List.length_drop, List.length_drop, h.length_eq]

/-- An argument ends on both stacks, or on neither for the same cause. -/
theorem endArgument (h : SameShape st st') : Agree SameShape st.endArgument st'.endArgument := by
  rw [endArgument_eq, endArgument_eq]
  refine (h.settle 1).bind fun st st' h => ?_
  have habove := h.length_above_eq
  have hbelow := h.length_below_eq
  obtain ⟨operands, ws⟩ := st
  obtain ⟨operands', ws'⟩ := st'
  obtain ⟨-, hwaiting⟩ := h
  dsimp only at habove hbelow hwaiting ⊢
  cases hwaiting with
  | nil => exact .error _
  | cons hw hws =>
    cases hw with
    | operator op => exact .error _
    | call f args args' => exact .error _
    | bracket base =>
      cases hws with
      | nil => exact .error _
      | cons hw hws =>
        cases hw with
        | operator op => exact .error _
        | bracket base => exact .error _
        | call f args args' =>
          dsimp only
          rcases cases_of_length_eq (habove base) with
            ⟨hx, hy⟩ | ⟨x, y, hx, hy⟩ | ⟨x₁, x₂, xs, y₁, y₂, ys, hx, hy⟩
          · rw [hx, hy]
            exact .error _
          · rw [hx, hy]
            exact .ok ⟨hbelow base, .cons (.bracket base) (.cons (.call f _ _) hws)⟩
          · rw [hx, hy]
            exact .error _

/-- A bracket ends on both stacks, or on neither for the same cause. -/
theorem endBracket (h : SameShape st st') (draw draw' : Float) :
    Agree SameShape (st.endBracket draw) (st'.endBracket draw') := by
  rw [endBracket_eq, endBracket_eq]
  refine (h.settle 1).bind fun st st' h => ?_
  have habove := h.length_above_eq
  have hbelow := h.length_below_eq
  obtain ⟨operands, ws⟩ := st
  obtain ⟨operands', ws'⟩ := st'
  obtain ⟨hlength, hwaiting⟩ := h
  dsimp only at habove hbelow hwaiting hlength ⊢
  cases hwaiting with
  | nil => exact .error _
  | cons hw hws =>
    cases hw with
    | operator op => exact .error _
    | call f args args' => exact .error _
    | bracket base =>
      dsimp only
      rcases cases_of_length_eq (habove base) with
        ⟨hx, hy⟩ | ⟨x, y, hx, hy⟩ | ⟨x₁, x₂, xs, y₁, y₂, ys, hx, hy⟩
      · rw [hx, hy]
        cases hws with
        | nil => exact .error _
        | cons hw hws =>
          cases hw with
          | call f args args' => exact .ok ⟨congrArg Nat.succ (hbelow base), hws⟩
          | operator op => exact .error _
          | bracket base => exact .error _
      · rw [hx, hy]
        cases hws with
        | nil => exact .ok ⟨hlength, .nil⟩
        | cons hw hws =>
          cases hw with
          | call f args args' => exact .ok ⟨congrArg Nat.succ (hbelow base), hws⟩
          | operator op => exact .ok ⟨hlength, .cons (.operator op) hws⟩
          | bracket base' => exact .ok ⟨hlength, .cons (.bracket base') hws⟩
      · rw [hx, hy]
        exact .error _

/-- What is left at the end is a value on both stacks, or on neither for the same cause. -/
theorem result (h : SameShape st st') : Agree (fun _ _ => True) st.result st'.result := by
  refine (h.settle 0).bind fun st st' h => ?_
  have hlength := h.length_eq
  obtain ⟨operands, ws⟩ := st
  obtain ⟨operands', ws'⟩ := st'
  rcases cases_of_length_eq hlength with
    ⟨rfl, rfl⟩ | ⟨x, y, rfl, rfl⟩ | ⟨x₁, x₂, xs, y₁, y₂, ys, rfl, rfl⟩
  · exact .error _
  · exact .ok trivial
  · exact .error _

/-- **What a token does depends on the shape of the stacks alone**, and what it does to the
shape. -/
theorem step (h : SameShape st st') (draw draw' : Float) (t : Token) :
    Agree SameShape (st.step draw t) (st'.step draw' t) := by
  cases t with
  | number x => exact .ok (h.addOperand x x)
  | text content => exact .ok (h.addOperand 0 0)
  | reference name => exact .ok (h.addOperand 0 0)
  | function f => exact .ok (h.addWaiting (.call f [] []))
  | openBracket =>
      refine .ok (h.addWaiting ?_)
      rw [h.length_eq]
      exact .bracket _
  | operator op =>
      exact (h.settle op.rank).bind fun st st' h => .ok (h.addWaiting (.operator op))
  | separator => exact h.endArgument
  | closeBracket => exact h.endBracket draw draw'

end SameShape

end Stacks

/-! ### Tokens of the same shape -/

namespace Token

/-- A number, a text or a reference is an operand. -/
def isOperand : Token → Bool
  | number _ | text _ | reference _ => true
  | _ => false

/-- Two tokens have the **same shape** if they are equal, or if both are operands. -/
inductive SameShape : Token → Token → Prop
  | operand {t u : Token} (ht : t.isOperand = true) (hu : u.isOperand = true) : SameShape t u
  | refl (t : Token) : SameShape t t

/-- Answers have the shape of the references in whose places they stand. -/
theorem sameShape_withAnswers (ts : List Token) (xs : List Float) :
    List.Forall₂ SameShape (withAnswers ts xs) ts := by
  induction ts generalizing xs with
  | nil => exact .nil
  | cons t ts ih =>
      by_cases href : ∃ name, t = .reference name
      · obtain ⟨name, rfl⟩ := href
        cases xs with
        | nil => exact .cons (.refl _) (ih [])
        | cons x xs => exact .cons (.operand rfl rfl) (ih xs)
      · rw [withAnswers_cons_of_ne_reference (not_exists.mp href)]
        exact .cons (.refl t) (ih xs)

end Token

/-! ### Evaluations that go along together -/

section Parallel

open Evaluation

variable {σ τ α α' β β' : Type} {R : α → α' → Prop} {S : β → β' → Prop}

/-- Two computations are **parallel** if their outcomes agree, whatever states they start from. -/
def Evaluation.Parallel (R : α → α' → Prop) (x : Evaluation σ α) (y : Evaluation τ α') : Prop :=
  ∀ s t, Agree R (x.runFrom s).1 (y.runFrom t).1

/-- Computations in a row are parallel if each of them is. -/
theorem Evaluation.Parallel.bind {x : Evaluation σ α} {y : Evaluation τ α'}
    {f : α → Evaluation σ β} {g : α' → Evaluation τ β'} (h : Parallel R x y)
    (hfg : ∀ a a', R a a' → Parallel S (f a) (g a')) : Parallel S (x >>= f) (y >>= g) := by
  intro s t
  have hxy := h s t
  rw [runFrom_bind, runFrom_bind]
  rcases hx : x.runFrom s with ⟨r, s'⟩
  rcases hy : y.runFrom t with ⟨r', t'⟩
  rw [hx, hy] at hxy
  cases hxy with
  | ok ha => exact hfg _ _ ha s' t'
  | error e => exact .error e

/-- What comes of stacks is parallel if it agrees. -/
theorem Evaluation.Parallel.ofStacks {r : Except Malformation α} {r' : Except Malformation α'}
    (h : Agree R r r') :
    Parallel R (ofStacks r : Evaluation σ α) (ofStacks r' : Evaluation τ α') := by
  intro s t
  cases h with
  | ok ha => exact .ok ha
  | error cause => exact .error _

variable {draw draw' : Float} {ask : String → Evaluation σ Float}
  {ask' : String → Evaluation τ Float} {look : String → StateM σ Float}
  {look' : String → StateM τ Float} {st st' : Stacks} {t u : Token} {ts us : List Token}

/-- An operand is put on the stack, if asking never fails. -/
theorem exists_runFrom_stepAsking (draw : Float) (answers : AnswersAs ask look)
    (ht : t.isOperand = true) (st : Stacks) (s : σ) :
    ∃ x s', (st.stepAsking draw ask t).runFrom s = (.ok (st.addOperand x), s') := by
  cases t with
  | number x => exact ⟨x, s, rfl⟩
  | text content => exact ⟨0, s, rfl⟩
  | reference name =>
      rw [Stacks.stepAsking, runFrom_bind, answers name s]
      exact ⟨_, _, rfl⟩
  | _ => cases ht

/-- Tokens of the same shape do the same to the shape of the stacks. -/
theorem Stacks.SameShape.stepAsking (h : Stacks.SameShape st st') (htu : t.SameShape u)
    (answers : AnswersAs ask look) (answers' : AnswersAs ask' look') :
    Parallel Stacks.SameShape (st.stepAsking draw ask t) (st'.stepAsking draw' ask' u) := by
  have hoperands : ∀ {t u : Token}, t.isOperand = true → u.isOperand = true →
      Parallel Stacks.SameShape (st.stepAsking draw ask t) (st'.stepAsking draw' ask' u) := by
    intro t u ht hu s s'
    obtain ⟨x, s₁, hx⟩ := exists_runFrom_stepAsking draw answers ht st s
    obtain ⟨y, s₂, hy⟩ := exists_runFrom_stepAsking draw' answers' hu st' s'
    rw [hx, hy]
    exact .ok (h.addOperand x y)
  cases htu with
  | operand ht hu => exact hoperands ht hu
  | refl =>
      by_cases href : ∃ name, t = .reference name
      · obtain ⟨name, rfl⟩ := href
        exact hoperands rfl rfl
      · have ht := not_exists.mp href
        rw [stepAsking_of_ne_reference ht, stepAsking_of_ne_reference ht]
        exact .ofStacks (h.step draw draw' t)

/-- Sequences of tokens of the same shape do the same to the shape of the stacks. -/
theorem Stacks.SameShape.foldlM (h : Stacks.SameShape st st')
    (hts : List.Forall₂ Token.SameShape ts us) (answers : AnswersAs ask look)
    (answers' : AnswersAs ask' look') :
    Parallel Stacks.SameShape (ts.foldlM (Stacks.stepAsking draw ask) st)
      (us.foldlM (Stacks.stepAsking draw' ask') st') := by
  induction hts generalizing st st' with
  | nil => exact fun _ _ => .ok h
  | cons htu _ ih =>
      rw [List.foldlM_cons, List.foldlM_cons]
      exact (h.stepAsking htu answers answers').bind fun st st' h => ih h

/-- **Tokens of the same shape agree in their outcomes**, if asking never fails. -/
theorem evaluate_parallel (draw draw' : Float) (hts : List.Forall₂ Token.SameShape ts us)
    (answers : AnswersAs ask look) (answers' : AnswersAs ask' look') :
    Parallel (fun _ _ => True) (evaluate draw ask ts) (evaluate draw' ask' us) := by
  have hempty : Stacks.SameShape {} {} := ⟨rfl, .nil⟩
  exact (hempty.foldlM hts answers answers').bind fun st st' h => .ofStacks h.result

end Parallel

end Spreadsheet
