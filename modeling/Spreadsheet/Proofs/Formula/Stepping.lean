import Spreadsheet.Proofs.Formula.Asking
import Spreadsheet.Proofs.Outcome

/-!
# What a Token Does to the Stacks

All that can come of taking in a token without an error is listed here once
(`Stacks.TakesIn`), so that what is to be shown of every evaluation need not look into the
machine again. Settling comes first for all but operands, names and opening brackets. It applies
waiting operators from the top on and stops at an entry that binds less tightly
(`Stacks.settle_induction`).

With fixed answers an evaluation is a plain fold of such steps, at the end of which one operand is
left and nothing waits (`evaluateWith_eq_ok_iff`).

## Main definitions

* `Stacks.stepWith`: one token is taken in, when references have fixed answers.
* `Stacks.TakesIn`: what can come of it.

## Main results

* `Stacks.settle_induction`: what applying an operator keeps, settling keeps.
* `Stacks.stepWith_eq_ok_iff`: a token is taken in exactly in the ways listed.
* `evaluateWith_eq`: an evaluation with fixed answers is a fold.
-/

namespace Spreadsheet

namespace Stacks

variable {rank base : ℕ} {op : Operator} {operands below : List Float} {ws : List Waiting}
  {st st' : Stacks}

/-! ### Settling -/

/-- An operand that does not lie below the base is taken. -/
theorem takeOperand_cons (x : Float) (h : innermostBase ws ≤ below.length) :
    takeOperand op ws (x :: below) = .ok (x, below) := by
  have hbase : ¬ (x :: below).length ≤ innermostBase ws := Nat.not_le.mpr (Nat.lt_succ_of_le h)
  exact if_neg hbase

/-- Where all operands lie below the base, none is taken. -/
theorem takeOperand_of_length_le (h : operands.length ≤ innermostBase ws) :
    takeOperand op ws operands = .error (.missingOperand op) :=
  if_pos h

/-- An operand is taken only from above the base. -/
theorem takeOperand_eq_ok {x : Float} (h : takeOperand op ws operands = .ok (x, below)) :
    operands = x :: below ∧ innermostBase ws ≤ below.length := by
  by_cases hbase : operands.length ≤ innermostBase ws
  · rw [takeOperand_of_length_le hbase] at h
    cases h
  · cases operands with
    | nil => exact absurd (Nat.zero_le _) hbase
    | cons y rest =>
        have hrest : innermostBase ws ≤ rest.length := Nat.le_of_lt_succ (Nat.lt_of_not_le hbase)
        rw [takeOperand_cons y hrest] at h
        cases h
        exact ⟨rfl, hrest⟩

/-- Where nothing is to be applied, nothing changes. -/
theorem applyWaiting_eq_self (h : ∀ w ∈ ws.head?, w.rank < rank) :
    applyWaiting rank operands ws = .ok ⟨operands, ws⟩ := by
  cases ws with
  | nil => rfl
  | cons top ws => exact if_pos (h top rfl)

/-- A waiting operator that binds at least as tightly as the rank takes two operands, and their
result is put in their place. -/
theorem applyWaiting_operator_eq_bind (hop : rank ≤ op.rank) :
    applyWaiting rank operands (.operator op :: ws) = (do
      let (right, operands) ← takeOperand op ws operands
      let (left, operands) ← takeOperand op ws operands
      applyWaiting rank (op.apply left right :: operands) ws) := by
  have hrank : ¬ (Waiting.operator op).rank < rank := Nat.not_lt.mpr hop
  exact if_neg hrank

/-- A call that has not met its bracket cannot be applied. -/
theorem applyWaiting_call {f : Builtin} {args : List Float}
    (h : ¬ (Waiting.call f args).rank < rank) :
    applyWaiting rank operands (.call f args :: ws) = .error (.notCalled f) :=
  if_neg h

/-- An open bracket cannot be applied. -/
theorem applyWaiting_bracket (h : ¬ (Waiting.bracket base).rank < rank) :
    applyWaiting rank operands (.bracket base :: ws) = .error .unclosedBracket :=
  if_neg h

/-- It is applied to the two operands on top, if they do not lie below the base. -/
theorem applyWaiting_operator (x y : Float) (hop : rank ≤ op.rank)
    (hbase : innermostBase ws ≤ below.length) :
    applyWaiting rank (y :: x :: below) (.operator op :: ws) =
      applyWaiting rank (op.apply x y :: below) ws := by
  have hbase' : innermostBase ws ≤ (x :: below).length := Nat.le_succ_of_le hbase
  rw [applyWaiting_operator_eq_bind hop, takeOperand_cons y hbase']
  dsimp only [bind, Except.bind]
  rw [takeOperand_cons x hbase]

/-- In no other way is such an operator got rid of. -/
theorem applyWaiting_operator_eq_ok (hop : rank ≤ op.rank)
    (h : applyWaiting rank operands (.operator op :: ws) = .ok st) :
    ∃ x y below, operands = y :: x :: below ∧ innermostBase ws ≤ below.length ∧
      applyWaiting rank (op.apply x y :: below) ws = .ok st := by
  rw [applyWaiting_operator_eq_bind hop] at h
  obtain ⟨⟨y, rest⟩, hright, hrest⟩ := exists_of_bind_eq_ok h
  obtain ⟨⟨x, below⟩, hleft, happly⟩ := exists_of_bind_eq_ok hrest
  obtain ⟨rfl, -⟩ := takeOperand_eq_ok hright
  obtain ⟨rfl, hbase⟩ := takeOperand_eq_ok hleft
  exact ⟨x, y, below, rfl, hbase, happly⟩

/-- **What applying an operator keeps, settling keeps.** At the end the entry on top, if there
is one, binds less tightly than the rank. -/
theorem settle_induction {P : Stacks → Prop}
    (happly : ∀ (op : Operator) (x y : Float) (below : List Float) (ws : List Waiting),
      innermostBase ws ≤ below.length →
        P ⟨y :: x :: below, .operator op :: ws⟩ → P ⟨op.apply x y :: below, ws⟩)
    (hst : P st) (h : st.settle rank = .ok st') :
    P st' ∧ ∀ w ∈ st'.waiting.head?, w.rank < rank := by
  obtain ⟨operands, ws⟩ := st
  rw [settle_eq] at h
  dsimp only at h
  induction ws generalizing operands with
  | nil =>
      cases h
      exact ⟨hst, fun w hw => by cases hw⟩
  | cons top ws ih =>
      by_cases htop : top.rank < rank
      · have hhead : ∀ w ∈ (top :: ws).head?, w.rank < rank := fun w hw => Option.some.inj hw ▸ htop
        rw [applyWaiting_eq_self hhead] at h
        cases h
        exact ⟨hst, hhead⟩
      · cases top with
        | operator op =>
            obtain ⟨x, y, below, rfl, hbase, hrest⟩ :=
              applyWaiting_operator_eq_ok (Nat.le_of_not_lt htop) h
            exact ih _ (happly op x y below ws hbase hst) hrest
        | call f args =>
            rw [applyWaiting_call htop] at h
            cases h
        | bracket base =>
            rw [applyWaiting_bracket htop] at h
            cases h

end Stacks

/-! ### Taking in a token -/

/-- What a token is worth as an operand, if it is one. -/
def Token.worth? (answer : String → Except FormulaError Float) : Token → Option Float
  | .number x => some x
  | .text _ => some 0
  | .reference name => (answer name).toOption
  | _ => none

namespace Stacks

variable {draw : Float} {answer : String → Except FormulaError Float} {t : Token}
  {ts : List Token} {st st' : Stacks}

/-- Takes in one token, when references have fixed answers. -/
def stepWith (draw : Float) (answer : String → Except FormulaError Float) (st : Stacks) :
    Token → Except FormulaError Stacks
  | .reference name => (answer name).map st.addOperand
  | t => (st.step draw t).mapError .malformed

/-- A token that is no reference is taken in without regard to the answers. -/
theorem stepWith_of_ne_reference (h : ∀ name, t ≠ .reference name) :
    st.stepWith draw answer t = (st.step draw t).mapError .malformed := by
  cases t with
  | reference name => exact absurd rfl (h name)
  | _ => rfl

/-- **What can come of taking in a token** without an error. -/
inductive TakesIn (draw : Float) (answer : String → Except FormulaError Float) (st : Stacks) :
    Token → Stacks → Prop where
  /-- An operand is added to the others. -/
  | operand {t : Token} {x : Float} (hx : t.worth? answer = some x) :
      TakesIn draw answer st t (st.addOperand x)
  /-- A function name waits for its bracket. -/
  | name (f : Builtin) : TakesIn draw answer st (.function f) (st.addWaiting (.call f []))
  /-- An operator waits, after those that bind at least as tightly have been applied. -/
  | operator {op : Operator} {st' : Stacks} (h : st.settle op.rank = .ok st') :
      TakesIn draw answer st (.operator op) (st'.addWaiting (.operator op))
  /-- A bracket opens above the operands that are there. -/
  | openBracket : TakesIn draw answer st .openBracket (st.addWaiting (.bracket st.operands.length))
  /-- The only operand of a bracket becomes an argument of its call. -/
  | separator {operands : List Float} {base : ℕ} {f : Builtin} {args : List Float}
      {ws : List Waiting} {x : Float}
      (h : st.settle 1 = .ok ⟨operands, .bracket base :: .call f args :: ws⟩)
      (hx : above base operands = [x]) :
      TakesIn draw answer st .separator
        ⟨below base operands, .bracket base :: .call f (args ++ [x]) :: ws⟩
  /-- A call is made. If the bracket still holds an operand, it is the last argument. -/
  | call {operands : List Float} {base : ℕ} {f : Builtin} {args : List Float} {ws : List Waiting}
      (h : st.settle 1 = .ok ⟨operands, .bracket base :: .call f args :: ws⟩)
      (hlast : (above base operands).length ≤ 1) :
      TakesIn draw answer st .closeBracket
        ⟨f.apply draw (args ++ above base operands) :: below base operands, ws⟩
  /-- A bracket that belongs to no call leaves its only operand. -/
  | group {operands : List Float} {base : ℕ} {ws : List Waiting} {x : Float}
      (h : st.settle 1 = .ok ⟨operands, .bracket base :: ws⟩)
      (hws : ∀ f args, ws.head? ≠ some (.call f args)) (hx : above base operands = [x]) :
      TakesIn draw answer st .closeBracket ⟨operands, ws⟩

/-- When and how an argument ends. -/
theorem endArgument_eq_ok_iff :
    st.endArgument = .ok st' ↔ ∃ operands base f args ws x,
      st.settle 1 = .ok ⟨operands, .bracket base :: .call f args :: ws⟩ ∧
        above base operands = [x] ∧
        st' = ⟨below base operands, .bracket base :: .call f (args ++ [x]) :: ws⟩ := by
  constructor
  · intro h
    rw [endArgument_eq] at h
    obtain ⟨⟨operands, ws⟩, hsettle, h⟩ := exists_of_bind_eq_ok h
    dsimp only at h
    split at h
    · split at h
      · cases h
      · rename_i hx
        cases h
        exact ⟨_, _, _, _, _, _, hsettle, hx, rfl⟩
      · cases h
    · cases h
  · rintro ⟨operands, base, f, args, ws, x, hsettle, hx, rfl⟩
    simp only [endArgument_eq, hsettle, bind, Except.bind, hx]

/-- When and how a bracket ends: as a call, or as an operand. -/
theorem endBracket_eq_ok_iff :
    st.endBracket draw = .ok st' ↔
      (∃ operands base f args ws,
        st.settle 1 = .ok ⟨operands, .bracket base :: .call f args :: ws⟩ ∧
          (above base operands).length ≤ 1 ∧
          st' = ⟨f.apply draw (args ++ above base operands) :: below base operands, ws⟩) ∨
      ∃ operands base ws x,
        st.settle 1 = .ok ⟨operands, .bracket base :: ws⟩ ∧
          (∀ f args, ws.head? ≠ some (.call f args)) ∧ above base operands = [x] ∧
          st' = ⟨operands, ws⟩ := by
  constructor
  · intro h
    rw [endBracket_eq] at h
    obtain ⟨⟨operands, ws⟩, hsettle, h⟩ := exists_of_bind_eq_ok h
    dsimp only at h
    split at h
    · split at h
      · cases h
      · rename_i hlast
        cases h
        refine Or.inl ⟨_, _, _, _, _, hsettle, ?_, rfl⟩
        rcases hxs : above _ operands with - | ⟨x, - | ⟨y, xs⟩⟩
        · exact Nat.zero_le 1
        · exact Nat.le_refl 1
        · exact (hlast x y xs hxs).elim
      · cases h
      · rename_i x hx hcall
        cases h
        refine Or.inr ⟨_, _, _, x, hsettle, fun f args hws => ?_, hx, rfl⟩
        obtain ⟨rest, hrest⟩ := List.head?_eq_some_iff.mp hws
        exact hcall f args rest hrest
    · cases h
  · rintro (⟨operands, base, f, args, ws, hsettle, hlast, rfl⟩ |
      ⟨operands, base, ws, x, hsettle, hws, hx, rfl⟩)
    · rcases hxs : above base operands with - | ⟨x, - | ⟨y, xs⟩⟩
      · simp only [endBracket_eq, hsettle, bind, Except.bind, hxs]
      · simp only [endBracket_eq, hsettle, bind, Except.bind, hxs]
      · rw [hxs] at hlast
        simp at hlast
    · rcases ws with - | ⟨w, ws⟩
      · simp only [endBracket_eq, hsettle, bind, Except.bind, hx]
      · cases w with
        | call f args => exact absurd rfl (hws f args)
        | operator op => simp only [endBracket_eq, hsettle, bind, Except.bind, hx]
        | bracket base => simp only [endBracket_eq, hsettle, bind, Except.bind, hx]

/-- **A token is taken in exactly in the ways listed.** -/
theorem stepWith_eq_ok_iff :
    st.stepWith draw answer t = .ok st' ↔ TakesIn draw answer st t st' := by
  constructor
  · intro h
    cases t with
    | number x =>
        cases h
        exact .operand rfl
    | text content =>
        cases h
        exact .operand rfl
    | reference name =>
        rw [stepWith] at h
        cases hname : answer name with
        | error e =>
            rw [hname] at h
            cases h
        | ok x =>
            rw [hname] at h
            cases h
            exact .operand (by rw [Token.worth?, hname]; rfl)
    | function f =>
        cases h
        exact .name f
    | openBracket =>
        cases h
        exact .openBracket
    | operator op =>
        obtain ⟨st₁, hsettle, h⟩ := exists_of_bind_eq_ok (eq_ok_of_mapError_eq_ok h)
        cases h
        exact .operator hsettle
    | separator =>
        obtain ⟨operands, base, f, args, ws, x, hsettle, hx, rfl⟩ :=
          endArgument_eq_ok_iff.mp (eq_ok_of_mapError_eq_ok h)
        exact .separator hsettle hx
    | closeBracket =>
        rcases endBracket_eq_ok_iff.mp (eq_ok_of_mapError_eq_ok h) with
          ⟨operands, base, f, args, ws, hsettle, hlast, rfl⟩ |
          ⟨operands, base, ws, x, hsettle, hws, hx, rfl⟩
        · exact .call hsettle hlast
        · exact .group hsettle hws hx
  · intro h
    cases h with
    | @operand t x hx =>
        cases t with
        | number y =>
            obtain rfl : y = x := Option.some.inj hx
            rfl
        | text content =>
            obtain rfl : 0 = x := Option.some.inj hx
            rfl
        | reference name =>
            rw [Token.worth?] at hx
            cases hname : answer name with
            | error e =>
                rw [hname] at hx
                cases hx
            | ok y =>
                rw [hname] at hx
                obtain rfl : y = x := Option.some.inj hx
                rw [stepWith, hname]
                rfl
        | _ => cases hx
    | name f => rfl
    | openBracket => rfl
    | @operator op st₁ hsettle =>
        have hstep : st.addOperator op = .ok (st₁.addWaiting (.operator op)) := by
          rw [addOperator_eq, hsettle]
          rfl
        exact congrArg (Except.mapError _) hstep
    | separator hsettle hx =>
        have hstep : st.endArgument = .ok _ :=
          endArgument_eq_ok_iff.mpr ⟨_, _, _, _, _, _, hsettle, hx, rfl⟩
        exact congrArg (Except.mapError _) hstep
    | call hsettle hlast =>
        have hstep : st.endBracket draw = .ok _ :=
          endBracket_eq_ok_iff.mpr (Or.inl ⟨_, _, _, _, _, hsettle, hlast, rfl⟩)
        exact congrArg (Except.mapError _) hstep
    | group hsettle hws hx =>
        have hstep : st.endBracket draw = .ok _ :=
          endBracket_eq_ok_iff.mpr (Or.inr ⟨_, _, _, _, hsettle, hws, hx, rfl⟩)
        exact congrArg (Except.mapError _) hstep

/-- A formula ends with one operand and with nothing that waits. -/
theorem result_eq_ok_iff {x : Float} : st.result = .ok x ↔ st.settle 0 = .ok ⟨[x], []⟩ := by
  constructor
  · intro h
    rw [result_eq] at h
    obtain ⟨⟨operands, ws⟩, hsettle, h⟩ := exists_of_bind_eq_ok h
    have hwaiting : ws = [] := by
      have hhead := (settle_induction (P := fun _ => True) (fun _ _ _ _ _ _ _ => trivial) trivial
        hsettle).2
      cases ws with
      | nil => rfl
      | cons w ws => exact absurd (hhead w rfl) (Nat.not_lt_zero _)
    dsimp only at h
    split at h
    · cases h
      rw [hsettle, hwaiting]
    · cases h
    · cases h
  · intro h
    rw [result_eq, h]
    rfl

end Stacks

/-! ### Evaluations with fixed answers -/

section Fixed

open Evaluation

variable {draw : Float} {answer : String → Except FormulaError Float} {ts : List Token}

/-- What the two stacks come to is what the computation comes to. -/
theorem runFrom_ofStacks {α σ : Type} (r : Except Malformation α) (s : σ) :
    (ofStacks r : Evaluation σ α).runFrom s = (r.mapError .malformed, s) := by
  cases r <;> rfl

/-- Taking in tokens with fixed answers is a fold. -/
theorem foldlM_runFrom_eq (ts : List Token) (st : Stacks) :
    (ts.foldlM (Stacks.stepAsking draw fun name => .ofOutcome (answer name)) st).runFrom () =
      (ts.foldlM (Stacks.stepWith draw answer) st, ()) := by
  induction ts generalizing st with
  | nil => rfl
  | cons t ts ih =>
      have hstep : (st.stepAsking draw (fun name => .ofOutcome (answer name)) t).runFrom () =
          (st.stepWith draw answer t, ()) := by
        by_cases href : ∃ name, t = .reference name
        · obtain ⟨name, rfl⟩ := href
          rw [Stacks.stepAsking, Stacks.stepWith, runFrom_bind]
          cases answer name <;> rfl
        · have hne := not_exists.mp href
          rw [Stacks.stepAsking_of_ne_reference hne, Stacks.stepWith_of_ne_reference hne,
            runFrom_ofStacks]
      rw [List.foldlM_cons, List.foldlM_cons, runFrom_bind, hstep]
      cases st.stepWith draw answer t with
      | error e => rfl
      | ok st' => exact ih st'

/-- **An evaluation with fixed answers** takes in one token after the other. -/
theorem evaluateWith_eq (ts : List Token) :
    evaluateWith draw answer ts =
      (ts.foldlM (Stacks.stepWith draw answer) {}).bind
        fun st => st.result.mapError .malformed := by
  rw [evaluateWith, evaluate, runFrom_bind, foldlM_runFrom_eq]
  cases ts.foldlM (Stacks.stepWith draw answer) {} with
  | error e => rfl
  | ok st => exact congrArg Prod.fst (runFrom_ofStacks st.result ())

/-- When a formula has a value. -/
theorem evaluateWith_eq_ok_iff {x : Float} :
    evaluateWith draw answer ts = .ok x ↔
      ∃ st, ts.foldlM (Stacks.stepWith draw answer) {} = .ok st ∧ st.settle 0 = .ok ⟨[x], []⟩ := by
  rw [evaluateWith_eq]
  constructor
  · intro h
    obtain ⟨st, hfold, hresult⟩ := exists_of_bind_eq_ok h
    exact ⟨st, hfold, Stacks.result_eq_ok_iff.mp (eq_ok_of_mapError_eq_ok hresult)⟩
  · rintro ⟨st, hfold, hsettle⟩
    rw [hfold]
    exact congrArg (Except.mapError _) (Stacks.result_eq_ok_iff.mpr hsettle)

end Fixed

end Spreadsheet
