import Spreadsheet.Proofs.Formula.Expression

/-!
# Formulas in Brackets

Tokens that have a value have the same value in brackets, wherever the brackets stand: on top of
operands and operators of the formula around them, or in the middle of an argument of a call. They
may be replaced by their value (`evaluateWith_inBrackets`). It is enough that they have a value;
that they are the written form of an expression is not required.

Read in brackets, the tokens find the stacks of the formula around them below their own
(`Stacks.inside`). Every base is raised by the number of operands that lie there, and nothing below
the bracket is reached, so each token does to the upper part what it does to stacks that begin empty
(`Stacks.TakesIn.inside`). At the end one operand lies above the bracket.

What the closing bracket does then depends on the entry below its partner. It must be no call, and
it is none if every function name on the left is directly followed by its own bracket
(`Waiting.Covered.foldlM`): in `sum 2 (3)` the bracket belongs to the function, although it is read
as if it stood alone.

## Main definitions

* `Token.CallsOpen`: every function name is directly followed by an opening bracket.
* `Token.inBrackets`: tokens in a pair of brackets.
* `Stacks.inside`: stacks in a bracket that has been opened on other stacks.
* `Waiting.Covered`: every call waits directly below its bracket.

## Main results

* `Stacks.TakesIn.inside`: a token does the same in brackets.
* `evaluate_inBrackets`: a formula in brackets has the same value, and asks for the same.
* `evaluateWith_inBrackets`: tokens in brackets may be replaced by their value.
-/

namespace Spreadsheet

/-- Every function name is directly followed by an opening bracket. -/
inductive Token.CallsOpen : List Token → Prop where
  | nil : CallsOpen []
  | token {t : Token} {ts : List Token} (ht : ∀ f, t ≠ .function f) :
      CallsOpen ts → CallsOpen (t :: ts)
  | call (f : Builtin) {ts : List Token} :
      CallsOpen ts → CallsOpen (.function f :: .openBracket :: ts)

/-- The tokens in a pair of brackets. -/
def Token.inBrackets (ts : List Token) : List Token :=
  .openBracket :: (ts ++ [.closeBracket])

variable {draw : Float} {answer : String → Except FormulaError Float} {t : Token}
  {ts : List Token} {st st' outer : Stacks} {rank : ℕ}

/-! ### Calls below their brackets -/

namespace Waiting

/-- Every call waits directly below its bracket, so that none is on top. -/
inductive Covered : List Waiting → Prop where
  | nil : Covered []
  | operator (op : Operator) {ws : List Waiting} : Covered ws → Covered (.operator op :: ws)
  | bracket (base : ℕ) {ws : List Waiting} : Covered ws → Covered (.bracket base :: ws)
  | call (base : ℕ) (f : Builtin) (args : List Float) {ws : List Waiting} :
      Covered ws → Covered (.bracket base :: .call f args :: ws)

/-- No call is on top. -/
theorem Covered.head?_ne_call {ws : List Waiting} (h : Covered ws) (f : Builtin)
    (args : List Float) : ws.head? ≠ some (.call f args) := by
  cases h <;> simp

/-- Settling keeps calls below their brackets. -/
theorem Covered.settle (h : Covered st.waiting) (hok : st.settle rank = .ok st') :
    Covered st'.waiting := by
  refine (Stacks.settle_induction (P := fun st => Covered st.waiting) ?_ h hok).1
  intro op x y below ws _ hcovered
  cases hcovered with
  | operator _ hws => exact hws

/-- A token other than a function name keeps calls below their brackets. -/
theorem Covered.takesIn (h : Covered st.waiting) (ht : ∀ f, t ≠ .function f)
    (hstep : st.TakesIn draw answer t st') : Covered st'.waiting := by
  cases hstep with
  | operand hx => exact h
  | name f => exact absurd rfl (ht f)
  | operator hsettle => exact .operator _ (h.settle hsettle)
  | openBracket => exact .bracket _ h
  | separator hsettle hx =>
      cases h.settle hsettle with
      | bracket _ hws => exact absurd rfl (hws.head?_ne_call _ _)
      | call _ _ _ hws => exact .call _ _ _ hws
  | call hsettle hlast =>
      cases h.settle hsettle with
      | bracket _ hws => exact absurd rfl (hws.head?_ne_call _ _)
      | call _ _ _ hws => exact hws
  | group hsettle hws hx =>
      cases h.settle hsettle with
      | bracket _ hws => exact hws
      | call _ f args _ => exact absurd rfl (hws f args)

/-- **Tokens keep calls below their brackets**, if every function name among them is directly
followed by an opening bracket. -/
theorem Covered.foldlM (h : Covered st.waiting) (hts : Token.CallsOpen ts)
    (hok : ts.foldlM (Stacks.stepWith draw answer) st = .ok st') : Covered st'.waiting := by
  induction hts generalizing st with
  | nil =>
      cases hok
      exact h
  | token ht _ ih =>
      rw [List.foldlM_cons] at hok
      obtain ⟨next, hstep, hrest⟩ := exists_of_bind_eq_ok hok
      exact ih (h.takesIn ht (Stacks.stepWith_eq_ok_iff.mp hstep)) hrest
  | call f _ ih => exact ih (.call _ f [] h) hok

/-- The entry when `n` more operands lie below it. -/
def raise (n : ℕ) : Waiting → Waiting
  | operator op => operator op
  | call f args => call f args
  | bracket base => bracket (base + n)

/-- An entry that is raised binds as tightly as before. -/
@[simp]
theorem rank_raise (n : ℕ) (w : Waiting) : (w.raise n).rank = w.rank := by
  cases w <;> rfl

end Waiting

/-! ### Stacks in brackets -/

namespace Stacks

/-- The stacks `st` in a bracket that has been opened on the stacks `outer`. -/
def inside (outer st : Stacks) : Stacks :=
  ⟨st.operands ++ outer.operands,
    st.waiting.map (.raise outer.operands.length) ++
      .bracket outer.operands.length :: outer.waiting⟩

/-- The innermost base is raised too, and is that of the outer bracket if there is no other. -/
theorem innermostBase_raise (n : ℕ) (ws rest : List Waiting) :
    innermostBase (ws.map (.raise n) ++ .bracket n :: rest) = innermostBase ws + n := by
  induction ws with
  | nil => exact (Nat.zero_add n).symm
  | cons w ws ih =>
      cases w with
      | bracket base => rfl
      | _ => exact ih

/-- Operands below everything else do not change what lies above a base that is raised by their
number. -/
theorem above_raise (base : ℕ) (xs ys : List Float) :
    above (base + ys.length) (xs ++ ys) = above base xs := by
  have hlength : xs.length + ys.length - (base + ys.length) = xs.length - base := by omega
  rw [above, above, List.length_append, hlength, List.take_append_of_le_length (Nat.sub_le _ _)]

/-- They lie below it, after those that lay there. -/
theorem below_raise (base : ℕ) (xs ys : List Float) :
    below (base + ys.length) (xs ++ ys) = below base xs ++ ys := by
  have hlength : xs.length + ys.length - (base + ys.length) = xs.length - base := by omega
  rw [below, below, List.length_append, hlength, List.drop_append_of_le_length (Nat.sub_le _ _)]

/-- **Settling does the same in brackets.** It does not get past the bracket. -/
theorem settle_inside (outer : Stacks) (hrank : 1 ≤ rank) (h : st.settle rank = .ok st') :
    (inside outer st).settle rank = .ok (inside outer st') := by
  obtain ⟨operands, ws⟩ := st
  rw [settle_eq] at h ⊢
  dsimp only [inside] at h ⊢
  induction ws generalizing operands with
  | nil =>
      cases h
      exact applyWaiting_eq_self fun w hw => Option.some.inj hw ▸ hrank
  | cons top ws ih =>
      by_cases htop : top.rank < rank
      · have hhead : ∀ w ∈ (top :: ws).head?, w.rank < rank :=
          fun w hw => Option.some.inj hw ▸ htop
        rw [applyWaiting_eq_self hhead] at h
        cases h
        exact applyWaiting_eq_self fun w hw => by
          rw [← Option.some.inj hw, Waiting.rank_raise]
          exact htop
      · cases top with
        | operator op =>
            have hop : rank ≤ op.rank := Nat.le_of_not_lt htop
            obtain ⟨x, y, below, rfl, hbase, hrest⟩ := applyWaiting_operator_eq_ok hop h
            have hraised : innermostBase (ws.map (.raise outer.operands.length) ++
                .bracket outer.operands.length :: outer.waiting) ≤
                (below ++ outer.operands).length := by
              rw [innermostBase_raise, List.length_append]
              omega
            exact (applyWaiting_operator x y hop hraised).trans (ih _ hrest)
        | call f args =>
            rw [applyWaiting_call htop] at h
            cases h
        | bracket base =>
            rw [applyWaiting_bracket htop] at h
            cases h

/-- **A token does the same in brackets** as it does to stacks of its own. -/
theorem TakesIn.inside (h : st.TakesIn draw answer t st') (outer : Stacks) :
    (inside outer st).TakesIn draw answer t (inside outer st') := by
  cases h with
  | operand hx => exact .operand hx
  | name f => exact .name f
  | @operator op st₁ hsettle => exact .operator (settle_inside outer op.one_le_rank hsettle)
  | openBracket =>
      have hbase : (inside outer st).operands.length =
          st.operands.length + outer.operands.length := List.length_append
      have hstep : (inside outer st).TakesIn draw answer .openBracket _ := .openBracket
      rw [hbase] at hstep
      exact hstep
  | @separator operands base f args ws x hsettle hx =>
      have hstep : (inside outer st).TakesIn draw answer .separator _ :=
        .separator (settle_inside outer (Nat.le_refl 1) hsettle)
          ((above_raise base operands outer.operands).trans hx)
      rw [below_raise] at hstep
      exact hstep
  | @call operands base f args ws hsettle hlast =>
      have hstep : (inside outer st).TakesIn draw answer .closeBracket _ :=
        .call (settle_inside outer (Nat.le_refl 1) hsettle)
          ((above_raise base operands outer.operands).symm ▸ hlast)
      rw [below_raise, above_raise] at hstep
      exact hstep
  | @group operands base ws x hsettle hws hx =>
      refine .group (settle_inside outer (Nat.le_refl 1) hsettle) ?_
        ((above_raise base operands outer.operands).trans hx)
      cases ws with
      | nil => exact nofun
      | cons w ws =>
          cases w with
          | call f args => exact absurd rfl (hws f args)
          | operator op => exact nofun
          | bracket base => exact nofun

/-- Tokens do the same in brackets as they do on their own. -/
theorem foldlM_inside (h : ts.foldlM (stepWith draw answer) st = .ok st') (outer : Stacks) :
    ts.foldlM (stepWith draw answer) (inside outer st) = .ok (inside outer st') := by
  induction ts generalizing st with
  | nil =>
      cases h
      rfl
  | cons t ts ih =>
      rw [List.foldlM_cons] at h ⊢
      obtain ⟨next, hstep, hrest⟩ := exists_of_bind_eq_ok h
      rw [stepWith_eq_ok_iff.mpr ((stepWith_eq_ok_iff.mp hstep).inside outer)]
      exact ih hrest

/-- What the end of a formula applies, a closing bracket applies as well. -/
theorem settle_one_of_settle_zero {xs : List Float} (h : st.settle 0 = .ok ⟨xs, []⟩) :
    st.settle 1 = .ok ⟨xs, []⟩ := by
  obtain ⟨operands, ws⟩ := st
  rw [settle_eq] at h ⊢
  dsimp only at h ⊢
  induction ws generalizing operands with
  | nil => exact h
  | cons w ws ih =>
      cases w with
      | operator op =>
          obtain ⟨x, y, below, rfl, hbase, hrest⟩ := applyWaiting_operator_eq_ok (Nat.zero_le _) h
          exact (applyWaiting_operator x y op.one_le_rank hbase).trans (ih _ hrest)
      | call f args => cases h
      | bracket base => cases h

/-- A bracket in which a formula has come to its end leaves the value as an operand. -/
theorem takesIn_closeBracket_inside {x : Float} (h : st.settle 0 = .ok ⟨[x], []⟩)
    (hcall : ∀ f args, outer.waiting.head? ≠ some (.call f args)) :
    (inside outer st).TakesIn draw answer .closeBracket (outer.addOperand x) := by
  have habove : above outer.operands.length (x :: outer.operands) = [x] := by
    have hraised := above_raise 0 [x] outer.operands
    rwa [Nat.zero_add] at hraised
  exact .group (settle_inside outer (Nat.le_refl 1) (settle_one_of_settle_zero h)) hcall habove

/-- **Tokens in brackets add their value** to the operands, wherever the brackets are opened. -/
theorem foldlM_inBrackets {x : Float} (h : evaluateWith draw answer ts = .ok x)
    (hcall : ∀ f args, st.waiting.head? ≠ some (.call f args)) :
    (Token.inBrackets ts).foldlM (stepWith draw answer) st = .ok (st.addOperand x) := by
  obtain ⟨last, hfold, hsettle⟩ := evaluateWith_eq_ok_iff.mp h
  have hopen : st.stepWith draw answer .openBracket = .ok (inside st {}) := rfl
  rw [Token.inBrackets, List.foldlM_cons, hopen]
  show (ts ++ [Token.closeBracket]).foldlM (stepWith draw answer) (inside st {}) = _
  rw [List.foldlM_append, foldlM_inside hfold]
  show [Token.closeBracket].foldlM (stepWith draw answer) (inside st last) = _
  rw [List.foldlM_cons, stepWith_eq_ok_iff.mpr (takesIn_closeBracket_inside hsettle hcall)]
  rfl

/-! ### Asking in brackets -/

/-- What a token does to the stacks is what it does with answers that are all zero. -/
theorem stepWith_zero (st : Stacks) (draw : Float) (t : Token) :
    st.stepWith draw (fun _ => .ok 0) t = (st.step draw t).mapError .malformed := by
  cases t <;> rfl

/-- What a token does by itself is what it does with references that are worth zero. -/
theorem step_eq_ok_iff :
    st.step draw t = .ok st' ↔ st.TakesIn draw (fun _ => .ok 0) t st' := by
  rw [← stepWith_eq_ok_iff, stepWith_zero]
  cases st.step draw t <;> simp [Except.mapError]

end Stacks

section Asking

open Evaluation Stacks

variable {σ : Type} {ask : String → Evaluation σ Float} {s s' : σ}

/-- **Tokens ask for the same in brackets**, and they do the same. -/
theorem Takes.inside (h : Takes draw ask ts st s st' s') (outer : Stacks) :
    Takes draw ask ts (inside outer st) s (inside outer st') s' := by
  induction ts generalizing st s with
  | nil =>
      cases h
      rfl
  | cons t ts ih =>
      rw [Takes, List.foldlM_cons] at h
      obtain ⟨next, s₁, hstep, hrest⟩ := runFrom_bind_eq_ok h
      suffices hfirst : Takes draw ask [t] (Stacks.inside outer st) s (Stacks.inside outer next) s₁
        from hfirst.append (ih hrest)
      by_cases href : ∃ name, t = .reference name
      · obtain ⟨name, rfl⟩ := href
        obtain ⟨x, s₂, hask, hpure⟩ := runFrom_bind_eq_ok hstep
        cases hpure
        exact .reference hask
      · have ht := not_exists.mp href
        rw [stepAsking_of_ne_reference ht, runFrom_ofStacks] at hstep
        obtain ⟨hok, rfl⟩ := Prod.mk.inj hstep
        have htakes := step_eq_ok_iff.mp (eq_ok_of_mapError_eq_ok hok)
        exact .of_step ht (step_eq_ok_iff.mpr (htakes.inside outer))

/-- **A formula in brackets** has the value that it has without them, and asks for the same. -/
theorem evaluate_inBrackets {x : Float} (h : (evaluate draw ask ts).runFrom s = (.ok x, s')) :
    (evaluate draw ask (Token.inBrackets ts)).runFrom s = (.ok x, s') := by
  obtain ⟨st, s₁, hfold, hresult⟩ := runFrom_bind_eq_ok h
  rw [runFrom_ofStacks] at hresult
  obtain ⟨hok, rfl⟩ := Prod.mk.inj hresult
  have hsettle := result_eq_ok_iff.mp (eq_ok_of_mapError_eq_ok hok)
  have hclose : (inside {} st).step draw .closeBracket = .ok (addOperand x {}) :=
    step_eq_ok_iff.mpr (takesIn_closeBracket_inside hsettle nofun)
  have hopen : Takes draw ask [.openBracket] {} s (inside {} {}) s := .of_step nofun rfl
  have hread : Takes draw ask (Token.inBrackets ts) {} s (addOperand x {}) s₁ :=
    hopen.append ((Takes.inside hfold {}).append (.of_step nofun hclose))
  rw [evaluate, runFrom_bind, hread]
  rfl

end Asking

/-! ### Replacing tokens by their value -/

/-- Tokens may be replaced by others that do the same to the stacks they find. -/
theorem evaluateWith_append_congr {pre us us' : List Token} (post : List Token)
    (h : ∀ st, pre.foldlM (Stacks.stepWith draw answer) {} = .ok st →
      us.foldlM (Stacks.stepWith draw answer) st = us'.foldlM (Stacks.stepWith draw answer) st) :
    evaluateWith draw answer (pre ++ us ++ post) =
      evaluateWith draw answer (pre ++ us' ++ post) := by
  simp only [evaluateWith_eq, List.foldlM_append]
  cases hpre : pre.foldlM (Stacks.stepWith draw answer) {} with
  | error e => rfl
  | ok st => simp only [bind, Except.bind, h st hpre]

/-- **Tokens in brackets may be replaced by their value**, whatever comes of the formula around
them. -/
theorem evaluateWith_inBrackets {pre : List Token} (post : List Token) {x : Float}
    (hpre : Token.CallsOpen pre) (h : evaluateWith draw answer ts = .ok x) :
    evaluateWith draw answer (pre ++ Token.inBrackets ts ++ post) =
      evaluateWith draw answer (pre ++ [.number x] ++ post) :=
  evaluateWith_append_congr post fun _ hfold =>
    Stacks.foldlM_inBrackets h (Waiting.Covered.nil.foldlM hpre hfold).head?_ne_call

/-- A reference may be replaced by its value. -/
theorem evaluateWith_reference {name : String} (pre post : List Token) {x : Float}
    (h : answer name = .ok x) :
    evaluateWith draw answer (pre ++ [.reference name] ++ post) =
      evaluateWith draw answer (pre ++ [.number x] ++ post) := by
  refine evaluateWith_append_congr post fun st _ => ?_
  have hstep : st.stepWith draw answer (.reference name) = st.stepWith draw answer (.number x) := by
    rw [Stacks.stepWith, h]
    rfl
  rw [List.foldlM_cons, hstep]
  rfl

end Spreadsheet
