import Spreadsheet.Proofs.Formula.Chain
import Spreadsheet.Proofs.Formula.Stepping

/-!
# Expressions

The tokens of a well-formed formula are the written form of an expression: a chain of
operands with operators between them, where an operand may be a bracketed expression or a
call with expressions for its arguments. This module gives expressions a value that does
not speak of stacks, and shows that evaluating the written form yields it.

The proof follows the expression. While a chain is being read, the two stacks hold what
they held when the chain began, and above it the operators that wait, in strictly
decreasing ranks from the top (`Stacks.awaiting`). An operand adds one number on top of
that (`Operand.takes`); an operator applies some of those that wait, which does not change
the value of the chain (`Chain.value_applyBack`).

## Main definitions

* `Operand`, `Expression`, `Arguments`: the syntax, and `tokens`: how it is written.
* `Expression.value`: the value, when references are looked up in written order.
* `Takes`: the effect of reading tokens on the stacks.

## Main results

* `Expression.takes`: what reading an expression does to the stacks.
* `Expression.evaluate_tokens`: evaluating an expression yields its value.
-/

namespace Spreadsheet

/-! ### Syntax -/

mutual

/-- An operand of an expression. -/
inductive Operand where
  /-- A number. -/
  | number (x : Float)
  /-- A text. -/
  | text (content : String)
  /-- A reference to a cell. -/
  | reference (name : String)
  /-- An expression in brackets. -/
  | bracketed (e : Expression)
  /-- A call of a function. -/
  | call (f : Builtin) (args : Arguments)

/-- Operands with operators between them, in written order. The way in which operators
group their operands is no part of the syntax. -/
inductive Expression where
  /-- One operand. -/
  | single (x : Operand)
  /-- An operand, an operator, and what follows. -/
  | joined (x : Operand) (op : Operator) (rest : Expression)

/-- The arguments of a call. A separator may follow the last one, which makes `none` the
rest after it. -/
inductive Arguments where
  /-- Nothing. -/
  | none
  /-- An argument with nothing behind it. -/
  | last (e : Expression)
  /-- An argument, a separator, and what follows. -/
  | more (e : Expression) (rest : Arguments)

end

mutual

/-- The tokens of an operand. -/
def Operand.tokens : Operand → List Token
  | .number x => [.number x]
  | .text content => [.text content]
  | .reference name => [.reference name]
  | .bracketed e => .openBracket :: (e.tokens ++ [.closeBracket])
  | .call f args => .function f :: .openBracket :: (args.tokens ++ [.closeBracket])

/-- The tokens of an expression. -/
def Expression.tokens : Expression → List Token
  | .single x => x.tokens
  | .joined x op rest => x.tokens ++ .operator op :: rest.tokens

/-- The tokens of the arguments of a call. -/
def Arguments.tokens : Arguments → List Token
  | .none => []
  | .last e => e.tokens
  | .more e rest => e.tokens ++ .separator :: rest.tokens

end

/-! ### Values -/

section Value

variable {σ : Type} (draw : Float) (look : String → StateM σ Float)

mutual

/-- The value of an operand. A text counts as zero. -/
def Operand.value : Operand → StateM σ Float
  | .number x => return x
  | .text _ => return 0
  | .reference name => look name
  | .bracketed e => return (← e.chain).value
  | .call f args => return f.apply draw (← args.values)

/-- The values of an expression's operands, with its operators between them. -/
def Expression.chain : Expression → StateM σ Chain
  | .single x => return ⟨← x.value, []⟩
  | .joined x op rest => do
    let first ← x.value
    let c ← rest.chain
    return ⟨first, (op, c.first) :: c.rest⟩

/-- The values of arguments, in written order. -/
def Arguments.values : Arguments → StateM σ (List Float)
  | .none => return []
  | .last e => return [(← e.chain).value]
  | .more e rest => do
    let c ← e.chain
    return c.value :: (← rest.values)

end

/-- The **value of an expression**: the value of the chain of its operands. -/
def Expression.value (e : Expression) : StateM σ Float :=
  return (← e.chain draw look).value

end Value

/-! ### The stacks in the middle of a chain -/

namespace Stacks

/-- The stacks when an operand of a chain is due: above what lay there when the chain
began are the operators that wait and their left operands. -/
def awaiting (st : Stacks) (before : List (Float × Operator)) : Stacks :=
  ⟨before.map Prod.fst ++ st.operands, before.map (fun p => .operator p.2) ++ st.waiting⟩

/-- A chain can begin on the stacks: if anything waits on top, it is an open bracket, and
there are as many operands as lay below it. -/
structure Fresh (st : Stacks) : Prop where
  /-- Only a bracket is on top. -/
  top : ∀ w ∈ st.waiting.head?, ∃ base, w = .bracket base
  /-- The operands of the bracket are there. -/
  base_le : innermostBase st.waiting ≤ st.operands.length

/-- Waiting operators have no base. -/
@[simp]
theorem innermostBase_operators (before : List (Float × Operator)) (ws : List Waiting) :
    innermostBase (before.map (fun p => .operator p.2) ++ ws) = innermostBase ws := by
  induction before with
  | nil => rfl
  | cons p before ih => exact ih

/-- Settling a rank in the middle of a chain applies the waiting operators of that rank,
and nothing below them. -/
theorem settle_awaiting {st : Stacks} {rank : ℕ}
    (hbase : innermostBase st.waiting ≤ st.operands.length)
    (hstop : ∀ w ∈ st.waiting.head?, w.rank < rank) (before : List (Float × Operator))
    (y : Float) :
    ((st.awaiting before).addOperand y).settle rank =
      .ok ((st.awaiting (Chain.applyBack rank before y).1).addOperand
        (Chain.applyBack rank before y).2) := by
  induction before generalizing y with
  | nil =>
      obtain ⟨operands, waiting⟩ := st
      cases waiting with
      | nil => rfl
      | cons w ws => exact if_pos (hstop w rfl)
  | cons p before ih =>
      obtain ⟨x, op⟩ := p
      by_cases hop : op.rank < rank
      · rw [Chain.applyBack, if_pos hop]
        exact if_pos hop
      · have hbelow : innermostBase (st.awaiting before).waiting ≤
            (st.awaiting before).operands.length := by
          simp only [awaiting, innermostBase_operators, List.length_append]
          omega
        rw [Chain.applyBack, if_neg hop, ← ih (op.apply x y)]
        exact applyWaiting_operator x y (Nat.le_of_not_lt hop) hbelow

/-- At the end of a chain the value of the chain is left on top of what lay there when it
began. -/
theorem settle_eq_value {st : Stacks} {rank : ℕ} {before : List (Float × Operator)}
    {y : Float}
    (hbase : innermostBase st.waiting ≤ st.operands.length)
    (hstop : ∀ w ∈ st.waiting.head?, w.rank < rank) (hrank : rank ≤ 1)
    (hbefore : Chain.Ranked before) :
    ((st.awaiting before).addOperand y).settle rank =
      .ok (st.addOperand (Chain.after before ⟨y, []⟩).value) := by
  rw [settle_awaiting hbase hstop, Chain.applyBack_eq_nil hbefore hrank,
    Chain.applyBack_snd hbefore hrank]
  rfl

/-! ### Brackets and calls -/

/-- Operands that were added to as many as the base says lie above it. -/
@[simp]
theorem above_append (xs operands : List Float) :
    above operands.length (xs ++ operands) = xs := by
  simp [above]

/-- Those that were there lie below it. -/
@[simp]
theorem below_append (xs operands : List Float) :
    below operands.length (xs ++ operands) = operands := by
  simp [below]

/-- A separator moves the only operand of a bracket to the arguments of its call. -/
theorem endArgument_of_settle {st : Stacks} {x : Float} {operands : List Float} {f : Builtin}
    {args : List Float} {ws : List Waiting}
    (h : st.settle 1 =
      .ok ⟨[x] ++ operands, .bracket operands.length :: .call f args :: ws⟩) :
    st.endArgument =
      .ok ⟨operands, .bracket operands.length :: .call f (args ++ [x]) :: ws⟩ := by
  refine endArgument_eq_ok_iff.mpr ⟨_, _, f, args, ws, x, h, above_append _ _, ?_⟩
  rw [below_append]

/-- A closing bracket that belongs to a call makes it, with the last argument if the
bracket still holds an operand. -/
theorem endBracket_call {draw : Float} {st : Stacks} {last operands : List Float}
    {f : Builtin} {args : List Float} {ws : List Waiting} (hlast : last.length ≤ 1)
    (h : st.settle 1 =
      .ok ⟨last ++ operands, .bracket operands.length :: .call f args :: ws⟩) :
    st.endBracket draw = .ok ⟨f.apply draw (args ++ last) :: operands, ws⟩ := by
  refine endBracket_eq_ok_iff.mpr (Or.inl ⟨_, _, f, args, ws, h, ?_, ?_⟩)
  · rwa [above_append]
  · rw [above_append, below_append]

/-- A closing bracket that belongs to no call leaves its only operand. -/
theorem endBracket_group {draw : Float} {st : Stacks} {x : Float} {operands : List Float}
    {ws : List Waiting} (hws : ∀ f args, ws.head? ≠ some (.call f args))
    (h : st.settle 1 = .ok ⟨[x] ++ operands, .bracket operands.length :: ws⟩) :
    st.endBracket draw = .ok ⟨x :: operands, ws⟩ :=
  endBracket_eq_ok_iff.mpr (Or.inr ⟨_, _, ws, x, h, hws, above_append _ _, rfl⟩)

/-- What is on top where a chain can begin binds less tightly than every operator. -/
theorem Fresh.rank_lt {st : Stacks} (hst : st.Fresh) :
    ∀ w ∈ st.waiting.head?, w.rank < 1 := by
  intro w hw
  obtain ⟨base, rfl⟩ := hst.top w hw
  exact Nat.zero_lt_one

/-- A chain can begin inside a bracket that has just been opened. -/
theorem fresh_bracket (operands : List Float) (ws : List Waiting) :
    Fresh ⟨operands, .bracket operands.length :: ws⟩ where
  top := fun _ hw => ⟨_, (Option.some.inj hw).symm⟩
  base_le := Nat.le_refl _

/-- A chain can begin on empty stacks. -/
theorem fresh_nil : Fresh {} where
  top := fun w hw => absurd hw (by simp)
  base_le := Nat.le_refl _

/-- No call is on top where an operand of a chain is due. -/
theorem Fresh.not_call {st : Stacks} (hst : st.Fresh) (before : List (Float × Operator))
    (f : Builtin) (args : List Float) :
    (st.awaiting before).waiting.head? ≠ some (.call f args) := by
  cases before with
  | nil =>
      intro h
      obtain ⟨base, hbase⟩ := hst.top _ h
      exact absurd hbase (by simp)
  | cons p before => simp [awaiting]

end Stacks

/-! ### Reading tokens -/

section Reading

open Stacks

variable {σ : Type} {draw : Float} {ask : String → Evaluation σ Float}
  {look : String → StateM σ Float}

/-- Asking for a cell **answers as** a lookup does: it never fails, and it has the same value
and the same effect on the state. -/
def AnswersAs (ask : String → Evaluation σ Float) (look : String → StateM σ Float) : Prop :=
  ∀ name s, (ask name).runFrom s = (.ok ((look name).run s).1, ((look name).run s).2)

/-- A formula without a value is malformed, if asking for a cell never fails. -/
theorem AnswersAs.eq_malformed (answers : AnswersAs ask look) {ts : List Token} {s s' : σ}
    {e : FormulaError} (h : (evaluate draw ask ts).runFrom s = (.error e, s')) :
    ∃ cause, e = .malformed cause := by
  rcases ask_of_evaluate_eq_error h with hcause | ⟨name, -, s₁, s₂, hask⟩
  · exact hcause
  · rw [answers name s₁] at hask
    cases hask

/-- Reading the tokens `ts` leads from the stacks `st` and the state `s` to `st'` and
`s'`, without an error. -/
def Takes (draw : Float) (ask : String → Evaluation σ Float) (ts : List Token)
    (st : Stacks) (s : σ) (st' : Stacks) (s' : σ) : Prop :=
  (ts.foldlM (Stacks.stepAsking draw ask) st).runFrom s = (.ok st', s')

/-- Tokens are read one after the other. -/
theorem Takes.append {ts ts' : List Token} {st st' st'' : Stacks} {s s' s'' : σ}
    (h : Takes draw ask ts st s st' s') (h' : Takes draw ask ts' st' s' st'' s'') :
    Takes draw ask (ts ++ ts') st s st'' s'' := by
  rw [Takes] at h
  rw [Takes, List.foldlM_append, Evaluation.runFrom_bind, h]
  exact h'

/-- A token that is no reference changes the stacks and nothing else. -/
theorem Takes.of_step {t : Token} {st st' : Stacks} {s : σ}
    (ht : ∀ name, t ≠ .reference name) (h : st.step draw t = .ok st') :
    Takes draw ask [t] st s st' s := by
  rw [Takes, List.foldlM_cons, Stacks.stepAsking_of_ne_reference ht, h]
  rfl

/-- A reference adds what it is looked up as. -/
theorem Takes.reference {name : String} {st : Stacks} {s s' : σ} {x : Float}
    (h : (ask name).runFrom s = (.ok x, s')) :
    Takes draw ask [.reference name] st s (st.addOperand x) s' := by
  rw [Takes, List.foldlM_cons, Stacks.stepAsking, Evaluation.runFrom_bind,
    Evaluation.runFrom_bind, h]
  rfl

/-- Reading the tokens `ts` of a chain while the operators `before` wait above the stacks
`st` leaves operators that wait and a number in their place, and does not change the value
of the whole: what was waiting with the chain `c` behind it. -/
def TakesChain (draw : Float) (ask : String → Evaluation σ Float) (ts : List Token)
    (st : Stacks) (before : List (Float × Operator)) (s : σ) (c : Chain) (s' : σ) : Prop :=
  ∃ before' y, Chain.Ranked before' ∧
    Takes draw ask ts (st.awaiting before) s ((st.awaiting before').addOperand y) s' ∧
    (Chain.after before' ⟨y, []⟩).value = (Chain.after before c).value

/-- After a whole chain has been read, settling leaves its value. -/
theorem TakesChain.settle {ts : List Token} {st : Stacks} {s s' : σ} {c : Chain} {rank : ℕ}
    (h : TakesChain draw ask ts st [] s c s')
    (hbase : innermostBase st.waiting ≤ st.operands.length)
    (hstop : ∀ w ∈ st.waiting.head?, w.rank < rank) (hrank : rank ≤ 1) :
    ∃ st', Takes draw ask ts st s st' s' ∧ st'.settle rank = .ok (st.addOperand c.value) := by
  obtain ⟨before, y, hbefore, hread, hvalue⟩ := h
  have hsettle := settle_eq_value (y := y) hbase hstop hrank hbefore
  rw [hvalue] at hsettle
  exact ⟨_, hread, hsettle⟩

/-- A chain inside a bracket ends in its value when the bracket or the argument ends. -/
theorem TakesChain.settle_bracket {ts : List Token} {operands : List Float}
    {ws : List Waiting} {s s' : σ} {c : Chain}
    (h : TakesChain draw ask ts ⟨operands, .bracket operands.length :: ws⟩ [] s c s') :
    ∃ st', Takes draw ask ts ⟨operands, .bracket operands.length :: ws⟩ s st' s' ∧
      st'.settle 1 = .ok ⟨[c.value] ++ operands, .bracket operands.length :: ws⟩ :=
  have hfresh := fresh_bracket operands ws
  h.settle hfresh.base_le hfresh.rank_lt (Nat.le_refl 1)

/-- An operator in the middle of a chain waits behind those that bind less tightly; the
others are applied. -/
theorem Takes.operator {op : Operator} {st : Stacks} (hst : st.Fresh)
    (before : List (Float × Operator)) (y : Float) (s : σ) :
    Takes draw ask [.operator op] ((st.awaiting before).addOperand y) s
      (st.awaiting (((Chain.applyBack op.rank before y).2, op) ::
        (Chain.applyBack op.rank before y).1)) s := by
  have hstop : ∀ w ∈ st.waiting.head?, w.rank < op.rank := fun w hw =>
    Nat.lt_of_lt_of_le (hst.rank_lt w hw) op.one_le_rank
  refine .of_step (by simp) ?_
  show addOperator op _ = _
  simp only [addOperator_eq, settle_awaiting hst.base_le hstop, bind, Except.bind]
  rfl

mutual

/-- **An operand adds its value** to the operands, on any stacks where no call waits for
its bracket. -/
theorem Operand.takes (answers : AnswersAs ask look) (x : Operand) {st : Stacks} (s : σ)
    (hst : ∀ f args, st.waiting.head? ≠ some (.call f args)) :
    Takes draw ask x.tokens st s (st.addOperand ((x.value draw look).run s).1)
      ((x.value draw look).run s).2 := by
  cases x with
  | number x => exact .of_step (by simp) rfl
  | text content => exact .of_step (by simp) rfl
  | reference name => exact .reference (answers name s)
  | bracketed e =>
      have hopen : Takes draw ask [.openBracket] st s
          (st.addWaiting (.bracket st.operands.length)) s := .of_step (by simp) rfl
      have hfresh := fresh_bracket st.operands st.waiting
      obtain ⟨st', hread, hsettle⟩ := (e.takes answers s hfresh .nil).settle_bracket
      exact (hopen.append hread).append (.of_step (by simp) (endBracket_group hst hsettle))
  | call f args =>
      have hname : Takes draw ask [.function f] st s (st.addWaiting (.call f [])) s :=
        .of_step (by simp) rfl
      have hopen : Takes draw ask [.openBracket] (st.addWaiting (.call f [])) s
          ⟨st.operands, .bracket st.operands.length :: .call f [] :: st.waiting⟩ s :=
        .of_step (by simp) rfl
      exact (hname.append hopen).append (args.takes answers s [])

/-- **An expression reads as its chain**, where a chain can begin or is under way. -/
theorem Expression.takes (answers : AnswersAs ask look) (e : Expression) {st : Stacks} (s : σ)
    (hst : st.Fresh) {before : List (Float × Operator)} (hbefore : Chain.Ranked before) :
    TakesChain draw ask e.tokens st before s ((e.chain draw look).run s).1
      ((e.chain draw look).run s).2 := by
  cases e with
  | single x => exact ⟨before, _, hbefore, x.takes answers s (hst.not_call before), rfl⟩
  | joined x op rest =>
      have hx := x.takes answers s (hst.not_call before)
      generalize hy : ((x.value draw look).run s).1 = y at hx
      obtain ⟨before', z, hbefore', hrest, hvalue⟩ :=
        rest.takes answers _ hst (Chain.ranked_cons_applyBack op y hbefore)
      have hread := hx.append ((Takes.operator hst before y _).append hrest)
      refine ⟨before', z, hbefore', hread, hvalue.trans ?_⟩
      rw [Chain.after, Chain.value_applyBack hbefore]
      · subst hy
        rfl
      · intro o ho
        exact Nat.le_of_eq (congrArg Operator.rank (Option.some.inj ho).symm)

/-- **What reading the arguments of a call does**, up to its closing bracket: the call is
made with the arguments that have been read before and these. -/
theorem Arguments.takes (answers : AnswersAs ask look) (args : Arguments) {f : Builtin}
    {operands : List Float} {ws : List Waiting} (s : σ) (done : List Float) :
    Takes draw ask (args.tokens ++ [.closeBracket])
      ⟨operands, .bracket operands.length :: .call f done :: ws⟩ s
      ⟨f.apply draw (done ++ ((args.values draw look).run s).1) :: operands, ws⟩
      ((args.values draw look).run s).2 := by
  have hfresh := fresh_bracket operands (.call f done :: ws)
  cases args with
  | none => exact .of_step (by simp) (endBracket_call (Nat.zero_le 1) rfl)
  | last e =>
      obtain ⟨st', hread, hsettle⟩ := (e.takes answers s hfresh .nil).settle_bracket
      exact hread.append (.of_step (by simp) (endBracket_call (Nat.le_refl 1) hsettle))
  | more e rest =>
      obtain ⟨st', hread, hsettle⟩ := (e.takes answers s hfresh .nil).settle_bracket
      have htokens : (Arguments.more e rest).tokens ++ [.closeBracket] =
          e.tokens ++ ([.separator] ++ (rest.tokens ++ [.closeBracket])) :=
        List.append_assoc ..
      have hvalues : done ++ (((Arguments.more e rest).values draw look).run s).1 =
          done ++ [((e.chain draw look).run s).1.value] ++
            ((rest.values draw look).run ((e.chain draw look).run s).2).1 :=
        List.append_cons ..
      rw [htokens, hvalues]
      refine hread.append (.append (.of_step (by simp) (endArgument_of_settle hsettle)) ?_)
      exact rest.takes answers _ _

end

/-- **Evaluating an expression yields its value**, if asking for a cell never fails: its
operators bind by their ranks and from left to right, and its calls get the values of
their arguments. A call without arguments takes no operand, whatever the stacks hold.

How operators bind is what the value of a chain says. A chain of one number is worth that
number. In any other chain the operator of the lowest rank, and of several the last one,
is applied to the values of both sides. -/
theorem Expression.evaluate_tokens (answers : AnswersAs ask look) (e : Expression) (s : σ) :
    (evaluate draw ask e.tokens).runFrom s =
        (.ok ((e.value draw look).run s).1, ((e.value draw look).run s).2) ∧
      (∀ (f : Builtin) (st : Stacks),
        [.function f, .openBracket, .closeBracket].foldlM (Stacks.step draw) st =
          .ok (st.addOperand (f.apply draw []))) ∧
      (∀ x, Chain.value ⟨x, []⟩ = x) ∧
      ∀ (op : Operator) (x y : Float) (left right : List (Operator × Float)),
        (∀ q ∈ left, op.rank ≤ q.1.rank) → (∀ q ∈ right, op.rank < q.1.rank) →
          Chain.value ⟨x, left ++ (op, y) :: right⟩ =
            op.apply (Chain.value ⟨x, left⟩) (Chain.value ⟨y, right⟩) := by
  refine ⟨?_, ?_, Chain.value_single, fun op x y left right => Chain.value_split⟩
  · have hchain : TakesChain draw ask e.tokens {} [] s ((e.chain draw look).run s).1
        ((e.chain draw look).run s).2 := e.takes answers s fresh_nil .nil
    obtain ⟨st, hread, hsettle⟩ :=
      hchain.settle (Nat.le_refl 0) (fun w hw => absurd hw (by simp)) (Nat.zero_le 1)
    have hresult : st.result = .ok ((e.chain draw look).run s).1.value := by
      simp only [result_eq, hsettle, bind, Except.bind]
      rfl
    rw [evaluate, Evaluation.runFrom_bind, hread]
    show (Evaluation.ofStacks st.result).runFrom _ = _
    rw [hresult]
    rfl
  · intro f st
    have hclose : endBracket draw
        ⟨st.operands, .bracket st.operands.length :: .call f [] :: st.waiting⟩ =
          .ok ⟨f.apply draw ([] ++ []) :: st.operands, st.waiting⟩ :=
      endBracket_call (Nat.zero_le 1) rfl
    show (endBracket draw
      ⟨st.operands, .bracket st.operands.length :: .call f [] :: st.waiting⟩ >>= pure) = _
    rw [hclose]
    rfl

end Reading

/-- Notes the names that are asked for; a reference is worth the number of those before. -/
def lookNoting (name : String) : StateM (List String) Float := do
  let asked ← get
  set (asked ++ [name])
  return asked.length.toFloat

/-- The expression `10-B1-3*max(A1;(B1-8)/2;)+sum()`. -/
def Expression.sample : Expression :=
  .joined (.number 10) .subtract <|
  .joined (.reference "B1") .subtract <|
  .joined (.number 3) .multiply <|
  .joined (.call .max <|
    .more (.single (.reference "A1")) <|
    .more (.joined (.bracketed (.joined (.reference "B1") .subtract (.single (.number 8))))
      .divide (.single (.number 2))) .none) .add <|
  .single (.call .sum .none)

/-- Asking for a cell as `lookNoting` answers. -/
def askNoting (name : String) : Evaluation (List String) Float :=
  ExceptT.lift (lookNoting name)

/-- The expression `10-B1-3*max(A1;(B1-8)/2;)+sum()`, whose references are worth 0, 1 and 2
in turn, has the value 7. -/
theorem Expression.evaluate_sample :
    AnswersAs askNoting lookNoting ∧
      (evaluate 0.5 askNoting sample.tokens).runFrom [] = (.ok 7, ["B1", "A1", "B1"]) := by
  have answers : AnswersAs askNoting lookNoting := fun _ _ => rfl
  have hvalue : ((sample.value 0.5 lookNoting).run []).1 = 7 := by decide +kernel
  refine ⟨answers, ?_⟩
  rw [(evaluate_tokens answers sample []).1, hvalue]
  rfl

end Spreadsheet
