import Spreadsheet.Proofs.Formula.Bases

/-!
# Accesses to the Stacks

The operands of a bracket are counted by subtracting its base from the number of all operands, the
call below the innermost bracket is looked up by its index, and operands are taken off one at a
time. On sound stacks none of this overreaches: the subtraction is exact, the index is one of an
entry, and no operand below the base of an open bracket is taken off. An open bracket is met by
settling at the end of a formula only.

To say this of every single access, a token is taken in by a computation that notes what it is told
of (`Stacks.stepNoted`, `Stacks.resultNoted`). It is the program that is run in this way, which
tells of an access whether the stacks are sound or not: a subtraction may be cut off at zero, and an
index may be out of range. On sound stacks a computation with notes comes to what the program comes
to, and each of its acts is proper (`Renders`). Stacks are sound after any tokens, so this holds of
every formula, whether it is well formed or not (`Takes.never_overreaches`).

## Main definitions

* `Act.Proper`: an access to the stacks that overreaches nothing.
* `Noted`, `Stacks.stepNoted`, `Stacks.resultNoted`: taking in a token, and the end, with notes.
* `Renders`: a computation with notes comes to an outcome, and its acts are of one kind.

## Main results

* `Stacks.Sound.renders_step`, `Stacks.Sound.renders_result`: every access to sound stacks is
  proper.
* `Stacks.step_ne_unclosedBracket`: no token is refused because a bracket is open.
* `Takes.never_overreaches`: what this means for every formula.
-/

namespace Spreadsheet

open Accessing Evaluation

/-! ### Acts -/

/-- An act is **proper** if it overreaches nothing: no operand below the base of an open bracket is
taken off, the subtraction is exact, and there is an entry at the index. An open bracket is met at
the end of a formula only. -/
def Act.Proper (atEnd : Prop) : Act → Prop
  | takeOff index waiting => ∀ base ∈ Stacks.bases waiting, base ≤ index
  | countAbove base total => base ≤ total
  | lookUpSecond entries => 2 ≤ entries
  | applyBracket => atEnd

/-- A computation on the stacks that notes its acts. -/
abbrev Noted : Type → Type :=
  Evaluation (List Act)

/-- Acts are noted down one after the other. -/
instance : Accessing Noted where
  note act := modify (· ++ [act])
  refuse cause := throw (.malformed cause)

namespace Stacks

/-- Takes in a token with notes. -/
def stepNoted (draw : Float) (st : Stacks) (t : Token) : Noted Stacks :=
  st.stepIn draw t

/-- The value that is left at the end, with notes. -/
def resultNoted (st : Stacks) : Noted Float :=
  st.resultIn

end Stacks

/-! ### Renderings -/

section Renderings

variable {α β : Type} {P : Act → Prop} {r r' : Except Malformation α} {x y : Noted α}
  {g : α → Except Malformation β} {f : α → Noted β} {c : Prop} [Decidable c] {act : Act}

/-- A computation with notes **renders** an outcome if it comes to that, and if all that it notes
are acts of one kind. -/
def Renders (P : Act → Prop) (r : Except Malformation α) (x : Noted α) : Prop :=
  ∀ log, ∃ acts, x.runFrom log = (r.mapError .malformed, log ++ acts) ∧ ∀ act ∈ acts, P act

/-- A result is rendered without an act. -/
theorem Renders.pure (a : α) : Renders P (pure a) (pure a) :=
  fun log => ⟨[], by rw [List.append_nil]; rfl, by simp⟩

/-- A refusal is rendered without an act. -/
theorem Renders.refuse (cause : Malformation) :
    Renders P (refuse cause : Except _ α) (refuse cause) :=
  fun log => ⟨[], by rw [List.append_nil]; rfl, by simp⟩

/-- A note is an act. -/
theorem Renders.note (h : P act) : Renders P (note act) (note act) :=
  fun _ => ⟨[act], rfl, List.forall_mem_singleton.mpr h⟩

/-- Computations in a row render outcomes in a row. -/
theorem Renders.bind (h : Renders P r x) (hfg : ∀ a, r = .ok a → Renders P (g a) (f a)) :
    Renders P (r >>= g) (x >>= f) := by
  intro log
  obtain ⟨acts, hrun, hacts⟩ := h log
  rw [runFrom_bind, hrun]
  cases r with
  | error cause => exact ⟨acts, rfl, hacts⟩
  | ok a =>
      obtain ⟨acts', hrun', hacts'⟩ := hfg a rfl (log ++ acts)
      rw [List.append_assoc] at hrun'
      exact ⟨acts ++ acts', hrun', List.forall_mem_append.mpr ⟨hacts, hacts'⟩⟩

/-- What is done in one of two cases is rendered if it is in each of them. -/
theorem Renders.ite (h : c → Renders P r x) (h' : ¬ c → Renders P r' y) :
    Renders P (if c then r else r') (if c then x else y) := by
  by_cases hc : c
  · rw [if_pos hc, if_pos hc]
    exact h hc
  · rw [if_neg hc, if_neg hc]
    exact h' hc

end Renderings

namespace Stacks

variable {P : Act → Prop} {rank base count : ℕ} {op : Operator} {operands : List Float}
  {ws : List Waiting} {st : Stacks} {draw : Float} {atEnd : Prop}

/-- The operand on top is taken off with one act. -/
theorem renders_takeOff
    (h : ∀ x below, operands = x :: below → P (.takeOff below.length ws)) :
    Renders P (takeOff ws operands) (takeOff ws operands) := by
  cases operands with
  | nil => exact .pure _
  | cons x below => exact (Renders.note (h x below rfl)).bind fun _ _ => .pure _

/-- The operands above a base are counted with one act. -/
theorem renders_countAbove (h : P (.countAbove base operands.length)) :
    Renders P (countAbove base operands) (countAbove base operands) :=
  (Renders.note h).bind fun _ _ => .pure _

/-- The second entry is looked up with one act. -/
theorem renders_lookUpSecond (h : P (.lookUpSecond ws.length)) :
    Renders P (lookUpSecond ws) (lookUpSecond ws) :=
  (Renders.note h).bind fun _ _ => .pure _

/-- What is counted is the difference. -/
theorem eq_of_countAbove_eq_ok
    (h : (countAbove base operands : Except Malformation ℕ) = .ok count) :
    operands.length - base = count :=
  Except.ok.inj h

/-- Taking an operand for an operator leaves those below all open brackets. -/
theorem Sorted.renders_takeOperand (h : Sorted ws) (op : Operator) (operands : List Float) :
    Renders (Act.Proper atEnd) (takeOperand op ws operands) (takeOperandIn op ws operands) := by
  refine .ite (fun _ => .refuse _) fun hbase => ?_
  refine (renders_takeOff fun x below hoperands b hb => ?_).bind fun taken _ => ?_
  · rw [hoperands, List.length_cons, Nat.not_le, Nat.lt_succ_iff] at hbase
    exact Nat.le_trans (h.le_innermostBase b hb) hbase
  · cases taken with
    | none => exact .refuse _
    | some taken => exact .pure _

/-- Operators are applied from the top on, and the bases below each of them are sorted as well. -/
theorem Sorted.renders_applyWaiting (h : Sorted ws) (hrank : rank = 0 → atEnd)
    (operands : List Float) :
    Renders (Act.Proper atEnd) (applyWaiting rank operands ws)
      (applyWaitingIn rank operands ws) := by
  induction ws generalizing operands with
  | nil => exact .pure _
  | cons top ws ih =>
      refine .ite (fun _ => .pure _) fun htop => ?_
      cases top with
      | operator op =>
          exact (h.tail.renders_takeOperand op operands).bind fun right _ =>
            (h.tail.renders_takeOperand op right.2).bind fun left _ => ih h.tail _
      | call f args => exact .refuse _
      | bracket base =>
          have hend : atEnd := hrank (Nat.eq_zero_of_not_pos htop)
          exact (Renders.note hend).bind fun _ _ => .refuse _

/-- **Settling sound stacks is proper**, and meets no open bracket unless the rank is zero. -/
theorem Sound.renders_settle (h : st.Sound) (hrank : rank = 0 → atEnd) :
    Renders (Act.Proper atEnd) (st.settle rank) (st.settleIn rank) :=
  h.sorted.renders_applyWaiting hrank st.operands

/-- An operand that is alone above the base of the innermost bracket lies above all bases. -/
theorem Sound.le_of_alone {x : Float} {below : List Float}
    (h : Sound ⟨operands, .bracket base :: ws⟩) (hcount : operands.length - base = 1)
    (hoperands : operands = x :: below) : ∀ b ∈ base :: bases ws, b ≤ below.length := by
  have hbase : base = below.length := by
    rw [hoperands, List.length_cons] at hcount
    omega
  rw [← hbase]
  exact List.forall_mem_cons.mpr ⟨Nat.le_refl _, h.sorted.le_of_mem⟩

/-- **The end of an argument is proper.** -/
theorem Sound.renders_endArgument (h : st.Sound) :
    Renders (Act.Proper atEnd) st.endArgument st.endArgumentIn := by
  refine (h.renders_settle (by simp)).bind fun settled hsettle => ?_
  obtain ⟨hsound, -, -⟩ := h.settle hsettle
  obtain ⟨operands, ws⟩ := settled
  rcases ws with - | ⟨w, ws⟩
  · exact .refuse _
  cases w with
  | operator op => exact .refuse _
  | call f args => exact .refuse _
  | bracket base =>
      refine .ite (fun _ => .refuse _) fun hlength => ?_
      have hsecond : Renders (Act.Proper atEnd) (lookUpSecond (.bracket base :: ws))
          (lookUpSecond (.bracket base :: ws)) := renders_lookUpSecond (Nat.le_of_not_lt hlength)
      refine hsecond.bind fun second _ => ?_
      rcases second with - | ⟨op | ⟨f, args⟩ | outer⟩
      · exact .refuse _
      · exact .refuse _
      · refine (renders_countAbove (hsound.le_length base List.mem_cons_self)).bind
          fun count hcount => ?_
        have hcount := eq_of_countAbove_eq_ok hcount
        rcases count with - | - | count
        · exact .refuse _
        · refine (renders_takeOff fun x below => hsound.le_of_alone hcount).bind fun taken _ => ?_
          rcases taken with - | ⟨x, below⟩
          · exact .refuse _
          · refine hsecond.bind fun second _ => ?_
            rcases second with - | ⟨op | ⟨f, args⟩ | outer⟩ <;> exact .pure _
        · exact .refuse _
      · exact .refuse _

/-- **The end of a bracket is proper.** -/
theorem Sound.renders_endBracket (h : st.Sound) :
    Renders (Act.Proper atEnd) (st.endBracket draw) (st.endBracketIn draw) := by
  refine (h.renders_settle (by simp)).bind fun settled hsettle => ?_
  obtain ⟨hsound, -, -⟩ := h.settle hsettle
  obtain ⟨operands, ws⟩ := settled
  rcases ws with - | ⟨w, ws⟩
  · exact .refuse _
  cases w with
  | operator op => exact .refuse _
  | call f args => exact .refuse _
  | bracket base =>
      refine (renders_countAbove (hsound.le_length base List.mem_cons_self)).bind
        fun count hcount => ?_
      have hcount := eq_of_countAbove_eq_ok hcount
      refine .ite (fun _ => .refuse _) fun _ => ?_
      rcases ws with - | ⟨op | ⟨f, args⟩ | outer, ws⟩
      · exact .ite (fun _ => .refuse _) fun _ => .pure _
      · exact .ite (fun _ => .refuse _) fun _ => .pure _
      · refine .ite (fun hone => ?_) fun _ => .pure _
        refine (renders_takeOff fun x below hoperands b hb => ?_).bind fun taken _ => ?_
        · exact hsound.le_of_alone (hcount.trans hone) hoperands b (List.mem_cons_of_mem _ hb)
        · rcases taken with - | ⟨x, below⟩ <;> exact .pure _
      · exact .ite (fun _ => .refuse _) fun _ => .pure _

/-- **Every access of a token is proper**, and none of them applies an open bracket. -/
theorem Sound.renders_step (h : st.Sound) (t : Token) :
    Renders (Act.Proper False) (st.step draw t) (st.stepNoted draw t) := by
  cases t with
  | number x => exact .pure _
  | text content => exact .pure _
  | reference name => exact .pure _
  | function f => exact .pure _
  | openBracket => exact .pure _
  | separator => exact h.renders_endArgument
  | closeBracket => exact h.renders_endBracket
  | operator op =>
      have hrank : op.rank ≠ 0 := Nat.ne_zero_of_lt op.one_le_rank
      exact (h.renders_settle fun hzero => hrank hzero).bind fun _ _ => .pure _

/-- **Every access at the end is proper.** -/
theorem Sound.renders_result (h : st.Sound) :
    Renders (Act.Proper True) st.result st.resultNoted := by
  refine (h.renders_settle fun _ => trivial).bind fun settled _ => ?_
  obtain ⟨operands, ws⟩ := settled
  rcases operands with - | ⟨x, - | ⟨y, operands⟩⟩
  · exact .refuse _
  · exact .pure _
  · exact .refuse _

/-! ### Open brackets -/

/-- An operand that is missing has nothing to do with open brackets. -/
theorem takeOperand_ne_unclosedBracket (op : Operator) (ws : List Waiting)
    (operands : List Float) : takeOperand op ws operands ≠ .error .unclosedBracket := by
  by_cases hbase : operands.length ≤ innermostBase ws
  · rw [takeOperand_of_length_le hbase]
    simp
  · have hlt := Nat.not_le.mp hbase
    obtain ⟨x, below, rfl⟩ := List.exists_cons_of_length_pos (Nat.zero_lt_of_lt hlt)
    rw [takeOperand_cons x (Nat.le_of_lt_succ hlt)]
    simp

/-- Settling, except at the end, gets to no open bracket. -/
theorem settle_ne_unclosedBracket (hrank : 1 ≤ rank) :
    st.settle rank ≠ .error .unclosedBracket := by
  obtain ⟨operands, ws⟩ := st
  rw [settle_eq]
  dsimp only
  induction ws generalizing operands with
  | nil =>
      rw [applyWaiting_eq_self (by simp)]
      simp
  | cons top ws ih =>
      by_cases htop : top.rank < rank
      · rw [applyWaiting_eq_self fun w hw => Option.some.inj hw ▸ htop]
        simp
      · cases top with
        | operator op =>
            rw [applyWaiting_operator_eq_bind (Nat.le_of_not_lt htop)]
            exact bind_ne_error (takeOperand_ne_unclosedBracket op _ _) fun right _ =>
              bind_ne_error (takeOperand_ne_unclosedBracket op _ _) fun left _ => ih _
        | call f args =>
            rw [applyWaiting_call htop]
            simp
        | bracket base => exact absurd hrank htop

/-- No token is refused because a bracket is open. -/
theorem step_ne_unclosedBracket (st : Stacks) (t : Token) :
    st.step draw t ≠ .error .unclosedBracket := by
  cases t with
  | operator op =>
      exact bind_ne_error (settle_ne_unclosedBracket op.one_le_rank) fun _ _ => by
        simp [pure, Except.pure]
  | separator =>
      show st.endArgument ≠ _
      rw [endArgument_eq]
      refine bind_ne_error (settle_ne_unclosedBracket (Nat.le_refl 1)) fun settled _ => ?_
      split
      · split <;> simp
      · simp
  | closeBracket =>
      show st.endBracket draw ≠ _
      rw [endBracket_eq]
      refine bind_ne_error (settle_ne_unclosedBracket (Nat.le_refl 1)) fun settled _ => ?_
      split
      · split <;> simp
      · simp
  | _ => simp [step, stepIn, pure, Except.pure]

end Stacks

/-! ### Every formula -/

section Formulas

open Stacks

variable {σ : Type} {ask : String → Evaluation σ Float} {draw : Float} {ts : List Token}
  {st : Stacks} {s s' : σ}

/-- **No formula overreaches the stacks.** After any tokens, however references are answered, the
stacks are sound. Whatever token comes next, its accesses are proper, none of them applies an open
bracket, and nothing below an open bracket is touched. At the end the accesses are proper too. -/
theorem Takes.never_overreaches (h : Takes draw ask ts {} s st s') :
    st.Sound ∧
      (∀ t, Renders (Act.Proper False) (st.step draw t) (st.stepNoted draw t) ∧
        st.step draw t ≠ .error .unclosedBracket ∧
        ∀ st' s₁ s₂, (st.stepAsking draw ask t).runFrom s₁ = (.ok st', s₂) → st.KeepsBelow st') ∧
      Renders (Act.Proper True) st.result st.resultNoted := by
  have hsound := h.sound
  refine ⟨hsound, fun t => ⟨hsound.renders_step t, step_ne_unclosedBracket st t, ?_⟩,
    hsound.renders_result⟩
  intro st' s₁ s₂ hstep
  obtain ⟨answer, htakes⟩ := exists_takesIn hstep
  exact (hsound.takesIn htakes).2

/-- After `2*max(3;(4-A1` a closing bracket takes off two operands and counts one. The end of the
formula meets the inner bracket. -/
theorem Takes.never_overreaches_in_call :
    ∃ st, Takes 0 askBlank [.number 2, .operator .multiply, .function .max, .openBracket, .number 3,
        .separator, .openBracket, .number 4, .operator .subtract, .reference "A1"] {} () st () ∧
      bases st.waiting = [1, 1] ∧ st.Sound ∧
      Renders (Act.Proper False) (st.step 0 .closeBracket) (st.stepNoted 0 .closeBracket) ∧
      ((st.stepNoted 0 .closeBracket).runFrom []).2 = [.takeOff 2 st.waiting.tail,
        .takeOff 1 st.waiting.tail, .countAbove 1 2] ∧
      (st.resultNoted.runFrom []).2 = [.takeOff 2 st.waiting.tail, .takeOff 1 st.waiting.tail,
        .applyBracket] := by
  have htakes : Takes 0 askBlank [.number 2, .operator .multiply, .function .max, .openBracket,
      .number 3, .separator, .openBracket, .number 4, .operator .subtract, .reference "A1"] {} ()
      ⟨[0, 4, 2], [.operator .subtract, .bracket 1, .bracket 1, .call .max [3],
        .operator .multiply]⟩ () := by
    rfl
  have hproper := htakes.never_overreaches
  exact ⟨_, htakes, rfl, hproper.1, (hproper.2.1 .closeBracket).1, by decide +kernel,
    by decide +kernel⟩

end Formulas

end Spreadsheet
