import Spreadsheet.Proofs.Formula.Bracketing
import Spreadsheet.Proofs.Number.Overflow

/-!
# Values that are Not Finite

What an operator or a function yields is finite, and so is the value of a text. What a formula may
pass on unchanged is a number that stands in it, or the answer to a reference, and only if it
stands there alone: the brackets around it do nothing, but everything else does something
(`Token.HandsOn`). Hence a formula has a value that is not finite exactly if it hands it on
(`evaluateWith_eq_ok_iff_handsOn`).

While tokens are taken in, the stacks tell how many brackets have been opened and what has been
handed on so far (`Stacks.Bare`), or there is something on them that keeps a number that is not
finite from being what is left at the end (`Stacks.Mixed`).

## Main definitions

* `Token.HandsOn`: tokens hand on the value of one operand.
* `Stacks.Bare`: at most one operand has been taken in, and brackets around it.
* `Stacks.Mixed`: something else has been taken in.

## Main results

* `Stacks.TakesIn.bare_or_mixed`: one of the two always holds.
* `evaluateWith_eq_ok_iff_handsOn`: values that are not finite are handed on.
-/

namespace Spreadsheet

variable {draw : Float} {answer : String → Except FormulaError Float} {t : Token}
  {ts us : List Token} {st st' : Stacks} {x : Float}

/-- Tokens **hand on** a value if they are an operand with that value, in brackets perhaps. -/
inductive Token.HandsOn (answer : String → Except FormulaError Float) (x : Float) :
    List Token → Prop where
  | operand {t : Token} (ht : t.worth? answer = some x) : HandsOn answer x [t]
  | brackets {ts : List Token} : HandsOn answer x ts → HandsOn answer x (Token.inBrackets ts)

/-- What is handed on is the value. -/
theorem Token.HandsOn.evaluateWith_eq (h : Token.HandsOn answer x ts) :
    evaluateWith draw answer ts = .ok x := by
  have hsettle : Stacks.settle 0 ⟨[x], []⟩ = .ok ⟨[x], []⟩ := Stacks.applyWaiting_eq_self nofun
  induction h with
  | operand ht =>
      refine evaluateWith_eq_ok_iff.mpr ⟨⟨[x], []⟩, ?_, hsettle⟩
      rw [List.foldlM_cons, Stacks.stepWith_eq_ok_iff.mpr (.operand ht)]
      rfl
  | brackets _ ih =>
      exact evaluateWith_eq_ok_iff.mpr ⟨⟨[x], []⟩, Stacks.foldlM_inBrackets ih nofun, hsettle⟩

namespace Stacks

/-- Stacks are **bare** if the tokens so far are opening brackets, or opening brackets and then
tokens that hand on an operand. No bracket was opened above an operand. -/
inductive Bare (answer : String → Except FormulaError Float) : List Token → Stacks → Prop where
  | opened (n : ℕ) :
      Bare answer (List.replicate n .openBracket) ⟨[], List.replicate n (.bracket 0)⟩
  | operand (n : ℕ) {us : List Token} {x : Float} (hus : Token.HandsOn answer x us) :
      Bare answer (List.replicate n .openBracket ++ us) ⟨[x], List.replicate n (.bracket 0)⟩

/-- Stacks are **mixed** if there is a finite operand, a second operand, or anything that waits
other than brackets that were opened below all operands. -/
inductive Mixed (st : Stacks) : Prop where
  | finite {y : Float} (hy : y ∈ st.operands) (hfinite : y.isFinite = true)
  | second (h : 2 ≤ st.operands.length)
  | waiting {w : Waiting} (hw : w ∈ st.waiting) (hne : w ≠ .bracket 0)

/-- Settling keeps stacks mixed. -/
theorem Mixed.settle {rank : ℕ} (h : st.Mixed) (hok : st.settle rank = .ok st') : st'.Mixed :=
  (settle_induction (P := Mixed)
    (fun _ _ _ _ _ _ _ => .finite List.mem_cons_self (Number.isFinite_orZero _)) h hok).1

/-- Where only brackets wait, nothing is applied. -/
theorem settle_brackets (operands : List Float) (n : ℕ) :
    settle 1 ⟨operands, List.replicate n (.bracket 0)⟩ =
      .ok ⟨operands, List.replicate n (.bracket 0)⟩ := by
  refine applyWaiting_eq_self fun w hw => ?_
  rw [List.eq_of_mem_replicate (List.mem_of_mem_head? hw)]
  exact Nat.zero_lt_one

/-- **Tokens leave the stacks bare or mixed.** -/
theorem TakesIn.bare_or_mixed (h : Bare answer us st ∨ st.Mixed)
    (hstep : st.TakesIn draw answer t st') : Bare answer (us ++ [t]) st' ∨ st'.Mixed := by
  cases hstep with
  | name f => exact Or.inr (.waiting List.mem_cons_self nofun)
  | operator hsettle => exact Or.inr (.waiting List.mem_cons_self nofun)
  | separator hsettle hx =>
      exact Or.inr (.waiting (List.mem_cons_of_mem _ List.mem_cons_self) nofun)
  | call hsettle hlast =>
      exact Or.inr (.finite List.mem_cons_self (Number.isFinite_orZero _))
  | operand hx =>
      rcases h with hbare | hmixed
      · cases hbare with
        | opened n => exact Or.inl (.operand n (.operand hx))
        | operand n hus => exact Or.inr (.second (Nat.le_refl 2))
      · refine Or.inr ?_
        cases hmixed with
        | finite hy hfinite => exact .finite (List.mem_cons_of_mem _ hy) hfinite
        | second h => exact .second (Nat.le_succ_of_le h)
        | waiting hw hne => exact .waiting hw hne
  | openBracket =>
      rcases h with hbare | hmixed
      · cases hbare with
        | opened n =>
            rw [← List.replicate_succ']
            exact Or.inl (.opened (n + 1))
        | operand n hus => exact Or.inr (.waiting List.mem_cons_self nofun)
      · refine Or.inr ?_
        cases hmixed with
        | finite hy hfinite => exact .finite hy hfinite
        | second h => exact .second h
        | waiting hw hne => exact .waiting (List.mem_cons_of_mem _ hw) hne
  | @group operands base ws y hsettle hws hy =>
      rcases h with hbare | hmixed
      · cases hbare with
        | opened n =>
            rw [settle_brackets] at hsettle
            cases n with
            | zero => cases hsettle
            | succ n =>
                cases hsettle
                cases hy
        | @operand n us x hus =>
            rw [settle_brackets] at hsettle
            cases n with
            | zero => cases hsettle
            | succ n =>
                cases hsettle
                have htokens : List.replicate (n + 1) .openBracket ++ us ++ [.closeBracket] =
                    List.replicate n .openBracket ++ Token.inBrackets us := by
                  rw [List.replicate_succ', List.append_assoc, List.append_assoc]
                  rfl
                rw [htokens]
                exact Or.inl (.operand n (.brackets hus))
      · refine Or.inr ?_
        cases hmixed.settle hsettle with
        | finite hy hfinite => exact .finite hy hfinite
        | second h => exact .second h
        | waiting hw hne =>
            rcases List.mem_cons.mp hw with rfl | hw
            · -- The bracket was opened above an operand, which is still there.
              refine .second ?_
              have hbase : base ≠ 0 := fun hzero => hne (hzero ▸ rfl)
              have hlength := congrArg List.length hy
              rw [above, List.length_take, List.length_singleton] at hlength
              show 2 ≤ operands.length
              omega
            · exact .waiting hw hne

/-- All tokens together leave the stacks bare or mixed. -/
theorem foldlM_bare_or_mixed (h : Bare answer us st ∨ st.Mixed)
    (hok : ts.foldlM (stepWith draw answer) st = .ok st') :
    Bare answer (us ++ ts) st' ∨ st'.Mixed := by
  induction ts generalizing us st with
  | nil =>
      cases hok
      rwa [List.append_nil]
  | cons t ts ih =>
      rw [List.foldlM_cons] at hok
      obtain ⟨next, hstep, hrest⟩ := exists_of_bind_eq_ok hok
      rw [List.append_cons]
      exact ih ((stepWith_eq_ok_iff.mp hstep).bare_or_mixed h) hrest

/-- What is left at the end of bare stacks has been handed on. -/
theorem Bare.handsOn (h : Bare answer us st) (hok : st.settle 0 = .ok ⟨[x], []⟩) :
    Token.HandsOn answer x us := by
  cases h with
  | opened n => cases n <;> cases hok
  | operand n hus =>
      cases n with
      | zero =>
          cases hok
          exact hus
      | succ n => cases hok

/-- What is left at the end of mixed stacks is finite. -/
theorem Mixed.isFinite (h : st.Mixed) (hok : st.settle 0 = .ok ⟨[x], []⟩) : x.isFinite = true := by
  cases h.settle hok with
  | finite hy hfinite =>
      obtain rfl := List.mem_singleton.mp hy
      exact hfinite
  | second h => exact absurd h (Nat.not_succ_le_self 1)
  | waiting hw _ => cases hw

end Stacks

/-- **Values that are not finite are handed on**, and only they: the formula is nothing but a
number or a reference, in brackets perhaps. -/
theorem evaluateWith_eq_ok_iff_handsOn (hx : x.isFinite = false) :
    evaluateWith draw answer ts = .ok x ↔ Token.HandsOn answer x ts := by
  refine ⟨fun h => ?_, Token.HandsOn.evaluateWith_eq⟩
  obtain ⟨st, hfold, hsettle⟩ := evaluateWith_eq_ok_iff.mp h
  rcases Stacks.foldlM_bare_or_mixed (Or.inl (.opened 0)) hfold with hbare | hmixed
  · exact hbare.handsOn hsettle
  · exact absurd (hx.symm.trans (hmixed.isFinite hsettle)) Bool.false_ne_true

end Spreadsheet
