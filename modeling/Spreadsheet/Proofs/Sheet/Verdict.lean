import Spreadsheet.Proofs.Formula.Shape
import Spreadsheet.Proofs.Sheet.Recalculation
import Spreadsheet.Proofs.Sheet.Search

/-!
# Malformed on Every Sheet

Whether a formula is malformed, and why, is settled by the kinds of its tokens. It can be found out
without a sheet, every reference being blank. On a sheet the formula then has the same verdict,
unless a cell that it refers to has no value and the evaluation gets as far as that
(`evaluate_verdict`).

## Main definitions

* `SameVerdict`: two outcomes that are both values, or malformed for the same cause.

## Main results

* `Sheet.valueOf_verdict`: the verdict on a formula on a sheet is that without a sheet.
* `evaluate_verdict`: tokens of the same shape have the same verdict.
-/

namespace Spreadsheet

/-- Two outcomes are the **same verdict**: both are values, or both are malformed for the same
cause. -/
def SameVerdict (r r' : Except FormulaError Float) : Prop :=
  (∃ x y, r = .ok x ∧ r' = .ok y) ∨
    ∃ cause, r = .error (.malformed cause) ∧ r' = .error (.malformed cause)

variable {σ τ : Type} {ask : String → Evaluation σ Float} {ask' : String → Evaluation τ Float}
  {look : String → StateM σ Float} {look' : String → StateM τ Float} {ts us : List Token}

/-- Tokens of the same shape have the same verdict, if asking never fails. -/
theorem sameVerdict_of_sameShape (hts : List.Forall₂ Token.SameShape ts us)
    (answers : AnswersAs ask look) (answers' : AnswersAs ask' look') (draw draw' : Float)
    (s : σ) (t : τ) :
    SameVerdict ((evaluate draw ask ts).runFrom s).1 ((evaluate draw' ask' us).runFrom t).1 := by
  have hagree := evaluate_parallel draw draw' hts answers answers' s t
  rcases hr : (evaluate draw ask ts).runFrom s with ⟨r, s'⟩
  rcases hr' : (evaluate draw' ask' us).runFrom t with ⟨r', t'⟩
  rw [hr, hr'] at hagree
  cases hagree with
  | ok _ => exact Or.inl ⟨_, _, rfl, rfl⟩
  | error e =>
      obtain ⟨cause, rfl⟩ := answers.eq_malformed hr
      exact Or.inr ⟨cause, rfl, rfl⟩

/-- Blank cells are worth zero. -/
theorem answersAs_askBlank : AnswersAs askBlank fun _ => pure 0 :=
  fun _ _ => rfl

/-- **The verdict on a formula on a sheet** is the one without a sheet, unless a cell that it refers
to has no value, and the formula has none for that reason. -/
theorem Sheet.valueOf_verdict (s : Sheet) (draw draw' : Float) (ts : List Token) :
    (∃ a ∈ Token.references ts, ∃ e, s.value draw a = .error e ∧ s.valueOf draw ts = .error e) ∨
      SameVerdict (s.valueOf draw ts) ((evaluate draw' askBlank ts).runFrom ()).1 := by
  rw [valueOf_eq]
  rcases refused_or_withAnswers draw
      (fun name => .ofOutcome (answerNames (s.value draw) name)) ts () with
    ⟨name, hname, e, _, hrefused, houtcome⟩ | ⟨xs, hxs⟩
  · left
    obtain ⟨t, ht, hname⟩ := List.mem_filterMap.mp hname
    have hrefused : answerNames (s.value draw) name = .error e := hrefused
    cases hread : Address.read? name with
    | none =>
        rw [answerNames_of_none hread] at hrefused
        cases hrefused
    | some a =>
        rw [answerNames_of_some hread] at hrefused
        refine ⟨a, Token.mem_references.mpr ⟨t, ht, ?_⟩, e, hrefused, houtcome⟩
        rw [Token.eq_reference_of_name?_eq_some hname]
        exact hread
  · right
    have hverdict := sameVerdict_of_sameShape (Token.sameShape_withAnswers ts xs)
      answersAs_askBlank answersAs_askBlank draw draw' () ()
    rw [hxs] at hverdict
    exact hverdict

/-- **Values do not decide whether a formula is malformed.** Sequences of tokens that differ in
their operands only, evaluated with answers that never fail, both have values or are both malformed
for the same cause. So an evaluation in which every reference is blank has the verdict that the
formula has on every sheet, unless a cell that it refers to has no value. -/
theorem evaluate_verdict (hts : List.Forall₂ Token.SameShape ts us)
    (answers : AnswersAs ask look) (answers' : AnswersAs ask' look') :
    (∀ draw draw' s t,
      SameVerdict ((evaluate draw ask ts).runFrom s).1 ((evaluate draw' ask' us).runFrom t).1) ∧
    ∀ (sheet : Sheet) (draw draw' : Float),
      (∃ a ∈ Token.references ts, ∃ e,
        sheet.value draw a = .error e ∧ sheet.valueOf draw ts = .error e) ∨
      SameVerdict (sheet.valueOf draw ts) ((evaluate draw' askBlank ts).runFrom ()).1 :=
  ⟨sameVerdict_of_sameShape hts answers answers', fun sheet draw draw' =>
    sheet.valueOf_verdict draw draw' ts⟩

/-- A formula with an operand too many is malformed, whatever its operands are worth. -/
theorem evaluate_verdict_surplus :
    List.Forall₂ Token.SameShape [.openBracket, .reference "A1", .closeBracket, .number 2]
        [.openBracket, .text "", .closeBracket, .reference "B1"] ∧
      AnswersAs askBlank (fun _ => pure 0) ∧ AnswersAs askNoting lookNoting ∧
      SameVerdict
        ((evaluate 0 askBlank [.openBracket, .reference "A1", .closeBracket, .number 2]).runFrom
          ()).1
        ((evaluate 0 askNoting [.openBracket, .text "", .closeBracket, .reference "B1"]).runFrom
          []).1 ∧
      ((evaluate 0 askBlank [.openBracket, .reference "A1", .closeBracket, .number 2]).runFrom
        ()).1 = .error (.malformed .missingOperator) := by
  have hts : List.Forall₂ Token.SameShape [.openBracket, .reference "A1", .closeBracket, .number 2]
      [.openBracket, .text "", .closeBracket, .reference "B1"] :=
    .cons (.refl _) (.cons (.operand rfl rfl) (.cons (.refl _) (.cons (.operand rfl rfl) .nil)))
  have answers : AnswersAs askNoting lookNoting := fun _ _ => rfl
  exact ⟨hts, answersAs_askBlank, answers,
    (evaluate_verdict hts answersAs_askBlank answers).1 0 0 () [], by decide +kernel⟩

end Spreadsheet
