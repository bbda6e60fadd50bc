import Spreadsheet.Proofs.Formula.Denoting
import Spreadsheet.Proofs.Formula.Finiteness
import Spreadsheet.Proofs.Sheet.Locality
import Spreadsheet.Proofs.Workbook.Saving
import Spreadsheet.Proofs.Workbook.Strictness

/-!
# When Values are Finite

Operators and functions yield finite numbers, and a number that is typed into a cell is finite.
But the numerals of a formula are not looked at in that way, and one that is too large becomes the
infinity. It does not get past any operator or function; where nothing of that kind stands in its
way it is handed on, from one formula to the next, and out of brackets (`Sheet.HandsOn`). In a
workbook that comes about by edits this is the only way to a value that is not finite
(`Workbook.not_isFinite_iff_handsOn`), and it is a way that can be gone
(`Workbook.value_overlong`).

## Main definitions

* `Sheet.HandsOn`: tokens hand on a number that stands in some formula.

## Main results

* `Sheet.valueOf_eq_ok_iff_handsOn`: values that are not finite are handed on.
* `Workbook.not_isFinite_iff_handsOn`: they are the infinity, and come from numerals.
-/

open Relation

namespace Spreadsheet

/-! ### Sheets -/

/-- The number that a content reads as is finite. -/
theorem Content.isFinite_of_number? {c : Content} {x : Float} (h : c.number? = some x) :
    x.isFinite = true := by
  have hzero : (0 : Float).isFinite = true := by decide +kernel
  cases c with
  | formula f => cases h
  | number y =>
      cases h
      exact Number.isFinite_orZero y
  | _ =>
      cases h
      exact hzero

namespace Sheet

variable {s : Sheet} {draw : Float} {a : Address} {ts : List Token} {x : Float}

/-- Tokens **hand on** a number on a sheet if there is nothing to them but the number, or a
reference to a formula cell whose tokens hand it on, and brackets. -/
inductive HandsOn (s : Sheet) (x : Float) : List Token → Prop where
  | number : HandsOn s x [.number x]
  | reference {name : String} {a : Address} {f : Formula} (hname : Address.read? name = some a)
      (hf : s.content a = .formula f) : HandsOn s x f.tokens → HandsOn s x [.reference name]
  | brackets {ts : List Token} : HandsOn s x ts → HandsOn s x (Token.inBrackets ts)

/-- What is handed on along references is handed on by each formula. -/
theorem HandsOn.token (h : s.HandsOn x ts) :
    Token.HandsOn (answerNames (s.value draw)) x ts := by
  induction h with
  | number => exact .operand rfl
  | reference hname hf _ ih =>
      have htokens : evaluateWith draw _ _ = .ok x := ih.evaluateWith_eq
      rw [← valueOf_eq, ← value_eq_ok_iff hf] at htokens
      refine .operand ?_
      rw [Token.worth?, answerNames_of_some hname, htokens]
      rfl
  | brackets _ ih => exact .brackets ih

/-- What a formula hands on is handed on along references, if the values of the formula cells that
it refers to are. -/
theorem HandsOn.of_token {answer : Address → Except FormulaError Float} (hx : x.isFinite = false)
    (h : Token.HandsOn (answerNames answer) x ts)
    (hcells : ∀ name b, .reference name ∈ ts → Address.read? name = some b → answer b = .ok x →
      ∃ f, s.content b = .formula f ∧ s.HandsOn x f.tokens) : s.HandsOn x ts := by
  have hzero : (0 : Float) ≠ x := by
    rintro rfl
    revert hx
    decide +kernel
  induction h with
  | @operand t ht =>
      cases t with
      | number y =>
          cases ht
          exact .number
      | text content => exact absurd (Option.some.inj ht) hzero
      | reference name =>
          rw [Token.worth?] at ht
          cases hread : Address.read? name with
          | none =>
              rw [answerNames_of_none hread] at ht
              exact absurd (Option.some.inj ht) hzero
          | some b =>
              rw [answerNames_of_some hread] at ht
              cases hb : answer b with
              | error e =>
                  rw [hb] at ht
                  cases ht
              | ok y =>
                  rw [hb] at ht
                  obtain rfl : y = x := Option.some.inj ht
                  obtain ⟨f, hf, hhands⟩ := hcells name b List.mem_cons_self hread hb
                  exact .reference hread hf hhands
      | _ => cases ht
  | brackets _ ih =>
      refine .brackets (ih fun name b hname => hcells name b ?_)
      exact List.mem_cons_of_mem _ (List.mem_append_left _ hname)

/-- A cell whose value is not finite holds a formula that hands the value on. -/
theorem exists_handsOn_of_value_eq_ok (hx : x.isFinite = false) (h : s.value draw a = .ok x) :
    ∃ f, s.content a = .formula f ∧ s.HandsOn x f.tokens := by
  have hacyclic := acyclicFrom_of_value_eq_ok h
  -- Along the references, which come to an end at cells that hold the number itself.
  induction acyclicFrom_iff_acc.mp hacyclic with
  | intro a _ ih =>
      cases hcontent : (s.content a).number? with
      | some y =>
          rw [hacyclic.value_eq_readWith, readWith_of_number? hcontent] at h
          cases h
          exact absurd (hx.symm.trans (Content.isFinite_of_number? hcontent)) Bool.false_ne_true
      | none =>
          cases hf : s.content a with
          | formula f =>
              rw [value_eq_ok_iff hf, valueOf_eq, evaluateWith_eq_ok_iff_handsOn hx] at h
              refine ⟨f, rfl, .of_token hx h fun name b hname hread hb => ?_⟩
              exact ih b ⟨f, hf, _, hname, hread⟩ hb (acyclicFrom_of_value_eq_ok hb)
          | _ =>
              rw [hf] at hcontent
              cases hcontent

/-- **Values that are not finite are handed on** along references, and only they. -/
theorem valueOf_eq_ok_iff_handsOn (hx : x.isFinite = false) :
    s.valueOf draw ts = .ok x ↔ s.HandsOn x ts := by
  rw [valueOf_eq]
  constructor
  · intro h
    exact .of_token hx ((evaluateWith_eq_ok_iff_handsOn hx).mp h) fun name b _ _ hb =>
      exists_handsOn_of_value_eq_ok hx hb
  · exact fun h => h.token.evaluateWith_eq

/-- A cell has a value that is not finite exactly if its formula hands the value on. -/
theorem value_eq_ok_iff_handsOn (hx : x.isFinite = false) :
    s.value draw a = .ok x ↔ ∃ f, s.content a = .formula f ∧ s.HandsOn x f.tokens := by
  refine ⟨exists_handsOn_of_value_eq_ok hx, ?_⟩
  rintro ⟨f, hf, h⟩
  exact (value_eq_ok_iff hf).mpr ((valueOf_eq_ok_iff_handsOn hx).mpr h)

/-- A number that is handed on stands in the tokens or in the formula of a cell. -/
theorem HandsOn.exists_mem (h : s.HandsOn x ts) :
    .number x ∈ ts ∨ ∃ a f, s.content a = .formula f ∧ .number x ∈ f.tokens := by
  induction h with
  | number => exact Or.inl List.mem_cons_self
  | @reference _ a f _ hf _ ih => exact Or.inr (ih.elim (fun h => ⟨a, f, hf, h⟩) id)
  | brackets _ ih =>
      exact ih.imp_left fun h => List.mem_cons_of_mem _ (List.mem_append_left _ h)

end Sheet

/-! ### Workbooks -/

/-- A formula that is typed has the tokens of some text. -/
theorem Cell.exists_scanChars_of_content_ofTyped {input : String} {f : Formula}
    (h : (ofTyped input).content = .formula f) : ∃ cs, f.tokens = Token.scanChars cs := by
  rw [ofTyped, ofTrimmed.eq_def] at h
  split at h
  · cases h
  · cases h
    exact ⟨_, rfl⟩
  · split at h
    · cases h
    · split at h <;> cases h

namespace Workbook

open Sheet

variable {edits : List Edit} {draw x : Float}

/-- Every formula that comes about by edits has the tokens of some text. -/
theorem exists_scanChars_of_content {a : Address} {f : Formula}
    (h : (ofEdits edits).sheet.content a = .formula f) : ∃ cs, f.tokens = Token.scanChars cs := by
  rw [content] at h
  split at h
  · rename_i c hc
    obtain ⟨input, rfl⟩ := exists_eq_ofTyped hc
    exact Cell.exists_scanChars_of_content_ofTyped h
  · cases h

/-- If a number that is not finite is handed on by the tokens of a text, in a workbook that comes
about by edits, then it is the infinity. -/
theorem eq_infinity_of_handsOn {cs : List Char} (hx : x.isFinite = false)
    (h : (ofEdits edits).sheet.HandsOn x (Token.scanChars cs)) : x = Number.infinity := by
  have hscanned : ∃ cs, .number x ∈ Token.scanChars cs := by
    rcases h.exists_mem with hmem | ⟨a, f, hf, hmem⟩
    · exact ⟨cs, hmem⟩
    · obtain ⟨cs, hcs⟩ := exists_scanChars_of_content hf
      exact ⟨cs, hcs ▸ hmem⟩
  obtain ⟨cs, hmem⟩ := hscanned
  rcases Token.isFinite_or_eq_of_mem_scanChars hmem with hfinite | hinfinity
  · exact absurd (hx.symm.trans hfinite) Bool.false_ne_true
  · exact hinfinity

/-- Infinity is not finite. -/
theorem isFinite_infinity : Number.infinity.isFinite = false := by
  decide +kernel

/-- The value of a cell, in a workbook that comes about by edits. -/
theorem value_not_isFinite_iff (a : Address) :
    (ofEdits edits).sheet.value draw a = .ok x ∧ x.isFinite = false ↔
      x = Number.infinity ∧ ∃ f, (ofEdits edits).sheet.content a = .formula f ∧
        (ofEdits edits).sheet.HandsOn x f.tokens := by
  constructor
  · rintro ⟨hvalue, hx⟩
    obtain ⟨f, hf, hhands⟩ := (value_eq_ok_iff_handsOn hx).mp hvalue
    obtain ⟨cs, hcs⟩ := exists_scanChars_of_content hf
    exact ⟨eq_infinity_of_handsOn hx (hcs ▸ hhands), f, hf, hhands⟩
  · rintro ⟨rfl, hhands⟩
    exact ⟨(value_eq_ok_iff_handsOn isFinite_infinity).mpr hhands, isFinite_infinity⟩

/-- **Values are finite, unless a numeral that is too large is handed on.** In a workbook that
comes about by edits, the value of a cell, what a recalculation reports of it, and the value of a
formula that is not stored are finite or the infinity; and they are the infinity exactly if the
formula consists of the numeral, or of a reference to a cell of which the same is true, in brackets
perhaps. Whatever else a formula holds makes its value finite. -/
theorem not_isFinite_iff_handsOn (edits : List Edit) (draw x : Float) :
    (∀ a, (ofEdits edits).sheet.value draw a = .ok x ∧ x.isFinite = false ↔
      x = Number.infinity ∧ ∃ f, (ofEdits edits).sheet.content a = .formula f ∧
        (ofEdits edits).sheet.HandsOn x f.tokens) ∧
    (∀ a, (a, .ok x) ∈ ((ofEdits edits).sheet.recalculate draw).1 ∧ x.isFinite = false ↔
      x = Number.infinity ∧ ∃ f, (ofEdits edits).sheet.content a = .formula f ∧
        (ofEdits edits).sheet.HandsOn x f.tokens) ∧
    ∀ text, (ofEdits edits).valueOfText draw text = .ok x ∧ x.isFinite = false ↔
      x = Number.infinity ∧ ∃ ts, (ofEdits edits).tokensOfText text = .ok ts ∧
        (ofEdits edits).sheet.HandsOn x ts := by
  refine ⟨value_not_isFinite_iff, fun a => ?_, fun text => ?_⟩
  · have hreported : (a, Except.ok x) ∈ ((ofEdits edits).sheet.recalculate draw).1 ↔
        a ∈ (ofEdits edits).sheet.formulas ∧ (ofEdits edits).sheet.value draw a = .ok x := by
      rw [recalculate, formulaValues_eq_map, List.mem_map]
      constructor
      · rintro ⟨b, hb, heq⟩
        obtain ⟨rfl, hvalue⟩ := Prod.mk.inj heq
        exact ⟨hb, hvalue⟩
      · rintro ⟨ha, hvalue⟩
        exact ⟨a, ha, by rw [hvalue]⟩
    rw [hreported, and_assoc, value_not_isFinite_iff, mem_formulas]
    constructor
    · exact And.right
    · rintro ⟨hx, f, hf, hhands⟩
      exact ⟨⟨f, hf⟩, hx, f, hf, hhands⟩
  · rw [valueOfText_eq]
    constructor
    · rintro ⟨hvalue, hx⟩
      obtain ⟨ts, hts, hok⟩ := exists_of_bind_eq_ok (eq_ok_of_mapError_eq_ok hvalue)
      have hhands := (valueOf_eq_ok_iff_handsOn hx).mp hok
      obtain ⟨cs, rfl⟩ := exists_scanChars_of_tokensOfText hts
      exact ⟨eq_infinity_of_handsOn hx hhands, _, hts, hhands⟩
    · rintro ⟨rfl, ts, hts, hhands⟩
      rw [hts, Except.bind, (valueOf_eq_ok_iff_handsOn isFinite_infinity).mpr hhands]
      exact ⟨rfl, isFinite_infinity⟩

/-- A formula that is nothing but a numeral that is too large is worth the infinity. -/
theorem value_overlong :
    (ofEdits [.set ⟨0, 0⟩ (String.ofList ('=' :: overlong))]).sheet.value 0 ⟨0, 0⟩ =
        .ok Number.infinity ∧
      (ofEdits []).valueOfText 0 (String.ofList ('=' :: overlong)) = .ok Number.infinity ∧
      Number.infinity.isFinite = false := by
  have hrefs : (Cell.ofTyped (String.ofList ('=' :: overlong))).references = [] := by
    rw [ofTyped_overlong]
    rfl
  have hcontent : (ofEdits [.set ⟨0, 0⟩ (String.ofList ('=' :: overlong))]).sheet.content ⟨0, 0⟩ =
      .formula ⟨String.ofList overlong, [.number Number.infinity]⟩ := by
    rw [sheet_ofEdits_set hrefs, content_insert, if_pos rfl, ofTyped_overlong]
    rfl
  have htokens : (ofEdits []).tokensOfText (String.ofList ('=' :: overlong)) =
      .ok [.number Number.infinity] := by
    rw [tokensOfText, String.toList_ofList, trim_overlong]
    exact congrArg Except.ok scanChars_overlong
  refine ⟨(value_not_isFinite_iff _).mpr ⟨rfl, _, hcontent, .number⟩ |>.1, ?_, isFinite_infinity⟩
  rw [valueOfText_eq, htokens, Except.bind,
    (valueOf_eq_ok_iff_handsOn isFinite_infinity).mpr .number]
  rfl

end Workbook

end Spreadsheet
