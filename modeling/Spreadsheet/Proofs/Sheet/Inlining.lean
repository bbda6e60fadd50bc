import Spreadsheet.Proofs.Formula.Bracketing
import Spreadsheet.Proofs.Sheet.Recalculation

/-!
# Writing a Formula in Place of a Reference

A reference to a formula cell that has a value may be replaced by the tokens of that formula, in
brackets. The formula that holds the reference is then worth the same, be it stored or not, and so
are all cells that depend on it (`Sheet.value_insert_inlined`).

Where cells are stored this needs a condition: no cycle may be reachable. A cell from which one is
reachable reports it, and the report names the cells that have been passed, which are fewer when a
reference has been replaced. No new cycles arise, for what the replaced tokens refer to could be
reached before (`Sheet.transGen_of_refers_inlined`).

## Main definitions

* `Cell.inlined`: a formula cell with tokens in brackets between others.

## Main results

* `Sheet.AcyclicFrom.inlined`: a cell that reaches no cycle does not reach one afterwards.
* `Sheet.value_insert_inlined`: a reference may be replaced by the formula it stands for.
-/

open Relation

namespace Spreadsheet

/-- The cell that holds a formula with the tokens `ts` in brackets between others. -/
def Cell.inlined (source : String) (pre ts post : List Token) : Cell :=
  .ofFormula ⟨source, pre ++ Token.inBrackets ts ++ post⟩

namespace Sheet

variable {s : Sheet} {draw : Float} {a b c d : Address} {f g : Formula} {pre post : List Token}
  {name source : String}

/-- A cell refers to what a reference among its tokens names. -/
theorem refers_of_tokens (hname : Address.read? name = some b) (ha : s.content a = .formula f)
    (hf : f.tokens = pre ++ [.reference name] ++ post) : s.Refers a b :=
  ⟨f, ha, .reference name, by rw [hf]; simp, hname⟩

section Graph

variable (hb : s.content b = .formula g) (hname : Address.read? name = some b)
  (ha : s.content a = .formula f) (hf : f.tokens = pre ++ [.reference name] ++ post)
include hb hname ha hf

/-- What a cell refers to when a reference has been replaced, it has led to before. -/
theorem transGen_of_refers_inlined
    (h : (s.insert a (.inlined source pre g.tokens post)).Refers c d) :
    TransGen s.Refers c d := by
  obtain ⟨k, hk, u, hu, hud⟩ := h
  rw [content_insert] at hk
  split at hk
  · rename_i hac
    subst hac
    cases hk
    have hab : s.Refers a b := refers_of_tokens hname ha hf
    have hmem : u ∈ f.tokens ∨ u ∈ g.tokens ∨ u = .openBracket ∨ u = .closeBracket := by
      simp only [Token.inBrackets, List.mem_append, List.mem_cons] at hu
      rw [hf]
      simp only [List.mem_append, List.mem_cons]
      tauto
    rcases hmem with hmem | hmem | rfl | rfl
    · exact .single ⟨f, ha, u, hmem, hud⟩
    · exact .tail (.single hab) ⟨g, hb, u, hmem, hud⟩
    · cases hud
    · cases hud
  · exact .single ⟨k, hk, u, hu, hud⟩

/-- **Replacing a reference brings no cycle into reach.** -/
theorem AcyclicFrom.inlined (hc : s.AcyclicFrom c) :
    (s.insert a (.inlined source pre g.tokens post)).AcyclicFrom c := by
  have hstep : ∀ x y, (s.insert a (.inlined source pre g.tokens post)).Refers x y →
      TransGen s.Refers x y :=
    fun _ _ => transGen_of_refers_inlined hb hname ha hf
  intro d hcd hdd
  have hreach : ReflTransGen s.Refers c d := by
    rcases reflTransGen_iff_eq_or_transGen.mp hcd with rfl | htrans
    · exact .refl
    · exact (TransGen.closed hstep _ _ htrans).to_reflTransGen
  exact hc d hreach (TransGen.closed hstep _ _ hdd)

/-- **A cell that reaches no cycle keeps its value** when a reference is replaced. -/
theorem AcyclicFrom.value_inlined {x : Float} (hpre : Token.CallsOpen pre)
    (hx : s.value draw b = .ok x) (hc : s.AcyclicFrom c) :
    (s.insert a (.inlined source pre g.tokens post)).value draw c = s.value draw c := by
  -- Along the references of the old sheet: all values are the same that a cell is read from.
  induction acyclicFrom_iff_acc.mp hc with
  | intro c _ ih =>
      have hnext : ∀ d, s.Refers c d →
          (s.insert a (.inlined source pre g.tokens post)).value draw d = s.value draw d :=
        fun d hcd => ih d hcd (hc.of_refers hcd)
      rw [(hc.inlined hb hname ha hf).value_eq_readWith, hc.value_eq_readWith,
        ← readWith_congr hnext]
      by_cases hac : a = c
      · subst hac
        have hab : s.Refers a b := refers_of_tokens hname ha hf
        have hne : a ≠ b := fun hba => hc a .refl (.single (hba ▸ hab))
        -- On the new sheet, too, the reference is worth what the tokens in brackets are worth.
        have hvalue := (hnext b hab).trans hx
        have htokens := hvalue
        rw [((hc.of_refers hab).inlined hb hname ha hf).value_eq_readWith] at htokens
        rw [readWith_formula (f := g) (by rw [content_insert, if_neg hne, hb])] at htokens
        rw [readWith_formula ha, hf, readWith_formula (by rw [content_insert, if_pos rfl]; rfl)]
        rw [evaluateWith_inBrackets post hpre htokens]
        rw [evaluateWith_reference pre post ((answerNames_of_some hname).trans hvalue)]
      · rw [readWith, content_insert, if_neg hac, readWith]

end Graph

/-- **A reference may be replaced by the formula that it stands for**, in brackets. Whatever the
answers to references are, tokens in brackets are worth their value. On a sheet, this leaves the
value of a formula that is not stored as it is; and if the replacement is made in a cell, no cell
that reaches no cycle changes its value, nor does it reach one afterwards. In front of the
brackets every function name has to be followed by its own. -/
theorem value_insert_inlined (draw : Float) :
    (∀ (answer : String → Except FormulaError Float) (pre ts post : List Token) (x : Float),
      Token.CallsOpen pre → evaluateWith draw answer ts = .ok x →
        evaluateWith draw answer (pre ++ Token.inBrackets ts ++ post) =
          evaluateWith draw answer (pre ++ [.number x] ++ post)) ∧
    ∀ (s : Sheet) (pre post : List Token) (name : String) (b : Address) (g : Formula) (x : Float),
      Token.CallsOpen pre → Address.read? name = some b → s.content b = .formula g →
        s.value draw b = .ok x →
        s.valueOf draw (pre ++ Token.inBrackets g.tokens ++ post) =
            s.valueOf draw (pre ++ [.reference name] ++ post) ∧
          ∀ (a : Address) (f : Formula) (source : String), s.content a = .formula f →
            f.tokens = pre ++ [.reference name] ++ post → ∀ c, s.AcyclicFrom c →
              (s.insert a (.inlined source pre g.tokens post)).AcyclicFrom c ∧
                (s.insert a (.inlined source pre g.tokens post)).value draw c =
                  s.value draw c := by
  refine ⟨fun answer pre ts post x hpre hx => evaluateWith_inBrackets post hpre hx, ?_⟩
  intro s pre post name b g x hpre hname hb hx
  refine ⟨?_, fun a f source ha hf c hc => ?_⟩
  · have htokens : evaluateWith draw (answerNames (s.value draw)) g.tokens = .ok x := by
      rw [← readWith_formula hb, ← (acyclicFrom_of_value_eq_ok hx).value_eq_readWith, hx]
    rw [valueOf_eq, valueOf_eq, evaluateWith_inBrackets post hpre htokens,
      evaluateWith_reference pre post ((answerNames_of_some hname).trans hx)]
  · exact ⟨hc.inlined hb hname ha hf, hc.value_inlined hb hname ha hf hpre hx⟩

/-- A sheet with a formula that is referred to: `A1` is `sum(1;B1)*2`, `B1` is `1+2`, and `C1` is
`A1-B1`. -/
def invoice : Sheet :=
  ofList [
    (⟨0, 0⟩, .ofFormula (.ofSource "sum(1;B1)*2")),
    (⟨0, 1⟩, .ofFormula (.ofSource "1+2")),
    (⟨0, 2⟩, .ofFormula (.ofSource "A1-B1"))]

/-- The surplus operand of `(1)(2)+` stays in its brackets. On the sheet `invoice`, the reference
in `A1` may be replaced by `(1+2)`: the value of `C1` is still 5, and a formula that is not stored
lacks its last operand as before. -/
theorem value_insert_inlined_invoice :
    evaluateWith 0 (fun _ => .ok 0)
        ([.number 4, .operator .multiply] ++ Token.inBrackets (Token.scan "(1)(2)+") ++ []) =
      .ok 12 ∧
    invoice.valueOf 0 ([.number 7, .operator .subtract] ++
        Token.inBrackets (Token.scan "1+2") ++ [.operator .add]) =
      .error (.malformed (.missingOperand .add)) ∧
    (invoice.insert ⟨0, 0⟩ (.inlined "sum(1;(1+2))*2"
        [.function .sum, .openBracket, .number 1, .separator] (Token.scan "1+2")
        [.closeBracket, .operator .multiply, .number 2])).value 0 ⟨0, 2⟩ = .ok 5 := by
  have hname : Address.read? "B1" = some ⟨0, 1⟩ := by decide +kernel
  have hb : invoice.content ⟨0, 1⟩ = .formula (.ofSource "1+2") := by decide +kernel
  have ha : invoice.content ⟨0, 0⟩ = .formula (.ofSource "sum(1;B1)*2") := by decide +kernel
  have hx : invoice.value 0 ⟨0, 1⟩ = .ok 3 := by decide +kernel
  have hc : invoice.value 0 ⟨0, 2⟩ = .ok 5 := by decide +kernel
  have hsurplus : evaluateWith 0 (fun _ => .ok 0) (Token.scan "(1)(2)+") = .ok 3 := by
    decide +kernel
  have hsum : Token.CallsOpen [.function .sum, .openBracket, .number 1, .separator] :=
    .call .sum (.token nofun (.token nofun .nil))
  have hstored := ((value_insert_inlined 0).2 invoice _ [.closeBracket, .operator .multiply,
    .number 2] "B1" ⟨0, 1⟩ (.ofSource "1+2") 3 hsum hname hb hx).2 ⟨0, 0⟩ _
    "sum(1;(1+2))*2" ha (by decide +kernel) ⟨0, 2⟩ (acyclicFrom_of_value_eq_ok hc)
  refine ⟨?_, ?_, hstored.2.trans hc⟩
  · refine ((value_insert_inlined 0).1 (fun _ => .ok 0) [.number 4, .operator .multiply] _ [] 3
      (.token nofun (.token nofun .nil)) hsurplus).trans ?_
    decide +kernel
  · refine ((value_insert_inlined 0).2 invoice [.number 7, .operator .subtract] [.operator .add]
      "B1" ⟨0, 1⟩ (.ofSource "1+2") 3 (.token nofun (.token nofun .nil)) hname hb hx).1.trans ?_
    decide +kernel

end Sheet

end Spreadsheet
