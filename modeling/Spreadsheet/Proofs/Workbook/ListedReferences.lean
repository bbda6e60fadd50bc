import Spreadsheet.Proofs.Formula.Transcript
import Spreadsheet.Proofs.Workbook.Arising

/-!
# The Lists of References Are Exact

There are many ways to put a cell into a sheet: a number, a text, a formula or its tokens may be
stored, a text may be typed, a cell may be cleared, all cells may be replaced by those of a file,
and a workbook may be edited, whether it accepts the edit or refuses it. Each of them makes the list
of references on its own. What they have in common is that the list is that of the cell's tokens
(`Sheet.Step.listsReferences`), so this is true of every entry of a sheet that has come about in any
of these ways (`Sheet.Reachable.listsReferences`).

The search for a cycle follows the lists, and the evaluation asks for what the tokens name. As it
asks from left to right and the lists are in the order of the first mention, the cells that it has
asked for are always the first ones of the list, and if it has a value they are all of them
(`Transcript.cells_evaluate`).

## Main definitions

* `Transcript.cells`: the cells that have been asked for.
* `Token.AsksFor`: a token that makes the evaluation ask for a cell.
* `Sheet.Step`, `Sheet.Reachable`: what can become of a sheet.

## Main results

* `Transcript.cells_evaluate`: the cells that an evaluation asks for are the first references.
* `Token.asksFor_iff`: a token asks for the cell that it names.
* `Sheet.Reachable.listsReferences`: every entry lists what its formula refers to.
* `Sheet.references_exact`: the lists have the cells that evaluations ask for.
-/

open Relation

namespace Spreadsheet

open Evaluation

/-! ### The cells that are asked for -/

/-- A token names the cell that its name is read as. -/
theorem Token.address?_eq_bind (t : Token) : t.address? = t.name?.bind Address.read? := by
  cases t <;> rfl

/-- The cells that tokens mention are those that their names are read as. -/
theorem Token.filterMap_address? (ts : List Token) :
    ts.filterMap Token.address? = (Token.names ts).filterMap Address.read? := by
  rw [Token.names, List.filterMap_filterMap]
  exact List.filterMap_congr fun t _ => t.address?_eq_bind

/-- The cells that have been asked for, each where it was asked for first. Names that are no names
of cells are left out. -/
def Transcript.cells (log : Transcript) : List Address :=
  ((log.map Prod.fst).filterMap Address.read?).eraseDups

/-- What is mentioned first stays in front when repetitions are left out. -/
theorem eraseDups_isPrefix {l l' : List Address} (h : l <+: l') : l.eraseDups <+: l'.eraseDups := by
  obtain ⟨rest, rfl⟩ := h
  rw [List.eraseDups_append]
  exact List.prefix_append _ _

/-- **The cells that an evaluation asks for** are the first ones of the references, in their order,
and all of them if it has a value. -/
theorem Transcript.cells_evaluate {σ : Type} (draw : Float) (ask : String → Evaluation σ Float)
    (ts : List Token) (x : σ) :
    ∃ outcome y log,
      (evaluate draw ask ts).runFrom x = (outcome, y) ∧
      (evaluate draw (noting ask) ts).runFrom (x, []) = (outcome, y, log) ∧
      cells log <+: Token.references ts ∧
      ∀ v, outcome = .ok v → cells log = Token.references ts := by
  obtain ⟨r, y, log, hrun, hnoting, hcourse, -⟩ := exists_course_evaluate draw ask ts x
  rw [Token.references_eq_eraseDups, Token.filterMap_address?]
  refine ⟨_, y, log, hrun, hnoting,
    eraseDups_isPrefix (hcourse.names_isPrefix.filterMap _), fun v hv => ?_⟩
  rw [cells, hcourse.names_eq (Course.isOk_of_outcome_eq_ok hv)]

/-! ### What a token asks for -/

namespace Token

variable {t : Token} {b : Address}

/-- A token **asks for** a cell if the evaluation asks for a name of the cell whenever it takes in
the token, whatever is on the stacks and whatever the answer is. -/
def AsksFor (t : Token) (b : Address) : Prop :=
  ∃ name, Address.read? name = some b ∧
    ∀ {σ : Type} (draw : Float) (ask : String → Evaluation σ Float) (st : Stacks) (x : σ)
      (log : Transcript),
      ((Stacks.stepAsking draw (noting ask) st t).runFrom (x, log)).2.2 =
        log ++ [(name, ((ask name).runFrom x).1)]

/-- A reference asks for its name once. -/
theorem runFrom_stepAsking_reference {σ : Type} (draw : Float) (ask : String → Evaluation σ Float)
    (st : Stacks) (name : String) (x : σ) (log : Transcript) :
    ((Stacks.stepAsking draw (noting ask) st (.reference name)).runFrom (x, log)).2.2 =
      log ++ [(name, ((ask name).runFrom x).1)] := by
  rw [Stacks.stepAsking, runFrom_bind, runFrom_noting]
  cases (ask name).runFrom x with
  | mk answer y => cases answer <;> rfl

/-- **A token asks for the cell that it names**, and for no other. -/
theorem asksFor_iff : t.AsksFor b ↔ t.address? = some b := by
  by_cases href : ∃ name, t = .reference name
  · obtain ⟨name, rfl⟩ := href
    constructor
    · rintro ⟨name', hread, hasks⟩
      have hlog := hasks 0 (fun _ => (pure 0 : Evaluation Unit Float)) {} () []
      rw [runFrom_stepAsking_reference] at hlog
      obtain rfl : name = name' := by simpa using congrArg (List.map Prod.fst) hlog
      exact hread
    · exact fun hread => ⟨name, hread, fun draw ask st x log =>
        runFrom_stepAsking_reference draw ask st name x log⟩
  · have ht := not_exists.mp href
    refine iff_of_false ?_ ?_
    · rintro ⟨name, -, hasks⟩
      have hlog := hasks 0 (fun _ => (pure 0 : Evaluation Unit Float)) {} () []
      rw [Stacks.stepAsking_of_ne_reference ht, runFrom_ofStacks] at hlog
      cases hlog
    · rw [address?_eq_bind, name?_eq_none ht]
      exact nofun

/-- The references of a formula among its tokens. -/
theorem exists_reference_iff {ts : List Token} :
    (∃ name, .reference name ∈ ts ∧ Address.read? name = some b) ↔
      ∃ t ∈ ts, t.address? = some b := by
  constructor
  · rintro ⟨name, hname, hread⟩
    exact ⟨_, hname, hread⟩
  · rintro ⟨t, ht, hread⟩
    cases t with
    | reference name => exact ⟨name, ht, hread⟩
    | _ => cases hread

end Token

/-- The tokens of a cell are those of its formula. -/
theorem Cell.mem_tokens_iff {c : Cell} {t : Token} :
    t ∈ c.tokens?.getD [] ↔ ∃ f, c.content = .formula f ∧ t ∈ f.tokens := by
  obtain ⟨content, references⟩ := c
  cases content <;> simp [tokens?]

/-! ### What can become of a sheet -/

namespace Sheet

variable {s t : Sheet}

/-- What can be done to a sheet. -/
inductive Step : Sheet → Sheet → Prop where
  /-- A number is stored. -/
  | number (s : Sheet) (a : Address) (x : Float) : Step s (s.insert a (.ofNumber x))
  /-- A text is stored. -/
  | text (s : Sheet) (a : Address) (content : String) : Step s (s.insert a (.ofText content))
  /-- The formula that a text writes is stored. -/
  | formula (s : Sheet) (a : Address) (source : String) : Step s (s.insertFormula a source)
  /-- The formula of some tokens is stored. -/
  | tokens (s : Sheet) (a : Address) (ts : List Token) :
      Step s (s.insert a (.ofFormula (.ofTokens ts)))
  /-- A text is typed. -/
  | typed (s : Sheet) (a : Address) (input : String) : Step s (s.insert a (.ofTyped input))
  /-- A cell is cleared. -/
  | cleared (s : Sheet) (a : Address) : Step s (s.clear a)
  /-- The cells are replaced by those that a text is read as. -/
  | replaced {s t : Sheet} (format : FileFormat) (text : String) (h : format.read text = .ok t) :
      Step s t
  /-- The sheet is that of a workbook, and this is edited. The edit may be refused. -/
  | edited {s : Sheet} (w : Workbook) (e : Edit) (h : w.sheet = s) : Step s (w.apply e).sheet

/-- The sheets that can come about, beginning with the empty one. -/
def Reachable (s : Sheet) : Prop :=
  ReflTransGen Step empty s

/-- **Whatever is done to a sheet**, its entries list what their formulas refer to if they did so
before. -/
theorem Step.listsReferences (h : Step s t) (hs : s.ListsReferences) : t.ListsReferences := by
  cases h with
  | number a x => exact hs.insert rfl
  | text a content => exact hs.insert rfl
  | formula a source => exact hs.insert rfl
  | tokens a ts => exact hs.insert rfl
  | typed a input => exact hs.insert (Cell.references_ofTyped input)
  | cleared a => exact hs.insert rfl
  | replaced format text hread => exact FileFormat.listsReferences_of_read hread
  | edited w e hw => exact Workbook.listsReferences_apply (hw ▸ hs)

/-- **Every entry lists what its formula refers to**, however the sheet has come about. -/
theorem Reachable.listsReferences (h : s.Reachable) : s.ListsReferences := by
  induction h with
  | refl => exact listsReferences_empty
  | tail _ hstep ih => exact hstep.listsReferences ih

/-- **The lists of references are exact.** In every sheet that can come about the list of an entry
has the cells that its formula names, each once and in the order of their first mention, and is
empty for any other entry. These are the cells that one of the tokens asks for when the formula is
evaluated. Whatever the answers are, those that have been asked for are the first ones of the list,
and all of them if the formula has a value. So the search for a cycle, which follows the lists,
follows the references of the formulas. -/
theorem references_exact (h : s.Reachable) :
    (∀ a c, s.get? a = some c →
      c.references.Nodup ∧
      c.references = ((c.tokens?.getD []).filterMap Token.address?).eraseDups ∧
      (∀ b, b ∈ c.references ↔ ∃ f, c.content = .formula f ∧
        ∃ name, .reference name ∈ f.tokens ∧ Address.read? name = some b) ∧
      (∀ b, b ∈ c.references ↔ ∃ f, c.content = .formula f ∧ ∃ t ∈ f.tokens, t.AsksFor b) ∧
      ∀ f, c.content = .formula f →
        ∀ {σ : Type} (draw : Float) (ask : String → Evaluation σ Float) (x : σ),
          ∃ outcome y log,
            (evaluate draw ask f.tokens).runFrom x = (outcome, y) ∧
            (evaluate draw (noting ask) f.tokens).runFrom (x, []) = (outcome, y, log) ∧
            Transcript.cells log <+: c.references ∧
            ∀ v, outcome = .ok v → Transcript.cells log = c.references) ∧
    ∀ a b, s.Lists a b ↔ s.Refers a b := by
  refine ⟨fun a c hget => ?_, fun a b => h.listsReferences.lists_iff⟩
  have hc : c.references = Token.references (c.tokens?.getD []) := h.listsReferences a c hget
  have hmem (b : Address) : b ∈ c.references ↔
      ∃ f, c.content = .formula f ∧ ∃ t ∈ f.tokens, t.address? = some b := by
    rw [hc, Token.mem_references]
    simp only [Cell.mem_tokens_iff]
    grind
  refine ⟨hc ▸ Token.nodup_references _, hc.trans (Token.references_eq_eraseDups _),
    fun b => ?_, fun b => ?_, fun f hf σ draw ask x => ?_⟩
  · simp only [hmem, Token.exists_reference_iff]
  · simp only [hmem, Token.asksFor_iff]
  · have htokens : c.tokens? = some f.tokens := by rw [Cell.tokens?, hf]
    rw [hc, htokens]
    exact Transcript.cells_evaluate draw ask f.tokens x

/-- A formula is stored at `D4`, and the edit that would make a cycle of it is refused. -/
def sampleReached : Sheet :=
  ((Workbook.mk (empty.insertFormula ⟨3, 3⟩ "=B2 + A1 * B2 + sum(C3; A1)") none false true).apply
    (.set ⟨0, 0⟩ "=D4")).sheet

/-- After that `D4` lists what its formula mentions, each cell once and in the order of first
mention, and the entry that the refused edit has left lists nothing. -/
theorem references_exact_sample :
    sampleReached.Reachable ∧
    (∃ c, sampleReached.get? ⟨3, 3⟩ = some c ∧ c.references = [⟨1, 1⟩, ⟨0, 0⟩, ⟨2, 2⟩]) ∧
    ∃ c, sampleReached.get? ⟨0, 0⟩ = some c ∧ ∀ b, b ∉ c.references := by
  have hreachable : sampleReached.Reachable :=
    (ReflTransGen.single (Step.formula empty ⟨3, 3⟩ "=B2 + A1 * B2 + sum(C3; A1)")).tail
      (Step.edited _ (.set ⟨0, 0⟩ "=D4") rfl)
  have hformula : sampleReached.get? ⟨3, 3⟩ =
      some (.ofFormula (.ofSource "B2 + A1 * B2 + sum(C3; A1)")) := by
    decide +kernel
  have hrefused : sampleReached.get? ⟨0, 0⟩ = some .empty := by
    decide +kernel
  refine ⟨hreachable, ⟨_, hformula, ?_⟩, _, hrefused, fun b hb => ?_⟩
  · rw [((references_exact hreachable).1 _ _ hformula).2.1]
    decide +kernel
  · obtain ⟨f, hf, -⟩ := (((references_exact hreachable).1 _ _ hrefused).2.2.1 b).mp hb
    cases hf

end Sheet

end Spreadsheet
