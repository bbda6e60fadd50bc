import Spreadsheet.Proofs.Number.Plain
import Spreadsheet.Proofs.Sheet.Recalculation
import Spreadsheet.Proofs.Sheet.Search
import Spreadsheet.Proofs.Workbook.Strictness

/-!
# Edits Close No Cycle

A cycle of references that was not there before an edit must pass through the edited cell,
for the other cells refer to what they referred to before. The search that an edit makes
would have found it. So an edit never adds a cycle, even to a sheet that has some
(`Workbook.isCycle_of_isCycle_apply`). A workbook that comes about by edits has none at all,
and then no way of computing a value ever meets a circular reference.

The search follows the lists of references and not the formulas. That every entry lists what
its formula refers to (`Sheet.ListsReferences`) is therefore kept along with the rest.

## Main results

* `Sheet.not_transGen_insert`: a cell that is put in without a path back to it is on no cycle.
* `Workbook.isCycle_of_isCycle_apply`: an edit closes no cycle.
* `Workbook.acyclicFrom_ofEdits`: a workbook that comes about by edits has no cycle.
* `Workbook.apply_closes_no_cycle`: both, with what follows for values.
-/

open Relation

namespace Spreadsheet

/-! ### References after an edit -/

namespace Sheet

variable {s : Sheet} {a b x y : Address} {c : Cell} {path : List Address}

/-- The empty sheet has no lists. -/
theorem listsReferences_empty : ListsReferences .empty := by
  intro a c hc
  rw [get?_empty] at hc
  cases hc

/-- A cell that lists what its formula refers to may be put in. -/
theorem ListsReferences.insert (h : s.ListsReferences)
    (hc : c.references = Token.references (c.tokens?.getD [])) :
    (s.insert a c).ListsReferences := by
  intro b d hd
  rw [get?_insert] at hd
  split at hd
  · rw [← Option.some.inj hd]
    exact hc
  · exact h b d hd

/-- The other cells refer to what they referred to before. -/
theorem refers_insert (hx : a ≠ x) : (s.insert a c).Refers x y ↔ s.Refers x y := by
  rw [Refers, Refers, content_insert, if_neg hx]

/-- **A cell that is put in is on no cycle** if it holds no formula or if no path was found
that leads back to it. -/
theorem not_transGen_insert (h : (s.insert a c).ListsReferences)
    (hsearch : c.isFormula = true → (s.insert a c).cycleThrough? a = none) :
    ¬ TransGen (s.insert a c).Refers a a := by
  intro hcycle
  have hformula : c.isFormula = true := by
    obtain ⟨b, ⟨f, hf, -⟩, -⟩ := TransGen.head'_iff.mp hcycle
    rw [content_insert, if_pos rfl] at hf
    rw [Cell.isFormula, Cell.tokens?, hf]
    rfl
  refine not_transGen_of_cycleThrough?_eq_none (hsearch hformula) ?_
  exact TransGen.mono (fun x y => h.lists_iff.mpr) _ _ hcycle

/-- Every cell on a cycle leads back to itself. -/
theorem IsCycle.transGen_of_mem (h : s.IsCycle path) (ha : a ∈ path) : TransGen s.Refers a a := by
  cases path with
  | nil => cases ha
  | cons b rest =>
      rcases List.mem_cons.mp ha with rfl | hrest
      · exact h.transGen rfl
      · -- The path leads from its first cell to `a`, and from `a` on to its last one.
        obtain ⟨before, after, rfl⟩ := List.append_of_mem hrest
        have hto : TransGen s.Refers b a := by
          have hchain : ((b :: before ++ [a]) ++ after).IsChain s.Refers := by
            simpa using h.isChain
          exact transGen_of_isChain hchain.left_of_append List.mem_cons_self
        have hlast : (b :: before ++ a :: after).getLast? = some b :=
          h.head?_eq_getLast?.symm
        have hfrom : ReflTransGen s.Refers a b := by
          rw [List.getLast?_append_of_ne_nil _ (List.cons_ne_nil a after)] at hlast
          obtain ⟨front, hfront⟩ := List.getLast?_eq_some_iff.mp hlast
          have hwhole : ((b :: before) ++ a :: after).IsChain s.Refers := h.isChain
          have hchain : (a :: after).IsChain s.Refers := hwhole.right_of_append
          cases front with
          | nil =>
              obtain ⟨rfl, -⟩ := List.cons.inj hfront
              exact .refl
          | cons d front =>
              rw [hfront] at hchain
              obtain ⟨rfl, -⟩ := List.cons.inj hfront
              exact (transGen_of_isChain hchain List.mem_cons_self).to_reflTransGen
        exact TransGen.trans_right hfrom hto

/-- A cycle that does not pass through the cell that was put in was there before. -/
theorem IsCycle.of_insert (h : (s.insert a c).IsCycle path) (ha : a ∉ path) : s.IsCycle path :=
  ⟨h.two_le_length, h.head?_eq_getLast?, h.nodup,
    h.isChain.imp_of_mem_imp fun _ _ hx _ hxy =>
      (refers_insert (ne_of_mem_of_not_mem hx ha).symm).mp hxy⟩

/-- If the cell that was put in is on no cycle, then a cell on a cycle was on one before. -/
theorem transGen_of_transGen_insert (ha : ¬ TransGen (s.insert a c).Refers a a)
    (h : TransGen (s.insert a c).Refers b b) : TransGen s.Refers b b := by
  have hsplit : ∀ y, TransGen (s.insert a c).Refers b y →
      TransGen s.Refers b y ∨
        ReflTransGen (s.insert a c).Refers b a ∧ TransGen (s.insert a c).Refers a y := by
    intro y hby
    induction hby with
    | @single y hby =>
        by_cases hab : a = b
        · subst hab
          exact Or.inr ⟨.refl, .single hby⟩
        · exact Or.inl (.single ((refers_insert hab).mp hby))
    | @tail y z hby hyz ih =>
        by_cases hay : a = y
        · subst hay
          exact Or.inr ⟨hby.to_reflTransGen, .single hyz⟩
        · rcases ih with hold | ⟨hba, hay'⟩
          · exact Or.inl (hold.tail ((refers_insert hay).mp hyz))
          · exact Or.inr ⟨hba, hay'.tail hyz⟩
  rcases hsplit b h with hold | ⟨hba, hab⟩
  · exact hold
  · exact absurd (hab.trans_left hba) ha

/-! ### Values without cycles -/

variable {draw : Float}

/-- Where no cycle is reachable, no circular reference is met. -/
theorem AcyclicFrom.value_ne_circular (h : s.AcyclicFrom a) :
    s.value draw a ≠ .error (.circular path) := by
  have hvalue : s.guarded draw s.depthBound [] a = s.unguarded draw a h :=
    guarded_eq_unguarded (.nil s a) s.room_nil h
  rw [value_eq_guarded, hvalue]
  exact unguarded_ne_circular h

/-- On a sheet without cycles no formula meets a circular reference. -/
theorem valueOf_ne_circular (h : ∀ a, s.AcyclicFrom a) (ts : List Token) :
    s.valueOf draw ts ≠ .error (.circular path) := by
  intro hcircular
  rw [valueOf_eq] at hcircular
  rcases answer_of_evaluateWith_eq_error hcircular with ⟨cause, hcause⟩ | ⟨name, -, hname⟩
  · cases hcause
  · cases hread : Address.read? name with
    | some a =>
        rw [answerNames_of_some hread] at hname
        exact (h a).value_ne_circular hname
    | none =>
        rw [answerNames_of_none hread] at hname
        cases hname

/-- On a sheet without cycles only a text looks like a circular reference. -/
theorem content_of_shown_eq_cycle (h : ∀ a, s.AcyclicFrom a)
    (hshown : s.shown draw a = "#CYCLE!") : s.content a = .text "#CYCLE!" := by
  cases hcontent : s.content a with
  | empty => simp [shown, hcontent] at hshown
  | text content =>
      rw [shown, hcontent] at hshown
      exact congrArg _ hshown
  | number x =>
      rw [shown, hcontent] at hshown
      exact absurd hshown (Number.shown_ne_cycle x)
  | formula f =>
      simp only [shown, hcontent, shownOutcome] at hshown
      split at hshown
      · exact absurd hshown (Number.shown_ne_cycle _)
      · rename_i path hvalue
        exact absurd hvalue (h a).value_ne_circular
      · simp at hshown

/-- On a sheet without cycles a recalculation reports no circular reference. -/
theorem recalculate_ne_circular (h : ∀ a, s.AcyclicFrom a)
    {r : Address × Except FormulaError Float} (hr : r ∈ (s.recalculate draw).1) :
    r.2 ≠ .error (.circular path) := by
  rw [recalculate, formulaValues_eq_map] at hr
  obtain ⟨a, -, rfl⟩ := List.mem_map.mp hr
  exact (h a).value_ne_circular

end Sheet

/-! ### Edits -/

namespace Workbook

open Sheet

variable {w : Workbook} {e : Edit} {path : List Address}

/-- After an edit the entries still list what their formulas refer to. -/
theorem listsReferences_apply (h : w.sheet.ListsReferences) :
    (w.apply e).sheet.ListsReferences := by
  rcases w.sheet_apply e with hsheet | ⟨a, input, hsheet, -⟩
  · rwa [hsheet]
  · rw [hsheet]
    exact h.insert (Cell.references_ofTyped input)

/-- The cell that an edit changes is on no cycle. -/
theorem sheet_apply_of_listsReferences (w : Workbook) (e : Edit) (h : w.sheet.ListsReferences) :
    (w.apply e).sheet = w.sheet ∨
      ∃ a c, (w.apply e).sheet = w.sheet.insert a c ∧
        ¬ TransGen (w.sheet.insert a c).Refers a a := by
  have hafter : (w.apply e).sheet.ListsReferences := listsReferences_apply h
  rcases w.sheet_apply e with hsheet | ⟨a, input, hsheet, hsearch⟩
  · exact Or.inl hsheet
  · rw [hsheet] at hafter hsearch
    exact Or.inr ⟨a, _, hsheet, not_transGen_insert hafter hsearch⟩

/-- **An edit closes no cycle**: a cycle after the edit was one before. -/
theorem isCycle_of_isCycle_apply (h : w.sheet.ListsReferences)
    (hcycle : (w.apply e).sheet.IsCycle path) : w.sheet.IsCycle path := by
  rcases w.sheet_apply_of_listsReferences e h with hsheet | ⟨a, c, hsheet, ha⟩
  · rwa [hsheet] at hcycle
  · rw [hsheet] at hcycle
    exact hcycle.of_insert fun hmem => ha (hcycle.transGen_of_mem hmem)

/-- **A workbook that comes about by edits has no cycle.** -/
theorem acyclicFrom_ofEdits (edits : List Edit) (a : Address) :
    (ofEdits edits).sheet.AcyclicFrom a := by
  have hinvariant : (ofEdits edits).sheet.ListsReferences ∧
      ∀ b, ¬ TransGen (ofEdits edits).sheet.Refers b b := by
    refine ofEdits_induction
      (P := fun s => s.ListsReferences ∧ ∀ b, ¬ TransGen s.Refers b b) ?_ ?_ edits
    · refine ⟨listsReferences_empty, fun b hb => ?_⟩
      obtain ⟨c, ⟨f, hf, -⟩, -⟩ := TransGen.head'_iff.mp hb
      rw [content, get?_empty] at hf
      cases hf
    · rintro w e ⟨hlists, hacyclic⟩
      refine ⟨listsReferences_apply hlists, fun b hb => ?_⟩
      rcases w.sheet_apply_of_listsReferences e hlists with hsheet | ⟨a, c, hsheet, ha⟩
      · exact hacyclic b (hsheet ▸ hb)
      · rw [hsheet] at hb
        exact hacyclic b (transGen_of_transGen_insert ha hb)
  exact fun b _ => hinvariant.2 b

/-- On a sheet without cycles no formula that is evaluated meets a circular reference. -/
theorem valueOfText_ne_circular (h : ∀ a, w.sheet.AcyclicFrom a) (draw : Float) (text : String) :
    w.valueOfText draw text ≠ .error (.formula (.circular path)) := by
  intro hcircular
  rw [valueOfText_eq] at hcircular
  cases htokens : w.tokensOfText text with
  | error e =>
      -- The text is refused, but not as circular.
      obtain ⟨word, rfl⟩ := tokensOfText_eq_error htokens
      rw [htokens] at hcircular
      cases hcircular
  | ok ts =>
      rw [htokens, Except.bind] at hcircular
      cases hvalue : w.sheet.valueOf draw ts with
      | error e =>
          rw [hvalue] at hcircular
          cases hcircular
          exact valueOf_ne_circular h ts hvalue
      | ok x =>
          rw [hvalue] at hcircular
          cases hcircular

/-- **Edits never make a circular reference.** A cycle after an edit, accepted or refused, was
a cycle before it, also on a sheet that was loaded with cycles. Hence a workbook that comes
about by edits has no cycle, and neither the value of a cell, nor an evaluated formula, nor
a displayed cell, nor a recalculation tells of one. -/
theorem apply_closes_no_cycle :
    (∀ (w : Workbook) (e : Edit) (path : List Address), w.sheet.ListsReferences →
        (w.apply e).sheet.IsCycle path → w.sheet.IsCycle path) ∧
      ∀ (edits : List Edit) (draw : Float),
        (∀ a, (ofEdits edits).sheet.AcyclicFrom a) ∧
        (∀ a path, (ofEdits edits).sheet.value draw a ≠ .error (.circular path)) ∧
        (∀ text path,
          (ofEdits edits).valueOfText draw text ≠ .error (.formula (.circular path))) ∧
        (∀ a, (ofEdits edits).sheet.shown draw a = "#CYCLE!" →
          (ofEdits edits).sheet.content a = .text "#CYCLE!") ∧
        ∀ r ∈ ((ofEdits edits).sheet.recalculate draw).1,
          ∀ path, r.2 ≠ .error (.circular path) := by
  refine ⟨fun w e path => isCycle_of_isCycle_apply, fun edits draw => ?_⟩
  have hacyclic : ∀ a, (ofEdits edits).sheet.AcyclicFrom a := acyclicFrom_ofEdits edits
  exact ⟨hacyclic, fun a path => (hacyclic a).value_ne_circular,
    fun text path => valueOfText_ne_circular hacyclic draw text,
    fun a => content_of_shown_eq_cycle hacyclic,
    fun r hr path => recalculate_ne_circular hacyclic hr⟩

/-- On the sheet `loop` the formula `B1+1` is accepted at `D4`. It leads into the cycle that
begins at `B1`, which was there before. -/
theorem isCycle_apply_loop :
    loop.ListsReferences ∧
      ((Workbook.mk loop none false true).apply (.set ⟨3, 3⟩ "=B1+1")).sheet.IsCycle
        [⟨0, 1⟩, ⟨0, 2⟩, ⟨0, 1⟩] ∧
      loop.IsCycle [⟨0, 1⟩, ⟨0, 2⟩, ⟨0, 1⟩] := by
  have hlists : loop.ListsReferences :=
    (((listsReferences_empty.insert rfl).insert rfl).insert rfl).insert rfl
  have hcircular : ((Workbook.mk loop none false true).apply (.set ⟨3, 3⟩ "=B1+1")).sheet.value 0
      ⟨3, 3⟩ = .error (.circular [⟨0, 1⟩, ⟨0, 2⟩, ⟨0, 1⟩]) := by
    decide +kernel
  rw [value_eq_guarded] at hcircular
  have hcycle := (isCycle_of_guarded_eq_circular (.nil _ _) (room_nil _) hcircular).1
  exact ⟨hlists, hcycle, apply_closes_no_cycle.1 _ _ _ hlists hcycle⟩

end Workbook

end Spreadsheet
