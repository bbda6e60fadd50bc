import Mathlib.Data.List.Sort
import Spreadsheet.Proofs.Sheet.Recalculation

/-!
# The Value of a Cell is Local

What a cell reads as depends on the cells that are reachable from it, and on nothing else: not
on what the rest of the sheet holds, and not on cells in progress that are not reachable
(`Sheet.guarded_congr`). Of a formula the tokens count and not the text that they were read from,
and of any other cell the number counts that it reads as (`Content.Alike`).

That the cells in progress do not count is what makes a stored formula worth as much as its
tokens are on their own (`Sheet.value_eq_valueOf`). While the formula is read, its cell is in
progress; if no cycle leads back to the cell, this makes no difference, not even to the path of
a cycle elsewhere that is reported.

A sheet is read by its contents alone, so an entry that holds an empty cell is as good as none
(`Sheet.value_eq_of_content_eq`).

## Main definitions

* `Content.Alike`: two contents read the same.
* `Sheet.AgreeFrom`: two sheets read the same in every cell that is reachable from a given one.

## Main results

* `Sheet.value_eq_of_agreeFrom`: a cell has the same value on sheets that agree from it.
* `Sheet.value_eq_valueOf`: a formula cell on no cycle has the value of its tokens.
* `Sheet.recalculate_eq_of_content_eq`: sheets with the same contents are recalculated alike.
-/

open Relation

namespace Spreadsheet

/-! ### Contents that read the same -/

namespace Content

/-- The number that a content other than a formula reads as. -/
def number? : Content → Option Float
  | .empty | .text _ => some 0
  | .number x => some (Number.orZero x)
  | .formula _ => none

/-- Two contents are **alike** if they are formulas with the same tokens, or if neither is a
formula and both read as the same number. -/
inductive Alike : Content → Content → Prop where
  | formula {f g : Formula} (h : f.tokens = g.tokens) : Alike (.formula f) (.formula g)
  | number {c d : Content} {x : Float} (hc : c.number? = some x) (hd : d.number? = some x) :
      Alike c d

/-- Every content is alike itself. -/
theorem Alike.refl (c : Content) : c.Alike c := by
  cases c with
  | formula f => exact .formula rfl
  | _ => exact .number rfl rfl

/-- To be alike is mutual. -/
theorem Alike.symm {c d : Content} (h : c.Alike d) : d.Alike c := by
  cases h with
  | formula h => exact .formula h.symm
  | number hc hd => exact .number hd hc

end Content

namespace Sheet

variable {s t : Sheet} {draw : Float} {a b : Address} {front path : List Address}
  {bound bound' : ℕ}

/-- A cell without a formula reads as its number, whatever other cells read as. -/
theorem readWith_of_number? {answer : Address → Except FormulaError Float} {x : Float}
    (h : (s.content a).number? = some x) : s.readWith draw answer a = .ok x := by
  rw [readWith]
  cases hcontent : s.content a with
  | formula f =>
      rw [hcontent] at h
      cases h
  | _ =>
      rw [hcontent] at h
      cases h
      rfl

/-- What a cell reads as, given what it refers to, is the same for contents that are alike. -/
theorem readWith_eq_of_alike {answer : Address → Except FormulaError Float}
    (h : (s.content a).Alike (t.content a)) :
    s.readWith draw answer a = t.readWith draw answer a := by
  generalize hs : s.content a = c at h
  generalize ht : t.content a = d at h
  cases h with
  | formula h => rw [readWith_formula hs, readWith_formula ht, h]
  | number hc hd =>
      rw [readWith_of_number? (hs ▸ hc), readWith_of_number? (ht ▸ hd)]

/-- A cell refers to what another one refers to whose content is alike. -/
theorem Refers.of_alike (h : (s.content a).Alike (t.content a)) (hab : s.Refers a b) :
    t.Refers a b := by
  obtain ⟨f, hf, u, hu, hub⟩ := hab
  rw [hf] at h
  generalize ht : t.content a = d at h
  cases h with
  | @formula _ g h => exact ⟨g, ht, u, h ▸ hu, hub⟩
  | number hc hd => cases hc

/-! ### Sheets that agree -/

/-- Two sheets **agree from** a cell if they read the same in every cell that is reachable from
it. -/
def AgreeFrom (s t : Sheet) (a : Address) : Prop :=
  ∀ b, ReflTransGen s.Refers a b → (s.content b).Alike (t.content b)

/-- Sheets that agree from a cell agree from whatever it refers to. -/
theorem AgreeFrom.of_refers (h : s.AgreeFrom t a) (hab : s.Refers a b) : s.AgreeFrom t b :=
  fun c hbc => h c (.head hab hbc)

/-- What is reachable from a cell is the same on sheets that agree from it. -/
theorem AgreeFrom.reaches_iff (h : s.AgreeFrom t a) :
    ReflTransGen s.Refers a b ↔ ReflTransGen t.Refers a b := by
  constructor
  · intro hab
    induction hab with
    | refl => exact .refl
    | tail hab hbc ih => exact ih.tail (hbc.of_alike (h _ hab))
  · intro hab
    induction hab with
    | refl => exact .refl
    | tail _ hbc ih => exact ih.tail (hbc.of_alike (h _ ih).symm)

/-! ### Values -/

/-- **A cell reads the same on sheets that agree from it**, also if there are more cells in
progress, as long as these are not reachable. A cycle that is reported is the same: it begins
at a cell that is reached twice, so none of the additional cells is on it. -/
theorem guarded_congr (hagree : s.AgreeFrom t a)
    (hfront : ∀ d ∈ front, ¬ ReflTransGen s.Refers a d)
    (hs : s.Route (front ++ path) a) (ht : t.Route path a)
    (hroom : s.Room bound (front ++ path)) (hroom' : t.Room bound' path) :
    s.guarded draw bound (front ++ path) a = t.guarded draw bound' path a := by
  induction bound generalizing path a bound' with
  | zero => exact absurd hroom hs.not_room_zero
  | succ bound ih =>
      obtain ⟨bound', rfl⟩ : ∃ n, bound' = n + 1 :=
        Nat.exists_eq_succ_of_ne_zero fun hzero => ht.not_room_zero (hzero ▸ hroom')
      have halike : (s.content a).Alike (t.content a) := hagree a .refl
      have hnew : ∀ d ∈ front, d ≠ a := fun d hd hda => hfront d hd (hda ▸ .refl)
      by_cases ha : a ∈ path
      · have hdrop : (front ++ path).dropWhile (· ≠ a) = path.dropWhile (· ≠ a) :=
          List.dropWhile_append_of_pos fun d hd => decide_eq_true (hnew d hd)
        rw [guarded_succ_of_mem (List.mem_append_right front ha), guarded_succ_of_mem ha, hdrop]
      · have ha' : a ∉ front ++ path := by
          rw [List.mem_append, not_or]
          exact ⟨fun hmem => hnew a hmem rfl, ha⟩
        rw [guarded_succ_of_not_mem ha', guarded_succ_of_not_mem ha,
          ← readWith_eq_of_alike halike, List.append_assoc]
        refine readWith_congr fun b hab => ih (hagree.of_refers hab) ?_ ?_ ?_ ?_ ?_
        · exact fun d hd hbd => hfront d hd (.head hab hbd)
        · rw [← List.append_assoc]
          exact hs.snoc ha' hab
        · exact ht.snoc ha (hab.of_alike halike)
        · rw [← List.append_assoc]
          exact hroom.snoc a
        · exact hroom'.snoc a

/-- A cell has the same value on sheets that agree from it. -/
theorem value_congr (h : s.AgreeFrom t a) : s.value draw a = t.value draw a := by
  have hfront : ∀ d ∈ [], ¬ ReflTransGen s.Refers a d := fun d hd => absurd hd List.not_mem_nil
  rw [value_eq_guarded, value_eq_guarded]
  exact guarded_congr h hfront (.nil s a) (.nil t a) s.room_nil t.room_nil

/-- **A value depends only on what can be reached.** From sheets that agree from a cell the same
cells can be reached, and the cell has the same value: the same number, or the same error down to
the path of a cycle. -/
theorem value_eq_of_agreeFrom (draw : Float) (h : s.AgreeFrom t a) :
    (∀ b, ReflTransGen s.Refers a b ↔ ReflTransGen t.Refers a b) ∧
      s.value draw a = t.value draw a :=
  ⟨fun _ => h.reaches_iff, value_congr h⟩

/-- The sheet `loop` with a text in `A2`. -/
def loopNoted : Sheet :=
  loop.insert ⟨1, 0⟩ (.ofText "note")

/-- The sheet `loop` after edits: `A2` has been cleared, the formula of `A1` has been typed in
again with blanks, and `D4` refers to `A1`. -/
def loopEdited : Sheet :=
  ((loop.clear ⟨1, 0⟩).insert ⟨0, 0⟩ (.ofFormula (.ofSource " B1 + 1"))).insert ⟨3, 3⟩
    (.ofFormula (.ofSource "A1"))

/-- From `A1` the sheets `loopNoted` and `loopEdited` agree, and both report the same cycle. -/
theorem value_eq_of_agreeFrom_loop :
    loopNoted.AgreeFrom loopEdited ⟨0, 0⟩ ∧
      loopEdited.value 0 ⟨0, 0⟩ = .error (.circular [⟨0, 1⟩, ⟨0, 2⟩, ⟨0, 1⟩]) := by
  have hunreferred : ∀ c ∈ loopNoted.formulas, ¬ loopNoted.Refers c ⟨3, 3⟩ := by decide +kernel
  have hnoted : loopNoted.content ⟨0, 0⟩ = .formula (.ofSource "B1+1") := by decide +kernel
  have htokens : Token.scan "B1+1" = Token.scan " B1 + 1" := by decide +kernel
  have hvalue : loopNoted.value 0 ⟨0, 0⟩ = .error (.circular [⟨0, 1⟩, ⟨0, 2⟩, ⟨0, 1⟩]) := by
    decide +kernel
  have hagree : loopNoted.AgreeFrom loopEdited ⟨0, 0⟩ := by
    intro b hb
    have hne : (⟨3, 3⟩ : Address) ≠ b := by
      rintro rfl
      rcases ReflTransGen.cases_tail hb with h | ⟨c, -, hc⟩
      · cases h
      · exact hunreferred c hc.mem_formulas hc
    rw [loopEdited, content_insert, if_neg hne, content_insert]
    split
    · rename_i ha
      rw [← ha, hnoted]
      exact .formula htokens
    · rw [clear, loopNoted, content_insert, content_insert]
      split
      · exact .number rfl rfl
      · exact .refl _
  exact ⟨hagree, (value_eq_of_agreeFrom 0 hagree).2.symm.trans hvalue⟩

/-- Tokens have the same value where the cells that they refer to have the same values. -/
theorem valueOf_congr {ts : List Token}
    (h : ∀ b, (∃ u ∈ ts, u.address? = some b) → s.value draw b = t.value draw b) :
    s.valueOf draw ts = t.valueOf draw ts := by
  rw [valueOf_eq, valueOf_eq]
  refine evaluateWith_congr fun name hname => ?_
  cases hread : Address.read? name with
  | some b =>
      rw [answerNames_of_some hread, answerNames_of_some hread]
      exact h b ⟨_, hname, hread⟩
  | none => rw [answerNames_of_none hread, answerNames_of_none hread]

/-- **A formula cell on no cycle has the value of its tokens.** What it refers to is read while
the cell is in progress, and reads as it does otherwise. -/
theorem value_eq_valueOf {f : Formula} (hf : s.content a = .formula f)
    (ha : ¬ TransGen s.Refers a a) : s.value draw a = s.valueOf draw f.tokens := by
  rw [value_eq_guarded, depthBound, guarded_succ_of_not_mem List.not_mem_nil,
    readWith_formula hf, valueOf_eq]
  refine evaluateWith_congr fun name hname => ?_
  cases hread : Address.read? name with
  | some b =>
      have hab : s.Refers a b := ⟨f, hf, _, hname, hread⟩
      have hunreachable : ∀ d ∈ [a], ¬ ReflTransGen s.Refers b d := by
        intro d hd hbd
        obtain rfl := List.mem_singleton.mp hd
        exact ha (.head' hab hbd)
      have hroute : s.Route ([a] ++ []) b := (Route.nil s a).snoc List.not_mem_nil hab
      rw [answerNames_of_some hread, answerNames_of_some hread, value_eq_guarded]
      exact guarded_congr (fun _ _ => .refl _) hunreachable hroute (.nil s b) (s.room_nil.snoc a)
        s.room_nil
  | none => rw [answerNames_of_none hread, answerNames_of_none hread]

/-- A formula cell has a number for a value exactly if its tokens have. If they have one, no
reference leads back to the cell. -/
theorem value_eq_ok_iff {f : Formula} {x : Float} (hf : s.content a = .formula f) :
    s.value draw a = .ok x ↔ s.valueOf draw f.tokens = .ok x := by
  constructor
  · intro h
    rw [← value_eq_valueOf hf (acyclicFrom_of_value_eq_ok h a .refl), h]
  · intro h
    rw [value_eq_valueOf hf, h]
    intro haa
    obtain ⟨b, ⟨g, hg, u, hu, hub⟩, hba⟩ := TransGen.head'_iff.mp haa
    obtain rfl : f = g := Content.formula.inj (hf.symm.trans hg)
    cases u with
    | reference name =>
        rw [valueOf_eq] at h
        obtain ⟨y, hy⟩ := answer_of_evaluateWith_eq_ok h name hu
        rw [answerNames_of_some hub] at hy
        exact acyclicFrom_of_value_eq_ok hy a hba haa
    | _ => cases hub

/-! ### Sheets with the same contents -/

section SameContents

variable (h : ∀ a, s.content a = t.content a)
include h

/-- Sheets with the same contents give a cell the same value. -/
theorem value_eq_of_content_eq (draw : Float) (a : Address) : s.value draw a = t.value draw a :=
  value_congr fun b _ => h b ▸ .refl _

/-- Sheets with the same contents give tokens the same value. -/
theorem valueOf_eq_of_content_eq (draw : Float) (ts : List Token) :
    s.valueOf draw ts = t.valueOf draw ts :=
  valueOf_congr fun b _ => value_eq_of_content_eq h draw b

/-- Sheets with the same contents have the same formula cells. -/
theorem formulas_eq_of_content_eq : s.formulas = t.formulas := by
  have : Std.Irrefl fun a b : Address => a.row < b.row ∨ a.row = b.row ∧ a.col < b.col :=
    ⟨fun a => by omega⟩
  have : Std.Antisymm fun a b : Address => a.row < b.row ∨ a.row = b.row ∧ a.col < b.col :=
    ⟨fun a b hab hba => by omega⟩
  refine s.ordered_formulas.eq_of_mem_iff t.ordered_formulas fun a => ?_
  rw [mem_formulas, mem_formulas, h]

/-- Sheets with the same contents are recalculated alike. -/
theorem recalculate_eq_of_content_eq (draw : Float) :
    s.recalculate draw = t.recalculate draw := by
  rw [recalculate, recalculate, formulaValues_eq_map, formulaValues_eq_map,
    formulas_eq_of_content_eq h]
  simp only [value_eq_of_content_eq h]

end SameContents

end Sheet

end Spreadsheet
