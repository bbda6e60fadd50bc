import Spreadsheet.Proofs.Sheet.Guard

/-!
# Readings Within a Pass

A pass keeps the cells in progress twice, as a path and as a set, and it may remember the
values that it has found. This module shows that neither is seen in the outcomes: as long as
the pass is in order, a reading has the outcome of the plain function `Sheet.guarded`, takes
every cell off the trail that it has put there, also when it fails, and remembers right values
only (`Sheet.yields_read`).

A value that is remembered was found behind one path of cells in progress and is used behind
another. That is right because only values of cells are remembered that reach no cycle, and
those do not depend on the path.

## Main definitions

* `Trail.Consistent`: the set of a trail holds the cells of its path.
* `Pass.Sound`: the values that a pass remembers are reference values.
* `Pass.Yields`: a computation has an outcome behind a trail, and keeps passes in order.

## Main results

* `Sheet.yields_read`: a reading within a pass is the reading behind a guard.
* `Sheet.value_of_acyclicFrom`: the value of a cell that reaches no cycle is its reference
  value.
* `Sheet.value_circularity`: a reported cycle is there, and none escapes a cell whose value
  is a number.
-/

open Relation

namespace Spreadsheet

open Evaluation

variable {s : Sheet} {draw : Float} {a b : Address} {t : Trail} {p q : Pass} {bound : ℕ}

/-! ### Trails -/

/-- The set of a trail holds exactly the cells of its path. -/
def Trail.Consistent (t : Trail) : Prop :=
  ∀ b, b ∈ t.cells ↔ b ∈ t.path

/-- A trail without cells is consistent. -/
theorem Trail.consistent_empty : Trail.Consistent {} := by
  intro b
  constructor
  · intro hb
    exact absurd hb Std.ExtTreeSet.not_mem_empty
  · intro hb
    cases hb

/-- A trail stays consistent when a cell is entered. -/
theorem Trail.Consistent.append (h : t.Consistent) (a : Address) :
    (t.append a).Consistent := by
  intro b
  simp only [Trail.append, Std.ExtTreeSet.mem_insert, List.mem_append, List.mem_singleton,
    Std.LawfulEqCmp.compare_eq_iff_eq, h b]
  grind

/-! ### Runs within a pass -/

namespace HoldsPass

variable {σ : Type} [HoldsPass σ] {q : σ} {x : Evaluation σ Float}

/-- The state in which a cell has been entered. -/
def enter (q : σ) (a : Address) : σ :=
  withPass q { pass q with trail := (pass q).trail.append a }

/-- A cell that is in progress cannot be entered, and the state stays as it is. -/
theorem runFrom_within_of_mem (ha : a ∈ (pass q).trail.cells) :
    (Pass.within a x).runFrom q =
      (.error (.circular ((pass q).trail.path.dropWhile (· ≠ a) ++ [a])), q) := by
  have hextend : (pass q).trail.extend a =
      .error (.circular ((pass q).trail.path.dropWhile (· ≠ a) ++ [a])) := by
    rw [Trail.extend, Trail.cycleTo?, if_pos ha]
  show ExceptT.run (Pass.within a x) q = _
  simp only [Pass.within, ExceptT.run_mk, hextend]

/-- Any other cell is in progress while the computation runs, and is left after that with or without
success. -/
theorem runFrom_within_of_not_mem (ha : a ∉ (pass q).trail.cells) :
    (Pass.within a x).runFrom q =
      ((x.runFrom (enter q a)).1, withPass (x.runFrom (enter q a)).2
        ((pass (x.runFrom (enter q a)).2).close a (x.runFrom (enter q a)).1)) := by
  have hextend : (pass q).trail.extend a = .ok ((pass q).trail.append a) :=
    Trail.extend_eq_ok_iff.mpr ⟨ha, rfl⟩
  show ExceptT.run (Pass.within a x) q = _
  simp only [Pass.within, ExceptT.run_mk, hextend]
  rfl

/-- A reading looks for a remembered value first. -/
theorem runFrom_look (s : Sheet) (draw : Float) (ask : String → Evaluation σ Float) (a : Address)
    (q : σ) :
    (s.look draw ask a).runFrom q =
      match (pass q).found? a with
      | some x => (.ok x, q)
      | none =>
        match s.content a with
        | .empty | .text _ => (.ok 0, q)
        | .number x => (.ok (Number.orZero x), q)
        | .formula f => (Pass.within a (evaluate draw ask f.tokens)).runFrom q := by
  rw [Sheet.look, runFrom_bind]
  show (match (pass q).found? a with | some x => _ | none => _ : Evaluation σ Float).runFrom q = _
  cases (pass q).found? a with
  | some x => rfl
  | none => cases s.content a <;> rfl

end HoldsPass

/-! ### Passes -/

namespace Pass

/-- A pass is **sound** if it remembers values only of cells that reach no cycle, and these
are their reference values. -/
def Sound (s : Sheet) (draw : Float) (p : Pass) : Prop :=
  ∀ b x, p.found? b = some x → ∃ h : s.AcyclicFrom b, s.unguarded draw b h = .ok x

/-- A pass is **behind** a trail if it is sound and the cells in progress are those of the
trail. -/
structure Behind (s : Sheet) (draw : Float) (t : Trail) (p : Pass) : Prop where
  /-- The cells in progress. -/
  trail_eq : p.trail = t
  /-- The remembered values are right. -/
  sound : p.Sound s draw

/-- A computation **yields** an outcome behind a trail if it does so in every pass that is
behind the trail, and leaves the pass behind the trail. -/
def Yields (s : Sheet) (draw : Float) (t : Trail) (x : Evaluation Pass Float)
    (r : Except FormulaError Float) : Prop :=
  ∀ p : Pass, p.Behind s draw t → (x.runFrom p).1 = r ∧ (x.runFrom p).2.Behind s draw t

/-- A pass that has found nothing is sound. -/
theorem sound_of_found?_eq_none (h : ∀ b, p.found? b = none) : p.Sound s draw := by
  intro b x hx
  rw [h b] at hx
  cases hx

/-- What a pass has found after remembering a value is that value, or was found before. -/
theorem found?_remember {x y : Float} (h : (p.remember a x).found? b = some y) :
    a = b ∧ x = y ∨ p.found? b = some y := by
  obtain ⟨trail, memo⟩ := p
  cases memo with
  | none => cases h
  | some m =>
      have h : (m.insert a x)[b]? = some y := h
      rw [Std.ExtTreeMap.getElem?_insert] at h
      split at h
      · rename_i hab
        exact Or.inl ⟨Std.LawfulEqCmp.compare_eq_iff_eq.mp hab, Option.some.inj h⟩
      · exact Or.inr h

/-- Remembering a reference value keeps a pass sound. -/
theorem Sound.remember {x : Float} (hp : p.Sound s draw) (h : s.AcyclicFrom a)
    (hx : s.unguarded draw a h = .ok x) : (p.remember a x).Sound s draw := by
  intro b y hy
  rcases found?_remember hy with ⟨rfl, rfl⟩ | hfound
  · exact ⟨h, hx⟩
  · exact hp b y hfound

/-- A cell that is in progress cannot be entered, and the pass stays as it is. -/
theorem within_runFrom_of_mem {x : Evaluation Pass Float} (ha : a ∈ p.trail.cells) :
    (within a x).runFrom p =
      (.error (.circular (p.trail.path.dropWhile (· ≠ a) ++ [a])), p) :=
  HoldsPass.runFrom_within_of_mem (q := p) ha

/-- A value that has been found while a cell was in progress is remembered for the cell. -/
theorem within_runFrom_of_ok {x : Evaluation Pass Float} {v : Float}
    (ha : a ∉ p.trail.cells)
    (hx : x.runFrom { p with trail := p.trail.append a } = (.ok v, q)) :
    (within a x).runFrom p = (.ok v, { q with trail := q.trail.retract a }.remember a v) := by
  refine (HoldsPass.runFrom_within_of_not_mem (q := p) ha).trans ?_
  have hx : x.runFrom (HoldsPass.enter p a) = (.ok v, q) := hx
  rw [hx]
  rfl

/-- A failure while a cell was in progress is passed on. -/
theorem within_runFrom_of_error {x : Evaluation Pass Float} {e : FormulaError}
    (ha : a ∉ p.trail.cells)
    (hx : x.runFrom { p with trail := p.trail.append a } = (.error e, q)) :
    (within a x).runFrom p = (.error e, { q with trail := q.trail.retract a }) := by
  refine (HoldsPass.runFrom_within_of_not_mem (q := p) ha).trans ?_
  have hx : x.runFrom (HoldsPass.enter p a) = (.error e, q) := hx
  rw [hx]
  rfl

/-- Entering a cell in progress yields the cycle that it closes. -/
theorem yields_within_of_mem {x : Evaluation Pass Float} (ha : a ∈ t.cells) :
    Yields s draw t (within a x) (.error (.circular (t.path.dropWhile (· ≠ a) ++ [a]))) := by
  rintro p ⟨rfl, hsound⟩
  rw [within_runFrom_of_mem ha]
  exact ⟨rfl, rfl, hsound⟩

/-- A computation yields the same while a cell is in progress and after the cell has been
left again, provided that its value is the cell's reference value. -/
theorem yields_within {x : Evaluation Pass Float} {r : Except FormulaError Float}
    (ha : a ∉ t.cells) (hx : Yields s draw (t.append a) x r)
    (hr : ∀ v, r = .ok v → ∃ h : s.AcyclicFrom a, s.unguarded draw a h = .ok v) :
    Yields s draw t (within a x) r := by
  rintro p ⟨rfl, hsound⟩
  obtain ⟨hout, hafter⟩ := hx { p with trail := p.trail.append a } ⟨rfl, hsound⟩
  rcases hrun : x.runFrom { p with trail := p.trail.append a } with ⟨r', q⟩
  rw [hrun] at hout hafter
  obtain rfl : r' = r := hout
  have hretract : q.trail.retract a = p.trail := by
    rw [hafter.trail_eq, Trail.retract_append p.trail ha]
  cases r' with
  | ok v =>
      obtain ⟨hacyclic, hv⟩ := hr v rfl
      rw [within_runFrom_of_ok ha hrun]
      exact ⟨rfl, hretract, Sound.remember hafter.sound hacyclic hv⟩
  | error e =>
      rw [within_runFrom_of_error ha hrun]
      exact ⟨rfl, hretract, hafter.sound⟩

end Pass

/-! ### Readings -/

namespace Sheet

/-- A reading looks for a remembered value first. -/
theorem read_runFrom_succ (p : Pass) :
    (s.read draw (bound + 1) a).runFrom p =
      match p.found? a with
      | some x => (.ok x, p)
      | none =>
        match s.content a with
        | .empty | .text _ => (.ok 0, p)
        | .number x => (.ok (Number.orZero x), p)
        | .formula f =>
          (Pass.within a (evaluate draw (s.readName draw bound) f.tokens)).runFrom p :=
  HoldsPass.runFrom_look s draw (s.readName draw bound) a p

/-- A name is read by its cell, or as zero. -/
theorem readName_eq (name : String) :
    s.readName draw bound name =
      match Address.read? name with
      | some b => s.read draw bound b
      | none => pure 0 :=
  rfl

/-- A formula yields what its cell reads as, if its references yield what they read as. -/
theorem yields_evaluate {f : Formula} {answer : Address → Except FormulaError Float}
    (hf : s.content a = .formula f)
    (h : ∀ b, s.Refers a b → Pass.Yields s draw t (s.read draw bound b) (answer b)) :
    Pass.Yields s draw t (evaluate draw (s.readName draw bound) f.tokens)
      (s.readWith draw answer a) := by
  intro p hp
  rw [readWith_formula hf]
  refine evaluate_runFrom_eq (fun name hname q hq => ?_) hp
  rw [readName_eq]
  cases hread : Address.read? name with
  | some b =>
      rw [answerNames_of_some hread]
      exact h b ⟨f, hf, _, hname, hread⟩ q hq
  | none =>
      rw [answerNames_of_none hread]
      exact ⟨rfl, hq⟩

/-- **A reading within a pass is the reading behind a guard.** If the cells in progress form
a route to a cell, then the cell reads as it does behind that route; the trail is left as it
was, and what has been remembered is right. The bound is never exhausted. -/
theorem yields_read (ht : t.Consistent) (hroute : s.Route t.path a)
    (hroom : s.Room bound t.path) :
    Pass.Yields s draw t (s.read draw bound a) (s.guarded draw bound t.path a) := by
  induction bound generalizing t a with
  | zero => exact absurd hroom hroute.not_room_zero
  | succ bound ih =>
      intro p hp
      rw [read_runFrom_succ]
      cases hfound : p.found? a with
      | some x =>
          -- The guard is not asked, but it would not have objected.
          obtain ⟨hacyclic, hx⟩ := hp.sound a x hfound
          rw [guarded_eq_unguarded hroute hroom hacyclic]
          exact ⟨hx.symm, hp⟩
      | none =>
          by_cases hmem : a ∈ t.path
          · obtain ⟨b, ⟨f, hf, -⟩, -⟩ := TransGen.head'_iff.mp (hroute.transGen hmem)
            rw [guarded_succ_of_mem hmem, hf]
            exact Pass.yields_within_of_mem ((ht a).mpr hmem) p hp
          · cases hcontent : s.content a with
            | formula f =>
                refine Pass.yields_within (mt (ht a).mp hmem) ?_ ?_ p hp
                · rw [guarded_succ_of_not_mem hmem]
                  refine yields_evaluate hcontent fun b hab => ?_
                  exact ih (ht.append a) (hroute.snoc hmem hab) (hroom.snoc a)
                · intro v hv
                  have hacyclic := acyclicFrom_of_guarded_eq_ok hv
                  rw [guarded_eq_unguarded hroute hroom hacyclic] at hv
                  exact ⟨hacyclic, hv⟩
            | _ =>
                rw [guarded_succ_of_not_mem hmem, readWith, hcontent]
                exact ⟨rfl, hp⟩

/-! ### Values -/

/-- The bound on the depth of a reading leaves room for all formula cells. -/
theorem yields_read_depthBound (s : Sheet) (draw : Float) (a : Address) :
    Pass.Yields s draw {} (s.read draw s.depthBound a) (s.guarded draw s.depthBound [] a) :=
  yields_read Trail.consistent_empty (.nil s a) s.room_nil

/-- The value of a cell is its reading with no cells in progress. -/
theorem value_eq_guarded (s : Sheet) (draw : Float) (a : Address) :
    s.value draw a = s.guarded draw s.depthBound [] a :=
  (yields_read_depthBound s draw a {} ⟨rfl, Pass.sound_of_found?_eq_none fun _ => rfl⟩).1

/-- A cell whose value is a number reaches no cycle. -/
theorem acyclicFrom_of_value_eq_ok {x : Float} (h : s.value draw a = .ok x) :
    s.AcyclicFrom a := by
  rw [value_eq_guarded] at h
  exact acyclicFrom_of_guarded_eq_ok h

/-- **The value of a cell from which no cycle is reachable is its reference value**, and it is
no circular reference. -/
theorem value_of_acyclicFrom (s : Sheet) (draw : Float) (a : Address) (h : s.AcyclicFrom a) :
    (∀ path, s.value draw a ≠ .error (.circular path)) ∧
      s.value draw a = s.unguarded draw a h := by
  have hvalue : s.value draw a = s.unguarded draw a h := by
    rw [value_eq_guarded]
    exact guarded_eq_unguarded (.nil s a) s.room_nil h
  refine ⟨fun path => ?_, hvalue⟩
  rw [hvalue]
  exact unguarded_ne_circular h

/-- The value of a cell from which no cycle is reachable comes from those of the cells that it
refers to. -/
theorem AcyclicFrom.value_eq_readWith (h : s.AcyclicFrom a) :
    s.value draw a = s.readWith draw (s.value draw) a := by
  rw [(value_of_acyclicFrom s draw a h).2]
  exact unguarded_eq_readWith h fun b hab => (value_of_acyclicFrom s draw b (h.of_refers hab)).2

/-- A sheet on which two cells are reached in several ways: `D1` is `B1+C1`, `C1` is `A1+B1`,
and `B1` is `A1*3`. -/
def diamond : Sheet :=
  ofList [
    (⟨0, 0⟩, .ofNumber 2),
    (⟨0, 1⟩, .ofFormula (.ofSource "A1*3")),
    (⟨0, 2⟩, .ofFormula (.ofSource "A1+B1")),
    (⟨0, 3⟩, .ofFormula (.ofSource "B1+C1"))]

/-- On the sheet `diamond` no cycle is reachable from `D1`, and its reference value is 14. -/
theorem unguarded_diamond :
    ∃ h : diamond.AcyclicFrom ⟨0, 3⟩, diamond.unguarded 0 ⟨0, 3⟩ h = .ok 14 := by
  have hvalue : diamond.value 0 ⟨0, 3⟩ = .ok 14 := by decide +kernel
  have hacyclic : diamond.AcyclicFrom ⟨0, 3⟩ := acyclicFrom_of_value_eq_ok hvalue
  exact ⟨hacyclic, (value_of_acyclicFrom diamond 0 ⟨0, 3⟩ hacyclic).2.symm.trans hvalue⟩

/-- **The guard is sound and complete.** A reported path is a cycle that is reachable from the
cell, and a cell whose value is a number reaches no cycle. -/
theorem value_circularity (s : Sheet) (draw : Float) (a : Address) :
    (∀ path, s.value draw a = .error (.circular path) →
        s.IsCycle path ∧ ∃ b, path.head? = some b ∧ ReflTransGen s.Refers a b) ∧
      ∀ x, s.value draw a = .ok x → s.AcyclicFrom a := by
  refine ⟨fun path h => ?_, fun x => acyclicFrom_of_value_eq_ok⟩
  rw [value_eq_guarded] at h
  exact isCycle_of_guarded_eq_circular (.nil s a) s.room_nil h

/-- A sheet with a cycle: `A1` is `B1+1`, `B1` is `C1`, and `C1` is `A2*B1`. The formula of
`A2` is 4. -/
def loop : Sheet :=
  ofList [
    (⟨0, 0⟩, .ofFormula (.ofSource "B1+1")),
    (⟨0, 1⟩, .ofFormula (.ofSource "C1")),
    (⟨0, 2⟩, .ofFormula (.ofSource "A2*B1")),
    (⟨1, 0⟩, .ofFormula (.ofSource "4"))]

/-- On the sheet `loop` the cycle that is reachable from `A1` begins at `B1`, and none is
reachable from `A2`. -/
theorem isCycle_loop :
    loop.IsCycle [⟨0, 1⟩, ⟨0, 2⟩, ⟨0, 1⟩] ∧ ReflTransGen loop.Refers ⟨0, 0⟩ ⟨0, 1⟩ ∧
      loop.AcyclicFrom ⟨1, 0⟩ := by
  have hcircular : loop.value 0 ⟨0, 0⟩ = .error (.circular [⟨0, 1⟩, ⟨0, 2⟩, ⟨0, 1⟩]) := by
    decide +kernel
  have hvalue : loop.value 0 ⟨1, 0⟩ = .ok 4 := by decide +kernel
  obtain ⟨hcycle, b, hb, hreach⟩ := (value_circularity loop 0 ⟨0, 0⟩).1 _ hcircular
  obtain rfl : (⟨0, 1⟩ : Address) = b := Option.some.inj hb
  exact ⟨hcycle, hreach, (value_circularity loop 0 ⟨1, 0⟩).2 4 hvalue⟩

end Sheet

end Spreadsheet
