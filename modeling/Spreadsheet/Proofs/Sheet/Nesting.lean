import Spreadsheet.Proofs.Sheet.Recalculation
import Spreadsheet.Proofs.Sheet.Trail

/-!
# Readings End

A reading of a formula cell reads other cells, which may be formula cells again, and the references
may lead back. What ends the recursion is the trail: a reading that reads others is one of a formula
cell that was not in progress before, and while they last it is. So there is always one formula cell
fewer to be entered (`Trail.spare_append`), whatever the sheet is like and whatever is remembered.

How many readings are nested inside one another is told by a meter that is kept beside the pass. It
is the program's readings that are metered, each of them run in another way (`metered`), and that
changes nothing else (`Sheet.readMetered_related`). The meter never shows more than the number of
formula cells and one, however large the bound on the recursion is. A bound of that size is
therefore never exhausted, and a larger one makes no difference (`Sheet.readMetered_runFrom_eq`).

## Main definitions

* `Meter`: how many readings are under way, and the most that have been.
* `Sheet.readMetered`, `Sheet.readAllMetered`: readings with a meter.
* `Trail.spare`: the number of formula cells that are not in progress.

## Main results

* `Sheet.meter_readMetered`: what the meter shows after a reading.
* `Sheet.readMetered_runFrom_eq`: bounds that leave room make no difference.
* `Sheet.nested_readings_bounded`: readings are nested at most as deep as there are formula cells,
  and one more.
-/

namespace Spreadsheet

open Evaluation HoldsPass

/-! ### The meter -/

/-- A meter of nested readings. -/
structure Meter where
  /-- The readings that are under way. -/
  depth : ℕ := 0
  /-- The most that have been under way at one moment. -/
  peak : ℕ := 0

namespace Meter

/-- A reading begins. -/
def start (m : Meter) : Meter :=
  ⟨m.depth + 1, max m.peak (m.depth + 1)⟩

/-- A reading ends. -/
def stop (m : Meter) : Meter :=
  { m with depth := m.depth - 1 }

end Meter

/-- A pass with a meter. -/
abbrev MeteredPass : Type :=
  Pass × Meter

/-- Runs a computation as a reading, which is under way until the computation has ended, with or
without success. -/
def metered (x : Evaluation MeteredPass Float) : Evaluation MeteredPass Float :=
  ExceptT.mk fun (p, m) =>
    match x.runFrom (p, m.start) with
    | (r, p, m) => (r, p, m.stop)

namespace Sheet

/-- The reading of a cell with a meter. Where the bound on the recursion is exhausted, the reading
that is one too many is counted as well. -/
def readMetered (s : Sheet) (draw : Float) (bound : ℕ) (a : Address) :
    Evaluation MeteredPass Float :=
  s.readIn metered draw bound a

/-- What a name in a formula reads as, with a meter. -/
def readNameMetered (s : Sheet) (draw : Float) (bound : ℕ) (name : String) :
    Evaluation MeteredPass Float :=
  s.readNameIn metered draw bound name

/-- Reads cells one after the other with a meter, and collects the outcomes. -/
def readAllMetered (s : Sheet) (draw : Float) (bound : ℕ) (cells : List Address)
    (q : MeteredPass) : List (Address × Except FormulaError Float) × MeteredPass :=
  s.readAllIn metered draw bound cells q

end Sheet

variable {s : Sheet} {draw : Float} {a : Address} {q : MeteredPass}
  {bound bound' : ℕ} {x y : Evaluation MeteredPass Float}

/-! ### Runs with a meter -/

/-- A reading is under way while it runs. -/
theorem metered_runFrom (x : Evaluation MeteredPass Float) (q : MeteredPass) :
    (metered x).runFrom q =
      ((x.runFrom (q.1, q.2.start)).1, (x.runFrom (q.1, q.2.start)).2.1,
        (x.runFrom (q.1, q.2.start)).2.2.stop) :=
  rfl

/-- A cell that is in progress cannot be entered, and nothing changes. -/
theorem within_metered_of_mem (ha : a ∈ q.1.trail.cells) :
    (Pass.within a x).runFrom q =
      (.error (.circular (q.1.trail.path.dropWhile (· ≠ a) ++ [a])), q) :=
  HoldsPass.runFrom_within_of_mem ha

/-- Any other cell is in progress while the computation runs. The meter is that of the
computation. -/
theorem within_metered_of_not_mem (ha : a ∉ q.1.trail.cells) :
    (Pass.within a x).runFrom q =
      ((x.runFrom (enter q a)).1, (x.runFrom (enter q a)).2.1.close a (x.runFrom (enter q a)).1,
        (x.runFrom (enter q a)).2.2) :=
  HoldsPass.runFrom_within_of_not_mem ha

namespace Sheet

/-- A metered reading looks for a remembered value first. -/
theorem look_metered_runFrom (s : Sheet) (draw : Float)
    (ask : String → Evaluation MeteredPass Float) (a : Address) (q : MeteredPass) :
    (s.look draw ask a).runFrom q =
      match q.1.found? a with
      | some x => (.ok x, q)
      | none =>
        match s.content a with
        | .empty | .text _ => (.ok 0, q)
        | .number x => (.ok (Number.orZero x), q)
        | .formula f => (Pass.within a (evaluate draw ask f.tokens)).runFrom q :=
  HoldsPass.runFrom_look s draw ask a q

/-- A reading with a meter looks a cell up, and asks with one bound less. -/
theorem readMetered_succ (s : Sheet) (draw : Float) (bound : ℕ) (a : Address) :
    s.readMetered draw (bound + 1) a =
      metered (s.look draw (s.readNameMetered draw bound) a) :=
  rfl

/-- A name is read by its cell, or as zero, with a meter as without. -/
theorem readNameMetered_eq (s : Sheet) (draw : Float) (bound : ℕ) (name : String) :
    s.readNameMetered draw bound name =
      match Address.read? name with
      | some b => s.readMetered draw bound b
      | none => pure 0 :=
  rfl

/-- Cells are read one after the other, each with what the ones before have left. -/
theorem readAllMetered_cons (s : Sheet) (draw : Float) (bound : ℕ) (a : Address)
    (cells : List Address) (q : MeteredPass) :
    s.readAllMetered draw bound (a :: cells) q =
      ((a, ((s.readMetered draw bound a).runFrom q).1) ::
          (s.readAllMetered draw bound cells ((s.readMetered draw bound a).runFrom q).2).1,
        (s.readAllMetered draw bound cells ((s.readMetered draw bound a).runFrom q).2).2) :=
  rfl

end Sheet

/-! ### Forgetting the meter -/

/-- The same pass, with a meter. -/
def SamePass (p : Pass) (q : MeteredPass) : Prop :=
  p = q.1

/-- A computation that takes no notice of the meter takes none as a reading. -/
theorem Evaluation.Related.metered {x : Evaluation Pass Float} (h : Related SamePass x y) :
    Related SamePass x (metered y) := by
  rintro p ⟨_, m⟩ rfl
  exact h p (p, m.start) rfl

/-- A computation that takes no notice of the meter takes none while a cell is in progress. -/
theorem Evaluation.Related.within {x : Evaluation Pass Float} (h : Related SamePass x y) :
    Related SamePass (Pass.within a x) (Pass.within a y) := by
  rintro p ⟨_, m⟩ rfl
  by_cases ha : a ∈ p.trail.cells
  · rw [Pass.within_runFrom_of_mem ha, within_metered_of_mem ha]
    exact ⟨rfl, rfl⟩
  · obtain ⟨hout, hpass⟩ := h { p with trail := p.trail.append a } (enter (p, m) a) rfl
    rw [within_metered_of_not_mem ha]
    rcases hrun : x.runFrom { p with trail := p.trail.append a } with ⟨e | v, p'⟩
    all_goals
      rw [hrun] at hout hpass
      obtain rfl : p' = _ := hpass
      rw [← hout]
    · rw [Pass.within_runFrom_of_error ha hrun]
      exact ⟨rfl, rfl⟩
    · rw [Pass.within_runFrom_of_ok ha hrun]
      exact ⟨rfl, rfl⟩

namespace Sheet

/-- Names are read without notice of the meter, if cells are. -/
theorem readNameMetered_related
    (h : ∀ b, Related SamePass (s.read draw bound b) (s.readMetered draw bound b)) (name : String) :
    Related SamePass (s.readName draw bound name) (s.readNameMetered draw bound name) := by
  rw [readName_eq, readNameMetered_eq]
  cases Address.read? name with
  | some b => exact h b
  | none => exact .pure 0

/-- **The meter changes nothing else**: a reading with a meter has the outcome of the reading, and
leaves the same pass. -/
theorem readMetered_related (s : Sheet) (draw : Float) (bound : ℕ) (a : Address) :
    Related SamePass (s.read draw bound a) (s.readMetered draw bound a) := by
  induction bound generalizing a with
  | zero => exact .metered fun p q h => ⟨rfl, h⟩
  | succ bound ih =>
      rw [readMetered_succ]
      refine .metered ?_
      rintro p q rfl
      rw [read_runFrom_succ, look_metered_runFrom]
      cases q.1.found? a with
      | some x => exact ⟨rfl, rfl⟩
      | none =>
          cases s.content a with
          | formula f =>
              have hname : ∀ name, Related SamePass (s.readName draw bound name)
                  (s.readNameMetered draw bound name) := readNameMetered_related ih
              exact Related.within (evaluate_related fun name _ => hname name) q.1 q rfl
          | _ => exact ⟨rfl, rfl⟩

/-- A reading with a meter leaves the trail as it was. -/
theorem trail_readMetered (s : Sheet) (draw : Float) (bound : ℕ) (a : Address) (q : MeteredPass) :
    ((s.readMetered draw bound a).runFrom q).2.1.trail = q.1.trail := by
  have hpass := (s.readMetered_related draw bound a q.1 q rfl).2
  rw [← hpass]
  exact s.trail_read draw bound a q.1

end Sheet

/-! ### Room for formula cells -/

/-- The number of formula cells that are not in progress. -/
def Trail.spare (t : Trail) (s : Sheet) : ℕ :=
  (s.formulas.filter fun a => a ∉ t.cells).length

/-- A trail without cells spares all formula cells. -/
theorem Trail.spare_empty (s : Sheet) : ({} : Trail).spare s = s.formulas.length := by
  rw [spare, List.filter_eq_self.mpr fun a _ => ?_]
  exact decide_eq_true Std.ExtTreeSet.not_mem_empty

/-- **A formula cell that is entered is spared no more.** -/
theorem Trail.spare_append {t : Trail} (hformula : a ∈ s.formulas) (ha : a ∉ t.cells) :
    (t.append a).spare s < t.spare s := by
  have hfilter : (s.formulas.filter fun b => b ∉ (t.append a).cells) =
      (s.formulas.filter fun b => b ∉ t.cells).filter fun b => b ≠ a := by
    rw [List.filter_filter]
    refine List.filter_congr fun b _ => ?_
    simp only [append, Std.ExtTreeSet.mem_insert, Std.LawfulEqCmp.compare_eq_iff_eq]
    grind
  rw [spare, spare, hfilter, List.length_filter_lt_length_iff_exists]
  exact ⟨a, List.mem_filter.mpr ⟨hformula, decide_eq_true ha⟩, by simp⟩

/-! ### What the meter shows -/

/-- The change of a meter while up to `n` more readings are nested, all of which end. -/
structure Meter.Nests (n : ℕ) (m m' : Meter) : Prop where
  /-- All readings that have begun have ended. -/
  depth_eq : m'.depth = m.depth
  /-- At no moment there were more. -/
  peak_le : m'.peak ≤ max m.peak (m.depth + n)

namespace Meter

variable {n n' : ℕ} {m m' m'' : Meter}

/-- A meter that stays as it is shows that nothing was nested. -/
theorem Nests.refl (n : ℕ) (m : Meter) : Nests n m m :=
  ⟨rfl, le_max_left _ _⟩

/-- Readings one after the other are nested as deep as the deeper of them. -/
theorem Nests.trans (h : Nests n m m') (h' : Nests n m' m'') : Nests n m m'' := by
  refine ⟨h'.depth_eq.trans h.depth_eq, ?_⟩
  have hpeak := h.peak_le
  have hpeak' := h'.peak_le
  rw [h.depth_eq] at hpeak'
  omega

/-- What is nested up to a depth is nested up to any larger one. -/
theorem Nests.mono (h : Nests n m m') (hn : n ≤ n') : Nests n' m m' := by
  refine ⟨h.depth_eq, ?_⟩
  have hpeak := h.peak_le
  omega

/-- A reading is nested itself, and so are those that are nested in it. -/
theorem Nests.stop (h : Nests n m.start m') : Nests (n + 1) m m'.stop := by
  have hdepth : m'.depth = m.depth + 1 := h.depth_eq
  have hpeak : m'.peak ≤ max (max m.peak (m.depth + 1)) (m.depth + 1 + n) := h.peak_le
  refine ⟨?_, ?_⟩
  · show m'.depth - 1 = m.depth
    omega
  · show m'.peak ≤ max m.peak (m.depth + (n + 1))
    omega

end Meter

namespace Sheet

/-- A formula nests as many readings as those of the cells that it refers to do. -/
theorem meter_evaluate {n : ℕ} {ts : List Token}
    (h : ∀ b (q' : MeteredPass), q'.1.trail = q.1.trail →
      q'.2.Nests n ((s.readMetered draw bound b).runFrom q').2.2) :
    q.2.Nests n ((evaluate draw (s.readNameMetered draw bound) ts).runFrom q).2.2 := by
  refine (evaluate_keeps (I := fun q' : MeteredPass => q'.1.trail = q.1.trail ∧ q.2.Nests n q'.2)
    (fun name _ q' hq' => ?_) ⟨rfl, .refl n q.2⟩).2
  rw [readNameMetered_eq]
  cases Address.read? name with
  | some b => exact ⟨(s.trail_readMetered draw bound b q').trans hq'.1, hq'.2.trans (h b q' hq'.1)⟩
  | none => exact hq'

/-- **What the meter shows after a reading**: each reading that nests others is one of a formula
cell that was not in progress, so there is one such cell fewer for those. This holds for every
bound. -/
theorem meter_readMetered (s : Sheet) (draw : Float) (bound : ℕ) (a : Address) (q : MeteredPass) :
    q.2.Nests (q.1.trail.spare s + 1) ((s.readMetered draw bound a).runFrom q).2.2 := by
  induction bound generalizing a q with
  | zero => exact (Meter.Nests.refl _ _).stop
  | succ bound ih =>
      rw [readMetered_succ, metered_runFrom]
      refine Meter.Nests.stop ?_
      rw [look_metered_runFrom]
      cases q.1.found? a with
      | some x => exact .refl _ _
      | none =>
          cases hcontent : s.content a with
          | formula f =>
              by_cases ha : a ∈ q.1.trail.cells
              · simp only [within_metered_of_mem (q := (q.1, q.2.start)) ha]
                exact .refl _ _
              · simp only [within_metered_of_not_mem (q := (q.1, q.2.start)) ha]
                have hspare := Trail.spare_append (mem_formulas.mpr ⟨f, hcontent⟩) ha
                refine meter_evaluate (q := enter (q.1, q.2.start) a) fun b q' hq' => ?_
                have hnests := ih b q'
                rw [hq'] at hnests
                exact hnests.mono hspare
          | _ => exact .refl _ _

/-- Readings one after the other are not nested in each other. -/
theorem meter_readAllMetered (cells : List Address) (q : MeteredPass) :
    q.2.Nests (q.1.trail.spare s + 1) (s.readAllMetered draw bound cells q).2.2 := by
  induction cells generalizing q with
  | nil => exact .refl _ _
  | cons a cells ih =>
      rw [readAllMetered_cons]
      have hrest := ih ((s.readMetered draw bound a).runFrom q).2
      rw [trail_readMetered] at hrest
      exact (s.meter_readMetered draw bound a q).trans hrest

/-! ### Bounds -/

/-- A formula is the same for two bounds, if the readings are of the cells that it refers to. -/
theorem evaluate_readNameMetered_eq {ts : List Token}
    (h : ∀ b (q' : MeteredPass), q'.1.trail = q.1.trail →
      (s.readMetered draw bound b).runFrom q' = (s.readMetered draw bound' b).runFrom q') :
    (evaluate draw (s.readNameMetered draw bound) ts).runFrom q =
      (evaluate draw (s.readNameMetered draw bound') ts).runFrom q := by
  have hrelated : Related (fun q₁ q₂ : MeteredPass => q₁ = q₂ ∧ q₁.1.trail = q.1.trail)
      (evaluate draw (s.readNameMetered draw bound) ts)
      (evaluate draw (s.readNameMetered draw bound') ts) := by
    refine evaluate_related fun name _ => ?_
    rintro q₁ _ ⟨rfl, htrail⟩
    rw [readNameMetered_eq, readNameMetered_eq]
    cases Address.read? name with
    | some b =>
        dsimp only
        rw [h b q₁ htrail]
        exact ⟨rfl, rfl, (s.trail_readMetered draw bound' b q₁).trans htrail⟩
    | none => exact ⟨rfl, rfl, htrail⟩
  obtain ⟨hout, hpass, -⟩ := hrelated q q ⟨rfl, rfl⟩
  exact Prod.ext hout hpass

/-- **Bounds that leave room for all formula cells make no difference**, neither to the outcome nor
to what is remembered nor to the meter. -/
theorem readMetered_runFrom_eq (h : q.1.trail.spare s < bound) (h' : q.1.trail.spare s < bound') :
    (s.readMetered draw bound a).runFrom q = (s.readMetered draw bound' a).runFrom q := by
  induction bound generalizing a q bound' with
  | zero => exact absurd h (Nat.not_lt_zero _)
  | succ bound ih =>
      obtain ⟨bound', rfl⟩ : ∃ n, bound' = n + 1 :=
        Nat.exists_eq_succ_of_ne_zero (Nat.ne_zero_of_lt h')
      have hlook : (s.look draw (s.readNameMetered draw bound) a).runFrom (q.1, q.2.start) =
          (s.look draw (s.readNameMetered draw bound') a).runFrom (q.1, q.2.start) := by
        rw [look_metered_runFrom, look_metered_runFrom]
        cases q.1.found? a with
        | some x => rfl
        | none =>
            cases hcontent : s.content a with
            | formula f =>
                by_cases ha : a ∈ q.1.trail.cells
                · simp only [within_metered_of_mem (q := (q.1, q.2.start)) ha]
                · simp only [within_metered_of_not_mem (q := (q.1, q.2.start)) ha]
                  have hspare := Trail.spare_append (mem_formulas.mpr ⟨f, hcontent⟩) ha
                  rw [evaluate_readNameMetered_eq fun b q' hq' => ?_]
                  have hq' : q'.1.trail = q.1.trail.append a := hq'
                  refine ih ?_ ?_ <;>
                  · rw [hq']
                    omega
            | _ => rfl
      rw [readMetered_succ, readMetered_succ, metered_runFrom, metered_runFrom, hlook]

/-- There are no more spare formula cells than formula cells. -/
theorem spare_lt (h : s.formulas.length < bound) (t : Trail) : t.spare s < bound :=
  (List.length_filter_le _ _).trans_lt h

/-- A reading is the same for all bounds that exceed the number of formula cells. -/
theorem read_runFrom_eq (h : s.formulas.length < bound) (a : Address) (p : Pass) :
    (s.read draw bound a).runFrom p = (s.read draw s.depthBound a).runFrom p := by
  obtain ⟨hout, hpass⟩ := s.readMetered_related draw bound a p (p, {}) rfl
  obtain ⟨hout', hpass'⟩ := s.readMetered_related draw s.depthBound a p (p, {}) rfl
  have heq : (s.readMetered draw bound a).runFrom (p, {}) =
      (s.readMetered draw s.depthBound a).runFrom (p, {}) :=
    readMetered_runFrom_eq (spare_lt h _) (spare_lt (Nat.lt_succ_self _) _)
  refine Prod.ext ?_ ?_
  · rw [hout, heq, ← hout']
  · exact hpass.trans ((congrArg (fun r => r.2.1) heq).trans hpass'.symm)

/-- The names in a formula read the same for all bounds that exceed the number of formula cells. -/
theorem readName_eq_ask (h : s.formulas.length < bound) : s.readName draw bound = s.ask draw := by
  funext name
  rw [ask, readName_eq, readName_eq]
  cases Address.read? name with
  | some b => exact funext (read_runFrom_eq h b)
  | none => rfl

/-- Readings one after the other are the same for all bounds that exceed the number of formula
cells. -/
theorem readAllMetered_eq (h : s.formulas.length < bound) (cells : List Address)
    (q : MeteredPass) :
    (s.readAllMetered draw bound cells q).1 = s.readAll draw cells q.1 ∧
      s.readAllMetered draw bound cells q = s.readAllMetered draw s.depthBound cells q := by
  induction cells generalizing q with
  | nil => exact ⟨rfl, rfl⟩
  | cons a cells ih =>
      have heq : (s.readMetered draw bound a).runFrom q =
          (s.readMetered draw s.depthBound a).runFrom q :=
        readMetered_runFrom_eq (spare_lt h _) (spare_lt (Nat.lt_succ_self _) _)
      obtain ⟨hout, hpass⟩ := s.readMetered_related draw bound a q.1 q rfl
      rw [read_runFrom_eq h] at hout hpass
      rw [readAllMetered_cons, readAllMetered_cons, readAll_cons, ← heq]
      rcases hrun : (s.readMetered draw bound a).runFrom q with ⟨r, q'⟩
      rcases hread : (s.read draw s.depthBound a).runFrom q.1 with ⟨r', p'⟩
      rw [hrun, hread] at hout hpass
      obtain rfl : r' = r := hout
      obtain rfl : p' = q'.1 := hpass
      obtain ⟨houtcomes, hall⟩ := ih q'
      exact ⟨congrArg _ houtcomes, by dsimp only; rw [hall]⟩

/-- **Readings end, and are not nested deeply.** Beside a reading, a formula or a recalculation a
meter can be kept, which changes nothing. On a sheet with `n` formula cells, with or without cycles,
it never shows more than `n + 1` readings that are nested inside one another, however large the
bound on the recursion is. So a bound of `n + 1` is never exhausted, and a larger one changes
neither the outcome nor what is remembered. -/
theorem nested_readings_bounded (s : Sheet) (draw : Float) :
    (∀ (bound : ℕ) (memo : Option (Std.ExtTreeMap Address Float)),
      (∀ a, Related SamePass (s.read draw bound a) (s.readMetered draw bound a) ∧
        ((s.readMetered draw bound a).runFrom ({ memo }, {})).2.2.peak ≤ s.formulas.length + 1) ∧
      (∀ ts, Related SamePass (evaluate draw (s.readName draw bound) ts)
          (evaluate draw (s.readNameMetered draw bound) ts) ∧
        ((evaluate draw (s.readNameMetered draw bound) ts).runFrom ({ memo }, {})).2.2.peak ≤
          s.formulas.length + 1) ∧
      ∀ cells,
        (s.readAllMetered draw bound cells ({ memo }, {})).2.2.peak ≤ s.formulas.length + 1) ∧
    ∀ bound, s.formulas.length < bound →
      (∀ a p, (s.read draw bound a).runFrom p = (s.read draw s.depthBound a).runFrom p) ∧
      (∀ ts p, (evaluate draw (s.readName draw bound) ts).runFrom p =
        (evaluate draw (s.ask draw) ts).runFrom p) ∧
      ∀ cells q, (s.readAllMetered draw bound cells q).1 = s.readAll draw cells q.1 ∧
        s.readAllMetered draw bound cells q = s.readAllMetered draw s.depthBound cells q := by
  have hpeak : ∀ {m : Meter}, Meter.Nests (({} : Trail).spare s + 1) {} m →
      m.peak ≤ s.formulas.length + 1 := by
    intro m hm
    have hle := hm.peak_le
    rw [Trail.spare_empty] at hle
    have hzero : ({} : Meter).peak = 0 ∧ ({} : Meter).depth = 0 := ⟨rfl, rfl⟩
    omega
  refine ⟨fun bound memo => ⟨fun a => ⟨s.readMetered_related draw bound a, ?_⟩, fun ts => ⟨?_, ?_⟩,
    fun cells => ?_⟩, fun bound h => ⟨read_runFrom_eq h, fun ts p => ?_, readAllMetered_eq h⟩⟩
  · exact hpeak (s.meter_readMetered draw bound a ({ memo }, {}))
  · exact evaluate_related fun name _ =>
      readNameMetered_related (s.readMetered_related draw bound) name
  · refine hpeak (meter_evaluate (q := ({ memo }, {})) fun b q' hq' => ?_)
    have hnests := s.meter_readMetered draw bound b q'
    rwa [hq'] at hnests
  · exact hpeak (meter_readAllMetered cells ({ memo }, {}))
  · rw [readName_eq_ask h]

/-- On the sheet `diamond` with its three formulas, the reading of `D1` nests four readings, of
`D1`, `C1`, `B1` and `A1`. With a bound of 100 it is the same as with a bound of 4. -/
theorem nested_readings_bounded_diamond :
    diamond.formulas.length = 3 ∧
      ((diamond.readMetered 0 100 ⟨0, 3⟩).runFrom ({}, {})).2.2.peak = 3 + 1 ∧
      ∀ p, (diamond.read 0 100 ⟨0, 3⟩).runFrom p = (diamond.read 0 4 ⟨0, 3⟩).runFrom p := by
  have hlength : diamond.formulas.length = 3 := by decide +kernel
  have hbound : diamond.depthBound = 4 := congrArg (· + 1) hlength
  have hlt : diamond.formulas.length < 100 := by omega
  have hreads := ((nested_readings_bounded diamond 0).2 100 hlt).1 ⟨0, 3⟩
  rw [hbound] at hreads
  exact ⟨hlength, by decide +kernel, hreads⟩

end Sheet

end Spreadsheet
