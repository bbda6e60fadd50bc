import Spreadsheet.Proofs.Sheet.Reading

/-!
# Trails Under Any Calls

A trail keeps its cells twice, as a path and as a set, and the set is asked whether a cell may be
entered. A call extends the trail in hand or retracts it, and a call that fails leaves it as it is
(`Trail.Call.perform`). Whatever cells are entered and left, in whatever order, and also if the
cells that are left are not those that were entered last, the path has no cell twice and the set
holds the cells of the path (`Trail.inStep_after`). So the set answers for the path, and a cell can
be entered exactly if it is not on the path.

Every reading within a pass takes off the trail what it has put there. It does so on every way out,
also where a failure comes through several formulas at once (`Sheet.trail_read`), and whatever the
trail and the remembered values are that it starts with.

## Main definitions

* `Trail.Call`: entering and leaving a cell, done to the trail in hand.
* `Trail.InStep`: the two forms of a trail agree, and no cell is on the path twice.

## Main results

* `Trail.inStep_after`: trails stay in step under any calls.
* `Sheet.trail_read`: a reading leaves the trail as it was.
* `Trail.in_step_and_given_back`: both, with what each call does.
-/

namespace Spreadsheet

open Evaluation

/-! ### Computations in place -/

namespace Evaluation

variable {σ : Type}

/-- The state can be looked at. -/
@[simp]
theorem runFrom_get (s : σ) : (get : Evaluation σ σ).runFrom s = (.ok s, s) := rfl

/-- The state can be replaced. -/
@[simp]
theorem runFrom_set (s s' : σ) : (set s' : Evaluation σ PUnit).runFrom s = (.ok (), s') := rfl

/-- An outcome that is known leaves the state as it is. -/
@[simp]
theorem runFrom_ofOutcome {α : Type} (r : Except FormulaError α) (s : σ) :
    (ofOutcome r : Evaluation σ α).runFrom s = (r, s) := rfl

end Evaluation

namespace Trail

variable {t u : Trail} {a : Address}

/-! ### Calls -/

/-- What is done to a trail. -/
inductive Call where
  /-- A cell is entered. -/
  | enter (a : Address)
  /-- A cell is left. -/
  | leave (a : Address)

/-- Does a call to the trail in hand, which is extended or retracted. -/
def Call.perform : Call → Evaluation Trail Unit
  | enter a => do set (← .ofOutcome ((← get).extend a))
  | leave a => modify (·.retract a)

/-- The trail after calls, any of which may have failed. -/
def after (calls : List Call) : Trail :=
  calls.foldl (fun t call => (call.perform.runFrom t).2) {}

/-- A cell on the trail cannot be entered, and the trail stays as it is. -/
theorem runFrom_enter_of_mem (h : a ∈ t.cells) :
    (Call.enter a).perform.runFrom t =
      (.error (.circular (t.path.dropWhile (· ≠ a) ++ [a])), t) := by
  have hextend : t.extend a = .error (.circular (t.path.dropWhile (· ≠ a) ++ [a])) := by
    rw [extend, cycleTo?, if_pos h]
  simp only [Call.perform, runFrom_bind, runFrom_get, runFrom_ofOutcome, hextend]

/-- Any other cell is added to the path. -/
theorem runFrom_enter_of_not_mem (h : a ∉ t.cells) :
    (Call.enter a).perform.runFrom t = (.ok (), t.append a) := by
  have hextend : t.extend a = .ok (t.append a) := extend_eq_ok_iff.mpr ⟨h, rfl⟩
  simp only [Call.perform, runFrom_bind, runFrom_get, runFrom_ofOutcome, hextend, runFrom_set]

/-- A cell can always be left. -/
theorem runFrom_leave (t : Trail) (a : Address) :
    (Call.leave a).perform.runFrom t = (.ok (), t.retract a) :=
  rfl

/-! ### Trails in step -/

/-- A trail is **in step** if its set holds the cells of its path, and the path has none twice. -/
structure InStep (t : Trail) : Prop where
  /-- The two forms of the trail agree. -/
  consistent : t.Consistent
  /-- No cell is on the path twice. -/
  nodup : t.path.Nodup

/-- A trail without cells is in step. -/
theorem inStep_empty : InStep {} :=
  ⟨consistent_empty, List.nodup_nil⟩

/-- A trail in step is determined by its path. -/
theorem Consistent.eq_of_path_eq (ht : t.Consistent) (hu : u.Consistent) (h : t.path = u.path) :
    t = u := by
  have hcells : t.cells = u.cells := by
    apply Std.ExtTreeSet.ext_mem
    intro b
    rw [ht b, hu b, h]
  cases t
  cases u
  obtain rfl := h
  obtain rfl := hcells
  rfl

/-- A trail stays in step when a cell is entered that is not on it. -/
theorem InStep.append (h : t.InStep) (ha : a ∉ t.path) : (t.append a).InStep :=
  ⟨h.consistent.append a, List.nodup_append.mpr ⟨h.nodup, by simp, by grind⟩⟩

/-- **The last cell of the path is the one that was entered last**: leaving it gives the trail that
it was entered on. -/
theorem InStep.exists_append (h : t.InStep) (hlast : t.path.getLast? = some a) :
    ∃ u : Trail, u.InStep ∧ a ∉ u.path ∧ t = u.append a ∧ t.retract a = u := by
  obtain ⟨front, hpath⟩ := List.getLast?_eq_some_iff.mp hlast
  obtain ⟨hfront, -, hdisjoint⟩ := List.nodup_append.mp (hpath ▸ h.nodup)
  have ha : a ∉ front := fun hmem => hdisjoint a hmem a List.mem_cons_self rfl
  have hcells : (Trail.mk front (t.cells.erase a)).Consistent := by
    intro b
    simp only [Std.ExtTreeSet.mem_erase, h.consistent b, hpath, ne_eq,
      Std.LawfulEqCmp.compare_eq_iff_eq]
    grind
  have ht : t = (Trail.mk front (t.cells.erase a)).append a :=
    h.consistent.eq_of_path_eq (hcells.append a) hpath
  refine ⟨⟨front, t.cells.erase a⟩, ⟨hcells, hfront⟩, ha, ht, ?_⟩
  conv_lhs => rw [ht]
  exact retract_append _ (mt (hcells a).mp ha)

/-- Leaving any other cell changes nothing. -/
theorem retract_of_getLast?_ne (h : t.path.getLast? ≠ some a) : t.retract a = t :=
  if_neg h

/-- A trail stays in step when a cell is left, whichever it is. -/
theorem InStep.retract (h : t.InStep) (a : Address) : (t.retract a).InStep := by
  by_cases hlast : t.path.getLast? = some a
  · obtain ⟨u, hu, -, -, hretract⟩ := h.exists_append hlast
    rwa [hretract]
  · rwa [retract_of_getLast?_ne hlast]

/-- A call keeps a trail in step, whether it succeeds or fails. -/
theorem InStep.perform (h : t.InStep) (call : Call) : (call.perform.runFrom t).2.InStep := by
  cases call with
  | enter a =>
      by_cases ha : a ∈ t.cells
      · rw [runFrom_enter_of_mem ha]
        exact h
      · rw [runFrom_enter_of_not_mem ha]
        exact h.append (mt (h.consistent a).mpr ha)
  | leave a =>
      rw [runFrom_leave]
      exact h.retract a

/-- **Trails stay in step under any calls.** -/
theorem inStep_after (calls : List Call) : (after calls).InStep := by
  rw [after]
  generalize hstart : ({} : Trail) = t
  have h : t.InStep := hstart ▸ inStep_empty
  clear hstart
  induction calls generalizing t with
  | nil => exact h
  | cons call calls ih => exact ih _ (h.perform call)

end Trail

/-! ### Readings -/

variable {s : Sheet} {draw : Float} {a : Address} {p : Pass} {bound : ℕ}

/-- A computation that leaves every trail as it was may be carried out while a cell is in progress:
the cell is taken off again, also after a failure. -/
theorem Pass.trail_within {x : Evaluation Pass Float}
    (hx : ∀ q : Pass, (x.runFrom q).2.trail = q.trail) :
    ((Pass.within a x).runFrom p).2.trail = p.trail := by
  by_cases ha : a ∈ p.trail.cells
  · rw [within_runFrom_of_mem ha]
  · have hinner := hx { p with trail := p.trail.append a }
    rcases hrun : x.runFrom { p with trail := p.trail.append a } with ⟨e | v, q⟩
    all_goals
      rw [hrun] at hinner
      have hretract : q.trail.retract a = p.trail := by
        rw [hinner, Trail.retract_append p.trail ha]
    · rw [within_runFrom_of_error ha hrun]
      exact hretract
    · rw [within_runFrom_of_ok ha hrun]
      exact hretract

namespace Sheet

/-- What a name reads as leaves the trail as it was, if the cells do that it may name. -/
theorem trail_readName (h : ∀ b (q : Pass), ((s.read draw bound b).runFrom q).2.trail = q.trail)
    (name : String) (p : Pass) : ((s.readName draw bound name).runFrom p).2.trail = p.trail := by
  rw [readName_eq]
  cases Address.read? name with
  | some b => exact h b p
  | none => rfl

/-- **A reading leaves the trail as it was**, whether it succeeds or fails. -/
theorem trail_read (s : Sheet) (draw : Float) (bound : ℕ) (a : Address) (p : Pass) :
    ((s.read draw bound a).runFrom p).2.trail = p.trail := by
  induction bound generalizing a p with
  | zero => rfl
  | succ bound ih =>
      rw [read_runFrom_succ]
      cases p.found? a with
      | some x => rfl
      | none =>
          cases s.content a with
          | formula f =>
              refine Pass.trail_within fun q => ?_
              exact evaluate_keeps (I := fun q' => q'.trail = q.trail)
                (fun name _ q' hq' => (trail_readName ih name q').trans hq') rfl
          | _ => rfl

end Sheet

namespace Trail

/-- **Trails stay in step under any calls, and a reading gives its trail back.** After any calls, of
which any may have failed, the path has no cell twice and the set holds the cells of the path. A
cell on the path cannot be entered: nothing is changed, and the path from that cell on and the cell
once more are reported. Any other cell is entered at the end of the path. Leaving the last cell of
the path gives the trail that it was entered on, and leaving any other cell changes nothing. A
reading, from whatever trail it starts and whatever is remembered, leaves the trail as it found it,
whether it succeeds or fails, and so does each reading that is nested in it. -/
theorem in_step_and_given_back :
    (∀ (calls : List Call) (t : Trail), t = after calls →
      (t.path.Nodup ∧ ∀ b, b ∈ t.cells ↔ b ∈ t.path) ∧
      (∀ front a back, t.path = front ++ a :: back →
        (Call.enter a).perform.runFrom t = (.error (.circular (a :: back ++ [a])), t)) ∧
      (∀ a, a ∉ t.path → ∃ u, (Call.enter a).perform.runFrom t = (.ok (), u) ∧
        u.path = t.path ++ [a]) ∧
      (∀ a, t.path.getLast? = some a → ∃ u, (Call.enter a).perform.runFrom u = (.ok (), t) ∧
        (Call.leave a).perform.runFrom t = (.ok (), u)) ∧
      ∀ a, t.path.getLast? ≠ some a → (Call.leave a).perform.runFrom t = (.ok (), t)) ∧
    ∀ (s : Sheet) (draw : Float) (bound : ℕ) (a : Address) (p : Pass),
      ((s.read draw bound a).runFrom p).2.trail = p.trail := by
  refine ⟨fun calls t ht => ?_, Sheet.trail_read⟩
  have h : t.InStep := ht ▸ inStep_after calls
  refine ⟨⟨h.nodup, h.consistent⟩, fun front a back hpath => ?_, fun a ha => ?_, fun a hlast => ?_,
    fun a hlast => ?_⟩
  · have ha : a ∉ front := by
      have hnodup := h.nodup
      rw [hpath] at hnodup
      exact fun hmem => (List.nodup_append.mp hnodup).2.2 a hmem a List.mem_cons_self rfl
    have hdrop : t.path.dropWhile (· ≠ a) = a :: back := by
      rw [hpath, List.dropWhile_append_of_pos fun b hb =>
        decide_eq_true (ne_of_mem_of_not_mem hb ha), List.dropWhile_cons_of_neg (by simp)]
    have hmem : a ∈ t.cells := (h.consistent a).mpr (hpath ▸ by simp)
    rw [runFrom_enter_of_mem hmem, hdrop]
  · exact ⟨_, runFrom_enter_of_not_mem (mt (h.consistent a).mp ha), rfl⟩
  · obtain ⟨u, hu, ha, rfl, hretract⟩ := h.exists_append hlast
    refine ⟨u, runFrom_enter_of_not_mem (mt (hu.consistent a).mp ha), ?_⟩
    rw [runFrom_leave, hretract]
  · rw [runFrom_leave, retract_of_getLast?_ne hlast]

/-- `A1` and `B1` are entered, `A1` is left in vain, `C1` is entered, `B1` is entered in vain, and
`C1` is left. -/
def sampleCalls : List Call :=
  [.enter ⟨0, 0⟩, .enter ⟨0, 1⟩, .leave ⟨0, 0⟩, .enter ⟨0, 2⟩, .enter ⟨0, 1⟩, .leave ⟨0, 2⟩]

/-- After that `A1` and `B1` are on the path. Entering `A1` is reported and leaving it changes
nothing, whereas `C1` can be entered again and `B1` can be left. -/
theorem in_step_and_given_back_sample :
    (after sampleCalls).path = [⟨0, 0⟩, ⟨0, 1⟩] ∧
      (Call.enter ⟨0, 0⟩).perform.runFrom (after sampleCalls) =
        (.error (.circular [⟨0, 0⟩, ⟨0, 1⟩, ⟨0, 0⟩]), after sampleCalls) ∧
      (Call.leave ⟨0, 0⟩).perform.runFrom (after sampleCalls) = (.ok (), after sampleCalls) ∧
      (∃ u, (Call.enter ⟨0, 2⟩).perform.runFrom (after sampleCalls) = (.ok (), u) ∧
        u.path = [⟨0, 0⟩, ⟨0, 1⟩, ⟨0, 2⟩]) ∧
      ∃ u, (Call.enter ⟨0, 1⟩).perform.runFrom u = (.ok (), after sampleCalls) ∧
        (Call.leave ⟨0, 1⟩).perform.runFrom (after sampleCalls) = (.ok (), u) := by
  have hpath : (after sampleCalls).path = [⟨0, 0⟩, ⟨0, 1⟩] := by decide +kernel
  obtain ⟨-, hmem, hnew, hlast, hother⟩ := in_step_and_given_back.1 sampleCalls _ rfl
  obtain ⟨u, hu, hupath⟩ := hnew ⟨0, 2⟩ (by rw [hpath]; decide)
  exact ⟨hpath, hmem [] ⟨0, 0⟩ [⟨0, 1⟩] hpath, hother ⟨0, 0⟩ (by rw [hpath]; decide),
    ⟨u, hu, by rw [hupath, hpath]; rfl⟩, hlast ⟨0, 1⟩ (by rw [hpath]; rfl)⟩

end Trail

end Spreadsheet
