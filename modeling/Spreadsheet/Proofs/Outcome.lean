import Mathlib.Data.List.Forall2

/-!
# Computations that May Fail

A computation in several steps has a result if all of its steps have one. What follows from a
result is stated here for the ways in which the computations of this library are put together.

## Main results

* `exists_of_bind_eq_ok`: one step after another.
* `mapM_eq_ok_iff`: a list, item by item.
* `filterMap_eq_iff_forall₂`: a list of which no item is left out.
-/

namespace Spreadsheet

variable {ε ε' α β : Type}

/-- Two steps have a result if the first has one, and the second has one for it. -/
theorem exists_of_bind_eq_ok {x : Except ε α} {f : α → Except ε β} {b : β}
    (h : (x >>= f) = .ok b) : ∃ a, x = .ok a ∧ f a = .ok b := by
  cases x with
  | error e => cases h
  | ok a => exact ⟨a, rfl, h⟩

/-- What is made of a result comes from one. -/
theorem exists_of_map_eq_ok {x : Except ε α} {f : α → β} {b : β} (h : x.map f = .ok b) :
    ∃ a, x = .ok a ∧ f a = b := by
  cases x with
  | error e => simp [Except.map] at h
  | ok a => exact ⟨a, rfl, Except.ok.inj h⟩

/-- A failure for which no step gives cause does not come about. -/
theorem bind_ne_error {x : Except ε α} {f : α → Except ε β} {e : ε} (hx : x ≠ .error e)
    (hf : ∀ a, x = .ok a → f a ≠ .error e) : (x >>= f) ≠ .error e := by
  cases x with
  | error e' => exact fun h => hx (congrArg Except.error (Except.error.inj h))
  | ok a => exact hf a rfl

/-- Only a failure is told in other words. -/
theorem eq_ok_of_mapError_eq_ok {f : ε → ε'} {x : Except ε α} {a : α}
    (h : x.mapError f = .ok a) : x = .ok a := by
  cases x with
  | error e => cases h
  | ok b =>
      cases h
      rfl

/-- A list is read if its items are. -/
theorem mapM_eq_ok_iff {f : α → Except ε β} {as : List α} {bs : List β} :
    as.mapM f = .ok bs ↔ List.Forall₂ (fun a b => f a = .ok b) as bs := by
  constructor
  · intro h
    induction as generalizing bs with
    | nil =>
        cases h
        exact .nil
    | cons a as ih =>
        rw [List.mapM_cons] at h
        obtain ⟨b, hb, h⟩ := exists_of_bind_eq_ok h
        obtain ⟨bs', hbs, h⟩ := exists_of_bind_eq_ok h
        cases h
        exact .cons hb (ih hbs)
  · intro h
    induction h with
    | nil => rfl
    | cons hb _ ih =>
        rw [List.mapM_cons, hb, ih]
        rfl

/-- Items that belong together in pairs are each found with the other one. -/
theorem exists_of_forall₂_of_mem {R : α → β → Prop} {as : List α} {bs : List β} {b : β}
    (h : List.Forall₂ R as bs) (hb : b ∈ bs) : ∃ a ∈ as, R a b := by
  induction h with
  | nil => cases hb
  | cons hab _ ih =>
      rcases List.mem_cons.mp hb with rfl | hb
      · exact ⟨_, List.mem_cons_self, hab⟩
      · obtain ⟨a, ha, hab⟩ := ih hb
        exact ⟨a, List.mem_cons_of_mem _ ha, hab⟩

/-- A list of the same length comes from items none of which is left out. -/
theorem filterMap_eq_iff_forall₂ {f : α → Option β} {as : List α} {bs : List β}
    (h : as.length = bs.length) :
    as.filterMap f = bs ↔ List.Forall₂ (fun a b => f a = some b) as bs := by
  induction as generalizing bs with
  | nil =>
      obtain rfl := List.length_eq_zero_iff.mp h.symm
      exact iff_of_true rfl .nil
  | cons a as ih =>
      obtain ⟨b, bs, rfl⟩ := List.exists_cons_of_length_eq_add_one h.symm
      have hlength : as.length = bs.length := Nat.succ.inj h
      rw [List.forall₂_cons]
      cases ha : f a with
      | none =>
          refine iff_of_false (fun heq => ?_) (by simp)
          have hle := List.length_filterMap_le f as
          rw [List.filterMap_cons_none ha] at heq
          rw [heq, hlength, List.length_cons] at hle
          omega
      | some b' =>
          rw [List.filterMap_cons_some ha, List.cons.injEq, ih hlength, Option.some.injEq]

/-- If a list is read, so is each of its items. -/
theorem exists_ok_of_mapM_eq_ok {f : α → Except ε β} {as : List α} {bs : List β} {a : α}
    (h : as.mapM f = .ok bs) (ha : a ∈ as) : ∃ b, f a = .ok b := by
  have hall : List.Forall₂ (fun b a => f a = .ok b) bs as := (mapM_eq_ok_iff.mp h).flip
  obtain ⟨b, -, hb⟩ := exists_of_forall₂_of_mem hall ha
  exact ⟨b, hb⟩

/-- What is read as a list is read from its items. -/
theorem exists_item_of_mapM_eq_ok {f : α → Except ε β} {as : List α} {bs : List β} {b : β}
    (h : as.mapM f = .ok bs) (hb : b ∈ bs) : ∃ a ∈ as, f a = .ok b := by
  have hall := mapM_eq_ok_iff.mp h
  obtain ⟨a, ha, hab⟩ := exists_of_forall₂_of_mem hall hb
  exact ⟨a, ha, hab⟩

end Spreadsheet
