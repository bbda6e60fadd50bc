import Mathlib.Data.List.Sort
import Spreadsheet.Sheet.Basic

/-!
# Entries of a Sheet

A stored sheet is read back as the list of its entries. The sheet of such a list has the
entries of the list if their addresses are different, as those of a sheet are. So a sheet
*survives* being stored if its *filled* entries do, those with a cell that is not empty
(`Sheet.survives_ofList_filled`).

## Main definitions

* `Sheet.filled`: the entries that are stored.
* `Sheet.Survives`: what is read back is the sheet without its empty cells.

## Main results

* `Sheet.get?_ofList`: the entries of a list's sheet.
* `Sheet.filterMap_entries_congr`: when two sheets make the same list.
* `Sheet.survives_ofList_filled`: a sheet survives if its filled entries do.
-/

namespace Spreadsheet

namespace Sheet

variable {s : Sheet} {a : Address} {c : Cell}

/-- An entry that is there after others have been put in is one of them, or was there
before. -/
theorem mem_or_of_get?_foldl {es : List (Address × Cell)}
    (h : (es.foldl (fun s e => s.insert e.1 e.2) s).get? a = some c) :
    (a, c) ∈ es ∨ s.get? a = some c := by
  induction es generalizing s with
  | nil => exact Or.inr h
  | cons e es ih =>
      rcases ih h with hmem | hget
      · exact Or.inl (List.mem_cons_of_mem _ hmem)
      · rw [get?_insert] at hget
        split at hget
        · rename_i hea
          cases hget
          exact Or.inl (hea ▸ List.mem_cons_self)
        · exact Or.inr hget

/-- An entry of a list's sheet is in the list. -/
theorem mem_of_get?_ofList {es : List (Address × Cell)} (h : (ofList es).get? a = some c) :
    (a, c) ∈ es := by
  rcases mem_or_of_get?_foldl h with hmem | hget
  · exact hmem
  · rw [get?_empty] at hget
    cases hget

/-- Putting in entries at other addresses does not change an entry. -/
theorem get?_foldl_of_ne {es : List (Address × Cell)} (h : ∀ e ∈ es, e.1 ≠ a) :
    (es.foldl (fun s e => s.insert e.1 e.2) s).get? a = s.get? a := by
  induction es generalizing s with
  | nil => rfl
  | cons e es ih =>
      rw [List.foldl_cons, ih fun d hd => h d (List.mem_cons_of_mem _ hd), get?_insert,
        if_neg (h e List.mem_cons_self)]

/-- The entries of a list whose addresses are different are those of its sheet. -/
theorem get?_ofList {es : List (Address × Cell)} (h : es.Pairwise fun d e => d.1 ≠ e.1) :
    (ofList es).get? a = some c ↔ (a, c) ∈ es := by
  refine ⟨mem_of_get?_ofList, fun hmem => ?_⟩
  rw [ofList]
  generalize empty = s
  induction es generalizing s with
  | nil => cases hmem
  | cons e es ih =>
      obtain ⟨hne, hes⟩ := List.pairwise_cons.mp h
      rw [List.foldl_cons]
      rcases List.mem_cons.mp hmem with rfl | hmem
      · rw [get?_foldl_of_ne fun d hd => (hne d hd).symm, get?_insert, if_pos rfl]
      · exact ih hes hmem _

/-- The entries of a sheet are ordered by their addresses. -/
theorem ordered_entries (s : Sheet) : s.entries.Pairwise fun d e => compare d.1 e.1 = .lt :=
  Std.ExtTreeMap.ordered_keys_toList

/-- The addresses of a sheet's entries are different. -/
theorem distinct_entries (s : Sheet) : s.entries.Pairwise fun d e => d.1 ≠ e.1 := by
  refine s.ordered_entries.imp fun {d e} hlt heq => ?_
  rw [heq, (Std.ReflCmp.compare_self : compare e.1 e.1 = .eq)] at hlt
  cases hlt

/-- The entries of a sheet without the empty cells: what there is to store. -/
def filled (s : Sheet) : List (Address × Cell) :=
  s.entries.filter fun e => !e.2.isEmpty

/-- The filled entries are those that are not empty. -/
theorem mem_filled : (a, c) ∈ s.filled ↔ s.get? a = some c ∧ c.isEmpty = false := by
  rw [filled, List.mem_filter, mem_entries, Bool.not_eq_true']

/-- Lists that are ordered by addresses and have the same items are equal. -/
theorem eq_of_ordered {β : Type} {l l' : List (Address × β)}
    (h : l.Pairwise fun d e => compare d.1 e.1 = .lt)
    (h' : l'.Pairwise fun d e => compare d.1 e.1 = .lt) (hmem : ∀ e, e ∈ l ↔ e ∈ l') : l = l' := by
  have : Std.Irrefl fun d e : Address × β => compare d.1 e.1 = .lt := by
    refine ⟨fun e hlt => ?_⟩
    rw [(Std.ReflCmp.compare_self : compare e.1 e.1 = .eq)] at hlt
    cases hlt
  have : Std.Antisymm fun d e : Address × β => compare d.1 e.1 = .lt :=
    ⟨fun _ _ hlt hgt => absurd hgt (Std.OrientedCmp.not_lt_of_lt hlt)⟩
  exact h.eq_of_mem_iff h' hmem

/-- Sheets with the same cells, apart from empty ones, have the same filled entries. -/
theorem filled_eq_of_forall {t : Sheet}
    (h : ∀ a c, c.isEmpty = false → (s.get? a = some c ↔ t.get? a = some c)) :
    s.filled = t.filled := by
  refine eq_of_ordered (s.ordered_entries.filter _) (t.ordered_entries.filter _) fun ⟨a, c⟩ => ?_
  exact mem_filled.trans ((and_congr_left fun hempty => h a c hempty).trans mem_filled.symm)

/-- Two sheets of which the same is made at every address make the same list. -/
theorem filterMap_entries_congr {β γ : Type} {t : Sheet} {f : Cell → Option β}
    {g : Address → β → γ} (h : ∀ a, (s.get? a).bind f = (t.get? a).bind f) :
    s.entries.filterMap (fun e => (f e.2).map (g e.1)) =
      t.entries.filterMap fun e => (f e.2).map (g e.1) := by
  -- The addresses are kept beside what is made of the cells, for they determine the order.
  have hmade : ∀ s : Sheet, s.entries.filterMap (fun e => (f e.2).map (g e.1)) =
      (s.entries.filterMap fun e => (f e.2).map (e.1, ·)).map fun e => g e.1 e.2 := by
    intro s
    rw [List.map_filterMap]
    simp only [Option.map_map]
    rfl
  have hordered : ∀ s : Sheet, (s.entries.filterMap fun e => (f e.2).map (e.1, ·)).Pairwise
      fun d e => compare d.1 e.1 = .lt := by
    intro s
    refine List.Pairwise.filterMap _ ?_ s.ordered_entries
    rintro ⟨a, c⟩ ⟨b, d⟩ hlt x hx y hy
    obtain ⟨v, -, rfl⟩ := Option.map_eq_some_iff.mp hx
    obtain ⟨w, -, rfl⟩ := Option.map_eq_some_iff.mp hy
    exact hlt
  have hmem : ∀ (s : Sheet) (a : Address) (v : β),
      (a, v) ∈ (s.entries.filterMap fun e => (f e.2).map (e.1, ·)) ↔
        (s.get? a).bind f = some v := by
    intro s a v
    simp only [List.mem_filterMap, Option.map_eq_some_iff, Prod.exists, Prod.mk.injEq, mem_entries,
      Option.bind_eq_some_iff]
    constructor
    · rintro ⟨b, c, hc, w, hw, rfl, rfl⟩
      exact ⟨c, hc, hw⟩
    · rintro ⟨c, hc, hv⟩
      exact ⟨a, c, hc, v, hv, rfl, rfl⟩
  rw [hmade, hmade, eq_of_ordered (hordered s) (hordered t) fun ⟨a, v⟩ => by rw [hmem, hmem, h]]

/-- What is made of all cells but the empty ones is made of the filled entries. -/
theorem filterMap_entries {β : Type} {f : Address × Cell → Option β}
    (h : ∀ e, (f e).isSome = !e.2.isEmpty) (s : Sheet) :
    s.entries.filterMap f = s.filled.filterMap f := by
  rw [filled, List.filterMap_filter]
  congr 1
  funext e
  rw [← h]
  cases f e <;> rfl

/-- A sheet **survives** being stored if what is read back is the sheet without its empty
cells: the same cells at the same addresses. -/
def Survives {ε : Type} (s : Sheet) (outcome : Except ε Sheet) : Prop :=
  ∃ t, outcome = .ok t ∧ ∀ a, t.get? a = (s.get? a).filter fun c => !c.isEmpty

/-- A sheet survives if its filled entries do. -/
theorem survives_ofList_filled {ε : Type} (s : Sheet) :
    s.Survives (.ok (ofList s.filled) : Except ε Sheet) := by
  refine ⟨_, rfl, fun a => ?_⟩
  ext c
  have hdistinct : s.filled.Pairwise fun d e => d.1 ≠ e.1 := s.distinct_entries.filter _
  rw [get?_ofList hdistinct, mem_filled, Option.filter_eq_some_iff, Bool.not_eq_true']

end Sheet

end Spreadsheet
