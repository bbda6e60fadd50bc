import Spreadsheet.Proofs.Sheet.Reading
import Spreadsheet.Sheet.Circularity

/-!
# The Search for a Cycle is Exact

The search for a path back to a cell enters every cell at most once: a cell from which no
path was found is *dead* and is left out from then on. This is right although the search
below a dead cell has left out the cells on the trail, because it is still under way there.
What the search keeps (`Cycle.DeadEnds`) is that a dead cell lists neither the cell that is
looked for nor anything but dead cells, cells on the trail, and cells without an entry. When
the trail is empty again, nothing leads from the dead cells back to the start.

The trail itself leads along the lists from the start to the cell that is being entered. So
what is reported when the start is met again is a way that a chain of references really takes
(`Cycle.isCircuit_of_search`).

## Main definitions

* `Sheet.Lists`: one cell has another among its references.
* `Sheet.ListsReferences`: the lists of references are those of the formulas.
* `Sheet.IsCircuit`: a path along the lists from a cell back to it.
* `Cycle.DeadEnds`: what the search keeps.

## Main results

* `Cycle.search_eq_none`: what a search has found out that ends without a path.
* `Sheet.not_transGen_of_cycleThrough?_eq_none`: the search misses no cycle.
* `Sheet.cycleThrough?_exact`: it finds a circuit exactly if there is a cycle.
-/

open Relation

namespace Spreadsheet

/-! ### Lists of references -/

/-- The cells that tokens refer to are those that are named, each where it is named first. -/
theorem Token.references_eq_eraseDups (ts : List Token) :
    Token.references ts = (ts.filterMap Token.address?).eraseDups := by
  rw [references]
  generalize ts.filterMap address? = l
  induction l using List.reverseRecOn with
  | nil => rfl
  | append_singleton l a ih =>
      rw [List.foldl_append, ih, List.eraseDups_append]
      by_cases ha : a ∈ l <;> simp [List.removeAll, List.eraseDups_cons, ha]

/-- No cell is among the references twice. -/
theorem Token.nodup_references (ts : List Token) : (Token.references ts).Nodup := by
  rw [references]
  generalize ts.filterMap address? = l
  induction l using List.reverseRecOn with
  | nil => exact List.nodup_nil
  | append_singleton l a ih =>
      rw [List.foldl_append, List.foldl_cons, List.foldl_nil]
      split
      · exact ih
      · rename_i ha
        exact List.nodup_append.mpr ⟨ih, by simp, fun b hb c hc hbc =>
          ha (List.mem_singleton.mp hc ▸ hbc ▸ hb)⟩

/-- The cells that tokens refer to are those that one of them names. -/
theorem Token.mem_references {ts : List Token} {b : Address} :
    b ∈ Token.references ts ↔ ∃ t ∈ ts, t.address? = some b := by
  rw [references_eq_eraseDups, List.mem_eraseDups, List.mem_filterMap]

namespace Sheet

variable {s : Sheet} {a b : Address}

/-- A cell **lists** another one if it has it among its references, whatever it holds. -/
def Lists (s : Sheet) (a b : Address) : Prop :=
  ∃ c, s.get? a = some c ∧ b ∈ c.references

/-- The lists of references of all entries are those of their formulas, and are empty where
there is no formula. -/
def ListsReferences (s : Sheet) : Prop :=
  ∀ a c, s.get? a = some c → c.references = Token.references (c.tokens?.getD [])

/-- A **circuit** through a cell: a path along the lists of references that begins and ends at
the cell, and that passes no cell twice on its way. -/
structure IsCircuit (s : Sheet) (a : Address) (path : List Address) : Prop where
  /-- It begins at the cell. -/
  head? : path.head? = some a
  /-- It ends at the cell. -/
  getLast? : path.getLast? = some a
  /-- It goes one step at least. -/
  two_le_length : 2 ≤ path.length
  /-- No cell is passed twice. -/
  nodup : path.dropLast.Nodup
  /-- Every cell lists the next. -/
  isChain : path.IsChain s.Lists

/-- Only an entry lists anything. -/
theorem Lists.get?_ne_none (h : s.Lists a b) : s.get? a ≠ none := by
  obtain ⟨c, hc, -⟩ := h
  simp [hc]

/-- Where the lists are those of the formulas, the cells that are listed are the cells that
are referred to. -/
theorem ListsReferences.lists_iff (h : s.ListsReferences) : s.Lists a b ↔ s.Refers a b := by
  constructor
  · rintro ⟨c, hc, hb⟩
    rw [h a c hc] at hb
    cases hcontent : c.content with
    | formula f =>
        have htokens : c.tokens? = some f.tokens := by rw [Cell.tokens?, hcontent]
        rw [htokens] at hb
        exact ⟨f, by rw [content, hc]; exact hcontent, Token.mem_references.mp hb⟩
    | _ =>
        have htokens : c.tokens? = none := by rw [Cell.tokens?, hcontent]
        rw [htokens] at hb
        exact absurd hb List.not_mem_nil
  · rintro ⟨f, hf, hb⟩
    rw [content] at hf
    split at hf
    · rename_i c hc
      have htokens : c.tokens? = some f.tokens := by rw [Cell.tokens?, hf]
      refine ⟨c, hc, ?_⟩
      rw [h a c hc, htokens]
      exact Token.mem_references.mpr hb
    · cases hf

/-- A cell through which there is a circuit leads back to itself. -/
theorem IsCircuit.transGen {path : List Address} (h : s.IsCircuit a path) :
    TransGen s.Lists a a := by
  obtain ⟨front, rfl⟩ := List.getLast?_eq_some_iff.mp h.getLast?
  refine transGen_of_isChain h.isChain ?_
  cases front with
  | nil => exact absurd h.two_le_length (by simp)
  | cons b front =>
      obtain rfl : b = a := Option.some.inj h.head?
      exact List.mem_cons_self

end Sheet

/-! ### Searching -/

namespace Cycle

variable {s : Sheet} {start a b : Address} {t : Trail} {dead dead' : Std.ExtTreeSet Address}
  {bound : ℕ}

/-- A cell is **settled** if the search need not enter it again: it is dead, or on the
trail, or has no entry. -/
def Settled (s : Sheet) (t : Trail) (dead : Std.ExtTreeSet Address) (a : Address) : Prop :=
  a ∈ dead ∨ a ∈ t.path ∨ s.get? a = none

/-- The dead cells are **dead ends**: what they list is not the start, and is settled. -/
def DeadEnds (s : Sheet) (start : Address) (t : Trail) (dead : Std.ExtTreeSet Address) : Prop :=
  ∀ d ∈ dead, ∀ b, s.Lists d b → b ≠ start ∧ Settled s t dead b

/-- What a search from a cell has found out that ended without a path. -/
structure Exhausted (s : Sheet) (start : Address) (t : Trail)
    (dead dead' : Std.ExtTreeSet Address) (a : Address) : Prop where
  /-- The dead cells are dead ends. -/
  deadEnds : DeadEnds s start t dead'
  /-- No cell has come back to life. -/
  mono : ∀ d ∈ dead, d ∈ dead'
  /-- The cell need not be entered again. -/
  settled : Settled s t dead' a

/-- A trail **fits** a sheet if it consists of distinct entries. -/
structure TrailFits (s : Sheet) (t : Trail) : Prop where
  /-- The two forms of the trail agree. -/
  consistent : t.Consistent
  /-- No cell is passed twice. -/
  nodup : t.path.Nodup
  /-- Every cell has an entry. -/
  entries : ∀ a ∈ t.path, s.get? a ≠ none

/-- A trail without cells fits every sheet. -/
theorem trailFits_empty (s : Sheet) : TrailFits s {} :=
  ⟨Trail.consistent_empty, List.nodup_nil, fun _ hb => absurd hb List.not_mem_nil⟩

/-- A trail still fits when an entry is added that is not on it. -/
theorem TrailFits.append (h : TrailFits s t) (ha : a ∉ t.path) (hentry : s.get? a ≠ none) :
    TrailFits s (t.append a) := by
  refine ⟨h.consistent.append a, ?_, ?_⟩
  · exact List.nodup_append.mpr ⟨h.nodup, by simp, by grind⟩
  · intro b hb
    rcases List.mem_append.mp hb with hb | hb
    · exact h.entries b hb
    · obtain rfl := List.mem_singleton.mp hb
      exact hentry

/-- A trail is no longer than the sheet is large. -/
theorem TrailFits.length_le (h : TrailFits s t) : t.path.length ≤ s.size := by
  have hsize : (s.entries.map Prod.fst).length = s.size := by
    rw [List.length_map]
    exact Std.ExtTreeMap.length_toList
  rw [← hsize]
  refine (List.subperm_of_subset h.nodup fun b hb => ?_).length_le
  obtain ⟨c, hc⟩ := Option.ne_none_iff_exists'.mp (h.entries b hb)
  exact List.mem_map.mpr ⟨(b, c), Sheet.mem_entries.mpr hc, rfl⟩

/-- What is settled stays so when more cells are dead. -/
theorem Settled.mono (h : Settled s t dead a) (hmono : ∀ d ∈ dead, d ∈ dead') :
    Settled s t dead' a :=
  h.imp_left (hmono a)

/-- Searches that one after the other end without a path settle all their cells. -/
theorem firstPath_eq_none
    {search : Address → Std.ExtTreeSet Address → Option (List Address) × Std.ExtTreeSet Address}
    {l : List Address}
    (hsearch : ∀ b ∈ l, ∀ dead dead', DeadEnds s start t dead →
      search b dead = (none, dead') → Exhausted s start t dead dead' b ∧ b ≠ start)
    (hdead : DeadEnds s start t dead) (h : firstPath search l dead = (none, dead')) :
    DeadEnds s start t dead' ∧ (∀ d ∈ dead, d ∈ dead') ∧
      ∀ b ∈ l, b ≠ start ∧ Settled s t dead' b := by
  induction l generalizing dead with
  | nil =>
      cases h
      exact ⟨hdead, fun d hd => hd, fun b hb => absurd hb List.not_mem_nil⟩
  | cons b l ih =>
      rw [firstPath] at h
      split at h
      · cases h
      · rename_i dead₁ hb
        obtain ⟨⟨hdead₁, hmono, hsettled⟩, hne⟩ :=
          hsearch b List.mem_cons_self dead dead₁ hdead hb
        obtain ⟨hdead', hmono', hrest⟩ :=
          ih (fun c hc => hsearch c (List.mem_cons_of_mem b hc)) hdead₁ h
        refine ⟨hdead', fun d hd => hmono' d (hmono d hd), fun c hc => ?_⟩
        rcases List.mem_cons.mp hc with rfl | hc
        · exact ⟨hne, hsettled.mono hmono'⟩
        · exact hrest c hc

/-- A cell whose references are all settled while it is on the trail is a dead end once it
has been left. -/
theorem DeadEnds.insert (h : DeadEnds s start (t.append a) dead)
    (ha : ∀ b, s.Lists a b → b ≠ start ∧ Settled s (t.append a) dead b) :
    DeadEnds s start t (dead.insert a) := by
  have hleave : ∀ b, Settled s (t.append a) dead b → Settled s t (dead.insert a) b := by
    rintro b (hb | hb | hb)
    · exact Or.inl (Std.ExtTreeSet.mem_insert.mpr (Or.inr hb))
    · rcases List.mem_append.mp hb with hb | hb
      · exact Or.inr (Or.inl hb)
      · obtain rfl := List.mem_singleton.mp hb
        exact Or.inl Std.ExtTreeSet.mem_insert_self
    · exact Or.inr (Or.inr hb)
  intro d hd b hdb
  have hd : a = d ∨ d ∈ dead := by
    simpa [Std.ExtTreeSet.mem_insert] using hd
  rcases hd with rfl | hd
  · exact ⟨(ha b hdb).1, hleave b (ha b hdb).2⟩
  · exact ⟨(h d hd b hdb).1, hleave b (h d hd b hdb).2⟩

/-- **A search that ends without a path has settled its cell**, and has not met the start
again. The bound on the length of the trail is never exhausted. -/
theorem search_eq_none (ht : TrailFits s t) (hstart : start ∈ t.path ∨ a = start)
    (hroom : s.size < bound + t.path.length) (hdead : DeadEnds s start t dead)
    (h : search s start bound t a dead = (none, dead')) :
    Exhausted s start t dead dead' a ∧ (start ∈ t.path → a ≠ start) := by
  induction bound generalizing t a dead dead' with
  | zero =>
      have hle := ht.length_le
      omega
  | succ bound ih =>
      rw [search] at h
      split at h
      · -- The start has been reached, and the trail yields a path.
        rename_i hmet
        obtain ⟨rfl, hmem⟩ := hmet
        rw [Trail.cycleTo?, if_pos hmem] at h
        cases h
      · rename_i hmet
        have hne : start ∈ t.path → a ≠ start := fun hmem ha =>
          hmet ⟨ha, (ht.consistent start).mpr hmem⟩
        split at h
        · rename_i hknown
          cases h
          refine ⟨⟨hdead, fun d hd => hd, ?_⟩, hne⟩
          rcases hknown with hmem | hmem
          · exact Or.inr (Or.inl ((ht.consistent a).mp hmem))
          · exact Or.inl hmem
        · rename_i hknown
          obtain ⟨hcells, hlive⟩ := not_or.mp hknown
          have hpath : a ∉ t.path := mt (ht.consistent a).mpr hcells
          split at h
          · rename_i hnone
            cases h
            exact ⟨⟨hdead, fun d hd => hd, Or.inr (Or.inr hnone)⟩, hne⟩
          · rename_i c hc
            have ht' : TrailFits s (t.append a) := ht.append hpath (by simp [hc])
            have hstart' : start ∈ (t.append a).path := by
              rcases hstart with hstart | rfl
              · exact List.mem_append_left _ hstart
              · exact List.mem_append_right _ List.mem_cons_self
            have hroom' : s.size < bound + (t.append a).path.length := by
              show s.size < bound + (t.path ++ [a]).length
              rw [List.length_append, List.length_singleton]
              omega
            have hdead' : DeadEnds s start (t.append a) dead := fun d hd b hdb =>
              ⟨(hdead d hd b hdb).1, (hdead d hd b hdb).2.imp_right
                (Or.imp_left (List.mem_append_left _))⟩
            split at h
            · cases h
            · rename_i dead₁ hfirst
              cases h
              obtain ⟨hdead₁, hmono, hrefs⟩ :=
                firstPath_eq_none (fun b _ dead dead' hdead hb =>
                  have := ih ht' (Or.inl hstart') hroom' hdead hb
                  ⟨this.1, this.2 hstart'⟩) hdead' hfirst
              have hlists : ∀ b, s.Lists a b → b ≠ start ∧ Settled s (t.append a) dead₁ b := by
                rintro b ⟨c', hc', hb⟩
                obtain rfl : c = c' := Option.some.inj (hc.symm.trans hc')
                exact hrefs b hb
              refine ⟨⟨hdead₁.insert hlists, fun d hd => ?_, Or.inl ?_⟩, hne⟩
              · exact Std.ExtTreeSet.mem_insert.mpr (Or.inr (hmono d hd))
              · exact Std.ExtTreeSet.mem_insert_self

/-! ### Paths that are found -/

/-- What is found by searching from one cell after the other is found from one of them. -/
theorem exists_search_of_firstPath {path : List Address}
    {search : Address → Std.ExtTreeSet Address → Option (List Address) × Std.ExtTreeSet Address}
    {l : List Address} (h : firstPath search l dead = (some path, dead')) :
    ∃ b ∈ l, ∃ dead₁ dead₂, search b dead₁ = (some path, dead₂) := by
  induction l generalizing dead with
  | nil => cases h
  | cons b l ih =>
      rw [firstPath] at h
      split at h
      · rename_i hb
        cases h
        exact ⟨b, List.mem_cons_self, _, _, hb⟩
      · obtain ⟨c, hc, hfound⟩ := ih h
        exact ⟨c, List.mem_cons_of_mem b hc, hfound⟩

/-- **What a search finds is a circuit**, if the trail leads along the lists from the start to
the cell from which the search begins. -/
theorem isCircuit_of_search {path : List Address} (ht : TrailFits s t)
    (hchain : (t.path ++ [a]).IsChain s.Lists) (hstart : (t.path ++ [a]).head? = some start)
    (h : search s start bound t a dead = (some path, dead')) : s.IsCircuit start path := by
  induction bound generalizing t a dead dead' with
  | zero => cases h
  | succ bound ih =>
      rw [search] at h
      split at h
      · rename_i hmet
        obtain ⟨rfl, hmem⟩ := hmet
        -- The trail begins at the start, so the whole of it is reported.
        obtain ⟨rest, hpath⟩ : ∃ rest, t.path = a :: rest := by
          cases hpath : t.path with
          | nil =>
              rw [ht.consistent, hpath] at hmem
              cases hmem
          | cons b rest =>
              rw [hpath] at hstart
              exact ⟨rest, by rw [Option.some.inj hstart]⟩
        have hnodup := ht.nodup
        rw [Trail.cycleTo?, if_pos hmem, hpath, List.dropWhile_cons_of_neg (by simp)] at h
        cases h
        rw [hpath] at hchain hnodup
        refine ⟨rfl, List.getLast?_concat, by simp, ?_, hchain⟩
        rw [List.dropLast_concat]
        exact hnodup
      · split at h
        · cases h
        · rename_i hknown
          have hpath : a ∉ t.path := mt (ht.consistent a).mpr (not_or.mp hknown).1
          split at h
          · cases h
          · rename_i c hc
            split at h
            · rename_i hfirst
              cases h
              obtain ⟨b, hb, _, _, hfound⟩ := exists_search_of_firstPath hfirst
              refine ih (ht.append hpath (by simp [hc])) ?_ ?_ hfound
              · refine List.isChain_append.mpr ⟨hchain, List.isChain_singleton b, ?_⟩
                intro x hx y hy
                obtain rfl : a = x := by simpa [Trail.append] using hx
                obtain rfl : b = y := by simpa using hy
                exact ⟨c, hc, hb⟩
              · show ((t.path ++ [a]) ++ [b]).head? = some start
                rw [List.head?_append, hstart]
                rfl
            · cases h

end Cycle

open Spreadsheet.Cycle

/-- **The search misses no cycle.** If it finds no path back to a cell, then no chain of
listed references leads from the cell to itself. -/
theorem Sheet.not_transGen_of_cycleThrough?_eq_none {s : Sheet} {a : Address}
    (h : s.cycleThrough? a = none) : ¬ TransGen s.Lists a a := by
  have hempty : DeadEnds s a {} ∅ := fun d hd => absurd hd Std.ExtTreeSet.not_mem_empty
  rw [Sheet.cycleThrough?] at h
  rcases hsearch : search s a (s.size + 1) {} a ∅ with ⟨path, dead⟩
  rw [hsearch] at h
  obtain rfl : path = none := h
  have hroom : s.size < s.size + 1 + 0 := Nat.lt_succ_self _
  obtain ⟨hdead, -, hsettled⟩ :=
    (search_eq_none (trailFits_empty s) (Or.inr rfl) hroom hempty hsearch).1
  have hsettled_dead : ∀ b c, Settled s {} dead b → s.Lists b c → b ∈ dead := by
    rintro b c (hb | hb | hb) hbc
    · exact hb
    · exact absurd hb List.not_mem_nil
    · exact absurd hb hbc.get?_ne_none
  have hreach : ∀ b, TransGen s.Lists a b → b ≠ a ∧ Settled s {} dead b := by
    intro b hb
    induction hb with
    | single hab => exact hdead a (hsettled_dead a _ hsettled hab) _ hab
    | tail _ hbc ih => exact hdead _ (hsettled_dead _ _ ih.2 hbc) _ hbc
  exact fun haa => (hreach a haa).1 rfl

/-- **The search is exact.** Whatever the lists of references are and whatever cycles they form,
a path is found exactly if a chain of listed references leads from the cell to itself, and the
path is then a circuit through the cell. -/
theorem Sheet.cycleThrough?_exact (s : Sheet) (a : Address) :
    ((s.cycleThrough? a).isSome = true ↔ TransGen s.Lists a a) ∧
      ∀ path, s.cycleThrough? a = some path → s.IsCircuit a path := by
  have hcircuit : ∀ path, s.cycleThrough? a = some path → s.IsCircuit a path := by
    intro path h
    rw [Sheet.cycleThrough?] at h
    rcases hsearch : search s a (s.size + 1) {} a ∅ with ⟨found, dead⟩
    rw [hsearch] at h
    obtain rfl : found = some path := h
    exact isCircuit_of_search (trailFits_empty s) (List.isChain_singleton a) rfl hsearch
  refine ⟨⟨fun h => ?_, fun h => ?_⟩, hcircuit⟩
  · obtain ⟨path, hpath⟩ := Option.isSome_iff_exists.mp h
    exact (hcircuit path hpath).transGen
  · rw [Option.isSome_iff_ne_none]
    exact fun hnone => not_transGen_of_cycleThrough?_eq_none hnone h

end Spreadsheet
