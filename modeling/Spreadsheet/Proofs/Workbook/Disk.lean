import Mathlib.Tactic.Common
import Spreadsheet.Workbook.Disk

/-!
# Writing to a Disk

Two paths that lead along the same names lead to the same node. There is no slash in a name, so
the key of a node determines the names along which it is reached, and paths along different names
lead to different nodes (`Disk.key_names_injective`). A file that has been written can therefore be
read again, and every path that leads along other names leads to what it led to before.

## Main results

* `Path.names_key`: the names along a path can be told from their key.
* `Disk.place_of_write`: what has been done when a file has been written.
* `Disk.read_of_write`: the file then holds what was written.
* `Disk.node?_of_write`: along other names there is what there was.
-/

namespace Spreadsheet

/-! ### Names along a path -/

namespace Path

/-- What can stand between two slashes and counts. -/
def IsName (p : List Char) : Prop :=
  (p ≠ [] ∧ p ≠ ['.']) ∧ '/' ∉ p

variable {cs p : List Char} {ns : List (List Char)}

/-- A path is split at its slashes. -/
theorem split_eq_splitOn (cs : List Char) : split cs = cs.splitOn '/' := by
  induction cs with
  | nil => rw [split, List.splitOn_nil]
  | cons c rest ih =>
      rw [split, ih, List.splitOn_cons_eq_if_modifyHead]
      obtain ⟨p, ps, hsplit⟩ := List.exists_cons_of_ne_nil (List.splitOn_ne_nil '/' rest)
      simp [hsplit]

/-- There is no slash in a part of a path. -/
theorem slash_notMem_of_mem_split (h : p ∈ split cs) : '/' ∉ p := by
  induction cs generalizing p with
  | nil =>
      rw [split, List.mem_singleton] at h
      simp [h]
  | cons c rest ih =>
      obtain ⟨q, qs, hsplit⟩ := List.exists_cons_of_ne_nil (List.splitOn_ne_nil '/' rest)
      rw [← split_eq_splitOn] at hsplit
      rw [hsplit] at ih
      simp only [split, hsplit] at h
      split at h
      · rcases List.mem_cons.mp h with rfl | h
        · exact List.not_mem_nil
        · exact ih h
      · rename_i hc
        rcases List.mem_cons.mp h with rfl | h
        · exact List.not_mem_cons_of_ne_of_not_mem (Ne.symm hc) (ih List.mem_cons_self)
        · exact ih (List.mem_cons_of_mem q h)

/-- Along a path there are names, perhaps below the root. -/
theorem exists_names (path : String) :
    ∃ ns, (∀ p ∈ ns, IsName p) ∧ (names path = ns ∨ names path = root :: ns) := by
  refine ⟨(split path.toList).filter fun p => p ≠ [] ∧ p ≠ ['.'], fun p hp => ?_, ?_⟩
  · obtain ⟨hsplit, hcounts⟩ := List.mem_filter.mp hp
    exact ⟨of_decide_eq_true hcounts, slash_notMem_of_mem_split hsplit⟩
  · rw [names]
    exact (ite_eq_or_eq ..).symm

/-- Names that are joined by slashes are found again. -/
theorem filter_split_intercalate (h : ∀ p ∈ ns, IsName p) :
    ((split (['/'].intercalate ns)).filter fun p => p ≠ [] ∧ p ≠ ['.']) = ns := by
  by_cases hns : ns = []
  · subst hns
    rfl
  · rw [split_eq_splitOn, List.splitOn_intercalate '/' (fun p hp => (h p hp).2) hns,
      List.filter_eq_self]
    exact fun p hp => decide_eq_true (h p hp).1

/-- Names with slashes between them do not begin with one. -/
theorem head?_intercalate_ne (h : ∀ p ∈ ns, IsName p) :
    (['/'].intercalate ns).head? ≠ some '/' := by
  cases ns with
  | nil => simp [List.intercalate_nil]
  | cons p ns =>
      obtain ⟨⟨hne, -⟩, hslash⟩ := h p List.mem_cons_self
      obtain ⟨c, p, rfl⟩ := List.exists_cons_of_ne_nil hne
      have hc : c ≠ '/' := fun hc => hslash (hc ▸ List.mem_cons_self)
      cases ns <;> simpa [List.intercalate_cons_cons] using hc

/-- The key of names consists of them and of slashes between them. -/
theorem toList_key (ns : List (List Char)) : (Disk.key ns).toList = ['/'].intercalate ns := by
  rw [Disk.key, String.toList_intercalate, List.map_map]
  simp [Function.comp_def]

/-- **The names along a path can be told from their key.** -/
theorem names_key (path : String) : names (Disk.key (names path)) = names path := by
  obtain ⟨ns, hns, heq | heq⟩ := exists_names path
  · rw [heq, names, toList_key, if_neg (head?_intercalate_ne hns), filter_split_intercalate hns]
  · rw [heq, names, toList_key]
    by_cases hne : ns = []
    · subst hne
      decide
    · rw [List.intercalate_cons_of_ne_nil hne]
      simp only [root, List.cons_append, List.nil_append, split, if_pos, List.head?_cons]
      simpa using filter_split_intercalate hns

end Path

/-! ### One file -/

namespace Disk

open Spreadsheet.Path

variable {d d' : Disk} {path other text : String}

/-- The names along a path are known from their key. -/
theorem key_names_injective (h : key (names path) = key (names other)) :
    names path = names other := by
  rw [← names_key path, h, names_key]

/-- A path that leads to a directory or to nothing leads to no file. -/
theorem eq_directory_of_node? {node : Node} (hto : ToDirectory path)
    (h : d.node? path = some node) : node = .directory := by
  rw [node?] at h
  split at h
  · cases h
  · obtain ⟨-, hnode⟩ := Option.filter_eq_some_iff.mp h
    simpa [hto] using hnode

/-- A file is found under its name, but not behind a slash that follows the name. -/
example :
    (({} : Disk).place "a.grd" (.file (some "5"))).read "./a.grd" = .ok "5" ∧
      (({} : Disk).place "a.grd" (.file (some "5"))).read "a.grd/" = .error .notDirectory := by
  decide +kernel

/-- **What has been done when a file has been written.** It has been put in its place, which was not
that of a directory and is named as that of a file. -/
theorem place_of_write (h : d.write path text = .ok d') :
    d' = d.place path (.file (some text)) ∧ path ≠ "" ∧ d.node? path ≠ some .directory ∧
      ¬ ToDirectory path := by
  have hne : path ≠ "" := by
    rintro rfl
    simp [write, node?] at h
  rw [write] at h
  cases hnode : d.node? path with
  | none =>
      simp only [hnode, if_neg hne] at h
      split at h
      · simp at h
      · rename_i hpoint
        split at h
        · split at h
          · simp at h
          · rename_i hslash
            exact ⟨(Except.ok.inj h).symm, hne, by simp, not_or.mpr ⟨hslash, hpoint⟩⟩
        · simp at h
  | some node =>
      cases node with
      | file content =>
          simp only [hnode] at h
          refine ⟨(Except.ok.inj h).symm, hne, by simp, fun hto => ?_⟩
          simpa using eq_directory_of_node? hto hnode
      | directory => simp [hnode] at h
      | unreadable reason => simp [hnode] at h

/-- What has been put where there was no directory is found there, if it is named as a file. -/
theorem node?_place (hne : path ≠ "") (hdirectory : d.node? path ≠ some .directory)
    (hto : ¬ ToDirectory path) (node : Node) : (d.place path node).node? path = some node := by
  have hfilter : ∀ node? : Option Node,
      node?.filter (fun node => node = .directory ∨ ¬ ToDirectory path) = node? := fun node? => by
    cases node? <;> simp [Option.filter, hto]
  rw [node?, if_neg hne, hfilter, nodeAt?] at hdirectory ⊢
  split at hdirectory
  · exact absurd rfl hdirectory
  · rename_i hnames
    rw [if_neg hnames, place, Std.ExtTreeMap.getElem?_insert_self]

/-- What has been put somewhere is not found along other names. -/
theorem node?_place_of_ne (hother : names other ≠ names path) (node : Node) :
    (d.place path node).node? other = d.node? other := by
  have hkey : compare (key (names path)) (key (names other)) ≠ .eq := fun hkey =>
    hother (key_names_injective (Std.LawfulEqOrd.eq_of_compare hkey)).symm
  have hget : (d.place path node).nodes[key (names other)]? = d.nodes[key (names other)]? := by
    rw [place, Std.ExtTreeMap.getElem?_insert, if_neg hkey]
  rw [node?, node?, nodeAt?, nodeAt?, hget]

/-- **A file that has been written holds what was written.** -/
theorem read_of_write (h : d.write path text = .ok d') : d'.read path = .ok text := by
  obtain ⟨rfl, hne, hdirectory, hto⟩ := place_of_write h
  rw [read, node?_place hne hdirectory hto]

/-- **Along other names there is what there was.** -/
theorem node?_of_write (h : d.write path text = .ok d') (hother : names other ≠ names path) :
    d'.node? other = d.node? other := by
  obtain ⟨rfl, -, -⟩ := place_of_write h
  exact node?_place_of_ne hother _

end Disk

end Spreadsheet
