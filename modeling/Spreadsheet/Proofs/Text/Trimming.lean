import Mathlib.Data.Nat.Notation
import Spreadsheet.Text.Blank

/-!
# Classes of Characters and Trimmed Texts

Digits, capital letters and blanks are ranges of characters that do not meet. A text is
*trimmed* if neither its first nor its last character is a blank. Trimming yields such a
text, changes none, and takes away nothing but what stands at the ends.

## Main definitions

* `Trimmed`: a text without blanks at its ends.

## Main results

* `trimmed_trim`, `trim_of_trimmed`: trimming yields the trimmed texts and keeps them.
* `sublist_trim`: trimming adds nothing.
* `filter_trimStart`, `filter_trimEnd`: trimming takes away nothing but blanks.
-/

namespace Spreadsheet

/-! ### Classes of characters -/

/-- Which characters are digits. -/
theorem isDigit_iff {c : Char} : c.isDigit = true ↔ 48 ≤ c.toNat ∧ c.toNat ≤ 57 := by
  simp [Char.isDigit, UInt32.le_iff_toNat_le, ← Char.toNat_val]

/-- Which characters are upper case letters. -/
theorem isUpper_iff {c : Char} : c.isUpper = true ↔ 65 ≤ c.toNat ∧ c.toNat ≤ 90 := by
  have hupper : c.isUpper = decide ('A'.val ≤ c.val ∧ c.val ≤ 'Z'.val) := rfl
  simp [hupper, UInt32.le_iff_toNat_le, ← Char.toNat_val]

/-- No digit is a capital letter. -/
theorem isUpper_eq_false_of_isDigit {c : Char} (h : c.isDigit = true) : c.isUpper = false := by
  rw [isDigit_iff] at h
  refine Bool.eq_false_iff.mpr fun hupper => ?_
  rw [isUpper_iff] at hupper
  omega

/-- Between the space and the control characters beyond ASCII there is no blank. -/
theorem isBlank_eq_false {c : Char} (hlow : 0x20 < c.toNat) (hhigh : c.toNat < 0x85) :
    isBlank c = false := by
  simp [isBlank]
  omega

/-- No digit is a blank. -/
theorem isBlank_eq_false_of_isDigit {c : Char} (h : c.isDigit = true) : isBlank c = false := by
  rw [isDigit_iff] at h
  exact isBlank_eq_false (by omega) (by omega)

/-- A capital letter or a digit is left as it is by the change to capital letters. -/
theorem toUpper_of_isUpper_or_isDigit {c : Char} (h : c.isUpper = true ∨ c.isDigit = true) :
    c.toUpper = c := by
  have hnat : c.toNat ≤ 90 := by
    rw [isUpper_iff, isDigit_iff] at h
    omega
  refine dif_neg fun hlower => ?_
  have hge : 97 ≤ c.val.toNat := UInt32.le_iff_toNat_le.mp hlower.1
  rw [Char.toNat_val] at hge
  omega

/-- The change to small letters is undone by the change to capital letters. -/
theorem toUpper_toLower {c : Char} (h : c.isUpper = true ∨ c.isDigit = true) :
    c.toLower.toUpper = c := by
  have hall : ∀ n < 91, 48 ≤ n → n ≤ 57 ∨ 65 ≤ n →
      (Char.ofNat n).toLower.toUpper = Char.ofNat n := by
    decide
  rw [isUpper_iff, isDigit_iff] at h
  have hc := hall c.toNat (by omega) (by omega) (by omega)
  rwa [Char.ofNat_toNat] at hc

/-! ### Trimmed texts -/

/-- A text is **trimmed** if neither its first nor its last character is a blank. -/
structure Trimmed (cs : List Char) : Prop where
  /-- The first character is no blank. -/
  head : ∀ c ∈ cs.head?, isBlank c = false
  /-- The last character is no blank. -/
  last : ∀ c ∈ cs.getLast?, isBlank c = false

variable {cs : List Char} {c : Char}

/-- A text that does not begin with a blank stays as it is. -/
theorem dropWhile_of_head (h : ∀ c ∈ cs.head?, isBlank c = false) :
    cs.dropWhile isBlank = cs := by
  cases cs with
  | nil => rfl
  | cons c cs => exact List.dropWhile_cons_of_neg (by simp [h c rfl])

/-- Trimming keeps a trimmed text. -/
theorem trim_of_trimmed (h : Trimmed cs) : trim cs = cs := by
  have hlast : ∀ c ∈ cs.reverse.head?, isBlank c = false := by
    rw [List.head?_reverse]
    exact h.last
  rw [trim, trimStart, dropWhile_of_head h.head, trimEnd, dropWhile_of_head hlast,
    List.reverse_reverse]

/-- What is left does not begin with a blank. -/
theorem isBlank_head_dropWhile (h : c ∈ (cs.dropWhile isBlank).head?) : isBlank c = false := by
  have := List.head?_dropWhile_not isBlank cs
  rw [h] at this
  exact this

/-- What trimming leaves is trimmed. -/
theorem trimmed_trim (cs : List Char) : Trimmed (trim cs) := by
  refine ⟨fun c hc => ?_, fun c hc => ?_⟩
  · -- What is left at the end begins as what was left at the start.
    obtain ⟨blanks, hblanks⟩ : trim cs <+: trimStart cs := by
      have := List.dropWhile_suffix (l := (trimStart cs).reverse) isBlank
      rwa [← List.reverse_prefix, List.reverse_reverse] at this
    refine @isBlank_head_dropWhile cs c ?_
    show (trimStart cs).head? = some c
    rw [← hblanks, List.head?_append, hc]
    rfl
  · rw [trim, trimEnd, List.getLast?_reverse] at hc
    exact isBlank_head_dropWhile hc

/-- Trimming adds nothing to a text. -/
theorem sublist_trim (cs : List Char) : (trim cs).Sublist cs := by
  have hend : (trim cs).Sublist (trimStart cs) := by
    rw [trim, trimEnd, ← List.reverse_sublist, List.reverse_reverse]
    exact List.dropWhile_sublist isBlank
  exact hend.trans (List.dropWhile_sublist isBlank)

/-- Every character of a trimmed text was there before. -/
theorem mem_of_mem_trim (h : c ∈ trim cs) : c ∈ cs :=
  (sublist_trim cs).mem h

/-- A blank at the start does not count. -/
theorem trim_cons_of_isBlank (h : isBlank c = true) : trim (c :: cs) = trim cs := by
  rw [trim, trimStart, List.dropWhile_cons_of_pos h]
  rfl

/-- Trimming the end keeps what stands before it. -/
theorem trimEnd_cons (h : isBlank c = false) : trimEnd (c :: cs) = c :: trimEnd cs := by
  have hlast : [c].dropWhile isBlank = [c] := List.dropWhile_cons_of_neg (by simp [h])
  rw [trimEnd, trimEnd, List.reverse_cons, List.dropWhile_append, hlast]
  split
  · rename_i hempty
    rw [List.isEmpty_iff.mp hempty]
    rfl
  · rw [List.reverse_append]
    rfl

/-- The two ends may be trimmed in either order. -/
theorem trimStart_trimEnd (cs : List Char) : trimStart (trimEnd cs) = trim cs := by
  induction cs with
  | nil => rfl
  | cons c cs ih =>
      cases hc : isBlank c with
      | false =>
          have hdrop : ∀ ds, trimStart (c :: ds) = c :: ds := fun ds =>
            List.dropWhile_cons_of_neg (by simp [hc])
          rw [trim, trimEnd_cons hc, hdrop, hdrop, trimEnd_cons hc]
      | true =>
          have hlast : [c].dropWhile isBlank = [] := List.dropWhile_cons_of_pos hc
          rw [trim_cons_of_isBlank hc, ← ih, trimEnd, trimEnd, List.reverse_cons,
            List.dropWhile_append, hlast]
          split
          · rename_i hempty
            rw [List.isEmpty_iff.mp hempty]
          · rw [List.reverse_append]
            exact List.dropWhile_cons_of_pos hc

/-- What is left of a text at its start has the same characters that are no blanks. -/
theorem filter_trimStart (cs : List Char) :
    (trimStart cs).filter (fun c => !isBlank c) = cs.filter fun c => !isBlank c := by
  induction cs with
  | nil => rfl
  | cons c cs ih =>
      rw [trimStart, List.dropWhile_cons, List.filter_cons]
      cases hc : isBlank c with
      | true => exact ih
      | false => simp [hc]

/-- What is left of a text at its end has the same characters that are no blanks. -/
theorem filter_trimEnd (cs : List Char) :
    (trimEnd cs).filter (fun c => !isBlank c) = cs.filter fun c => !isBlank c := by
  have hreverse := filter_trimStart cs.reverse
  rw [trimStart, List.filter_reverse] at hreverse
  rw [trimEnd, List.filter_reverse, hreverse, List.reverse_reverse]

/-- A text without blanks is trimmed. -/
theorem trimmed_of_forall (h : ∀ c ∈ cs, isBlank c = false) : Trimmed cs :=
  ⟨fun c hc => h c (List.mem_of_mem_head? hc), fun c hc => h c (List.mem_of_mem_getLast? hc)⟩

end Spreadsheet
