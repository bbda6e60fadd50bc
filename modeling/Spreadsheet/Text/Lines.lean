/-!
# Lines

A line feed ends a line. A text has one line more than it has line feeds, and the last
one may be empty.

## Main definitions

* `lines` — the lines of a text.

## Main results

* `lines_append` — a line feed between two texts keeps their lines apart.
-/

namespace Spreadsheet

/-- Puts a character at the start of the first line. -/
def consLine (c : Char) : List (List Char) → List (List Char)
  | [] => [[c]]
  | l :: ls => (c :: l) :: ls

/-- The lines of a text, without the line feeds that end them. -/
def lines : List Char → List (List Char)
  | [] => [[]]
  | c :: rest => if c = '\n' then [] :: lines rest else consLine c (lines rest)

/-- Every text has a line. -/
theorem lines_ne_nil (cs : List Char) : lines cs ≠ [] := by
  cases cs with
  | nil => simp [lines]
  | cons c rest =>
    rw [lines]
    split
    · simp
    · unfold consLine; split <;> simp

/-- A character is added to the first line, whatever lines follow. -/
theorem consLine_append (c : Char) {ls : List (List Char)} (h : ls ≠ []) (ls' : List (List Char)) :
    consLine c (ls ++ ls') = consLine c ls ++ ls' := by
  cases ls with
  | nil => exact absurd rfl h
  | cons l ls => rfl

/-- A line feed between two texts keeps their lines apart. -/
theorem lines_append (a b : List Char) : lines (a ++ '\n' :: b) = lines a ++ lines b := by
  induction a with
  | nil => simp [lines]
  | cons c rest ih =>
    rw [List.cons_append, lines, lines, ih]
    split
    · rfl
    · exact consLine_append c (lines_ne_nil rest) (lines b)

/-- A text without a line feed is a single line. -/
theorem lines_of_not_mem {cs : List Char} (h : '\n' ∉ cs) : lines cs = [cs] := by
  induction cs with
  | nil => rfl
  | cons c rest ih =>
    rw [List.mem_cons, not_or] at h
    obtain ⟨hc, hr⟩ := h
    rw [lines, if_neg (Ne.symm hc), ih hr]
    rfl

end Spreadsheet
