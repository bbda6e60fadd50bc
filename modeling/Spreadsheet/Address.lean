/-!
# Cell Addresses

A cell is named by letters for its column and a number for its row, as in `B12`. The
letters count in base 26 without a zero digit, so that every column has exactly one
spelling: after `Z` comes `AA`. Both parts are limited to what fits into 64 bits.

## Main definitions

* `Address` — a row and a column, counted from zero, ordered by row and then by column.
* `Column.letters`, `Column.ofLetters?` — columns, counted from one, and their letters.
* `Address.name`, `Address.read?` — addresses and their names.
-/

namespace Spreadsheet

/-- The largest number that a column or a row of a name may have. -/
def addressLimit : Nat := Nat.pow 2 64 - 1

namespace Column

/-- The letters of a column counted from one, the last letter first. -/
def lettersRev (n : Nat) : List Char :=
  if n = 0 then [] else Char.ofNat (65 + (n - 1) % 26) :: lettersRev ((n - 1) / 26)
termination_by n
decreasing_by omega

/-- The letters of a column counted from one. There is no column zero, so it has none. -/
def letters (n : Nat) : List Char :=
  (lettersRev n).reverse

/-- The column that is named by the letters of column `n` with one more behind them. It must
be a capital letter, and neither the product nor the sum may exceed the limit. -/
def next? (n : Nat) (c : Char) : Option Nat :=
  if c.isUpper && 26 * n ≤ addressLimit && 26 * n + (c.toNat - 64) ≤ addressLimit then
    some (26 * n + (c.toNat - 64))
  else none

/-- The column, counted from one, that a text of capital letters names. There must be a
letter, and the number must stay within the limit. -/
def ofLetters? (cs : List Char) : Option Nat :=
  if cs.isEmpty then none else cs.foldlM next? 0

end Column

/-- The place of a cell: its row and its column, both counted from zero. -/
structure Address where
  /-- The row, counted from zero. -/
  row : Nat
  /-- The column, counted from zero. -/
  col : Nat
deriving DecidableEq, Repr, Inhabited

namespace Address

/-- Addresses are ordered by row, and within a row by column. -/
instance : Ord Address where
  compare := compareLex (compareOn Address.row) (compareOn Address.col)

/-- Addresses are ordered by row and then by column. -/
instance : Std.TransOrd Address :=
  inferInstanceAs (Std.TransCmp (compareLex (compareOn Address.row) (compareOn Address.col)))

/-- Only an address itself is neither before nor behind it. -/
instance : Std.LawfulEqOrd Address where
  eq_of_compare {a b} h := by
    have h : (compare a.row b.row).then (compare a.col b.col) = .eq := h
    have := Ordering.then_eq_eq.mp h
    obtain ⟨h₁, h₂⟩ := this
    cases a; cases b
    simp_all

/-- An address comes before another one if its row does, or in the same row its column. -/
theorem compare_eq_lt_iff {a b : Address} :
    compare a b = .lt ↔ a.row < b.row ∨ a.row = b.row ∧ a.col < b.col := by
  show (compare a.row b.row).then (compare a.col b.col) = .lt ↔ _
  rw [Ordering.then_eq_lt, Nat.compare_eq_lt, Nat.compare_eq_eq, Nat.compare_eq_lt]

/-- The letters of the address's column. -/
def letters (a : Address) : List Char :=
  Column.letters (a.col + 1)

/-- The name of a cell as characters. -/
def nameChars (a : Address) : List Char :=
  a.letters ++ Nat.toDigits 10 (a.row + 1)

/-- The name of a cell: the letters of its column and the number of its row. -/
def name (a : Address) : String :=
  String.ofList a.nameChars

/-- Splits a text that begins with a cell name into the letters, the digits and what
follows. The digits may not start with a zero. -/
def splitName? (cs : List Char) : Option (List Char × List Char × List Char) :=
  let letters := cs.takeWhile Char.isUpper
  let rest := cs.dropWhile Char.isUpper
  let digits := rest.takeWhile Char.isDigit
  if letters.isEmpty || digits.isEmpty || digits.head? = some '0' then none
  else some (letters, digits, rest.dropWhile Char.isDigit)

/-- The address that a whole text names, as characters. -/
def readChars? (cs : List Char) : Option Address :=
  match splitName? cs with
  | some (letters, digits, []) =>
    let row := Nat.ofDigitChars 10 digits 0
    if row ≤ addressLimit then (Column.ofLetters? letters).map fun col => ⟨row - 1, col - 1⟩
    else none
  | _ => none

/-- The address that a whole text names, if its column and its row are within the
limit. -/
def read? (s : String) : Option Address :=
  readChars? s.toList

end Address

end Spreadsheet
