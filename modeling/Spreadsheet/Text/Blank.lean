/-!
# Blank Characters

A blank is a character with the Unicode property White_Space. Blanks are what trimming
takes off the ends of an input and what a formula may hold anywhere without a change of
meaning. Zero-width characters and the information separators do not count.

## Main definitions

* `isBlank` — the property.
* `trimStart`, `trimEnd`, `trim` — a text without the blanks at its ends.
-/

namespace Spreadsheet

/-- Whether a character has the Unicode property White_Space. -/
def isBlank (c : Char) : Bool :=
  let n := c.toNat
  (0x9 ≤ n && n ≤ 0xD) || n == 0x20 || n == 0x85 || n == 0xA0 || n == 0x1680 ||
    (0x2000 ≤ n && n ≤ 0x200A) || n == 0x2028 || n == 0x2029 || n == 0x202F ||
    n == 0x205F || n == 0x3000

/-- A text without the blanks at its start. -/
def trimStart (cs : List Char) : List Char :=
  cs.dropWhile isBlank

/-- A text without the blanks at its end. -/
def trimEnd (cs : List Char) : List Char :=
  (cs.reverse.dropWhile isBlank).reverse

/-- A text without the blanks at either end. -/
def trim (cs : List Char) : List Char :=
  trimEnd (trimStart cs)

end Spreadsheet
