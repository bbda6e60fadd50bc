/-!
# Decimals and the Numbers They Name

The numbers of a spreadsheet are 64-bit floating-point values. A *decimal* is the
exact quantity a numeral writes down, an integer scaled by a power of ten, and
`Decimal.toFloat` is the one place where a decimal becomes a number: the nearest one.

## Main definitions

* `Decimal` — digits and a power of ten.
* `Decimal.toFloat` — the nearest number, a half going to the even neighbour.
* `Decimal.positional` — the same quantity without a positive exponent.
* `Number.read?` — the numbers a whole text can spell: an optional sign before digits
  with an optional point and exponent, or one of the names `inf`, `infinity`, `nan`.
-/

namespace Spreadsheet

/-- A decimal: the exact quantity `digits · 10 ^ exponent`. -/
structure Decimal where
  /-- The integer to be scaled. -/
  digits : Nat
  /-- The power of ten that scales it. -/
  exponent : Int
deriving DecidableEq, Repr

namespace Decimal

/-- The number nearest to a decimal. A half goes to the neighbour whose last bit is
zero, and a quantity beyond the largest number becomes infinite. -/
def toFloat (d : Decimal) : Float :=
  .ofModel (.ofScientific d.digits d.exponent)

/-- The same quantity as positional notation writes it, the zeros of a positive
exponent being digits like all others. -/
def positional (d : Decimal) : Decimal :=
  ⟨d.digits * Nat.pow 10 d.exponent.toNat, min d.exponent 0⟩

/-- A decimal without a positive exponent is positional already. -/
theorem positional_of_exponent_le {d : Decimal} (h : d.exponent ≤ 0) : d.positional = d := by
  have h₁ : d.exponent.toNat = 0 := Int.toNat_of_nonpos h
  have h₂ : min d.exponent 0 = d.exponent := Int.min_eq_left h
  rw [positional, h₁, h₂]
  show Decimal.mk (d.digits * 1) d.exponent = d
  rw [Nat.mul_one]

/-- The decimal that is written as `whole`, a point and `fraction`, and then scaled by
`10 ^ scale`. -/
def ofDigits (whole fraction : List Char) (scale : Int) : Decimal :=
  ⟨Nat.ofDigitChars 10 (whole ++ fraction) 0, scale - fraction.length⟩

/-- Splits a text into the digits before its point, the digits after it, and the rest.
A point that no digit follows still belongs to the number. -/
def split (cs : List Char) : List Char × List Char × List Char :=
  match cs.dropWhile Char.isDigit with
  | '.' :: r => (cs.takeWhile Char.isDigit, r.takeWhile Char.isDigit, r.dropWhile Char.isDigit)
  | r => (cs.takeWhile Char.isDigit, [], r)

/-- From digits alone, all are taken. -/
theorem takeWhile_digits {a : List Char} (h : ∀ c ∈ a, c.isDigit = true) :
    a.takeWhile Char.isDigit = a := by
  have := @List.takeWhile_append_of_pos _ Char.isDigit a [] h
  simpa using this

/-- Of digits alone, none is left. -/
theorem dropWhile_digits {a : List Char} (h : ∀ c ∈ a, c.isDigit = true) :
    a.dropWhile Char.isDigit = [] := by
  have := @List.dropWhile_append_of_pos _ Char.isDigit a [] h
  simpa using this

/-- Digits without a point are all whole. -/
theorem split_digits {a : List Char} (ha : ∀ c ∈ a, c.isDigit = true) :
    split a = (a, [], []) := by
  unfold split
  rw [dropWhile_digits ha, takeWhile_digits ha]

/-- A point divides the digits on its two sides. -/
theorem split_point {a b : List Char} (ha : ∀ c ∈ a, c.isDigit = true)
    (hb : ∀ c ∈ b, c.isDigit = true) : split (a ++ '.' :: b) = (a, b, []) := by
  have hp : Char.isDigit '.' = false := by decide
  unfold split
  rw [List.dropWhile_append_of_pos ha, List.takeWhile_append_of_pos ha]
  simp [hp, dropWhile_digits hb, takeWhile_digits hb]

/-- A whole text of digits, at least one, as the number it writes. -/
def readDigits? (cs : List Char) : Option Nat :=
  if !cs.isEmpty && cs.all Char.isDigit then some (Nat.ofDigitChars 10 cs 0) else none

/-- A whole text of digits with an optional sign. -/
def readInt? : List Char → Option Int
  | '-' :: r => (readDigits? r).map fun n => -(n : Int)
  | '+' :: r => (readDigits? r).map fun n => (n : Int)
  | r => (readDigits? r).map fun n => (n : Int)

/-- The scale that the end of a numeral gives: nothing, or `e` and a signed integer. -/
def readScale? : List Char → Option Int
  | [] => some 0
  | c :: r => if c = 'e' ∨ c = 'E' then readInt? r else none

/-- The decimal that a whole text without a sign writes. There must be a digit before
the point or after it. -/
def read? (cs : List Char) : Option Decimal :=
  match split cs with
  | (whole, fraction, rest) =>
    if whole.isEmpty && fraction.isEmpty then none
    else (readScale? rest).map (ofDigits whole fraction)

/-- A numeral without an exponent is worth its digits, of which there is one in front of
the point at least. -/
theorem read?_of_split {cs a b : List Char} (h : split cs = (a, b, [])) (ha : a ≠ []) :
    read? cs = some (ofDigits a b 0) := by
  have hne : a.isEmpty = false := by simpa using ha
  rw [read?, h]
  simp [hne, readScale?]

end Decimal

namespace Number

/-- The positive infinity. -/
def infinity : Float := 1.0 / 0.0

/-- The value that is not a number. -/
def nan : Float := 0.0 / 0.0

/-- The number that a whole text without a sign writes. The names of the infinity and
of the value that is not a number are read in any case. -/
def readUnsigned? (cs : List Char) : Option Float :=
  let name := String.ofList (cs.map Char.toLower)
  if name = "inf" ∨ name = "infinity" then some infinity
  else if name = "nan" then some nan
  else (Decimal.read? cs).map Decimal.toFloat

/-- The number that a whole text writes, with no blank anywhere. -/
def read? : List Char → Option Float
  | '-' :: r => (readUnsigned? r).map fun x => -x
  | '+' :: r => readUnsigned? r
  | r => readUnsigned? r

end Number

end Spreadsheet
