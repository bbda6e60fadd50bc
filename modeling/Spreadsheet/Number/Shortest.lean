import Spreadsheet.Number.Decimal

/-!
# Shortest Numerals

Among the decimals that read back as a given number there is one with the fewest
digits, and among those with that many digits one that lies nearest. `Number.shortest`
finds it by exact integer arithmetic: on the grid of one digit, of two digits, and so
on, it tries the two neighbours of the number, the nearer one first, and keeps the first
whose positional notation reads back as the number. Seventeen digits always suffice.

## Main definitions

* `Magnitude` — the exact value of a positive number as a fraction.
* `Number.shortest` — the shortest decimal that reads back, with the rule for ties as
  an argument.

## Main results

* `Number.toFloat_shortest` — the shortest decimal names the number it was found for.
-/

namespace Spreadsheet

/-- What is done when a number lies exactly half way between two neighbours. -/
inductive Tie where
  /-- The upper neighbour is taken. -/
  | up
  /-- The neighbour with an even last digit is taken. -/
  | even
deriving DecidableEq, Repr

/-- A positive quantity as the fraction `num / den`. -/
structure Magnitude where
  /-- The numerator. -/
  num : Nat
  /-- The denominator. -/
  den : Nat
deriving DecidableEq, Repr

namespace Magnitude

/-- The quantity `mantissa · 2 ^ exponent`. -/
def ofBinary (mantissa : Nat) (exponent : Int) : Magnitude :=
  ⟨mantissa * Nat.pow 2 exponent.toNat, Nat.pow 2 (-exponent).toNat⟩

/-- How many times `10 ^ e` fits into the quantity, what is then left over, and the
unit in which the remainder is counted. -/
def divide (v : Magnitude) (e : Int) : Nat × Nat × Nat :=
  let n := v.num * Nat.pow 10 (-e).toNat
  let d := v.den * Nat.pow 10 e.toNat
  (n / d, n % d, d)

/-- The multiple of `10 ^ e` nearest to the quantity, in units of `10 ^ e`. -/
def round (v : Magnitude) (e : Int) (tie : Tie) : Nat :=
  match v.divide e with
  | (n, r, d) =>
    if 2 * r < d then n
    else if d < 2 * r then n + 1
    else match tie with
      | .up => n + 1
      | .even => n + n % 2

/-- The power of ten of the leading digit. -/
def leadingExponent (v : Magnitude) : Int :=
  if v.den ≤ v.num then ((Nat.toDigits 10 (v.num / v.den)).length : Int) - 1
  else -((Nat.toDigits 10 ((v.den - 1) / v.num)).length : Int)

/-- A decimal whose last digit is zero written with one digit less. -/
def dropZero (d : Decimal) : Decimal :=
  if d.digits % 10 = 0 then ⟨d.digits / 10, d.exponent + 1⟩ else d

/-- The neighbours of the quantity among the multiples of `10 ^ e`, the nearer first. -/
def neighbours (v : Magnitude) (e : Int) (tie : Tie) : List Decimal :=
  let near := v.round e tie
  let far := if near = (v.divide e).1 then near + 1 else (v.divide e).1
  [dropZero ⟨near, e⟩, dropZero ⟨far, e⟩]

/-- All digits of the quantity `mantissa · 2 ^ exponent`. -/
def exactly (mantissa : Nat) (exponent : Int) : Decimal :=
  ⟨mantissa * Nat.pow 2 exponent.toNat * Nat.pow 5 (-exponent).toNat, min exponent 0⟩

end Magnitude

namespace Number

/-- The shortest decimal that reads back as the number whose magnitude is
`mantissa · 2 ^ exponent`, and of those the nearest. -/
def shortest (tie : Tie) (mantissa : Nat) (exponent : Int) : Decimal :=
  let v := Magnitude.ofBinary mantissa exponent
  let exact := Magnitude.exactly mantissa exponent
  let x := exact.toFloat
  let hit? := (List.range 17).findSome? fun n : Nat =>
    (v.neighbours (v.leadingExponent - (n : Int)) tie).find? fun d => d.positional.toFloat = x
  hit?.getD exact

/-- The shortest decimal and the exact one name the same number. -/
theorem toFloat_shortest (tie : Tie) (mantissa : Nat) (exponent : Int) :
    (shortest tie mantissa exponent).positional.toFloat =
      (Magnitude.exactly mantissa exponent).toFloat := by
  have hexact : (Magnitude.exactly mantissa exponent).positional =
      Magnitude.exactly mantissa exponent :=
    Decimal.positional_of_exponent_le (Int.min_le_right exponent 0)
  unfold shortest
  dsimp only
  generalize hr : List.findSome? _ _ = hit
  cases hit with
  | none => rw [Option.getD_none, hexact]
  | some d =>
    rw [Option.getD_some]
    obtain ⟨_, n, _, _, hn, _⟩ := List.findSome?_eq_some_iff.mp hr
    have := List.find?_some hn
    exact of_decide_eq_true this

end Number

end Spreadsheet
