import Spreadsheet.Json.Value
import Spreadsheet.Number.Printer

/-!
# Numbers in JSON

A number is written with the shortest digits that read back, of two equally near ones
the even one. It is written positionally while its leading digit is worth between
`10 ^ -5` and `10 ^ 15`, with at least one place after the point, and beyond that with
one digit before the point and a signed exponent. What is not finite is written as
`null`.

Reading gathers the digits into an integer of 64 bits, leaves out those that no longer
fit, and scales that integer by a power of ten in a single floating-point operation. A
number too large is refused.

## Main definitions

* `Json.ofNumber` — a number as JSON.
* `Json.numberValue?` — the number that a spelling denotes.
-/

namespace Spreadsheet

namespace Json

/-! ### Writing -/

/-- A decimal in the layout of JSON. -/
def layout (d : Decimal) : List Char :=
  let ds := Nat.toDigits 10 d.digits
  let lead := (ds.length : Int) - 1 + d.exponent
  if -5 ≤ lead ∧ lead ≤ 15 then
    if 0 ≤ d.exponent then d.plain ++ ['.', '0'] else d.plain
  else
    let mantissa := match ds with
      | c :: c' :: rest => c :: '.' :: c' :: rest
      | ds => ds
    let sign := if lead < 0 then '-' else '+'
    mantissa ++ 'e' :: sign :: Nat.toDigits 10 lead.natAbs

/-- A number as JSON; `null` if it is not finite. -/
def ofNumber (x : Float) : Json :=
  match x.toModel.unpack with
  | .notANumber | .infinity _ => .null
  | .zero s => .number (Number.signText s ++ ['0', '.', '0'])
  | .finite s m e _ => .number (Number.signText s ++ layout (Number.shortest .even m e))

/-! ### Reading -/

/-- Appends digits to an integer while it fits into 64 bits. The result is the integer
and the count of digits that were appended. -/
def gather (n : Nat) : List Char → Nat × Nat
  | [] => (n, 0)
  | c :: rest =>
    let next := 10 * n + (c.toNat - 48)
    if next < Nat.pow 2 64 then
      match gather next rest with
      | (n, count) => (n, count + 1)
    else (n, 0)

/-- A number scaled by a power of ten. A scale beyond the largest power of ten is taken
in several steps; a result too large is refused. -/
def scale? (x : Float) (e : Int) : Option Float :=
  if e < -308 then
    if x == 0 then some x else scale? (x / Decimal.toFloat ⟨1, 308⟩) (e + 308)
  else if e < 0 then some (x / Decimal.toFloat ⟨1, -e⟩)
  else if e ≤ 308 then
    let y := x * Decimal.toFloat ⟨1, e⟩
    if y.isInf then none else some y
  else if x == 0 then some x else none
termination_by (-e).toNat
decreasing_by omega

/-- The number that a spelling without a sign denotes. -/
def magnitude? (cs : List Char) : Option Float :=
  match Decimal.split cs with
  | (whole, fraction, rest) =>
    match gather 0 whole with
    | (n, count) =>
      match gather n fraction with
      | (m, places) =>
        (Decimal.readScale? rest).bind fun e =>
          scale? (Decimal.toFloat ⟨m, 0⟩) ((whole.length : Int) - count - places + e)

/-- The number that a spelling denotes. -/
def numberValue? : List Char → Option Float
  | '-' :: rest => (magnitude? rest).map fun x => -x
  | cs => magnitude? cs

end Json

end Spreadsheet
