import Spreadsheet.Number.Shortest

/-!
# Printed Numbers

Two layouts of a number as text. The *plain* layout writes the shortest digits that
read back and places the point among them, with as many zeros as that takes and never
an exponent. The *fixed* layout writes a given number of places after the point, the
exact value being rounded to the nearest and a half to the even neighbour.

## Main definitions

* `Decimal.plain` — a decimal in positional notation.
* `Number.plain` — the text under which a number is shown, saved and edited.
* `Number.fixed` — the text with a given number of places.

## Main results

* `Decimal.read?_plain` — positional notation is read back.
-/

namespace Spreadsheet

namespace Decimal

/-- A decimal in positional notation. There is at least one digit before the point, and
there are as many behind it as the exponent says. -/
def plain (d : Decimal) : List Char :=
  let ds := Nat.toDigits 10 d.positional.digits
  let places := (-d.exponent).toNat
  let padded := List.replicate (places + 1 - ds.length) '0' ++ ds
  if places = 0 then padded
  else padded.take (padded.length - places) ++ '.' :: padded.drop (padded.length - places)

/-- What positional notation writes is read back. -/
theorem read?_plain (d : Decimal) : read? d.plain = some d.positional := by
  have hdigits : ∀ c ∈ Nat.toDigits 10 d.positional.digits, c.isDigit = true :=
    fun c hc => Nat.isDigit_of_mem_toDigits (by decide) (by decide) hc
  have hvalue : Nat.ofDigitChars 10 (Nat.toDigits 10 d.positional.digits) 0 = d.positional.digits :=
    Nat.ofDigitChars_toDigits (by decide) (by decide)
  have hexponent : d.positional.exponent = 0 - ((-d.exponent).toNat : Int) := by
    show min d.exponent 0 = _
    omega
  unfold plain
  generalize Nat.toDigits 10 d.positional.digits = ds at hdigits hvalue
  generalize (-d.exponent).toNat = places at hexponent
  dsimp only
  generalize hpadded : List.replicate (places + 1 - ds.length) '0' ++ ds = padded
  have hall : ∀ c ∈ padded, c.isDigit = true := by
    intro c hc
    rw [← hpadded, List.mem_append] at hc
    rcases hc with hc | hc
    · rw [(List.mem_replicate.mp hc).2]; decide
    · exact hdigits c hc
  have hlength : places + 1 ≤ padded.length := by
    rw [← hpadded, List.length_append, List.length_replicate]
    omega
  have hnumber : Nat.ofDigitChars 10 padded 0 = d.positional.digits := by
    rw [← hpadded, Nat.ofDigitChars_append, Nat.ofDigitChars_replicate_zero, Nat.mul_zero, hvalue]
  split
  · next h =>
    subst h
    rw [read?_of_split (split_digits hall) (by intro h; simp [h] at hlength)]
    simp only [ofDigits, List.append_nil, hnumber, List.length_nil, ← hexponent]
  · next h =>
    have htake : padded.take (padded.length - places) ≠ [] := by
      intro hnil
      have := congrArg List.length hnil
      rw [List.length_take, List.length_nil] at this
      omega
    have hdrop : (padded.drop (padded.length - places)).length = places := by
      rw [List.length_drop]
      omega
    rw [read?_of_split (split_point (fun c hc => hall c (List.mem_of_mem_take hc))
      (fun c hc => hall c (List.mem_of_mem_drop hc))) htake]
    simp only [ofDigits, List.take_append_drop, hnumber, hdrop, ← hexponent]

end Decimal

namespace Number

open Float.Model (UnpackedFloat)

/-- The mark that precedes the digits of a number. -/
def signText : UnpackedFloat.Sign → List Char
  | .negative => ['-']
  | .positive => []

/-- The plain text of a number, as characters. -/
def plainChars (x : Float) : List Char :=
  match x.toModel.unpack with
  | .notANumber => ['N', 'a', 'N']
  | .infinity s => signText s ++ ['i', 'n', 'f']
  | .zero s => signText s ++ ['0']
  | .finite s m e _ => signText s ++ (shortest .up m e).plain

/-- The plain text of a number: the shortest digits that read back, without an
exponent. A zero keeps its sign. -/
def plain (x : Float) : String :=
  String.ofList (plainChars x)

/-- The text of a number with a fixed count of places. The exact value is rounded, a
half going to the even neighbour, and the sign stays even when nothing else is left. -/
def fixed (places : Nat) (x : Float) : String :=
  String.ofList <|
    match x.toModel.unpack with
    | .notANumber => ['N', 'a', 'N']
    | .infinity s => signText s ++ ['i', 'n', 'f']
    | .zero s => signText s ++ (Decimal.mk 0 (-(places : Int))).plain
    | .finite s m e _ =>
      let unit := -(places : Int)
      signText s ++ (Decimal.mk ((Magnitude.ofBinary m e).round unit .even) unit).plain

/-- Whether a number is an integer, whatever its sign. Neither an infinity nor the
value that is not a number is one. -/
def isIntegral (x : Float) : Bool :=
  match x.toModel.unpack with
  | .notANumber | .infinity _ => false
  | .zero _ => true
  | .finite _ m e _ => m % Nat.pow 2 (-e).toNat == 0

end Number

end Spreadsheet
