import Spreadsheet.Number.Decimal

/-!
# TOML Numbers and Dates

The values of a TOML document that are written without quotes or brackets: truth
values, integers in four bases, floating-point numbers, dates and times. Digits may be
grouped by single underscores.

## Main definitions

* `Toml.isScalar` — whether a text is such a value other than a truth value.
* `Toml.isDate` — whether a text is a date alone, which a time may follow.
-/

namespace Spreadsheet.Toml

/-! ### Numbers -/

/-- Takes single underscores out from between digits. -/
def ungroup? (digit : Char → Bool) : List Char → Option (List Char)
  | [] => none
  | [c] => if digit c then some [c] else none
  | c :: '_' :: rest => if digit c then (ungroup? digit rest).map (c :: ·) else none
  | c :: rest => if digit c then (ungroup? digit rest).map (c :: ·) else none

/-- A text without the sign it may begin with. -/
def unsigned : List Char → List Char
  | '+' :: rest => rest
  | '-' :: rest => rest
  | cs => cs

/-- The digits of a text in a base, if there is no superfluous zero before them. -/
def decimalDigits? (cs : List Char) : Option (List Char) :=
  (ungroup? Char.isDigit cs).filter fun ds => ds.head? ≠ some '0' ∨ ds.length = 1

/-- Whether a text is an integer of base 10 that fits into 64 bits with its sign. -/
def isDecimalInteger (cs : List Char) : Bool :=
  match decimalDigits? (unsigned cs) with
  | some ds =>
    let n := Nat.ofDigitChars 10 ds 0
    if cs.head? = some '-' then n ≤ Nat.pow 2 63 else n < Nat.pow 2 63
  | none => false

/-- The value of a digit of a base up to 16. -/
def digitValue (c : Char) : Nat :=
  if c.isDigit then c.toNat - 48 else c.toLower.toNat - 87

/-- Whether a text is a string of digits of a base that fits into 63 bits. -/
def isBased (base : Nat) (cs : List Char) : Bool :=
  let digit := fun c : Char =>
    (c.isDigit || ('a' ≤ c.toLower && c.toLower ≤ 'f')) && digitValue c < base
  match ungroup? digit cs with
  | some ds => ds.foldl (fun n c => base * n + digitValue c) 0 < Nat.pow 2 63
  | none => false

/-- Whether a text is an integer. -/
def isInteger : List Char → Bool
  | '0' :: 'x' :: rest => isBased 16 rest
  | '0' :: 'o' :: rest => isBased 8 rest
  | '0' :: 'b' :: rest => isBased 2 rest
  | cs => isDecimalInteger cs

/-- Whether a text is the exponent of a number, its mark included, or nothing. -/
def isExponent : List Char → Bool
  | [] => true
  | c :: rest => (c = 'e' || c = 'E') && (ungroup? Char.isDigit (unsigned rest)).isSome

/-- Whether a text without a sign is a floating-point number. -/
def isMagnitude (cs : List Char) : Bool :=
  let body := fun c : Char => c.isDigit || c = '_'
  (decimalDigits? (cs.takeWhile body)).isSome &&
    match cs.dropWhile body with
    | '.' :: rest =>
      (ungroup? Char.isDigit (rest.takeWhile body)).isSome && isExponent (rest.dropWhile body)
    | [] => false
    | rest => isExponent rest

/-- Whether a text is a floating-point number. A positive one may not be too large. -/
def isFloat (cs : List Char) : Bool :=
  let name := String.ofList (unsigned cs)
  name = "inf" || name = "nan" ||
    (isMagnitude (unsigned cs) &&
      (cs.head? = some '-' ||
        match Decimal.read? ((unsigned cs).filter (· ≠ '_')) with
        | some d => !d.toFloat.isInf
        | none => false))

/-! ### Dates and times -/

/-- The number that a text of two digits writes. -/
def twoDigits? : List Char → Option Nat
  | [a, b] => Decimal.readDigits? [a, b]
  | _ => none

/-- The length of a month. -/
def daysIn (year month : Nat) : Nat :=
  if month = 2 then
    if (year % 4 = 0 ∧ year % 100 ≠ 0) ∨ year % 400 = 0 then 29 else 28
  else if month = 4 ∨ month = 6 ∨ month = 9 ∨ month = 11 then 30
  else 31

/-- Whether a text is a date. -/
def isDate (cs : List Char) : Bool :=
  match cs with
  | [y₁, y₂, y₃, y₄, '-', m₁, m₂, '-', d₁, d₂] =>
    match Decimal.readDigits? [y₁, y₂, y₃, y₄], twoDigits? [m₁, m₂], twoDigits? [d₁, d₂] with
    | some year, some month, some day =>
      1 ≤ month && month ≤ 12 && 1 ≤ day && day ≤ daysIn year month
    | _, _, _ => false
  | _ => false

/-- Whether a text is a time of the day. -/
def isTime (cs : List Char) : Bool :=
  match cs with
  | h₁ :: h₂ :: ':' :: m₁ :: m₂ :: ':' :: s₁ :: s₂ :: rest =>
    match twoDigits? [h₁, h₂], twoDigits? [m₁, m₂], twoDigits? [s₁, s₂] with
    | some hour, some minute, some second =>
      hour ≤ 23 && minute ≤ 59 && second ≤ 60 &&
        match rest with
        | [] => true
        | c :: fraction => c = '.' && (Decimal.readDigits? fraction).isSome
    | _, _, _ => false
  | _ => false

/-- Whether a text is the distance of a time zone, or nothing. -/
def isOffset (cs : List Char) : Bool :=
  match cs with
  | [] | ['Z'] | ['z'] => true
  | [sign, h₁, h₂, ':', m₁, m₂] =>
    (sign = '+' || sign = '-') &&
      match twoDigits? [h₁, h₂], twoDigits? [m₁, m₂] with
      | some hour, some minute => hour ≤ 23 && minute ≤ 59
      | _, _ => false
  | _ => false

/-- Whether a text is a date and a time, perhaps with a time zone. -/
def isDateTime (cs : List Char) : Bool :=
  let inTime := fun c : Char => c.isDigit || c = ':' || c = '.'
  match cs.drop 10 with
  | mark :: rest =>
    isDate (cs.take 10) && (mark = 'T' || mark = 't' || mark = ' ') &&
      isTime (rest.takeWhile inTime) && isOffset (rest.dropWhile inTime)
  | [] => false

/-- Whether a text is a number, a date or a time. -/
def isScalar (cs : List Char) : Bool :=
  isInteger cs || isFloat cs || isDate cs || isTime cs || isDateTime cs

end Spreadsheet.Toml
