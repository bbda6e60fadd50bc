import Spreadsheet.Json.Value

/-!
# Reading JSON

A text is read into a tree from left to right. Where it stops being JSON the tree gets
a break, and nothing behind that place is looked at. The notation is the strict one:
no comments, no trailing commas, no leading zeros, no raw control characters in strings.

## Main definitions

* `Json.ofChars` — the tree at the start of a text, and the text behind it.
-/

namespace Spreadsheet

namespace Json

/-! ### Blanks and numbers -/

/-- Leaves out the blanks that JSON allows between its parts. -/
def skip (cs : List Char) : List Char :=
  cs.dropWhile fun c => c = ' ' || c = '\n' || c = '\t' || c = '\r'

/-- Splits a text at the end of the digits it begins with; there must be one. -/
def spanDigits? (cs : List Char) : Option (List Char × List Char) :=
  let ds := cs.takeWhile Char.isDigit
  if ds.isEmpty then none else some (ds, cs.dropWhile Char.isDigit)

/-- The fraction that a text begins with, if any; a point alone is none. -/
def spanFraction? : List Char → Option (List Char × List Char)
  | '.' :: rest => (spanDigits? rest).map fun (ds, rest) => ('.' :: ds, rest)
  | cs => some ([], cs)

/-- The exponent that a text begins with, if any; its mark alone is none. -/
def spanExponent? : List Char → Option (List Char × List Char)
  | c :: rest =>
    if c = 'e' ∨ c = 'E' then
      match rest with
      | '+' :: rest => (spanDigits? rest).map fun (ds, rest) => (c :: '+' :: ds, rest)
      | '-' :: rest => (spanDigits? rest).map fun (ds, rest) => (c :: '-' :: ds, rest)
      | rest => (spanDigits? rest).map fun (ds, rest) => (c :: ds, rest)
    else some ([], c :: rest)
  | [] => some ([], [])

/-- The number without a sign that a text begins with. A zero may not precede another
digit. -/
def spanMagnitude? (cs : List Char) : Option (List Char × List Char) := do
  let (whole, rest) ← spanDigits? cs
  if whole.head? = some '0' ∧ whole.length ≠ 1 then none
  let (fraction, rest) ← spanFraction? rest
  let (exponent, rest) ← spanExponent? rest
  return (whole ++ fraction ++ exponent, rest)

/-- The number that a text begins with. -/
def spanNumber? : List Char → Option (List Char × List Char)
  | '-' :: rest => (spanMagnitude? rest).map fun (cs, rest) => ('-' :: cs, rest)
  | cs => spanMagnitude? cs

/-! ### Strings -/

/-- The value of a digit of the base 16, in either case. -/
def hexValue? (c : Char) : Option Nat :=
  if c.isDigit then some (c.toNat - 48)
  else if 'a' ≤ c ∧ c ≤ 'f' then some (c.toNat - 87)
  else if 'A' ≤ c ∧ c ≤ 'F' then some (c.toNat - 55)
  else none

/-- The value of four digits of the base 16. -/
def hexValue4? (a b c d : Char) : Option Nat := do
  return 4096 * (← hexValue? a) + 256 * (← hexValue? b) + 16 * (← hexValue? c) + (← hexValue? d)

/-- The character that a backslash and another character stand for. -/
def unescape? : Char → Option Char
  | '"' => some '"'
  | '\\' => some '\\'
  | '/' => some '/'
  | 'b' => some '\x08'
  | 'f' => some '\x0c'
  | 'n' => some '\n'
  | 'r' => some '\r'
  | 't' => some '\t'
  | _ => none

/-- The code units of a string up to its closing quote, and the text behind that. An
escape by number may be half of a surrogate pair. -/
def units? : List Char → Option (List Nat × List Char)
  | [] => none
  | '"' :: rest => some ([], rest)
  | '\\' :: 'u' :: a :: b :: c :: d :: rest => do
    let n ← hexValue4? a b c d
    let (ns, rest) ← units? rest
    return (n :: ns, rest)
  | '\\' :: c :: rest => do
    let c ← unescape? c
    let (ns, rest) ← units? rest
    return (c.toNat :: ns, rest)
  | c :: rest =>
    if c.toNat < 32 then none
    else do
      let (ns, rest) ← units? rest
      return (c.toNat :: ns, rest)

/-- The text of code units, if the halves of surrogate pairs come in pairs. -/
def textOfUnits? : List Nat → Option (List Char)
  | [] => some []
  | n :: rest =>
    if 0xD800 ≤ n ∧ n < 0xDC00 then
      match rest with
      | m :: rest =>
        if 0xDC00 ≤ m ∧ m < 0xE000 then
          (textOfUnits? rest).map (Char.ofNat (0x10000 + (n - 0xD800) * 1024 + (m - 0xDC00)) :: ·)
        else none
      | [] => none
    else if 0xDC00 ≤ n ∧ n < 0xE000 then none
    else (textOfUnits? rest).map (Char.ofNat n :: ·)

/-- The content of a string behind its opening quote, and the text behind the string. -/
def spanString? (cs : List Char) : Option (Option String × List Char) :=
  (units? cs).map fun (ns, rest) => ((textOfUnits? ns).map String.ofList, rest)

/-! ### Trees -/

/-- The literal or number that a text begins with. -/
def atom : List Char → Json × List Char
  | 'n' :: 'u' :: 'l' :: 'l' :: rest => (.null, rest)
  | 't' :: 'r' :: 'u' :: 'e' :: rest => (.bool true, rest)
  | 'f' :: 'a' :: 'l' :: 's' :: 'e' :: rest => (.bool false, rest)
  | cs =>
    match spanNumber? cs with
    | some (spelling, rest) => (.number spelling, rest)
    | none => (.broken, [])

mutual

/-- The tree that a text begins with, and the text behind it. -/
def readTree : Nat → List Char → Json × List Char
  | 0, _ => (.broken, [])
  | fuel + 1, cs =>
    match skip cs with
    | '"' :: rest =>
      match spanString? rest with
      | some (content, rest) => (.string content, rest)
      | none => (.broken, [])
    | '[' :: rest =>
      match skip rest with
      | ']' :: rest => (.list [], rest)
      | rest =>
        match readItems fuel rest with
        | (items, rest) => (.list items, rest)
    | '{' :: rest =>
      match skip rest with
      | '}' :: rest => (.object [], rest)
      | rest =>
        match readFields fuel rest with
        | (fields, rest) => (.object fields, rest)
    | cs => atom cs

/-- The items of a list up to its closing bracket, and the text behind that. -/
def readItems : Nat → List Char → List Json × List Char
  | 0, _ => ([.broken], [])
  | fuel + 1, cs =>
    match readTree fuel cs with
    | (j, rest) =>
      match skip rest with
      | ',' :: rest =>
        match readItems fuel rest with
        | (items, rest) => (j :: items, rest)
      | ']' :: rest => ([j], rest)
      | _ => ([j, .broken], [])

/-- The fields of an object up to its closing bracket, and the text behind that. -/
def readFields : Nat → List Char → List (Option String × Json) × List Char
  | 0, _ => ([(none, .broken)], [])
  | fuel + 1, cs =>
    match skip cs with
    | '"' :: rest =>
      match spanString? rest with
      | none => ([(none, .broken)], [])
      | some (name, rest) =>
        match skip rest with
        | ':' :: rest =>
          match readTree fuel rest with
          | (j, rest) =>
            match skip rest with
            | ',' :: rest =>
              match readFields fuel rest with
              | (fields, rest) => ((name, j) :: fields, rest)
            | '}' :: rest => ([(name, j)], rest)
            | _ => ([(name, j), (none, .broken)], [])
        | _ => ([(name, .broken)], [])
    | _ => ([(none, .broken)], [])

end

/-- The tree at the start of a text, and the text behind it. Each level of a tree takes
two steps and at least one character, so the fuel is never exhausted. -/
def ofChars (cs : List Char) : Json × List Char :=
  readTree (2 * cs.length + 2) cs

end Json

end Spreadsheet
