import Spreadsheet.Toml.Scalar
import Spreadsheet.Toml.Value

/-!
# Reading TOML

A document consists of lines: headers in brackets, assignments, comments and empty
lines. An array may run over several lines, as may a string between triple quotes. Values
may be nested, and keys be divided, only up to `Toml.depthLimit`. A document with any
fault in it is refused as a whole.

## Main definitions

* `Toml.depthLimit` — how deep a value or a key may lead.
* `Toml.ofText?` — the root table of a document.
-/

namespace Spreadsheet.Toml

/-- How deep arrays and inline tables may be nested within one value, and how many parts
a key may have. -/
def depthLimit : Nat := 79

/-! ### Blanks, comments and line ends -/

/-- Leaves out the blanks of a line. -/
def skipBlanks (cs : List Char) : List Char :=
  cs.dropWhile fun c => c = ' ' || c = '\t'

/-- Whether a character may stand in a comment or unescaped in a string. -/
def isVisible (c : Char) : Bool :=
  c = '\t' || (0x20 ≤ c.toNat && c.toNat ≠ 0x7F)

/-- Leaves out the comment that a text begins with, if any. -/
def skipComment : List Char → List Char
  | '#' :: rest => rest.dropWhile isVisible
  | cs => cs

/-- The text behind the line end that it begins with. -/
def lineEnd? : List Char → Option (List Char)
  | '\n' :: rest => some rest
  | '\r' :: '\n' :: rest => some rest
  | _ => none

/-- Leaves out blanks, comments and line ends. -/
def skipLines : Nat → List Char → List Char
  | 0, cs => cs
  | fuel + 1, cs =>
    let rest := skipComment (skipBlanks cs)
    match lineEnd? rest with
    | some rest => skipLines fuel rest
    | none => rest

/-- Leaves out all blanks, comments and line ends that a text begins with. -/
def skipAll (cs : List Char) : List Char :=
  skipLines (cs.length + 1) cs

/-! ### Strings -/

/-- The value of a digit of the base 16. -/
def hex? (c : Char) : Option Nat :=
  if c.isDigit || ('a' ≤ c.toLower && c.toLower ≤ 'f') then some (digitValue c) else none

/-- The character whose number the given digits write. -/
def numbered? (digits : List Char) : Option Char := do
  let n ← digits.foldlM (fun n c => (hex? c).map (16 * n + ·)) 0
  if n < 0xD800 ∨ (0xDFFF < n ∧ n ≤ 0x10FFFF) then some (Char.ofNat n) else none

/-- The character that an escape stands for, and the text behind the escape. The
backslash itself has been taken off. -/
def escape? : List Char → Option (Char × List Char)
  | 'b' :: rest => some ('\x08', rest)
  | 't' :: rest => some ('\t', rest)
  | 'n' :: rest => some ('\n', rest)
  | 'f' :: rest => some ('\x0c', rest)
  | 'r' :: rest => some ('\r', rest)
  | '"' :: rest => some ('"', rest)
  | '\\' :: rest => some ('\\', rest)
  | 'u' :: rest =>
    if 4 ≤ rest.length then (numbered? (rest.take 4)).map fun c => (c, rest.drop 4) else none
  | 'U' :: rest =>
    if 8 ≤ rest.length then (numbered? (rest.take 8)).map fun c => (c, rest.drop 8) else none
  | _ => none

/-- The content of a string of one line up to its closing quote, and the text behind
it. Only between double quotes there are escapes. -/
def lineString? (quote : Char) : Nat → List Char → Option (List Char × List Char)
  | 0, _ => none
  | _, [] => none
  | fuel + 1, c :: rest =>
    if c = quote then some ([], rest)
    else if c = '\\' ∧ quote = '"' then do
      let (c, rest) ← escape? rest
      let (cs, rest) ← lineString? quote fuel rest
      return (c :: cs, rest)
    else if isVisible c then do
      let (cs, rest) ← lineString? quote fuel rest
      return (c :: cs, rest)
    else none

/-- The text behind a string of many lines. Two quotes in a row are part of it, and up
to two may stand before the closing three. -/
def blockEnd? (quote : Char) : Nat → List Char → Option (List Char)
  | 0, _ => none
  | _, [] => none
  | fuel + 1, c :: rest =>
    if c = quote then
      let run := (c :: rest).takeWhile (· = quote)
      if run.length < 3 then blockEnd? quote fuel ((c :: rest).drop run.length)
      else if run.length ≤ 5 then some ((c :: rest).drop run.length)
      else none
    else if c = '\\' ∧ quote = '"' then
      match lineEnd? (skipBlanks rest) with
      | some rest => blockEnd? quote fuel rest
      | none => (escape? rest).bind fun e => blockEnd? quote fuel e.2
    else
      match lineEnd? (c :: rest) with
      | some rest => blockEnd? quote fuel rest
      | none => if isVisible c then blockEnd? quote fuel rest else none

/-! ### Keys -/

/-- Whether a character may stand in a key without quotes. -/
def isBare (c : Char) : Bool :=
  c.isAlphanum || c = '_' || c = '-'

/-- The key without dots that a text begins with. -/
def simpleKey? : List Char → Option (String × List Char)
  | '"' :: rest =>
    (lineString? '"' (rest.length + 1) rest).map fun (cs, rest) => (String.ofList cs, rest)
  | '\'' :: rest =>
    (lineString? '\'' (rest.length + 1) rest).map fun (cs, rest) => (String.ofList cs, rest)
  | cs =>
    let key := cs.takeWhile isBare
    if key.isEmpty then none else some (String.ofList key, cs.dropWhile isBare)

/-- The parts of the key that a text begins with, which dots divide, and the text behind
it. The key has at most as many parts as the number says. -/
def keyParts? : Nat → List Char → Option (List String × List Char)
  | 0, _ => none
  | parts + 1, cs => do
    let (key, rest) ← simpleKey? (skipBlanks cs)
    match skipBlanks rest with
    | '.' :: rest =>
      let (keys, rest) ← keyParts? parts rest
      return (key :: keys, rest)
    | rest => return ([key], rest)

/-- The key that a text begins with, divided at its dots, and the text behind it. -/
def key? (cs : List Char) : Option (List String × List Char) :=
  keyParts? depthLimit cs

/-! ### Values -/

/-- Whether a character may stand in a number, a date or a time. -/
def inScalar (c : Char) : Bool :=
  c.isAlphanum || c = '_' || c = '-' || c = '+' || c = '.' || c = ':'

/-- The value without quotes or brackets that a text begins with. A blank may stand
between a date and a time. -/
def scalar? (cs : List Char) : Option (Toml × List Char) :=
  let word := cs.takeWhile inScalar
  let rest := cs.dropWhile inScalar
  match rest with
  | ' ' :: more =>
    if isDate word ∧ more.head?.any Char.isDigit then
      if isDateTime (word ++ ' ' :: more.takeWhile inScalar) then
        some (.other, more.dropWhile inScalar)
      else none
    else plain word rest
  | _ => plain word rest
where
  /-- A word as a value. -/
  plain (word rest : List Char) : Option (Toml × List Char) :=
    if word = ['t', 'r', 'u', 'e'] then some (.bool true, rest)
    else if word = ['f', 'a', 'l', 's', 'e'] then some (.bool false, rest)
    else if isScalar word then some (.other, rest)
    else none

mutual

/-- The value that a text begins with, and the text behind it. Arrays and inline tables
may be nested within it as deep as `depth` says. -/
def value? (depth : Nat) : Nat → List Char → Option (Toml × List Char)
  | 0, _ => none
  | fuel + 1, cs =>
    match cs with
    | '"' :: '"' :: '"' :: rest =>
      (blockEnd? '"' (rest.length + 1) rest).map fun rest => (.other, rest)
    | '\'' :: '\'' :: '\'' :: rest =>
      (blockEnd? '\'' (rest.length + 1) rest).map fun rest => (.other, rest)
    | '"' :: rest =>
      (lineString? '"' (rest.length + 1) rest).map fun e => (.other, e.2)
    | '\'' :: rest =>
      (lineString? '\'' (rest.length + 1) rest).map fun e => (.other, e.2)
    | '[' :: rest =>
      if depth = 0 then none
      else (items? (depth - 1) fuel (skipAll rest)).map fun rest => (.other, rest)
    | '{' :: rest =>
      if depth = 0 then none
      else
        match skipBlanks rest with
        | '}' :: rest => some (.other, rest)
        | rest => (inline? (depth - 1) fuel [] rest).map fun rest => (.other, rest)
    | cs => scalar? cs

/-- The text behind an array, whose opening bracket has been taken off. The last item
may be followed by a comma. -/
def items? (depth : Nat) : Nat → List Char → Option (List Char)
  | 0, _ => none
  | _, ']' :: rest => some rest
  | fuel + 1, cs =>
    (value? depth fuel cs).bind fun e =>
      match skipAll e.2 with
      | ',' :: rest => items? depth fuel (skipAll rest)
      | ']' :: rest => some rest
      | _ => none

/-- The text behind an inline table with at least one more assignment; `fields` are
those it has already. -/
def inline? (depth : Nat) : Nat → List (String × Toml) → List Char → Option (List Char)
  | 0, _, _ => none
  | fuel + 1, fields, cs =>
    match key? cs with
    | some (path, '=' :: rest) =>
      (value? depth fuel (skipBlanks rest)).bind fun e =>
        (assignWithin path e.1 fields).bind fun fields =>
          match skipBlanks e.2 with
          | ',' :: rest => inline? depth fuel fields rest
          | '}' :: rest => some rest
          | _ => none
    | _ => none

end

/-! ### Documents -/

/-- A document that has been read up to some line: its root table, and the path of the
table that is open. -/
structure Progress where
  /-- The root table. -/
  root : List (String × Toml) := []
  /-- The path of the open table. -/
  current : List String := []

/-- The path of a header, and the text behind its closing brackets. -/
def header? (doubled : Bool) (cs : List Char) : Option (List String × List Char) := do
  let (path, rest) ← key? cs
  match doubled, rest with
  | false, ']' :: rest => return (path, rest)
  | true, ']' :: ']' :: rest => return (path, rest)
  | _, _ => none

/-- What a line that is not empty does to a document, and the text behind it. -/
def line? (p : Progress) : List Char → Option (Progress × List Char)
  | '[' :: '[' :: rest => do
    let (path, rest) ← header? true rest
    return (⟨← openItem path p.root, path⟩, rest)
  | '[' :: rest => do
    let (path, rest) ← header? false rest
    return (⟨← openTable path p.root, path⟩, rest)
  | cs => do
    match ← key? cs with
    | (path, '=' :: rest) =>
      let (value, rest) ← value? depthLimit (2 * rest.length + 2) (skipBlanks rest)
      return ({ p with root := ← assign p.current path value p.root }, rest)
    | _ => none

/-- The root table of the rest of a document. -/
def document? : Nat → Progress → List Char → Option (List (String × Toml))
  | 0, _, _ => none
  | fuel + 1, p, cs =>
    match skipAll cs with
    | [] => some p.root
    | cs =>
      (line? p cs).bind fun e =>
        match skipComment (skipBlanks e.2) with
        | [] => some e.1.root
        | rest => (lineEnd? rest).bind fun rest => document? fuel e.1 rest

/-- The root table of a document. A byte order mark at its start does not count. -/
def ofText? (text : String) : Option (List (String × Toml)) :=
  let cs := text.toList
  let cs := if cs.head? = some '\uFEFF' then cs.drop 1 else cs
  document? (cs.length + 1) {} cs

end Spreadsheet.Toml
