import Spreadsheet.Json.Value

/-!
# Printed JSON

JSON is printed in one line without blanks, or over many lines with two blanks of
indentation for each level. In strings the quote, the backslash and the control
characters are escaped, and nothing else.

## Main definitions

* `Json.compact` — one line.
* `Json.pretty` — many lines.
-/

namespace Spreadsheet

namespace Json

/-- A digit of the base 16. -/
def hexDigit (n : Nat) : Char :=
  Nat.digitChar (n % 16)

/-- A character as it stands in a string. -/
def escape (c : Char) : List Char :=
  if c = '"' then ['\\', '"']
  else if c = '\\' then ['\\', '\\']
  else if c = '\x08' then ['\\', 'b']
  else if c = '\t' then ['\\', 't']
  else if c = '\n' then ['\\', 'n']
  else if c = '\x0c' then ['\\', 'f']
  else if c = '\r' then ['\\', 'r']
  else if c.toNat < 32 then ['\\', 'u', '0', '0', hexDigit (c.toNat / 16), hexDigit c.toNat]
  else [c]

/-- A text in quotes. -/
def quote (s : String) : List Char :=
  '"' :: (s.toList.flatMap escape ++ ['"'])

mutual

/-- The one-line text of a tree, as characters. A break prints as nothing. -/
def compactChars : Json → List Char
  | null => ['n', 'u', 'l', 'l']
  | bool true => ['t', 'r', 'u', 'e']
  | bool false => ['f', 'a', 'l', 's', 'e']
  | number spelling => spelling
  | string content => quote (content.getD "")
  | list items => '[' :: (compactItems items ++ [']'])
  | object fields => '{' :: (compactFields fields ++ ['}'])
  | broken => []

/-- The items of a list, divided by commas. -/
def compactItems : List Json → List Char
  | [] => []
  | [j] => compactChars j
  | j :: rest => compactChars j ++ ',' :: compactItems rest

/-- The fields of an object, divided by commas. -/
def compactFields : List (Option String × Json) → List Char
  | [] => []
  | [(name, j)] => quote (name.getD "") ++ ':' :: compactChars j
  | (name, j) :: rest =>
    quote (name.getD "") ++ ':' :: compactChars j ++ ',' :: compactFields rest

end

/-- A line break and the blanks that begin a line at a level. -/
def newline (level : Nat) : List Char :=
  '\n' :: List.replicate (2 * level) ' '

mutual

/-- The text of a tree over many lines, as characters; `level` is that of the line on
which it begins. -/
def prettyChars (level : Nat) : Json → List Char
  | list (j :: rest) =>
    '[' :: (prettyItems (level + 1) (j :: rest) ++ newline level ++ [']'])
  | object (f :: rest) =>
    '{' :: (prettyFields (level + 1) (f :: rest) ++ newline level ++ ['}'])
  | list [] => ['[', ']']
  | object [] => ['{', '}']
  | null => ['n', 'u', 'l', 'l']
  | bool true => ['t', 'r', 'u', 'e']
  | bool false => ['f', 'a', 'l', 's', 'e']
  | number spelling => spelling
  | string content => quote (content.getD "")
  | broken => []

/-- The items of a list, each on a line of its own. -/
def prettyItems (level : Nat) : List Json → List Char
  | [] => []
  | [j] => newline level ++ prettyChars level j
  | j :: rest => newline level ++ prettyChars level j ++ ',' :: prettyItems level rest

/-- The fields of an object, each on a line of its own. -/
def prettyFields (level : Nat) : List (Option String × Json) → List Char
  | [] => []
  | [(name, j)] => newline level ++ quote (name.getD "") ++ ':' :: ' ' :: prettyChars level j
  | (name, j) :: rest =>
    newline level ++ quote (name.getD "") ++ ':' :: ' ' :: prettyChars level j ++
      ',' :: prettyFields level rest

end

/-- The text of a tree in one line. -/
def compact (j : Json) : String :=
  String.ofList j.compactChars

/-- The text of a tree over many lines. -/
def pretty (j : Json) : String :=
  String.ofList (j.prettyChars 0)

end Json

end Spreadsheet
