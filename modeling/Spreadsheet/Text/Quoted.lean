/-!
# Quoted Texts

In a listing a text stands between quotes. A quote or a backslash inside it is preceded
by a backslash; a backslash before anything else stands for itself.

## Main definitions

* `Quoted.encode`, `Quoted.decode` — what stands between the quotes.
* `Quoted.inner?` — what stands between the quotes that enclose a whole text.

## Main results

* `Quoted.decode_encode`, `Quoted.inner?_enclosed` — a text survives its quotes.
-/

namespace Spreadsheet.Quoted

/-- What a character becomes between quotes. -/
def escape (c : Char) : List Char :=
  if c = '\\' ∨ c = '"' then ['\\', c] else [c]

/-- What a text becomes between quotes. -/
def encode (cs : List Char) : List Char :=
  cs.flatMap escape

/-- The text that stands between quotes. -/
def decode : List Char → List Char
  | '\\' :: c :: rest =>
    if c = '\\' ∨ c = '"' then c :: decode rest else '\\' :: c :: decode rest
  | c :: rest => c :: decode rest
  | [] => []

/-- What stands between the two quotes that a whole text begins and ends with. -/
def inner? : List Char → Option (List Char)
  | '"' :: rest => if rest.getLast? = some '"' then some rest.dropLast else none
  | _ => none

/-- A text is encoded character by character. -/
theorem encode_cons (c : Char) (cs : List Char) : encode (c :: cs) = escape c ++ encode cs := rfl

/-- A character that was escaped is got back. -/
theorem decode_escape_append (c : Char) (cs : List Char) :
    decode (escape c ++ cs) = c :: decode cs := by
  unfold escape
  split
  · next h => simp [decode, h]
  · next h =>
    rw [List.singleton_append, decode]
    grind

/-- What was put between quotes is read back. -/
theorem decode_encode (cs : List Char) : decode (encode cs) = cs := by
  induction cs with
  | nil => rfl
  | cons c cs ih => rw [encode_cons, decode_escape_append, ih]

/-- Quotes around a text, whatever it holds, are found again. -/
theorem inner?_enclosed (cs : List Char) : inner? ('"' :: (cs ++ ['"'])) = some cs := by
  simp [inner?]

end Spreadsheet.Quoted
