/-!
# JSON Values

A JSON text is read into a tree that keeps more than the values: a number keeps its
spelling, an object keeps all its fields in order, and where the text stops being JSON
the tree ends in a *break*. A tree can so be worked through in the order of the text,
and what is wrong with it is found at the place where a reader of the text would find
it.

## Main definitions

* `Json` — the tree.
* `Json.isWhole` — whether a tree has no break.
* `Json.isPlain` — whether a tree has no break, every string in it is a text, and it is
  not nested too deeply.
-/

namespace Spreadsheet

/-- A JSON text as a tree. -/
inductive Json where
  /-- The literal `null`. -/
  | null
  /-- A truth value. -/
  | bool (b : Bool)
  /-- A number as it is spelled. -/
  | number (spelling : List Char)
  /-- A string. One with half of a surrogate pair is no text, and has no content. -/
  | string (content : Option String)
  /-- A list. -/
  | list (items : List Json)
  /-- An object with its fields in order. A field's name may fail to be a text. -/
  | object (fields : List (Option String × Json))
  /-- The place where the text stops being JSON. -/
  | broken

namespace Json

/-- A string that is a text. -/
def text (s : String) : Json := .string (some s)

/-- An object whose field names are texts. -/
def record (fields : List (String × Json)) : Json :=
  .object (fields.map fun f => (some f.1, f.2))

mutual

/-- Whether a tree has no break. -/
def isWhole : Json → Bool
  | null | bool _ | number _ | string _ => true
  | list items => allWhole items
  | object fields => fieldsWhole fields
  | broken => false

/-- Whether trees have no break. -/
def allWhole : List Json → Bool
  | [] => true
  | j :: rest => isWhole j && allWhole rest

/-- Whether the values of fields have no break. -/
def fieldsWhole : List (Option String × Json) → Bool
  | [] => true
  | (_, j) :: rest => isWhole j && fieldsWhole rest

end

mutual

/-- Whether a tree has no break, its strings are texts, its numbers satisfy `ok`, and
lists and objects are nested at most `depth` deep. -/
def isPlain (ok : List Char → Bool) : Nat → Json → Bool
  | _, null | _, bool _ => true
  | _, number spelling => ok spelling
  | _, string content => content.isSome
  | depth + 1, list items => allPlain ok depth items
  | depth + 1, object fields => fieldsPlain ok depth fields
  | _, _ => false

/-- Whether every tree of a list is plain. -/
def allPlain (ok : List Char → Bool) : Nat → List Json → Bool
  | _, [] => true
  | depth, j :: rest => isPlain ok depth j && allPlain ok depth rest

/-- Whether every field has a text for its name and a plain value. -/
def fieldsPlain (ok : List Char → Bool) : Nat → List (Option String × Json) → Bool
  | _, [] => true
  | depth, (name, j) :: rest => name.isSome && isPlain ok depth j && fieldsPlain ok depth rest

end

end Json

end Spreadsheet
