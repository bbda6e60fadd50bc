import Spreadsheet.Json.Number
import Spreadsheet.Json.Reader

/-!
# Values from JSON

A tree is turned into a value in the order of its text, so that the first fault in the
text is the one that is reported. A record may be written as an object or as the list
of its values. In an object the order of the fields is free and unknown fields do not
count, but a known one may not be repeated.

## Main definitions

* `JsonError` — why a JSON text has no value of the wanted kind.
* `Json.asText`, `Json.asNumber`, `Json.asList` — simple values.
* `Json.asRecord` — the fields of a record.
* `Json.isNull`, `Json.isVacant` — two senses of a value that says nothing.
* `Json.asName`, `Json.asChoice` — one of several names, perhaps with a value.
* `Json.read` — a value from a whole text.
-/

namespace Spreadsheet

/-- What is wrong with a stored token. -/
inductive TokenFault where
  /-- A token of this kind has no value. -/
  | missingValue (kind : String)
  /-- A number has no value. -/
  | missingNumber
  /-- The value of a number is no number. -/
  | notANumber (value : String)
  /-- There is no such operator. -/
  | unknownOperator (symbol : String)
  /-- There is no such function. -/
  | unknownFunction (name : String)
deriving DecidableEq, Repr

/-- The text that reports what is wrong with a stored token. -/
def TokenFault.message : TokenFault → String
  | missingValue kind => kind ++ " token without a value"
  | missingNumber => "number without a value"
  | notANumber value => "not a number: " ++ value
  | unknownOperator symbol => "unknown operator: " ++ symbol
  | unknownFunction name => "unknown function: " ++ name

/-- Why a JSON text has no value of the wanted kind. -/
inductive JsonError where
  /-- The text is no JSON, or its values are not of the right kinds. -/
  | shape
  /-- A token cannot be restored. -/
  | badToken (fault : TokenFault)
  /-- A cell name is none. -/
  | badAddress (name : String)
deriving DecidableEq, Repr

/-- The text that reports the cause, if there is more to say than that the text does
not fit. -/
def JsonError.detail? : JsonError → Option String
  | shape => none
  | badToken fault => some ("Invalid token: " ++ fault.message)
  | badAddress name => some ("Invalid cell reference: " ++ name)

namespace Json

/-! ### Simple values -/

/-- A text. -/
def asText : Json → Except JsonError String
  | .string (some s) => .ok s
  | _ => .error .shape

/-- A number. -/
def asNumber : Json → Except JsonError Float
  | .number spelling =>
    match numberValue? spelling with
    | some x => .ok x
    | none => .error .shape
  | _ => .error .shape

/-- A list of values. -/
def asList {α : Type} (item : Json → Except JsonError α) : Json → Except JsonError (List α)
  | .list items => items.mapM item
  | _ => .error .shape

/-! ### Records -/

/-- The fields of an object that have one of the given names, in the order of the text,
up to the first fault: a name that was seen before, a name that is no text, or a break.
The flag says whether there was no fault. -/
def known (names seen : List String) :
    List (Option String × Json) → List (String × Json) × Bool
  | [] => ([], true)
  | (none, _) :: _ => ([], false)
  | (some name, j) :: rest =>
    if name ∈ seen then ([], false)
    else if name ∈ names then
      match known names (name :: seen) rest with
      | (fields, whole) => ((name, j) :: fields, whole)
    else if j.isWhole then known names seen rest
    else ([], false)

/-- The fields of a record, written as an object or as the list of its values. -/
def fieldsOf (names : List String) : Json → List (String × Json) × Bool
  | .object fields => known names [] fields
  | .list items => (names.zip items, items.length ≤ names.length)
  | _ => ([], false)

/-- The fields of a record, after each has passed its test in the order of the text. -/
def asRecord (names : List String) (test : String → Json → Except JsonError Unit)
    (j : Json) : Except JsonError (List (String × Json)) :=
  match fieldsOf names j with
  | (fields, whole) => do
    fields.forM fun f => test f.1 f.2
    if whole then .ok fields else .error .shape

/-- A field that a record must have. -/
def field {α : Type} (name : String) (value : Json → Except JsonError α)
    (fields : List (String × Json)) : Except JsonError α :=
  match fields.lookup name with
  | some j => value j
  | none => .error .shape

/-! ### Choices -/

/-- Whether a value is `null`. -/
def isNull : Json → Bool
  | .null => true
  | _ => false

/-- Whether a value is `null` or an object without fields. -/
def isVacant : Json → Bool
  | .null => true
  | .object fields => fields.isEmpty
  | _ => false

/-- A name, or an object whose only field has that name and a value that says nothing,
which `blank` decides. -/
def asName (blank : Json → Bool) : Json → Except JsonError String
  | .string (some s) => .ok s
  | .object [(some s, j)] => if blank j then .ok s else .error .shape
  | _ => .error .shape

/-- An object with exactly one field, whose name selects how its value is read. -/
def asChoice {α : Type} (value : String → Json → Except JsonError α) :
    Json → Except JsonError α
  | .object ((some name, j) :: rest) => do
    let a ← value name j
    if rest.isEmpty then .ok a else .error .shape
  | _ => .error .shape

/-! ### Whole texts -/

/-- The value of a whole text. -/
def read {α : Type} (value : Json → Except JsonError α) (s : String) :
    Except JsonError α :=
  match ofChars s.toList with
  | (j, rest) => do
    let a ← value j
    if (skip rest).isEmpty then .ok a else .error .shape

end Json

end Spreadsheet
