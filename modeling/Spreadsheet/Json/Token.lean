import Spreadsheet.Formula.Token
import Spreadsheet.Json.Decode

/-!
# Stored Tokens

A token is stored as a kind and a value: a number for a number, and for every other
token the text it is written as. A stored value is read with some latitude. Brackets
and separators need none; a number may be given as a text, and a text as a number. The
kind may be written as an object that gives it a value without meaning, and a reader of
tokens is told by `blank` which values have none.

## Main definitions

* `Token.toJson`, `Token.tokensToJson` — tokens as JSON.
* `Token.ofJson`, `Token.tokensOfJson` — tokens from JSON.
* `Token.tokensOfJsonText` — the tokens that a text stores.
-/

namespace Spreadsheet

/-- A stored value: absent, a number or a text. -/
inductive StoredValue where
  /-- No value. -/
  | absent
  /-- A number. -/
  | number (value : Float)
  /-- A text. -/
  | text (content : String)
deriving DecidableEq, Repr

namespace StoredValue

/-- A stored value from JSON. -/
def ofJson : Json → Except JsonError StoredValue
  | .null => .ok absent
  | .string (some s) => .ok (text s)
  | .number spelling =>
    match Json.numberValue? spelling with
    | some x => .ok (number x)
    | none => .error .shape
  | _ => .error .shape

/-- The text of a stored value, for a token of a given kind. -/
def asText (kind : Token.Kind) : StoredValue → Except JsonError String
  | absent => .error (.badToken (.missingValue kind.name))
  | number x => .ok (Number.plain x)
  | text s => .ok s

/-- The number of a stored value. -/
def asNumber : StoredValue → Except JsonError Float
  | absent => .error (.badToken .missingNumber)
  | number x => .ok x
  | text s =>
    match Number.read? s.toList with
    | some x => .ok x
    | none => .error (.badToken (.notANumber s))

end StoredValue

namespace Token

/-- A token as JSON. -/
def toJson (t : Token) : Json :=
  let value := match t with
    | .number x => Json.ofNumber x
    | t => Json.text t.spelling
  .record [("kind", .text t.kind.name), ("value", value)]

/-- Tokens as JSON. -/
def tokensToJson (ts : List Token) : Json :=
  .list (ts.map toJson)

/-- The kind of a token from JSON. -/
def kindOfJson (blank : Json → Bool) (j : Json) : Except JsonError Kind := do
  match Kind.ofName? (← j.asName blank) with
  | some kind => .ok kind
  | none => .error .shape

/-- The token of a kind and a stored value. -/
def ofStored (value : StoredValue) (kind : Kind) : Except JsonError Token :=
  match kind with
  | .number => return .number (← value.asNumber)
  | .reference => return .reference (← value.asText kind)
  | .text => return .text (← value.asText kind)
  | .operator => do
    let symbol ← value.asText kind
    match Operator.ofChars? symbol.toList with
    | some op => .ok (.operator op)
    | none => .error (.badToken (.unknownOperator symbol))
  | .function => do
    let name ← value.asText kind
    match Builtin.ofChars? name.toList with
    | some f => .ok (.function f)
    | none => .error (.badToken (.unknownFunction name))
  | .openBracket => .ok .openBracket
  | .closeBracket => .ok .closeBracket
  | .separator => .ok .separator

/-- The test of a token's field. -/
def testField (blank : Json → Bool) (name : String) (j : Json) : Except JsonError Unit :=
  if name = "kind" then (kindOfJson blank j).map fun _ => ()
  else (StoredValue.ofJson j).map fun _ => ()

/-- A token from JSON. -/
def ofJson (blank : Json → Bool) (j : Json) : Except JsonError Token := do
  let fields ← j.asRecord ["kind", "value"] (testField blank)
  let kind ← Json.field "kind" (kindOfJson blank) fields
  let value ← StoredValue.ofJson ((fields.lookup "value").getD .null)
  ofStored value kind

/-- Tokens from JSON. -/
def tokensOfJson (blank : Json → Bool) : Json → Except JsonError (List Token) :=
  Json.asList (ofJson blank)

/-- The tokens that a text stores by themselves. Only `null` is without meaning there. -/
def tokensOfJsonText (text : String) : Except JsonError (List Token) :=
  Json.read (tokensOfJson Json.isNull) text

end Token

end Spreadsheet
