import Spreadsheet.Cell
import Spreadsheet.Json.Token

/-!
# Stored Cells

A cell is stored as its contents and the list of cells that these refer to, both as
they are: the list is not derived again from the tokens.

## Main definitions

* `Address.toJson`, `Address.ofJson` — addresses.
* `Formula.toJson`, `Formula.ofJson` — formulas.
* `Cell.toJson`, `Cell.ofJson` — cells.
-/

namespace Spreadsheet

namespace Address

/-- An address as JSON: its name. -/
def toJson (a : Address) : Json :=
  .text a.name

/-- An address from JSON. -/
def ofJson (j : Json) : Except JsonError Address := do
  let name ← j.asText
  match read? name with
  | some a => .ok a
  | none => .error (.badAddress name)

end Address

namespace Formula

/-- The fields of a formula as JSON. -/
def toFields (f : Formula) : List (String × Json) :=
  [("source", .text f.source), ("tokens", Token.tokensToJson f.tokens)]

/-- A formula as JSON. -/
def toJson (f : Formula) : Json :=
  .record f.toFields

/-- The test of a formula's field. -/
def testField (blank : Json → Bool) (name : String) (j : Json) : Except JsonError Unit :=
  if name = "source" then j.asText.map fun _ => ()
  else (Token.tokensOfJson blank j).map fun _ => ()

/-- A formula from JSON, the tokens of which have kinds as `blank` allows. -/
def ofJson (blank : Json → Bool) (j : Json) : Except JsonError Formula := do
  let fields ← j.asRecord ["source", "tokens"] (testField blank)
  return ⟨← Json.field "source" Json.asText fields,
    ← Json.field "tokens" (Token.tokensOfJson blank) fields⟩

end Formula

namespace Content

/-- The content of a cell as JSON. -/
def toJson : Content → Json
  | .empty => .text "Empty"
  | .number x => .record [("Number", .ofNumber x)]
  | .text s => .record [("Text", .text s)]
  | .formula f => .record [("Formula", f.toJson)]

/-- The content of a kind and a value. -/
def ofChoice (kind : String) (j : Json) : Except JsonError Content :=
  if kind = "Number" then return .number (← j.asNumber)
  else if kind = "Text" then return .text (← j.asText)
  else if kind = "Formula" then return .formula (← Formula.ofJson Json.isNull j)
  else if kind = "Empty" ∧ j.isNull then .ok .empty
  else .error .shape

/-- The content of a cell from JSON. -/
def ofJson : Json → Except JsonError Content
  | .string (some s) => if s = "Empty" then .ok .empty else .error .shape
  | j => j.asChoice ofChoice

end Content

namespace Cell

/-- A cell as JSON. -/
def toJson (c : Cell) : Json :=
  .record [("contents", c.content.toJson), ("depends_on", .list (c.references.map Address.toJson))]

/-- The test of a cell's field. -/
def testField (name : String) (j : Json) : Except JsonError Unit :=
  if name = "contents" then (Content.ofJson j).map fun _ => ()
  else (j.asList Address.ofJson).map fun _ => ()

/-- A cell from JSON. -/
def ofJson (j : Json) : Except JsonError Cell := do
  let fields ← j.asRecord ["contents", "depends_on"] testField
  return ⟨← Json.field "contents" Content.ofJson fields,
    ← Json.field "depends_on" (Json.asList Address.ofJson) fields⟩

end Cell

end Spreadsheet
