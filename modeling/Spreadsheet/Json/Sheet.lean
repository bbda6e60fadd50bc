import Spreadsheet.Json.Cell
import Spreadsheet.Json.Printer
import Spreadsheet.Sheet.Basic

/-!
# Sheets in JSON

A sheet is stored as the list of its non-empty cells by row and then by column, each
with its address and a record that says whether it is a number, a text or a formula. A
formula is stored with its tokens, which are restored without a look at its text; the
list of referenced cells is derived from them again.

## Main definitions

* `Sheet.toJsonText` — the text of a stored sheet.
* `Sheet.ofJsonText` — the sheet of such a text.
-/

namespace Spreadsheet

namespace Entry

/-- The fields that a content is stored as, unless it is empty. -/
def fields? : Content → Option (List (String × Json))
  | .empty => none
  | .number x => some [("type", .text "number"), ("value", .ofNumber x)]
  | .text s => some [("type", .text "text"), ("value", .text s)]
  | .formula f => some (("type", .text "formula") :: f.toFields)

/-- A cell and its address as JSON, unless the cell is empty. -/
def toJson? (a : Address) (c : Cell) : Option Json :=
  (fields? c.content).map fun fields =>
    .record [("cell", a.toJson), ("entry", .record fields)]

/-- How deep lists and objects may be nested within a stored content, which lies three
levels deep itself when at most 127 levels are allowed. -/
def depthLimit : Nat := 124

/-- The cell of a kind of content and its remaining fields. Within an entry an object
without fields says as little as `null`. -/
def cellOfKind (kind : String) (j : Json) : Except JsonError Cell :=
  if kind = "number" then do
    let fields ← j.asRecord ["value"] fun _ v => v.asNumber.map fun _ => ()
    return .ofNumber (← Json.field "value" Json.asNumber fields)
  else if kind = "text" then do
    let fields ← j.asRecord ["value"] fun _ v => v.asText.map fun _ => ()
    return .ofText (← Json.field "value" Json.asText fields)
  else if kind = "formula" then
    return .ofFormula (← Formula.ofJson Json.isVacant j)
  else .error .shape

/-- The cell of a stored content, which is looked at only if all of it is well formed.
The kind stands in a field of its own, or at the head of a list. -/
def cellOfJson (j : Json) : Except JsonError Cell :=
  if j.isPlain (fun spelling => (Json.numberValue? spelling).isSome) depthLimit then
    match j with
    | .object fields =>
      match fields.filter fun f => f.1 = some "type" with
      | [(_, .string (some kind))] =>
        cellOfKind kind (.object (fields.filter fun f => f.1 ≠ some "type"))
      | _ => .error .shape
    | .list (.string (some kind) :: items) => cellOfKind kind (.list items)
    | _ => .error .shape
  else .error .shape

/-- The test of a stored cell's field. -/
def testField (name : String) (j : Json) : Except JsonError Unit :=
  if name = "cell" then (Address.ofJson j).map fun _ => ()
  else (cellOfJson j).map fun _ => ()

/-- A stored cell and its address. -/
def ofJson (j : Json) : Except JsonError (Address × Cell) := do
  let fields ← j.asRecord ["cell", "entry"] testField
  return (← Json.field "cell" Address.ofJson fields, ← Json.field "entry" cellOfJson fields)

/-- The stored cells of a sheet. -/
def allOfJson (j : Json) : Except JsonError (List (Address × Cell)) := do
  let fields ← j.asRecord ["cells"] fun _ v => (v.asList ofJson).map fun _ => ()
  Json.field "cells" (Json.asList ofJson) fields

end Entry

namespace Sheet

/-- A sheet as JSON: its non-empty cells. -/
def toJson (s : Sheet) : Json :=
  .record [("cells", .list (s.entries.filterMap fun e => Entry.toJson? e.1 e.2))]

/-- The text that a sheet is stored as. -/
def toJsonText (s : Sheet) : String :=
  s.toJson.pretty ++ "\n"

/-- The sheet that is stored as a text. Of several entries for one cell the last
counts. -/
def ofJsonText (text : String) : Except JsonError Sheet :=
  (Json.read Entry.allOfJson text).map ofList

end Sheet

end Spreadsheet
