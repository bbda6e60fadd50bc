/-!
# TOML Tables

A TOML document builds a tree of tables step by step, and rules say what a later line
may still add to what an earlier line made. A value is never extended or replaced. A
table that a header has made cannot be made by another header nor extended by a dotted
key, but one that a longer header has merely implied may still get its own header.

Settings are all that is read from such a document, so a value is told apart only as
far as that needs: a truth value is kept, any other one is just there.

## Main definitions

* `Toml` — what a key stands for.
* `Toml.openTable`, `Toml.openItem` — the effect of a header.
* `Toml.assign` — the effect of a line that assigns a value.
-/

namespace Spreadsheet

/-- How a table came about. -/
inductive TableOrigin where
  /-- By a header of its own. -/
  | header
  /-- By a longer header. -/
  | implied
  /-- By a dotted key. -/
  | dotted
deriving DecidableEq, Repr

/-- What a key of a TOML document stands for. -/
inductive Toml where
  /-- A truth value. -/
  | bool (b : Bool)
  /-- Any other value: a number, a string, a date, an array or an inline table. -/
  | other
  /-- A table. -/
  | table (origin : TableOrigin) (fields : List (String × Toml))
  /-- A list of tables, of which only the last can still be extended. -/
  | tables (last : List (String × Toml))

namespace Toml

/-- Replaces what a key stands for, or adds the key. -/
def setField (key : String) (value : Toml) : List (String × Toml) → List (String × Toml)
  | [] => [(key, value)]
  | (k, v) :: rest => if k = key then (k, value) :: rest else (k, v) :: setField key value rest

/-- Changes the table that keys lead to. Tables on the way that are missing are made,
and count as dotted or as implied. A dotted key does not lead through a table that has a
header. -/
def descend (dotted : Bool)
    (change : TableOrigin → List (String × Toml) → Option (List (String × Toml))) :
    List String → TableOrigin → List (String × Toml) → Option (List (String × Toml))
  | [], origin, fields => change origin fields
  | key :: keys, _, fields =>
    match fields.lookup key with
    | none =>
      let origin := if dotted then .dotted else .implied
      (descend dotted change keys origin []).map fun inner =>
        setField key (.table origin inner) fields
    | some (.table origin inner) =>
      if dotted ∧ origin = .header then none
      else (descend dotted change keys origin inner).map fun inner =>
        setField key (.table origin inner) fields
    | some (.tables inner) =>
      (descend dotted change keys .header inner).map fun inner =>
        setField key (.tables inner) fields
    | some _ => none

/-- Opens the table of a header: a new one, or one that has only been implied. -/
def openTable (path : List String) (root : List (String × Toml)) :
    Option (List (String × Toml)) :=
  path.getLast?.bind fun key =>
    descend false (fun _ fields =>
      match fields.lookup key with
      | none => some (setField key (.table .header []) fields)
      | some (.table .implied inner) => some (setField key (.table .header inner) fields)
      | _ => none) path.dropLast .header root

/-- Opens another table of the list of tables that a doubled header names. -/
def openItem (path : List String) (root : List (String × Toml)) :
    Option (List (String × Toml)) :=
  path.getLast?.bind fun key =>
    descend false (fun _ fields =>
      match fields.lookup key with
      | none | some (.tables _) => some (setField key (.tables []) fields)
      | _ => none) path.dropLast .header root

/-- Assigns a value to a key, which may be dotted, within one table. -/
def assignWithin (path : List String) (value : Toml) (fields : List (String × Toml)) :
    Option (List (String × Toml)) :=
  path.getLast?.bind fun key =>
    descend true (fun origin inner =>
      if path.length ≠ 1 ∧ origin ≠ .dotted then none
      else if (inner.lookup key).isSome then none
      else some (setField key value inner)) path.dropLast .header fields

/-- Assigns a value to a key within the table that is open. -/
def assign (current path : List String) (value : Toml) (root : List (String × Toml)) :
    Option (List (String × Toml)) :=
  descend false (fun _ fields => assignWithin path value fields) current .header root

end Toml

end Spreadsheet
