import Spreadsheet.Json.Sheet
import Spreadsheet.Proofs.Json.Token
import Spreadsheet.Proofs.Sheet.Entries

/-!
# Stored Sheets are Read Back

Whatever a sheet holds, it is stored as a plain tree, so its text is read as the cells that it
stores (`Sheet.ofJsonText_toJsonText`). Each of them is read back if its numbers are kept, and the
cells it refers to are found again in the tokens of its formula. A single number that is not
finite, wherever it stands, makes the whole text unreadable.

## Main definitions

* `Content.numbers`, `Sheet.numbers`: the numbers of a content, and of all contents.
* `Sheet.stored`: the cells that are stored.

## Main results

* `Entry.ofJson_of_toJson?`, `Entry.isFinite_of_ofJson`: which stored cells are read back.
* `Sheet.survives_ofJsonText_toJsonText`: a sheet whose numbers are kept survives.
* `Sheet.isFinite_of_ofJsonText`: a stored sheet that is read has only finite numbers.
* `Sheet.within_and_references_of_ofJsonText`: what any text can bring into a sheet.
-/

namespace Spreadsheet

/-- The numbers that a cell's content is made of: a number itself, or those in the tokens of a
formula. -/
def Content.numbers : Content → List Float
  | .number x => [x]
  | .formula f => f.tokens.filterMap Token.number?
  | _ => []

/-- A cell with a number in it is not empty. -/
theorem Cell.isEmpty_of_mem_numbers {c : Cell} {x : Float} (h : x ∈ c.content.numbers) :
    c.isEmpty = false := by
  refine decide_eq_false fun hempty => ?_
  rw [hempty] at h
  cases h

/-- The numbers that the cells of a sheet are made of. -/
def Sheet.numbers (s : Sheet) : List Float :=
  s.entries.flatMap fun e => e.2.content.numbers

/-! ### Values of any origin -/

namespace Json

variable {α : Type} {value : Json → Except JsonError α} {x : α}

/-- A field is read from some value. -/
theorem exists_of_field_eq_ok {name : String} {fields : List (String × Json)}
    (h : field name value fields = .ok x) : ∃ j, value j = .ok x := by
  rw [field] at h
  split at h
  · exact ⟨_, h⟩
  · cases h

/-- A text is read as some value. -/
theorem exists_of_read_eq_ok {text : String} (h : read value text = .ok x) :
    ∃ j, value j = .ok x := by
  rw [read] at h
  generalize ofChars text.toList = parsed at h
  obtain ⟨y, hy, h⟩ := exists_of_bind_eq_ok h
  split at h
  · cases h
    exact ⟨_, hy⟩
  · cases h

end Json

/-! ### Addresses -/

namespace Address

variable {a : Address} {j : Json}

/-- An address within the limits is read back. -/
theorem ofJson_toJson (h : a.Within) : ofJson a.toJson = .ok a := by
  have hread : read? a.name = some a := by
    rw [read?, name, String.toList_ofList]
    exact readChars?_nameChars h
  have hname : Json.asText a.toJson = .ok a.name := rfl
  simp only [ofJson, hname, hread, bind, Except.bind]

/-- An address that is read is within the limits. -/
theorem within_of_ofJson (h : ofJson j = .ok a) : a.Within := by
  rw [ofJson] at h
  obtain ⟨name, -, h⟩ := exists_of_bind_eq_ok h
  split at h
  · rename_i b hb
    cases h
    exact within_of_readChars? hb
  · cases h

end Address

/-! ### Entries -/

namespace Entry

variable {a b : Address} {c d : Cell} {x : Float}

/-- The kind that a content is stored under. -/
def kind : Content → String
  | .number _ => "number"
  | .text _ => "text"
  | _ => "formula"

/-- A stored content without the name of its kind. -/
def body : Content → Json
  | .number x => .record [("value", .ofNumber x)]
  | .text s => .record [("value", .text s)]
  | .formula f => f.toJson
  | .empty => .null

/-- A stored content is read by its kind, if it is well formed. -/
theorem cellOfJson_record {x : Content} {fields : List (String × Json)}
    (hfields : fields? x = some fields) :
    cellOfJson (.record fields) =
      if (Json.record fields).isPlain (fun cs => (Json.numberValue? cs).isSome) depthLimit then
        cellOfKind (kind x) (body x)
      else .error .shape := by
  cases x with
  | empty => cases hfields
  | number x =>
      cases hfields
      rfl
  | text s =>
      cases hfields
      rfl
  | formula f =>
      cases hfields
      rfl

/-- A number is read from the body of its cell. -/
theorem cellOfKind_number {x : Float} :
    cellOfKind "number" (body (.number x)) = (Json.asNumber (.ofNumber x)).map Cell.ofNumber := by
  rw [body, cellOfKind, if_pos rfl, Json.asRecord_single]
  cases hread : Json.asNumber (.ofNumber x) with
  | error e => rfl
  | ok y => simp [Json.field, hread, bind, Except.bind, pure, Except.pure, Except.map]

/-- A text is read back from the body of its cell. -/
theorem cellOfKind_text {s : String} : cellOfKind "text" (body (.text s)) = .ok (.ofText s) :=
  rfl

/-- A formula is read from the body of its cell. -/
theorem cellOfKind_formula {f : Formula} : cellOfKind "formula" (body (.formula f)) =
    (Formula.ofJson Json.isVacant f.toJson).map Cell.ofFormula := by
  show (Formula.ofJson Json.isVacant f.toJson >>= fun f => pure (Cell.ofFormula f)) = _
  cases Formula.ofJson Json.isVacant f.toJson <;> rfl

/-- A stored content whose numbers are kept is read back as a cell that lists what its formula
refers to. -/
theorem cellOfKind_body (hempty : c.isEmpty = false)
    (hrefs : c.references = Token.references (c.tokens?.getD []))
    (hkeeps : ∀ x ∈ c.content.numbers, Json.Keeps x) :
    cellOfKind (kind c.content) (body c.content) = .ok c := by
  obtain ⟨content, references⟩ := c
  cases content with
  | empty => cases hempty
  | number x =>
      obtain rfl : references = [] := hrefs
      have hx : Json.asNumber (.ofNumber x) = .ok x := hkeeps x List.mem_cons_self
      exact cellOfKind_number.trans (by rw [hx]; rfl)
  | text s =>
      obtain rfl : references = [] := hrefs
      exact cellOfKind_text
  | formula f =>
      obtain rfl : references = Token.references f.tokens := hrefs
      exact cellOfKind_formula.trans (by rw [Formula.ofJson_toJson hkeeps]; rfl)

/-- A content with a number that is not finite is not read back. -/
theorem isFinite_of_cellOfKind {content : Content}
    (h : cellOfKind (kind content) (body content) = .ok d) (hx : x ∈ content.numbers) :
    x.isFinite = true := by
  cases content with
  | empty => cases hx
  | text s => cases hx
  | number y =>
      obtain rfl := List.mem_singleton.mp hx
      cases hfinite : x.isFinite with
      | true => rfl
      | false =>
          have hread : Json.asNumber (.ofNumber x) = .error .shape := by
            rw [Json.ofNumber_of_not_isFinite hfinite]
            rfl
          rw [kind, cellOfKind_number, hread] at h
          cases h
  | formula f =>
      have h : cellOfKind "formula" (body (.formula f)) = .ok d := h
      rw [cellOfKind_formula] at h
      cases hread : Formula.ofJson Json.isVacant f.toJson with
      | error e =>
          rw [hread] at h
          cases h
      | ok g => exact Formula.isFinite_of_ofJson_toJson hread hx

/-- A content is stored as a plain tree if its numbers are. -/
theorem isPlain_fields {content : Content} {fields : List (String × Json)}
    {ok : List Char → Bool} (hfields : fields? content = some fields)
    (h : ∀ x ∈ content.numbers, ∀ depth, (Json.ofNumber x).isPlain ok depth = true) (depth : ℕ) :
    (Json.record fields).isPlain ok (depth + 3) = true := by
  cases content with
  | empty => cases hfields
  | number x =>
      cases hfields
      simp [Json.record, Json.text, Json.isPlain, Json.fieldsPlain, h x List.mem_cons_self]
  | text s =>
      cases hfields
      simp [Json.record, Json.text, Json.isPlain, Json.fieldsPlain]
  | formula f =>
      cases hfields
      have htokens : (Token.tokensToJson f.tokens).isPlain ok (depth + 2) = true :=
        Token.isPlain_tokensToJson fun x hx => h x hx depth
      simp [Json.record, Json.text, Json.isPlain, Json.fieldsPlain, Formula.toFields, htokens]

/-- A stored cell is read by its address and its entry. -/
theorem ofJson_record {j k : Json} :
    ofJson (.record [("cell", j), ("entry", k)]) = do
      return (← Address.ofJson j, ← cellOfJson k) := by
  have hentry : [("cell", j), ("entry", k)].lookup "entry" = some k := rfl
  rw [ofJson, Json.asRecord_pair (by decide)]
  cases hj : Address.ofJson j with
  | error e => simp [testField, hj, bind, Except.bind, Except.map]
  | ok a =>
      cases hk : cellOfJson k with
      | error e => simp [testField, hj, hk, bind, Except.bind, Except.map]
      | ok c =>
          simp [testField, hj, hk, hentry, Json.field, bind, Except.bind, pure, Except.pure,
            Except.map]

/-- Only an empty cell is not stored. -/
theorem isSome_toJson? (a : Address) (c : Cell) : (toJson? a c).isSome = !c.isEmpty := by
  obtain ⟨content, references⟩ := c
  cases content <;> simp [Cell.isEmpty, toJson?, fields?]

/-- **A stored cell is read back** if its numbers are kept. -/
theorem ofJson_of_toJson? {j : Json} (ha : a.Within)
    (hrefs : c.references = Token.references (c.tokens?.getD []))
    (hkeeps : ∀ x ∈ c.content.numbers, Json.Keeps x) (hj : toJson? a c = some j) :
    ofJson j = .ok (a, c) := by
  have hempty : c.isEmpty = false := by
    have hsome := isSome_toJson? a c
    rw [hj] at hsome
    simpa using hsome.symm
  obtain ⟨fields, hfields, rfl⟩ := Option.map_eq_some_iff.mp hj
  have hplain : (Json.record fields).isPlain (fun cs => (Json.numberValue? cs).isSome)
      depthLimit = true := by
    refine isPlain_fields hfields (fun x hx depth => ?_) 121
    obtain ⟨cs, hcs, hvalue⟩ := (hkeeps x hx).exists_numeral
    rw [hcs, Json.isPlain, hvalue]
    rfl
  have hcell : cellOfJson (.record fields) = .ok c := by
    rw [cellOfJson_record hfields, if_pos hplain, cellOfKind_body hempty hrefs hkeeps]
  rw [ofJson_record, Address.ofJson_toJson ha, hcell]
  rfl

/-- **A stored cell with a number that is not finite is not read back.** -/
theorem isFinite_of_ofJson {j : Json} {e : Address × Cell} (hj : toJson? a c = some j)
    (h : ofJson j = .ok e) (hx : x ∈ c.content.numbers) : x.isFinite = true := by
  obtain ⟨fields, hfields, rfl⟩ := Option.map_eq_some_iff.mp hj
  rw [ofJson_record] at h
  obtain ⟨b, -, h⟩ := exists_of_bind_eq_ok h
  obtain ⟨d, hd, -⟩ := exists_of_bind_eq_ok h
  rw [cellOfJson_record hfields] at hd
  split at hd
  · exact isFinite_of_cellOfKind hd hx
  · cases hd

/-- Whatever is read as a cell lists what its formula refers to. -/
theorem references_of_cellOfKind {name : String} {j : Json} (h : cellOfKind name j = .ok c) :
    c.references = Token.references (c.tokens?.getD []) := by
  rw [cellOfKind] at h
  split at h
  · obtain ⟨fields, -, h⟩ := exists_of_bind_eq_ok h
    obtain ⟨x, -, h⟩ := exists_of_bind_eq_ok h
    cases h
    rfl
  · split at h
    · obtain ⟨fields, -, h⟩ := exists_of_bind_eq_ok h
      obtain ⟨s, -, h⟩ := exists_of_bind_eq_ok h
      cases h
      rfl
    · split at h
      · obtain ⟨f, -, h⟩ := exists_of_bind_eq_ok h
        cases h
        rfl
      · cases h

/-- A cell is read as one of some kind. -/
theorem exists_kind_of_cellOfJson {j : Json} (h : cellOfJson j = .ok c) :
    ∃ name k, cellOfKind name k = .ok c := by
  rw [cellOfJson.eq_def] at h
  split at h
  · split at h
    · split at h
      · exact ⟨_, _, h⟩
      · cases h
    · exact ⟨_, _, h⟩
    · cases h
  · cases h

/-- Whatever is read as an entry has an address within the limits, and a cell that lists what its
formula refers to. -/
theorem within_and_references_of_ofJson {j : Json} (h : ofJson j = .ok (a, c)) :
    a.Within ∧ c.references = Token.references (c.tokens?.getD []) := by
  rw [ofJson] at h
  obtain ⟨fields, -, h⟩ := exists_of_bind_eq_ok h
  obtain ⟨b, hb, h⟩ := exists_of_bind_eq_ok h
  obtain ⟨d, hd, h⟩ := exists_of_bind_eq_ok h
  cases h
  obtain ⟨j, hj⟩ := Json.exists_of_field_eq_ok hb
  obtain ⟨k, hk⟩ := Json.exists_of_field_eq_ok hd
  obtain ⟨name, l, hl⟩ := exists_kind_of_cellOfJson hk
  exact ⟨Address.within_of_ofJson hj, references_of_cellOfKind hl⟩

/-- Entries are read one by one. -/
theorem exists_ofJson_of_allOfJson {j : Json} {es : List (Address × Cell)} {e : Address × Cell}
    (h : allOfJson j = .ok es) (he : e ∈ es) : ∃ k, ofJson k = .ok e := by
  rw [allOfJson] at h
  obtain ⟨fields, -, h⟩ := exists_of_bind_eq_ok h
  obtain ⟨k, hk⟩ := Json.exists_of_field_eq_ok h
  cases k with
  | list items =>
      obtain ⟨item, -, hitem⟩ := exists_item_of_mapM_eq_ok hk he
      exact ⟨item, hitem⟩
  | _ => cases hk

/-- Filled entries are read back if their numbers are kept. -/
theorem mapM_ofJson {es : List (Address × Cell)}
    (h : ∀ e ∈ es, e.2.isEmpty = false ∧ e.1.Within ∧
      e.2.references = Token.references (e.2.tokens?.getD []) ∧
        ∀ x ∈ e.2.content.numbers, Json.Keeps x) :
    (es.filterMap fun e => toJson? e.1 e.2).mapM ofJson = .ok es := by
  induction es with
  | nil => rfl
  | cons e es ih =>
      obtain ⟨a, c⟩ := e
      obtain ⟨hempty, ha, hrefs, hkeeps⟩ := h (a, c) List.mem_cons_self
      obtain ⟨j, hj⟩ : ∃ j, toJson? a c = some j := by
        rw [← Option.isSome_iff_exists, isSome_toJson?, hempty]
        rfl
      rw [List.filterMap_cons_some (f := fun e : Address × Cell => toJson? e.1 e.2) hj,
        List.mapM_cons, ofJson_of_toJson? ha hrefs hkeeps hj,
        ih fun e he => h e (List.mem_cons_of_mem _ he)]
      rfl

end Entry

/-! ### Sheets -/

namespace Sheet

variable {s t : Sheet} {a : Address} {c : Cell}

/-- The stored cells of a sheet. -/
def stored (s : Sheet) : List Json :=
  s.entries.filterMap fun e => Entry.toJson? e.1 e.2

/-- The filled entries are stored. -/
theorem stored_eq (s : Sheet) :
    s.stored = s.filled.filterMap fun e => Entry.toJson? e.1 e.2 :=
  filterMap_entries (fun e => Entry.isSome_toJson? e.1 e.2) s

/-- A sheet is stored as a plain tree, whatever its numbers are. -/
theorem isPlain_toJson (s : Sheet) : s.toJson.isPlain Json.isNumeral 6 = true := by
  have hstored : Json.allPlain Json.isNumeral 4 s.stored = true := by
    refine Json.allPlain_iff.mpr fun j hj => ?_
    obtain ⟨e, -, hj⟩ := List.mem_filterMap.mp hj
    obtain ⟨fields, hfields, rfl⟩ := Option.map_eq_some_iff.mp hj
    have hplain := Entry.isPlain_fields hfields (fun x _ depth => Json.isPlain_ofNumber x depth) 0
    rw [Json.record, Json.isPlain, List.map_cons, List.map_cons, Json.fieldsPlain,
      Json.fieldsPlain, hplain]
    rfl
  have hrecord : s.toJson = .record [("cells", .list s.stored)] := rfl
  rw [hrecord, Json.record, Json.isPlain, List.map_cons, Json.fieldsPlain, Json.isPlain, hstored]
  rfl

/-- **The text of a stored sheet is read by its cells.** -/
theorem ofJsonText_toJsonText (s : Sheet) :
    ofJsonText s.toJsonText = (s.stored.mapM Entry.ofJson).map ofList := by
  have hcells : Entry.allOfJson s.toJson = s.stored.mapM Entry.ofJson := by
    have hrecord : s.toJson = .record [("cells", .list s.stored)] := rfl
    rw [Entry.allOfJson, hrecord, Json.asRecord_single]
    cases hread : s.stored.mapM Entry.ofJson with
    | error e => simp [Json.asList, hread, bind, Except.bind, Except.map]
    | ok es => simp [Json.asList, Json.field, hread, bind, Except.bind, Except.map]
  rw [ofJsonText, toJsonText, Json.read_pretty s.isPlain_toJson, hcells]

/-- **A sheet whose numbers are kept survives** being stored, if its cells are at addresses within
the limits and list what their formulas refer to. -/
theorem survives_ofJsonText_toJsonText
    (h : ∀ a c, s.get? a = some c → c.isEmpty = false →
      a.Within ∧ c.references = Token.references (c.tokens?.getD []))
    (hkeeps : ∀ x ∈ s.numbers, Json.Keeps x) : s.Survives (ofJsonText s.toJsonText) := by
  have hread : s.stored.mapM Entry.ofJson = .ok s.filled := by
    rw [stored_eq]
    refine Entry.mapM_ofJson fun e he => ?_
    obtain ⟨hget, hempty⟩ := mem_filled.mp he
    obtain ⟨ha, hrefs⟩ := h e.1 e.2 hget hempty
    exact ⟨hempty, ha, hrefs, fun x hx =>
      hkeeps x (List.mem_flatMap.mpr ⟨e, mem_entries.mpr hget, hx⟩)⟩
  rw [ofJsonText_toJsonText, hread]
  exact s.survives_ofList_filled

/-- **A stored sheet that is read at all has only finite numbers.** -/
theorem isFinite_of_ofJsonText (h : ofJsonText s.toJsonText = .ok t) {x : Float}
    (hx : x ∈ s.numbers) : x.isFinite = true := by
  obtain ⟨e, he, hxe⟩ := List.mem_flatMap.mp hx
  obtain ⟨j, hj⟩ : ∃ j, Entry.toJson? e.1 e.2 = some j := by
    rw [← Option.isSome_iff_exists, Entry.isSome_toJson?, Cell.isEmpty_of_mem_numbers hxe]
    rfl
  rw [ofJsonText_toJsonText] at h
  cases hread : s.stored.mapM Entry.ofJson with
  | error fault =>
      rw [hread] at h
      cases h
  | ok es =>
      obtain ⟨d, hd⟩ := exists_ok_of_mapM_eq_ok hread (List.mem_filterMap.mpr ⟨e, he, hj⟩)
      exact Entry.isFinite_of_ofJson hj hd hxe

/-- **Whatever is read from a text** is at addresses within the limits and lists what its formulas
refer to. -/
theorem within_and_references_of_ofJsonText {text : String} (h : ofJsonText text = .ok t)
    (hc : t.get? a = some c) :
    a.Within ∧ c.references = Token.references (c.tokens?.getD []) := by
  rw [ofJsonText] at h
  cases hread : Json.read Entry.allOfJson text with
  | error fault =>
      rw [hread] at h
      cases h
  | ok es =>
      rw [hread] at h
      cases h
      obtain ⟨j, hj⟩ := Json.exists_of_read_eq_ok hread
      obtain ⟨k, hk⟩ := Entry.exists_ofJson_of_allOfJson hj (mem_of_get?_ofList hc)
      exact Entry.within_and_references_of_ofJson hk

/-- What is read from a text is at addresses within the limits. -/
theorem within_of_ofJsonText {text : String} (h : ofJsonText text = .ok t)
    (hc : t.get? a = some c) : a.Within :=
  (within_and_references_of_ofJsonText h hc).1

end Sheet

end Spreadsheet
