import Spreadsheet.Json.Cell
import Spreadsheet.Proofs.Json.Number
import Spreadsheet.Proofs.Outcome

/-!
# Stored Formulas are Read Back

A record is read field by field, and then once more for its values, so it is read exactly if
every field passes its test (`Json.asRecord_record`). A token is a record of a kind and a value;
it is read back if its number is kept, and always if it is none. The token of a number that is
not finite is stored without a value and is never read back.

## Main definitions

* `Token.number?`: the number of a token.

## Main results

* `Token.ofJson_toJson`: a token whose number is kept is read back.
* `Token.isFinite_of_ofJson_toJson`: no other number is read back.
* `Formula.ofJson_toJson`: a formula whose numbers are kept is read back.
-/

namespace Spreadsheet

/-! ### Records -/

namespace Json

variable {names seen : List String} {fields : List (String × Json)}

/-- The fields of a record are all known if they are different and have known names. -/
theorem known_of_nodup (hnames : ∀ f ∈ fields, f.1 ∈ names) (hseen : ∀ f ∈ fields, f.1 ∉ seen)
    (hnodup : (fields.map Prod.fst).Nodup) :
    known names seen (fields.map fun f => (some f.1, f.2)) = (fields, true) := by
  induction fields generalizing seen with
  | nil => rfl
  | cons f fields ih =>
      obtain ⟨hf, hnodup⟩ := List.nodup_cons.mp hnodup
      have hrest : ∀ g ∈ fields, g.1 ∉ f.1 :: seen := by
        intro g hg hmem
        rcases List.mem_cons.mp hmem with heq | hmem
        · exact hf (heq ▸ List.mem_map_of_mem hg)
        · exact hseen g (List.mem_cons_of_mem _ hg) hmem
      rw [List.map_cons, known, if_neg (hseen f List.mem_cons_self),
        if_pos (hnames f List.mem_cons_self),
        ih (fun g hg => hnames g (List.mem_cons_of_mem _ hg)) hrest hnodup]

/-- **A record is read** if its fields pass their tests. -/
theorem asRecord_record {test : String → Json → Except JsonError Unit}
    (hnames : fields.map Prod.fst = names) (hnodup : names.Nodup) :
    (record fields).asRecord names test =
      (fields.forM fun f => test f.1 f.2).map fun _ => fields := by
  have hknown : known names [] (fields.map fun f => (some f.1, f.2)) = (fields, true) :=
    known_of_nodup (fun f hf => hnames ▸ List.mem_map_of_mem hf) (fun _ _ => List.not_mem_nil)
      (hnames ▸ hnodup)
  rw [record, asRecord, fieldsOf, hknown]
  dsimp only
  cases fields.forM fun f => test f.1 f.2 <;> rfl

/-- A record of one field. -/
theorem asRecord_single {n : String} {j : Json} {test : String → Json → Except JsonError Unit} :
    (record [(n, j)]).asRecord [n] test = (test n j).map fun _ => [(n, j)] := by
  have hrecord : (record [(n, j)]).asRecord [n] test = _ :=
    asRecord_record rfl (by simp)
  rw [hrecord]
  show Except.map _ (test n j >>= fun _ => pure ()) = _
  cases test n j <;> rfl

/-- A record of two fields. -/
theorem asRecord_pair {m n : String} {j k : Json} {test : String → Json → Except JsonError Unit}
    (hne : m ≠ n) :
    (record [(m, j), (n, k)]).asRecord [m, n] test = do
      test m j
      test n k
      return [(m, j), (n, k)] := by
  have hrecord : (record [(m, j), (n, k)]).asRecord [m, n] test = _ :=
    asRecord_record rfl (by simp [hne])
  rw [hrecord]
  show Except.map _ (test m j >>= fun _ => test n k >>= fun _ => pure ()) = _
  cases test m j with
  | error e => rfl
  | ok _ => cases test n k <;> rfl

end Json

/-! ### Tokens -/

namespace Token

variable {blank : Json → Bool} {t u : Token} {x : Float}

/-- The number of a token, if it is one. -/
def number? : Token → Option Float
  | .number x => some x
  | _ => none

/-- The kind of a token is read back from its name. -/
theorem kindOfJson_name (blank : Json → Bool) (kind : Kind) :
    kindOfJson blank (.text kind.name) = .ok kind := by
  cases kind <;> rfl

/-- A stored token is the one of its kind and its value. -/
theorem ofJson_record {kind : Kind} {value : Json} {v : StoredValue}
    (hv : StoredValue.ofJson value = .ok v) :
    ofJson blank (.record [("kind", .text kind.name), ("value", value)]) = ofStored v kind := by
  have hlookup : [("kind", Json.text kind.name), ("value", value)].lookup "value" = some value :=
    rfl
  rw [ofJson, Json.asRecord_pair (by decide)]
  simp [testField, kindOfJson_name, hv, hlookup, Json.field, bind, Except.bind, pure, Except.pure,
    Except.map]

/-- Every token but a number is stored as its text. -/
theorem toJson_of_number?_eq_none (h : t.number? = none) :
    t.toJson = .record [("kind", .text t.kind.name), ("value", .text t.spelling)] := by
  cases t with
  | number x => cases h
  | _ => rfl

/-- Every token but a number is made again from its text. -/
theorem ofStored_spelling (h : t.number? = none) : ofStored (.text t.spelling) t.kind = .ok t := by
  cases t with
  | number x => cases h
  | reference name =>
      show Except.ok (Token.reference (String.ofList name.toList)) = _
      rw [String.ofList_toList]
  | operator op => cases op <;> rfl
  | function f => cases f <;> decide +kernel
  | openBracket => rfl
  | closeBracket => rfl
  | separator => rfl
  | text content =>
      show Except.ok (Token.text (String.ofList content.toList)) = _
      rw [String.ofList_toList]

/-- **A token whose number is kept is read back.** -/
theorem ofJson_toJson (h : ∀ x ∈ t.number?, Json.Keeps x) : ofJson blank t.toJson = .ok t := by
  cases hnumber : t.number? with
  | none =>
      rw [toJson_of_number?_eq_none hnumber, ofJson_record rfl, ofStored_spelling hnumber]
  | some x =>
      cases t with
      | number y =>
          cases hnumber
          obtain ⟨cs, hcs, hvalue⟩ := (h x rfl).exists_numeral
          have hstored : StoredValue.ofJson (Json.ofNumber x) = .ok (.number x) := by
            rw [hcs, StoredValue.ofJson, hvalue]
          exact ofJson_record hstored
      | _ => cases hnumber

/-- **The token of a number that is not finite is not read back**: it is stored without a
value. -/
theorem isFinite_of_ofJson_toJson (h : ofJson blank (toJson (.number x)) = .ok t) :
    x.isFinite = true := by
  cases hx : x.isFinite with
  | true => rfl
  | false =>
      have hstored : StoredValue.ofJson (Json.ofNumber x) = .ok .absent := by
        rw [Json.ofNumber_of_not_isFinite hx]
        rfl
      have hread : ofJson blank (toJson (.number x)) = ofStored .absent .number :=
        ofJson_record hstored
      rw [hread] at h
      cases h

/-- A token is stored as a plain tree if its number is. -/
theorem isPlain_toJson {ok : List Char → Bool} {depth : ℕ}
    (h : ∀ x ∈ t.number?, (Json.ofNumber x).isPlain ok depth = true) :
    t.toJson.isPlain ok (depth + 1) = true := by
  cases hnumber : t.number? with
  | none =>
      rw [toJson_of_number?_eq_none hnumber]
      simp [Json.record, Json.text, Json.isPlain, Json.fieldsPlain]
  | some x =>
      cases t with
      | number y =>
          cases hnumber
          simp [toJson, Json.record, Json.text, Json.isPlain, Json.fieldsPlain, h x rfl]
      | _ => cases hnumber

/-- Tokens are stored as a plain tree if their numbers are. -/
theorem isPlain_tokensToJson {ok : List Char → Bool} {depth : ℕ} {ts : List Token}
    (h : ∀ x ∈ ts.filterMap number?, (Json.ofNumber x).isPlain ok depth = true) :
    (tokensToJson ts).isPlain ok (depth + 2) = true := by
  rw [tokensToJson, Json.isPlain, Json.allPlain_iff]
  intro j hj
  obtain ⟨t, ht, rfl⟩ := List.mem_map.mp hj
  exact isPlain_toJson fun x hx => h x (List.mem_filterMap.mpr ⟨t, ht, hx⟩)

end Token

/-! ### Formulas -/

namespace Formula

variable {blank : Json → Bool} {f g : Formula} {x : Float}

/-- A stored formula is read by its tokens. -/
theorem ofJson_toJson_eq : ofJson blank f.toJson =
    (Token.tokensOfJson blank (Token.tokensToJson f.tokens)).map fun ts => ⟨f.source, ts⟩ := by
  have hlookup : [("source", Json.text f.source), ("tokens", Token.tokensToJson f.tokens)].lookup
      "tokens" = some (Token.tokensToJson f.tokens) := rfl
  have hsource : Json.asText (Json.text f.source) = .ok f.source := rfl
  rw [ofJson, toJson, toFields, Json.asRecord_pair (by decide)]
  cases hread : Token.tokensOfJson blank (Token.tokensToJson f.tokens) with
  | error e => simp [testField, hread, hsource, bind, Except.bind, Except.map]
  | ok ts =>
      simp [testField, hread, hsource, hlookup, Json.field, bind, Except.bind, pure, Except.pure,
        Except.map]

/-- **A formula whose numbers are kept is read back.** -/
theorem ofJson_toJson (h : ∀ x ∈ f.tokens.filterMap Token.number?, Json.Keeps x) :
    ofJson blank f.toJson = .ok f := by
  have htokens : Token.tokensOfJson blank (Token.tokensToJson f.tokens) = .ok f.tokens := by
    refine mapM_eq_ok_iff.mpr (List.forall₂_map_left_iff.mpr (List.forall₂_same.mpr fun t ht => ?_))
    exact Token.ofJson_toJson fun x hx => h x (List.mem_filterMap.mpr ⟨t, ht, hx⟩)
  rw [ofJson_toJson_eq, htokens]
  rfl

/-- **A formula with a number that is not finite is not read back.** -/
theorem isFinite_of_ofJson_toJson (h : ofJson blank f.toJson = .ok g)
    (hx : x ∈ f.tokens.filterMap Token.number?) : x.isFinite = true := by
  obtain ⟨t, ht, htx⟩ := List.mem_filterMap.mp hx
  rw [ofJson_toJson_eq] at h
  cases hread : Token.tokensOfJson blank (Token.tokensToJson f.tokens) with
  | error e =>
      rw [hread] at h
      cases h
  | ok ts =>
      obtain ⟨u, hu⟩ := exists_ok_of_mapM_eq_ok hread (List.mem_map_of_mem ht)
      cases t with
      | number y =>
          cases htx
          exact Token.isFinite_of_ofJson_toJson hu
      | _ => cases htx

end Formula

end Spreadsheet
