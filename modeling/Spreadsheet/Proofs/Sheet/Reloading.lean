import Spreadsheet.Proofs.Formula.Rendering
import Spreadsheet.Proofs.Json.Sheet
import Spreadsheet.Proofs.Sheet.Listing
import Spreadsheet.Proofs.Sheet.Locality

/-!
# Which Sheets Survive

A sheet that is written to a file and read again ought to be what it was, apart from its empty
cells. For either format the sheets of which this is true are exactly those whose filled cells are
what a reader can make. A listing is read line by line, and the tokens of a formula are found
again in its text, so a cell of a listing has to be *listable*. JSON holds the text and the tokens
of a formula side by side, and a reader believes both of them, whatever they have to do with each
other; a cell only has to be *storable*.

Whatever has been read from a listing is listable. So a listing that was accepted once can be
written and read again as often as one likes (`Sheet.listing_round_trip`). The values of the cells
survive together with their contents, for an empty cell is as good as none
(`Sheet.json_round_trip`).

A listing does not tell the tokens of a formula, so a formula that was made of tokens comes back as
the formula of its text. Its tokens are then found again or not, and with them its value
(`Sheet.rendered_round_trip`).

## Main definitions

* `Cell.Storable`: what JSON can hold.

## Main results

* `Sheet.listing_round_trip`: which sheets survive as listings.
* `Sheet.rendered_round_trip`: which formulas survive as listings that were made of tokens.
* `Sheet.json_round_trip`: which sheets survive as JSON, and that their values survive with them.
-/

namespace Spreadsheet

/-- A cell is **storable** if JSON can hold what it holds, and if its references are those of its
formula. Neither the text of the formula nor the order of its tokens matters. -/
structure Cell.Storable (c : Cell) : Prop where
  /-- All numbers are finite, also those in the tokens of a formula. -/
  isFinite : ∀ x ∈ c.content.numbers, x.isFinite = true
  /-- The cell lists what its formula refers to. -/
  references : c.references = Token.references (c.tokens?.getD [])

/-- Whether a cell is storable can be computed. -/
instance (c : Cell) : Decidable c.Storable :=
  decidable_of_iff ((∀ x ∈ c.content.numbers, x.isFinite = true) ∧
    c.references = Token.references (c.tokens?.getD []))
    ⟨fun h => ⟨h.1, h.2⟩, fun h => ⟨h.isFinite, h.references⟩⟩

namespace Sheet

variable {s t : Sheet} {a : Address} {c : Cell}

/-! ### Sheets without their empty cells -/

section WithoutEmptyCells

variable (h : ∀ a, t.get? a = (s.get? a).filter fun c => !c.isEmpty)
include h

/-- A filled cell is there in a sheet without its empty cells. -/
theorem get?_of_get?_eq_filter (hc : s.get? a = some c) (hempty : c.isEmpty = false) :
    t.get? a = some c := by
  rw [h, hc, Option.filter_some, hempty]
  rfl

/-- A sheet without its empty cells holds the same. -/
theorem content_eq_of_get?_eq_filter (a : Address) : t.content a = s.content a := by
  rw [content, content, h]
  cases s.get? a with
  | none => rfl
  | some c =>
      rw [Option.filter_some]
      cases hempty : c.isEmpty with
      | true => exact (of_decide_eq_true hempty).symm
      | false => rfl

end WithoutEmptyCells

/-! ### Listings -/

/-- **Which sheets survive as listings**: those whose filled cells are listable, at addresses
within the limits. Every sheet that is read from a listing is one of them, so it survives being
written and read again. -/
theorem listing_round_trip :
    (∀ s : Sheet, (∀ a c, s.get? a = some c → c.isEmpty = false → a.Within ∧ c.Listable) ↔
        s.Survives (ofListing s.toListing)) ∧
      ∀ (text : String) (t : Sheet), ofListing text = .ok t →
        (∀ a c, t.get? a = some c → a.Within ∧ c.Listable) ∧
          t.Survives (ofListing t.toListing) := by
  refine ⟨fun s => ⟨survives_ofListing_toListing, ?_⟩, fun text t ht => ?_⟩
  · rintro ⟨t, ht, hsame⟩ a c hc hempty
    exact listable_of_ofListing ht (get?_of_get?_eq_filter hsame hc hempty)
  · have hlistable : ∀ a c, t.get? a = some c → a.Within ∧ c.Listable :=
      fun a c hc => listable_of_ofListing ht hc
    exact ⟨hlistable, survives_ofListing_toListing fun a c hc _ => hlistable a c hc⟩

/-- A listing with blanks, a name in small letters, a text in quotes and a negative zero. -/
def handwritten : String :=
  "#\n b2 :\t\"#\\\"\\\\\" \r\nA1: = B2*2\nC1: -0.0"

/-- The listing `handwritten` is accepted, and what is read from it survives. -/
theorem listing_round_trip_handwritten :
    ∃ t, ofListing handwritten = .ok t ∧ t.get? ⟨1, 1⟩ = some (.ofText "#\"\\") ∧
      t.get? ⟨0, 0⟩ = some (.ofFormula (.ofSource " B2*2")) ∧
      t.Survives (ofListing t.toListing) := by
  have hread : Listing.readLines 1 (lines handwritten.toList) =
      .ok [(⟨1, 1⟩, .ofText "#\"\\"), (⟨0, 0⟩, .ofFormula (.ofSource " B2*2")),
        (⟨0, 2⟩, .ofNumber (-0.0))] := by
    decide +kernel
  have hlisting : ofListing handwritten =
      .ok (ofList [(⟨1, 1⟩, .ofText "#\"\\"), (⟨0, 0⟩, .ofFormula (.ofSource " B2*2")),
        (⟨0, 2⟩, .ofNumber (-0.0))]) := by
    rw [ofListing, hread]
    rfl
  exact ⟨_, hlisting, by decide +kernel, by decide +kernel,
    (listing_round_trip.2 _ _ hlisting).2⟩

/-! ### Formulas made of tokens -/

section Rendered

variable {text : String} {ts : List Token}

/-- The text of tokens that were scanned fits on one line. -/
theorem listable_ofSource_source (h : Token.scanStrict text = .ok ts) :
    (Cell.ofFormula (.ofSource (Token.source ts))).Listable := by
  have hblank : ∀ c ∈ (Token.source ts).toList, isBlank c = false := fun _ =>
    Token.isBlank_eq_false_of_mem_source (Token.scannable_of_scanStrict h)
  refine ⟨⟨fun hline => ?_, fun c hc => hblank c (List.mem_of_getLast? hc), rfl⟩, rfl⟩
  exact absurd (hblank _ hline) (by decide)

/-- **Which formulas survive that are made of tokens.** The tokens of a text are found again in
their own text exactly if they are renderable. Put into a cell they make a formula whose listing is
always read, as the formula of that text: with the same tokens exactly if they are renderable, and
then with the same value. -/
theorem rendered_round_trip (h : Token.scanStrict text = .ok ts) :
    (Token.scanStrict (Token.source ts) = .ok ts ↔ Token.Renderable ts) ∧
      ∀ (s : Sheet) (a : Address), a.Within →
        (∀ b c, b ≠ a → s.get? b = some c → c.isEmpty = false → b.Within ∧ c.Listable) →
        ∃ t, ofListing (s.insert a (.ofFormula (.ofTokens ts))).toListing = .ok t ∧
          (t.get? a).bind Cell.tokens? = some (Token.scan (Token.source ts)) ∧
          ((t.get? a).bind Cell.tokens? = some ts ↔ Token.Renderable ts) ∧
          (Token.Renderable ts → ∀ draw,
            t.value draw a = (s.insert a (.ofFormula (.ofTokens ts))).value draw a) := by
  refine ⟨Token.scanStrict_source_iff h, fun s a ha hs => ?_⟩
  -- The listing does not tell the tokens, so it is that of the formula of the text.
  have hlisting : (s.insert a (.ofFormula (.ofTokens ts))).toListing =
      (s.insert a (.ofFormula (.ofSource (Token.source ts)))).toListing := by
    refine toListing_congr fun b => ?_
    rw [get?_insert, get?_insert]
    split <;> rfl
  obtain ⟨t, ht, hsame⟩ := survives_ofListing_toListing
    (s := s.insert a (.ofFormula (.ofSource (Token.source ts)))) fun b c hc hempty => by
      rw [get?_insert] at hc
      split at hc
      · rename_i hba
        cases hc
        exact hba ▸ ⟨ha, listable_ofSource_source h⟩
      · rename_i hba
        exact hs b c (Ne.symm hba) hc hempty
  have hcell : t.get? a = some (.ofFormula (.ofSource (Token.source ts))) :=
    get?_of_get?_eq_filter hsame ((get?_insert ..).trans (if_pos rfl)) rfl
  have htokens : (t.get? a).bind Cell.tokens? = some (Token.scan (Token.source ts)) := by
    rw [hcell]
    rfl
  refine ⟨t, hlisting ▸ ht, htokens, ?_, fun hrenderable draw => ?_⟩
  · rw [htokens, Option.some.injEq, Token.scan_source_iff h]
  · have hformula : Formula.ofSource (Token.source ts) = .ofTokens ts := by
      rw [Formula.ofSource, (Token.scan_source_iff h).mpr hrenderable, Formula.ofTokens]
    rw [value_eq_of_content_eq (content_eq_of_get?_eq_filter hsame) draw a, hformula]

end Rendered

/-- A formula that begins with a sign. -/
def signedTokens : List Token :=
  [.number 0, .operator .subtract, .function .sum, .openBracket, .reference "A1", .separator,
    .number 2.5, .closeBracket]

/-- The tokens `signedTokens` come from a text with blanks and a decimal comma, and survive. -/
theorem rendered_round_trip_signed :
    Token.scanStrict "-Sum( A1 ; 2,5 )" = .ok signedTokens ∧
      ∃ t, ofListing ((ofList [(⟨0, 0⟩, .ofNumber 4)]).insert ⟨0, 1⟩
          (.ofFormula (.ofTokens signedTokens))).toListing = .ok t ∧
        (t.get? ⟨0, 1⟩).bind Cell.tokens? = some signedTokens := by
  have hscan : Token.scanStrict "-Sum( A1 ; 2,5 )" = .ok signedTokens := by decide +kernel
  have hnumber : ∀ b c, (ofList [(⟨0, 0⟩, .ofNumber 4)]).get? b = some c →
      b.Within ∧ c.Listable := by
    intro b c hc
    cases List.mem_singleton.mp (mem_of_get?_ofList hc)
    exact ⟨by decide, (by decide +kernel : (4 : Float).isFinite = true), rfl⟩
  obtain ⟨hstrict, hsheets⟩ := rendered_round_trip hscan
  obtain ⟨t, ht, -, htokens, -⟩ := hsheets (ofList [(⟨0, 0⟩, .ofNumber 4)]) ⟨0, 1⟩ (by decide)
    fun b c _ hc _ => hnumber b c hc
  exact ⟨hscan, t, ht, htokens.mpr (hstrict.mp (by decide +kernel))⟩

/-- Two texts whose tokens are not found again: a word that only begins with the name of a cell,
and a numeral too large for a number. -/
theorem rendered_misread :
    (Token.scanStrict "ROUND1x" = .ok [.reference "ROUND1"] ∧
        Token.scanStrict (Token.source [.reference "ROUND1"]) = .ok [.function .round1]) ∧
      Token.scanStrict (String.ofList (List.replicate 309 '9')) = .ok [.number Number.infinity] ∧
      Token.scanStrict (Token.source [.number Number.infinity]) = .error (.unknownWord "inf") := by
  refine ⟨by decide +kernel, ?_, by decide +kernel⟩
  rw [Token.scanStrict, String.toList_ofList]
  decide +kernel

/-! ### JSON -/

/-- The numbers of a sheet of storable cells are finite. -/
theorem isFinite_of_storable
    (h : ∀ a c, s.get? a = some c → c.isEmpty = false → a.Within ∧ c.Storable) {x : Float}
    (hx : x ∈ s.numbers) : x.isFinite = true := by
  obtain ⟨⟨a, c⟩, he, hxc⟩ := List.mem_flatMap.mp hx
  exact (h a c (mem_entries.mp he) (Cell.isEmpty_of_mem_numbers hxc)).2.isFinite x hxc

/-- **Which sheets survive as JSON**, provided that the finite numbers in them are kept: those
whose filled cells are storable, at addresses within the limits. Then every cell, every sequence
of tokens and every text has the value that it had, and the sheet is recalculated alike. -/
theorem json_round_trip (s : Sheet) (hkeeps : ∀ x ∈ s.numbers, x.isFinite = true → Json.Keeps x) :
    (∀ a c, s.get? a = some c → c.isEmpty = false → a.Within ∧ c.Storable) ↔
      ∃ t, ofJsonText s.toJsonText = .ok t ∧
        (∀ a, t.get? a = (s.get? a).filter fun c => !c.isEmpty) ∧
        ∀ draw, (∀ a, t.value draw a = s.value draw a) ∧
          (∀ ts, t.valueOf draw ts = s.valueOf draw ts) ∧
          (∀ text, t.valueOfText draw text = s.valueOfText draw text) ∧
          t.recalculate draw = s.recalculate draw := by
  constructor
  · intro h
    obtain ⟨t, ht, hsame⟩ := survives_ofJsonText_toJsonText
      (fun a c hc hempty => ⟨(h a c hc hempty).1, (h a c hc hempty).2.references⟩)
      (fun x hx => hkeeps x hx (isFinite_of_storable h hx))
    have hcontent := content_eq_of_get?_eq_filter hsame
    exact ⟨t, ht, hsame, fun draw => ⟨value_eq_of_content_eq hcontent draw,
      valueOf_eq_of_content_eq hcontent draw,
      fun text => valueOf_eq_of_content_eq hcontent draw _,
      recalculate_eq_of_content_eq hcontent draw⟩⟩
  · rintro ⟨t, ht, hsame, -⟩ a c hc hempty
    obtain ⟨ha, hrefs⟩ :=
      within_and_references_of_ofJsonText ht (get?_of_get?_eq_filter hsame hc hempty)
    exact ⟨ha, fun x hx => isFinite_of_ofJsonText ht
      (List.mem_flatMap.mpr ⟨(a, c), mem_entries.mpr hc, hx⟩), hrefs⟩

/-- A sheet with a formula whose tokens have nothing to do with its text, and with a control
character and a negative zero. -/
def mismatched : Sheet :=
  .ofList [(⟨0, 0⟩, .ofFormula ⟨"\u0001\"=\\\n", [.number (-0.0), .reference "b2", .text "é"]⟩),
    (⟨1, 1⟩, .ofNumber 1e300), (⟨0, 1⟩, .ofText ""), (⟨2, 2⟩, .empty)]

/-- The sheet `mismatched` survives, and its cells keep their values. -/
theorem json_round_trip_mismatched :
    (∀ x ∈ mismatched.numbers, x.isFinite = true → Json.Keeps x) ∧
      ∃ t, ofJsonText mismatched.toJsonText = .ok t ∧
        t.get? ⟨0, 0⟩ = mismatched.get? ⟨0, 0⟩ ∧ t.get? ⟨2, 2⟩ = none ∧
        ∀ draw a, t.value draw a = mismatched.value draw a := by
  have hkeeps : ∀ x ∈ mismatched.numbers, x.isFinite = true → Json.Keeps x := by
    decide +kernel
  have hentries : ∀ e ∈ mismatched.entries, e.2.isEmpty = false → e.1.Within ∧ e.2.Storable := by
    decide +kernel
  obtain ⟨t, ht, hsame, hvalues⟩ := (json_round_trip mismatched hkeeps).mp
    fun a c hc => hentries (a, c) (mem_entries.mpr hc)
  refine ⟨hkeeps, t, ht, ?_, ?_, fun draw => (hvalues draw).1⟩
  · rw [hsame]
    decide +kernel
  · rw [hsame]
    decide +kernel

end Sheet

end Spreadsheet
