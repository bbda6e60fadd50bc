import Spreadsheet.Proofs.Json.Sheet
import Spreadsheet.Proofs.Sheet.Listing
import Spreadsheet.Proofs.Workbook.Edits

/-!
# Saved Workbooks

What is typed into a workbook ought to come back when the workbook is saved and loaded again. Of
the two ways to save, each loses something, and what it loses is all that it loses.

A listing is cut into lines before anything else is done with it, and neither a text nor a formula
is protected from that: a line feed in one of them ends its line, and what follows is read as the
line of another cell, or as none. All other characters come back
(`Workbook.survives_listing_iff`).

JSON protects line feeds, but it has no notation for a number that is not finite. A typed number
is always finite, for else it counts as a text; the numerals of a formula are not looked at in
that way, so one that is too large puts a token into the sheet that no reader accepts
(`Workbook.survives_json_iff`). Here it is taken for granted that finite numbers are kept.

## Main results

* `Cell.listable_ofTyped`: a typed cell without a line feed is listable.
* `Workbook.survives_listing_iff`: which workbooks survive as listings.
* `Workbook.survives_json_iff`: which workbooks survive as JSON.
-/

namespace Spreadsheet

/-! ### Listings -/

namespace Cell

variable {c : Cell}

/-- A typed cell without a line feed in its text is listable. -/
theorem listable_ofTyped {input : String} (h : '\n' ∉ (ofTyped input).editText.toList) :
    (ofTyped input).Listable := by
  refine ⟨?_, references_ofTyped input⟩
  rw [ofTyped] at h ⊢
  have htrim := trimmed_trim input.toList
  generalize trim input.toList = cs at htrim h
  rw [ofTrimmed.eq_def] at h ⊢
  split
  · trivial
  · rename_i source
    have hsource : (Formula.ofSource (String.ofList source)).source.toList = source :=
      String.toList_ofList
    refine ⟨?_, fun d hd => ?_, rfl⟩
    · intro hline
      have hedit : '\n' ∉ ("=" ++ (Formula.ofSource (String.ofList source)).source).toList := h
      rw [String.toList_append] at hedit
      exact hedit (List.mem_append_right _ hline)
    · rw [hsource] at hd
      refine htrim.last d ?_
      rw [List.getLast?_cons, hd]
      rfl
  · split
    · rename_i hinner
      simp only [hinner] at h
      exact h
    · rename_i hinner
      simp only [hinner] at h
      split
      · rename_i x hx
        exact (Option.filter_eq_some_iff.mp hx).2
      · rename_i hx
        simp only [hx] at h
        exact h

/-- A listable cell has no line feed in its text. -/
theorem Listable.not_mem_editText (h : c.Listable) : '\n' ∉ c.editText.toList := by
  obtain ⟨content, references⟩ := c
  have hcontent := h.content
  cases content with
  | empty => exact List.not_mem_nil
  | text s => exact hcontent
  | number x =>
      intro hline
      have hplain : '\n' ∈ (String.ofList (Number.plainChars x)).toList := hline
      rw [String.toList_ofList] at hplain
      rcases Number.mem_plainChars hcontent hplain with hdigit | hminus | hpoint
      · cases hdigit
      · cases hminus
      · cases hpoint
  | formula f =>
      intro hline
      have hsource : '\n' ∈ ("=" ++ f.source).toList := hline
      rw [String.toList_append] at hsource
      rcases List.mem_append.mp hsource with heq | hsource
      · revert heq
        decide
      · exact hcontent.1 hsource

end Cell

namespace Workbook

/-- **Which workbooks survive as listings.** A workbook that comes about by edits survives being
listed exactly if its cells are at addresses within the limits, and if there is no line feed in
the texts under which they are edited. -/
theorem survives_listing_iff (edits : List Edit) :
    (ofEdits edits).sheet.Survives (Sheet.ofListing (ofEdits edits).sheet.toListing) ↔
      ∀ a c, (ofEdits edits).sheet.get? a = some c → c.isEmpty = false →
        a.Within ∧ '\n' ∉ c.editText.toList := by
  constructor
  · rintro ⟨t, ht, hsame⟩ a c hc hempty
    have hread : t.get? a = some c := by
      rw [hsame, hc]
      simp [hempty]
    obtain ⟨ha, hlistable⟩ := Sheet.listable_of_ofListing ht hread
    exact ⟨ha, hlistable.not_mem_editText⟩
  · intro h
    refine Sheet.survives_ofListing_toListing fun a c hc hempty => ?_
    obtain ⟨ha, hline⟩ := h a c hc hempty
    obtain ⟨input, rfl⟩ := exists_eq_ofTyped hc
    exact ⟨ha, Cell.listable_ofTyped hline⟩

/-- A line feed in one formula makes another cell: typed into a single cell, the text has a
listing that is read without a fault as two cells. -/
theorem listing_splits_cell :
    ∃ t, Sheet.ofListing (ofEdits [.set ⟨0, 0⟩ "=A2\nB1: =C3"]).sheet.toListing = .ok t ∧
      (ofEdits [.set ⟨0, 0⟩ "=A2\nB1: =C3"]).sheet.get? ⟨0, 1⟩ = none ∧
      t.get? ⟨0, 0⟩ = some (.ofTyped "=A2") ∧ t.get? ⟨0, 1⟩ = some (.ofTyped "=C3") := by
  have hlisting : (ofEdits [.set ⟨0, 0⟩ "=A2\nB1: =C3"]).sheet.toListing =
      "# Cellcalc Spreadsheet\nA1: =A2\nB1: =C3\n" := by
    decide +kernel
  have hread : Listing.readLines 1 (lines "# Cellcalc Spreadsheet\nA1: =A2\nB1: =C3\n".toList) =
      .ok [(⟨0, 0⟩, .ofTyped "=A2"), (⟨0, 1⟩, .ofTyped "=C3")] := by
    decide +kernel
  refine ⟨Sheet.ofList [(⟨0, 0⟩, .ofTyped "=A2"), (⟨0, 1⟩, .ofTyped "=C3")], ?_, ?_, ?_, ?_⟩
  · rw [hlisting, Sheet.ofListing, hread]
    rfl
  · decide +kernel
  · decide +kernel
  · decide +kernel

end Workbook

/-! ### JSON -/

namespace Cell

variable {c : Cell} {input : String} {x : Float}

/-- The numbers in the tokens of a formula are numbers of its cell. -/
theorem mem_numbers_of_mem_tokens (h : x ∈ (c.tokens?.getD []).filterMap Token.number?) :
    x ∈ c.content.numbers := by
  obtain ⟨content, references⟩ := c
  cases content with
  | formula f => exact h
  | _ => cases h

/-- A cell into which a number is typed holds a finite one. -/
theorem isFinite_of_content_ofTyped (h : (ofTyped input).content = .number x) :
    x.isFinite = true := by
  rw [ofTyped, ofTrimmed.eq_def] at h
  split at h
  · cases h
  · cases h
  · split at h
    · cases h
    · split at h
      · rename_i hread
        cases h
        exact (Option.filter_eq_some_iff.mp hread).2
      · cases h

/-- Only the tokens of a formula can bring a number that is not finite into a typed cell. -/
theorem isFinite_of_mem_numbers_ofTyped
    (htokens : ∀ x ∈ ((ofTyped input).tokens?.getD []).filterMap Token.number?, x.isFinite = true)
    (hx : x ∈ (ofTyped input).content.numbers) : x.isFinite = true := by
  cases hcontent : (ofTyped input).content with
  | empty =>
      rw [hcontent] at hx
      cases hx
  | text s =>
      rw [hcontent] at hx
      cases hx
  | number y =>
      rw [hcontent] at hx
      obtain rfl := List.mem_singleton.mp hx
      exact isFinite_of_content_ofTyped hcontent
  | formula f =>
      rw [hcontent] at hx
      refine htokens x ?_
      rw [tokens?, hcontent]
      exact hx

end Cell

namespace Workbook

/-- **Which workbooks survive as JSON**, provided that the finite numbers in them are kept: those
with cells at addresses within the limits and without a numeral in a formula that is too large
for a number. -/
theorem survives_json_iff (edits : List Edit)
    (hkeeps : ∀ x ∈ (ofEdits edits).sheet.numbers, x.isFinite = true → Json.Keeps x) :
    (ofEdits edits).sheet.Survives (Sheet.ofJsonText (ofEdits edits).sheet.toJsonText) ↔
      ∀ a c, (ofEdits edits).sheet.get? a = some c → c.isEmpty = false →
        a.Within ∧ ∀ x ∈ (c.tokens?.getD []).filterMap Token.number?, x.isFinite = true := by
  constructor
  · rintro ⟨t, ht, hsame⟩ a c hc hempty
    have hread : t.get? a = some c := by
      rw [hsame, hc]
      simp [hempty]
    refine ⟨Sheet.within_of_ofJsonText ht hread, fun x hx => ?_⟩
    have hxc : x ∈ c.content.numbers := Cell.mem_numbers_of_mem_tokens hx
    exact Sheet.isFinite_of_ofJsonText ht
      (List.mem_flatMap.mpr ⟨(a, c), Sheet.mem_entries.mpr hc, hxc⟩)
  · intro h
    have hfinite : ∀ x ∈ (ofEdits edits).sheet.numbers, x.isFinite = true := by
      intro x hx
      obtain ⟨⟨a, c⟩, he, hxc⟩ := List.mem_flatMap.mp hx
      have hc := Sheet.mem_entries.mp he
      have hempty : c.isEmpty = false := by
        refine decide_eq_false fun hempty => ?_
        rw [hempty] at hxc
        cases hxc
      obtain ⟨input, rfl⟩ := exists_eq_ofTyped hc
      exact Cell.isFinite_of_mem_numbers_ofTyped (h a _ hc hempty).2 hxc
    refine Sheet.survives_ofJsonText_toJsonText (fun a c hc hempty => ?_)
      (fun x hx => hkeeps x hx (hfinite x hx))
    obtain ⟨input, rfl⟩ := exists_eq_ofTyped hc
    exact ⟨(h a _ hc hempty).1, Cell.references_ofTyped input⟩

/-- A number and a formula with a number survive. -/
theorem survives_json_sample :
    (∀ x ∈ (ofEdits [.set ⟨0, 0⟩ "5", .set ⟨0, 1⟩ "=A1+2.5"]).sheet.numbers,
      x.isFinite = true → Json.Keeps x) ∧
    (ofEdits [.set ⟨0, 0⟩ "5", .set ⟨0, 1⟩ "=A1+2.5"]).sheet.Survives
      (Sheet.ofJsonText (ofEdits [.set ⟨0, 0⟩ "5", .set ⟨0, 1⟩ "=A1+2.5"]).sheet.toJsonText) := by
  have hkeeps : ∀ x ∈ (ofEdits [.set ⟨0, 0⟩ "5", .set ⟨0, 1⟩ "=A1+2.5"]).sheet.numbers,
      x.isFinite = true → Json.Keeps x := by
    decide +kernel
  have hentries : ∀ e ∈ (ofEdits [.set ⟨0, 0⟩ "5", .set ⟨0, 1⟩ "=A1+2.5"]).sheet.entries,
      e.2.isEmpty = false → e.1.Within ∧
        ∀ x ∈ (e.2.tokens?.getD []).filterMap Token.number?, x.isFinite = true := by
    decide +kernel
  exact ⟨hkeeps, (survives_json_iff _ hkeeps).mpr fun a c hc =>
    hentries (a, c) (Sheet.mem_entries.mpr hc)⟩

/-- A numeral too large for a number. -/
def overlong : List Char :=
  List.replicate 309 '9'

/-- There are no blanks around the overlong formula. -/
theorem trim_overlong : trim ('=' :: overlong) = '=' :: overlong := by
  decide +kernel

/-- The overlong numeral is read as infinity. -/
theorem scanChars_overlong : Token.scanChars overlong = [.number Number.infinity] := by
  decide +kernel

/-- The overlong formula is stored with infinity for its only token. -/
theorem ofTyped_overlong : Cell.ofTyped (String.ofList ('=' :: overlong)) =
    .ofFormula ⟨String.ofList overlong, [.number Number.infinity]⟩ := by
  rw [Cell.ofTyped, String.toList_ofList, trim_overlong, Cell.ofTrimmed, Formula.ofSource,
    Token.scan, String.toList_ofList, scanChars_overlong]

/-- A numeral that is too large for a number makes the whole workbook unreadable. -/
theorem json_refuses_overlong :
    ¬ ∃ t, Sheet.ofJsonText
      (ofEdits [.set ⟨0, 0⟩ (String.ofList ('=' :: overlong))]).sheet.toJsonText = .ok t := by
  rintro ⟨t, ht⟩
  have hrefs : (Cell.ofTyped (String.ofList ('=' :: overlong))).references = [] := by
    rw [ofTyped_overlong]
    rfl
  rw [sheet_ofEdits_set hrefs] at ht
  have hentry : (⟨0, 0⟩, Cell.ofTyped (String.ofList ('=' :: overlong))) ∈
      (Sheet.empty.insert ⟨0, 0⟩ (Cell.ofTyped (String.ofList ('=' :: overlong)))).entries :=
    Sheet.mem_entries.mpr ((Sheet.get?_insert ..).trans (if_pos rfl))
  have hnumber : Number.infinity ∈
      (Cell.ofTyped (String.ofList ('=' :: overlong))).content.numbers := by
    rw [ofTyped_overlong]
    exact List.mem_singleton_self _
  have hfinite : Number.infinity.isFinite = true :=
    Sheet.isFinite_of_ofJsonText ht (List.mem_flatMap.mpr ⟨_, hentry, hnumber⟩)
  revert hfinite
  decide +kernel

end Workbook

end Spreadsheet
