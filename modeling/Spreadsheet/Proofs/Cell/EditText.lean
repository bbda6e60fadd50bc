import Spreadsheet.Proofs.Sheet.Listing

/-!
# Typing the Text of a Cell Again

A cell is edited as a text, and whoever confirms that text without touching it types it again.
Numbers and formulas come back from their texts, and so does a text that was typed without quotes.
A text in quotes loses them: its cell is edited as what stood between them. If that would not be
taken for a text by itself, the cell is no longer what it was. A quoted numeral becomes a number,
a quoted formula is evaluated, and blanks at the ends are gone.

This is the only way in which a cell is lost (`Cell.ofTyped_editText_iff`).

## Main definitions

* `Cell.NeedsQuotes`: the texts that are not taken for themselves.

## Main results

* `Cell.ofTyped_eq_ofText_iff`: which texts are taken for themselves.
* `Cell.ofTyped_editText_iff`: which cells survive being edited.
-/

namespace Spreadsheet

variable {cs : List Char}

/-- What a listing does not read as a text is typed as it is listed. -/
theorem Listing.ofTrimmed_of_readValue {c : Cell} (h : readValue cs = .ok c)
    (hc : ∀ s, c.content ≠ .text s) : Cell.ofTrimmed cs = c := by
  rw [readValue.eq_def] at h
  split at h
  · exact Except.ok.inj h
  · exact Except.ok.inj h
  · rename_i hnil hequals
    rw [Cell.ofTrimmed.eq_3 cs hnil hequals]
    cases hinner : Quoted.inner? cs with
    | some content =>
        simp only [hinner] at h
        obtain rfl := Except.ok.inj h
        exact absurd rfl (hc _)
    | none =>
        simp only [hinner] at h
        cases hread : (Number.read? cs).filter Float.isFinite with
        | some x =>
            simp only [hread] at h
            exact Except.ok.inj h
        | none => simp [hread] at h

namespace Cell

/-! ### Texts -/

/-- A text **needs quotes** if it is not taken for itself: it is empty or has blanks at its ends,
it begins as a formula, it stands in quotes already, or it is the numeral of a finite number. -/
def NeedsQuotes (cs : List Char) : Prop :=
  cs = [] ∨ trim cs ≠ cs ∨ cs.head? = some '=' ∨ (Quoted.inner? cs).isSome ∨
    ∃ x, Number.read? cs = some x ∧ x.isFinite = true

/-- A text without blanks at its ends is taken for itself or for what stands in its quotes. -/
theorem eq_or_of_ofTrimmed_eq_ofText {s : String} (h : ofTrimmed cs = ofText s) :
    cs = s.toList ∨ Quoted.inner? cs = some s.toList := by
  rw [ofTrimmed.eq_def] at h
  split at h
  · simp [empty, ofText] at h
  · simp [ofFormula, ofText] at h
  · split at h
    · rename_i content hinner
      simp only [ofText, Cell.mk.injEq, Content.text.injEq, and_true] at h
      rw [← h, String.toList_ofList]
      exact Or.inr hinner
    · split at h
      · simp [ofNumber, ofText] at h
      · simp only [ofText, Cell.mk.injEq, Content.text.injEq, and_true] at h
        rw [← h, String.toList_ofList]
        exact Or.inl rfl

/-- A text that needs no quotes makes its own cell. -/
theorem ofTrimmed_of_not_needsQuotes (h : ¬ NeedsQuotes cs) :
    ofTrimmed cs = ofText (String.ofList cs) := by
  simp only [NeedsQuotes, not_or, not_exists, not_and] at h
  obtain ⟨hnil, -, hequals, hinner, hread⟩ := h
  rw [ofTrimmed.eq_def]
  split
  · exact absurd rfl hnil
  · exact absurd rfl hequals
  · rw [Option.not_isSome_iff_eq_none] at hinner
    simp only [hinner]
    split
    · rename_i x hx
      obtain ⟨hx, hfinite⟩ := Option.filter_eq_some_iff.mp hx
      exact absurd hfinite (hread x hx)
    · rfl

/-- What stands between quotes is shorter than the text in quotes. -/
theorem inner?_ne_self : Quoted.inner? cs ≠ some cs := by
  intro h
  have hlength := congrArg List.length (Quoted.eq_of_inner? h)
  simp only [List.length_cons, List.length_append, List.length_nil] at hlength
  omega

/-- A text that needs quotes, though it has no blanks at its ends, does not make its own cell. -/
theorem ofTrimmed_ne_of_needsQuotes (hneeds : NeedsQuotes cs) (htrim : trim cs = cs) :
    ofTrimmed cs ≠ ofText (String.ofList cs) := by
  intro h
  rw [ofTrimmed.eq_def] at h
  split at h
  · simp [empty, ofText] at h
  · simp [ofFormula, ofText] at h
  · rename_i hnil hequals
    split at h
    · rename_i content hinner
      simp only [ofText, Cell.mk.injEq, Content.text.injEq, String.ofList_inj, and_true] at h
      exact inner?_ne_self (h ▸ hinner)
    · rename_i hinner
      split at h
      · simp [ofNumber, ofText] at h
      · rename_i hread
        rcases hneeds with rfl | hne | hhead | hquoted | ⟨x, hx, hfinite⟩
        · exact hnil rfl
        · exact hne htrim
        · obtain ⟨source, rfl⟩ := List.head?_eq_some_iff.mp hhead
          exact hequals source rfl
        · simp [hinner] at hquoted
        · simp [hx, hfinite] at hread

/-- **Which texts are taken for themselves**: those that need no quotes. -/
theorem ofTyped_eq_ofText_iff (s : String) : ofTyped s = ofText s ↔ ¬ NeedsQuotes s.toList := by
  constructor
  · intro h hneeds
    rw [ofTyped] at h
    have hsub : (trim s.toList).Sublist s.toList := sublist_trim s.toList
    rcases eq_or_of_ofTrimmed_eq_ofText h with htrim | hinner
    · refine ofTrimmed_ne_of_needsQuotes hneeds htrim ?_
      rw [String.ofList_toList, ← h, htrim]
    · -- What is typed would have to be longer than itself, with the quotes around it.
      have hlonger := congrArg List.length (Quoted.eq_of_inner? hinner)
      have hle := hsub.length_le
      simp only [List.length_cons, List.length_append, List.length_nil] at hlonger
      omega
  · intro h
    have htrim : trim s.toList = s.toList := by
      by_contra hne
      exact h (Or.inr (Or.inl hne))
    rw [ofTyped, htrim, ofTrimmed_of_not_needsQuotes h, String.ofList_toList]

/-! ### Cells -/

/-- A finite number is typed again by its text. -/
theorem ofTyped_editText_ofNumber {x : Float} (h : x.isFinite = true) :
    ofTyped (ofNumber x).editText = ofNumber x := by
  have hlistable : (ofNumber x).Listable := ⟨h, rfl⟩
  have hvalue : Listing.value? (ofNumber x).content = some (Number.plainChars x) := rfl
  have htrim := trim_of_trimmed (Listing.trimmed_value hlistable.content hvalue).1
  have hedit : (ofNumber x).editText.toList = Number.plainChars x := String.toList_ofList
  have hread := Listing.readValue_value hlistable hvalue
  rw [ofTyped, hedit, htrim]
  exact Listing.ofTrimmed_of_readValue hread fun s => by simp [ofNumber]

/-- A cell that was typed without quotes is typed again by its text. -/
theorem ofTyped_editText_of_inner? {input : String}
    (h : Quoted.inner? (trim input.toList) = none) :
    ofTyped (ofTyped input).editText = ofTyped input := by
  have htrimmed := trimmed_trim input.toList
  have hagain := trim_of_trimmed htrimmed
  rw [ofTyped.eq_def input]
  generalize trim input.toList = cs at h htrimmed hagain
  rw [ofTrimmed.eq_def]
  split
  · rfl
  · rename_i source
    have hedit : (ofFormula (.ofSource (String.ofList source))).editText.toList =
        '=' :: source := by
      simp [editText, ofFormula, Formula.ofSource]
    rw [ofTyped, hedit, hagain, ofTrimmed]
  · rename_i hnil hequals
    simp only [h]
    split
    · rename_i x hx
      obtain ⟨-, hfinite⟩ := Option.filter_eq_some_iff.mp hx
      exact ofTyped_editText_ofNumber hfinite
    · rename_i hread
      have hedit : (ofText (String.ofList cs)).editText.toList = cs := String.toList_ofList
      rw [ofTyped, hedit, hagain, ofTrimmed.eq_3 cs hnil hequals, h]
      simp only [hread]

/-- **Which cells survive being edited**: typing the text of a cell again makes the same cell,
unless the cell was typed as a text in quotes that needs them. -/
theorem ofTyped_editText_iff (input : String) :
    ofTyped (ofTyped input).editText = ofTyped input ↔
      ∀ inner, Quoted.inner? (trim input.toList) = some inner → ¬ NeedsQuotes inner := by
  cases hinner : Quoted.inner? (trim input.toList) with
  | none => simp [ofTyped_editText_of_inner? hinner]
  | some inner =>
      have hcell : ofTyped input = ofText (String.ofList inner) := by
        rw [ofTyped, Quoted.eq_of_inner? hinner, ofTrimmed, Quoted.inner?_enclosed]
        all_goals simp
      have hedit : (ofText (String.ofList inner)).editText = String.ofList inner := rfl
      rw [hcell, hedit, ofTyped_eq_ofText_iff, String.toList_ofList]
      simp

/-- A numeral in quotes is a text, but when that text is confirmed it becomes a number. -/
theorem ofTyped_editText_numeral :
    ofTyped (ofTyped "\"42\"").editText ≠ ofTyped "\"42\"" ∧
      ofTyped "\"42\"" = ofText "42" ∧
      ofTyped (ofTyped "\"42\"").editText = ofNumber 42 := by
  decide +kernel

end Cell

end Spreadsheet
