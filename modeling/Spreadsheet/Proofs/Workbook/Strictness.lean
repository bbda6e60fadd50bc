import Spreadsheet.Proofs.Workbook.Edits

/-!
# What Strictness Changes

A strict workbook refuses formulas with unknown words, and that is all: what it accepts means what
it means to a permissive workbook (`Workbook.strict_only_refuses`). The two go different ways,
though. A permissive workbook scans a typed text with its cell, and a text that is evaluated
without being stored it passes on to the sheet, where blanks and an equals sign in front are taken
off once more. A text that this could make a difference to begins with an equals sign even after
the first one has been taken off. Its first word is unknown then, and it is refused by a strict
workbook.

## Main definitions

* `Workbook.tokensOfText`: the tokens that are evaluated for a text.

## Main results

* `Workbook.valueOfText_eq`: the value of a text is that of its tokens.
* `Workbook.tokensOfText_strict`: strictly, a text has the same tokens or is refused.
* `Workbook.strict_only_refuses`: strictness changes no meaning.
-/

namespace Spreadsheet.Workbook

variable {w : Workbook} {text : String}

/-! ### Formulas that are evaluated -/

/-- The tokens that are evaluated for a text. Blanks at its ends and an equals sign in front do not
count; for a permissive workbook, a second equals sign does not count either. -/
def tokensOfText (w : Workbook) (text : String) : Except FormulaError (List Token) :=
  let cs := match trim text.toList with
    | '=' :: rest => rest
    | cs => cs
  if w.strict then Token.scanStrict (String.ofList cs)
  else .ok <| Token.scanChars <|
    match trimStart cs with
    | '=' :: rest => rest
    | cs => cs

/-- **The value of a text is that of its tokens.** -/
theorem valueOfText_eq (w : Workbook) (draw : Float) (text : String) :
    w.valueOfText draw text =
      ((w.tokensOfText text).bind (w.sheet.valueOf draw)).mapError .formula := by
  rw [valueOfText, tokensOfText]
  generalize trim text.toList = cs
  cases w.strict with
  | true => rfl
  | false =>
      simp only [Bool.false_eq_true, if_false, Sheet.valueOfText, evaluateText,
        String.toList_ofList]
      rfl

/-- A text has no tokens only because of an unknown word. -/
theorem tokensOfText_eq_error {e : FormulaError} (h : w.tokensOfText text = .error e) :
    ∃ word, e = .unknownWord word := by
  rw [tokensOfText] at h
  generalize (match trim text.toList with | '=' :: rest => rest | cs => cs) = cs at h
  split at h
  · exact Token.scanStrict_eq_error h
  · cases h

/-- The tokens that a text has are scanned from the text or from a part of it. -/
theorem exists_scanChars_of_tokensOfText {ts : List Token} (h : w.tokensOfText text = .ok ts) :
    ∃ cs, ts = Token.scanChars cs := by
  rw [tokensOfText] at h
  generalize (match trim text.toList with | '=' :: rest => rest | cs => cs) = cs at h
  split at h
  · exact ⟨_, (Token.scan_of_scanStrict_eq_ok h).symm⟩
  · cases h
    exact ⟨_, rfl⟩

/-- Strictly, a text has the tokens that it has otherwise, or it is refused. -/
theorem tokensOfText_strict (w : Workbook) (text : String) :
    (∃ word, tokensOfText { w with strict := true } text = .error (.unknownWord word)) ∨
      tokensOfText { w with strict := true } text =
        tokensOfText { w with strict := false } text := by
  rw [tokensOfText, tokensOfText, if_pos rfl, if_neg Bool.false_ne_true]
  generalize (match trim text.toList with | '=' :: rest => rest | cs => cs) = cs
  cases hscan : Token.scanStrict (String.ofList cs) with
  | error e =>
      obtain ⟨word, rfl⟩ := Token.scanStrict_eq_error hscan
      exact Or.inl ⟨word, rfl⟩
  | ok ts =>
      refine Or.inr (congrArg Except.ok ?_)
      have htokens : Token.scanChars cs = ts := by
        rw [← Token.scan_of_scanStrict_eq_ok hscan, Token.scan, String.toList_ofList]
      split
      · -- The second equals sign would have made the first word unknown.
        rename_i rest hequals
        have hrefused := Token.exists_unknownWord_of_equals (s := String.ofList cs)
          (by rw [String.toList_ofList]; exact hequals)
        obtain ⟨word, hword⟩ := hrefused
        rw [hscan] at hword
        cases hword
      · rw [Token.scanChars_trimStart, htokens]

/-! ### Formulas that are typed -/

/-- Of a typed text, a strict workbook makes the cell that it always makes, or refuses it. -/
theorem cellOfTyped_strict (w : Workbook) (input : String) :
    (∃ word, cellOfTyped { w with strict := true } input = .error (.unknownWord word)) ∨
      cellOfTyped { w with strict := true } input =
        cellOfTyped { w with strict := false } input := by
  cases hcell : cellOfTyped { w with strict := true } input with
  | ok c => exact Or.inr (congrArg Except.ok (eq_ofTyped_of_cellOfTyped_eq_ok hcell))
  | error e =>
      rw [cellOfTyped] at hcell
      split at hcell
      · rename_i source _ _
        dsimp only at hcell
        cases hscan : Token.scanStrict (String.ofList source) with
        | ok ts =>
            rw [hscan] at hcell
            cases hcell
        | error e' =>
            rw [hscan] at hcell
            cases hcell
            obtain ⟨word, rfl⟩ := Token.scanStrict_eq_error hscan
            exact Or.inl ⟨word, rfl⟩
      · cases hcell

/-! ### Strict and permissive workbooks -/

/-- **Strictness only refuses; it never changes a meaning.** A text is scanned strictly to the
tokens that it always has, unless a word is left out that is no token; then it is refused because
of the first such word. So a strict workbook refuses what is typed into a cell and stays as it was,
or it accepts or refuses it for a cycle as a permissive one does and has the same sheet afterwards.
A formula that is evaluated has the same value or the same error, unless it is refused. -/
theorem strict_only_refuses :
    (∀ s : String, Token.scanStrict s =
      match (Scan.words (Scan.normalForm s.toList)).find? fun w => (Scan.token? w).isNone with
      | some word => .error (.unknownWord (String.ofList word))
      | none => .ok (Token.scan s)) ∧
    (∀ (w : Workbook) (a : Address) (input : String),
      (∃ word, set { w with strict := true } a input =
          (.error (.formula (.unknownWord word)), { w with strict := true })) ∨
        set { w with strict := true } a input =
          ((set { w with strict := false } a input).1,
            { (set { w with strict := false } a input).2 with strict := true })) ∧
    ∀ (w : Workbook) (draw : Float) (text : String),
      (∃ word, valueOfText { w with strict := true } draw text =
          .error (.formula (.unknownWord word))) ∨
        valueOfText { w with strict := true } draw text =
          valueOfText { w with strict := false } draw text := by
  refine ⟨Token.scanStrict_eq, fun w a input => ?_, fun w draw text => ?_⟩
  · rcases cellOfTyped_strict w input with ⟨word, hword⟩ | hcell
    · exact Or.inl ⟨word, by rw [Workbook.set, hword]⟩
    · refine Or.inr ?_
      rw [Workbook.set, Workbook.set, hcell]
      cases cellOfTyped { w with strict := false } input with
      | error e => rfl
      | ok c =>
          dsimp only
          split <;> rfl
  · rw [valueOfText_eq, valueOfText_eq]
    rcases tokensOfText_strict w text with ⟨word, hword⟩ | htokens
    · exact Or.inl ⟨word, by rw [hword]; rfl⟩
    · exact Or.inr (by rw [htokens])

end Spreadsheet.Workbook
