import Spreadsheet.Formula.Evaluation
import Spreadsheet.Proofs.Outcome
import Spreadsheet.Proofs.Text.Trimming

/-!
# Blanks, Equals Signs and Unknown Words

The tokens of a text are those of its words, and a word that is none is left out. Scanned
strictly, a text is refused because of the first such word, and otherwise it has the tokens that it
always has (`Token.scanStrict_eq`). Blanks make no difference to the words.

An equals sign is no part of any token. A text that begins with one, after blanks perhaps, begins
with a word that is left out, and is therefore refused when it is scanned strictly
(`Token.exists_unknownWord_of_equals`).

## Main results

* `Token.scanStrict_eq`: strict scanning finds the same tokens or the first unknown word.
* `Token.scanChars_eq_of_filter_eq`: blanks make no difference to tokens.
* `Token.exists_unknownWord_of_equals`: a text with an equals sign in front is refused.
* `evaluateText_eq`: a text without an equals sign in front is evaluated as it stands.
-/

namespace Spreadsheet

/-! ### Words that begin with an equals sign -/

namespace Scan

/-- The first word of a text begins with its first character. -/
theorem exists_attach_eq_cons (c : Char) (ws : List (List Char)) :
    ∃ ds rest, attach c ws = (c :: ds) :: rest := by
  rw [attach.eq_def]
  split
  · split
    · exact ⟨_, _, rfl⟩
    · exact ⟨_, _, rfl⟩
  · exact ⟨_, _, rfl⟩

/-- No token begins with an equals sign. -/
theorem token?_equals (cs : List Char) : token? ('=' :: cs) = none := by
  have hname : ∀ f : Builtin, f.name.toList.head? ≠ some '=' := by
    intro f
    cases f <;> decide
  have hoperator : Operator.ofChars? ('=' :: cs) = none := by
    cases cs <;> rfl
  have hpunctuation : punctuation? ('=' :: cs) = none := by
    cases cs <;> rfl
  have hfunction : Builtin.ofChars? ('=' :: cs) = none := by
    refine List.find?_eq_none.mpr fun f _ hf => hname f ?_
    rw [of_decide_eq_true hf]
    rfl
  rw [token?, hoperator, hpunctuation, hfunction]
  rfl

/-- The first word of a text that begins with an equals sign, after blanks perhaps, is no token. -/
theorem exists_words_of_equals {cs rest : List Char} (h : trimStart cs = '=' :: rest) :
    ∃ word ws, words (normalForm cs) = word :: ws ∧ token? word = none := by
  have hfilter : cs.filter (fun c => !isBlank c) = '=' :: rest.filter fun c => !isBlank c := by
    rw [← filter_trimStart, h]
    rfl
  obtain ⟨ds, ws, hws⟩ := exists_attach_eq_cons '='
    (words (adjust (some '=') (rest.filter fun c => !isBlank c)))
  rw [normalForm, hfilter]
  exact ⟨_, ws, hws, token?_equals ds⟩

end Scan

/-! ### Scanning -/

namespace Token

variable {cs ds : List Char} {s : String}

/-- **Strict scanning only refuses.** A text that has an unknown word is refused because of the
first one, and any other text has the tokens that it always has. -/
theorem scanStrict_eq (s : String) :
    scanStrict s =
      match (Scan.words (Scan.normalForm s.toList)).find? fun w => (Scan.token? w).isNone with
      | some word => .error (.unknownWord (String.ofList word))
      | none => .ok (scan s) := by
  rw [scanStrict, scan, scanChars]
  generalize Scan.words (Scan.normalForm s.toList) = words
  induction words with
  | nil => rfl
  | cons word words ih =>
      rw [List.mapM_cons, ih]
      cases hword : Scan.token? word with
      | none =>
          rw [List.find?_cons_of_pos (by rw [hword]; rfl)]
          rfl
      | some t =>
          rw [List.find?_cons_of_neg (by simp [hword]), List.filterMap_cons_some hword]
          cases words.find? fun w => (Scan.token? w).isNone <;> rfl

/-- A text is scanned strictly if each of its words is a token. -/
theorem scanStrict_eq_ok_iff {ts : List Token} :
    scanStrict s = .ok ts ↔
      List.Forall₂ (fun w t => Scan.token? w = some t)
        (Scan.words (Scan.normalForm s.toList)) ts := by
  rw [scanStrict, mapM_eq_ok_iff]
  constructor
  · refine List.Forall₂.imp fun w t hw => ?_
    split at hw
    · rename_i u hu
      rw [hu, Except.ok.inj hw]
    · cases hw
  · refine List.Forall₂.imp fun w t hw => ?_
    rw [hw]

/-- A text that is scanned without an unknown word has the tokens that it always has. -/
theorem scan_of_scanStrict_eq_ok {ts : List Token} (h : scanStrict s = .ok ts) : scan s = ts := by
  rw [scanStrict_eq] at h
  split at h
  · cases h
  · cases h
    rfl

/-- A text is not scanned because of a word that is unknown. -/
theorem scanStrict_eq_error {e : FormulaError} (h : scanStrict s = .error e) :
    ∃ word, e = .unknownWord word := by
  rw [scanStrict_eq] at h
  split at h
  · cases h
    exact ⟨_, rfl⟩
  · cases h

/-- A text that begins with an equals sign, after blanks perhaps, is refused. -/
theorem exists_unknownWord_of_equals {rest : List Char} (h : trimStart s.toList = '=' :: rest) :
    ∃ word, scanStrict s = .error (.unknownWord word) := by
  obtain ⟨word, ws, hwords, hword⟩ := Scan.exists_words_of_equals h
  rw [scanStrict_eq, hwords, List.find?_cons_of_pos (by rw [hword]; rfl)]
  exact ⟨_, rfl⟩

/-- **Blanks make no difference to the tokens of a text.** -/
theorem scanChars_eq_of_filter_eq
    (h : cs.filter (fun c => !isBlank c) = ds.filter fun c => !isBlank c) :
    scanChars cs = scanChars ds := by
  rw [scanChars, scanChars, Scan.normalForm, Scan.normalForm, h]

/-- Blanks in front of a text are not read. -/
theorem scanChars_trimStart (cs : List Char) : scanChars (trimStart cs) = scanChars cs :=
  scanChars_eq_of_filter_eq (filter_trimStart cs)

/-- Blanks behind a text are not read. -/
theorem scanChars_trimEnd (cs : List Char) : scanChars (trimEnd cs) = scanChars cs :=
  scanChars_eq_of_filter_eq (filter_trimEnd cs)

/-- Blanks around a text are not read. -/
theorem scanChars_trim (cs : List Char) : scanChars (trim cs) = scanChars cs := by
  rw [trim, scanChars_trimEnd, scanChars_trimStart]

end Token

/-- A text is evaluated as it stands if its first character that is no blank is no equals sign. -/
theorem evaluateText_eq {σ : Type} {s : String} (h : (trimStart s.toList).head? ≠ some '=')
    (draw : Float) (ask : String → Evaluation σ Float) :
    evaluateText draw ask s = evaluate draw ask (Token.scan s) := by
  rw [evaluateText, Token.scan, ← Token.scanChars_trimStart s.toList]
  split
  · rename_i rest hequals
    rw [hequals] at h
    exact absurd rfl h
  · rfl

end Spreadsheet
