import Spreadsheet.Proofs.Address.Names
import Spreadsheet.Proofs.Formula.Words
import Spreadsheet.Proofs.Number.Unsigned

/-!
# What a Word Denotes

A word is tried as an operator, as punctuation, as the name of a function, as a number and as the
name of a cell, in this order. The order matters in one place only: a word that is the name of a
function is never the name of a cell. Everything else excludes each other by the first character.
`Scan.Denotes` says what a word is without an order, and that is what it is read as
(`Scan.token?_eq_some_iff`).

## Main definitions

* `Scan.Denotes`: the tokens of words.

## Main results

* `Scan.token?_eq_some_iff`: a word is read as what it denotes.
* `Token.isFinite_or_eq_of_mem_scanChars`: which numbers the tokens of a text hold.
-/

namespace Spreadsheet

/-- The names of cells consist of ordinary characters. -/
theorem Address.IsName.ordinary {cs : List Char} {c : Char} (h : IsName cs) (hc : c ∈ cs) :
    Scan.Ordinary c :=
  (h.isUpper_or_isDigit hc).elim Scan.ordinary_of_isUpper Scan.ordinary_of_isDigit

/-! ### Names of functions -/

namespace Builtin

variable {w : List Char} {f : Builtin}

/-- Functions have different names. -/
theorem name_injective {f g : Builtin} (h : f.name.toList = g.name.toList) : f = g := by
  revert h
  cases f <;> cases g <;> decide

/-- A word is read as a function if it is its name, in any case. -/
theorem ofChars?_eq_some_iff : ofChars? w = some f ↔ w.map Char.toLower = f.name.toList := by
  rw [ofChars?]
  constructor
  · intro h
    have hname := List.find?_some h
    exact (of_decide_eq_true hname).symm
  · intro h
    cases hfind : all.find? fun g => g.name.toList = w.map Char.toLower with
    | none =>
        have hmem : f ∈ all := by
          cases f <;> decide
        exact absurd (decide_eq_true h.symm) (List.find?_eq_none.mp hfind f hmem)
    | some g =>
        have hname := List.find?_some hfind
        rw [name_injective ((of_decide_eq_true hname).trans h)]

/-- The characters of the names of functions are ordinary. -/
theorem ordinary_of_mem_name {c : Char} (h : c ∈ f.name.toList) : Scan.Ordinary c := by
  have hall : (f.name.toList.all fun c => c.isLower || c.isDigit) = true := by
    cases f <;> decide
  rcases Bool.or_eq_true_iff.mp (List.all_eq_true.mp hall c h) with hlower | hdigit
  · exact Scan.ordinary_of_isLower hlower
  · exact Scan.ordinary_of_isDigit hdigit

/-- A word that is the name of a function in any case consists of ordinary characters. -/
theorem ordinary_of_mem {c : Char} (h : w.map Char.toLower = f.name.toList) (hc : c ∈ w) :
    Scan.Ordinary c :=
  Scan.ordinary_of_toLower (ordinary_of_mem_name (h ▸ List.mem_map_of_mem hc))

/-- The name of a function begins with a letter. -/
theorem exists_cons_of_map_toLower (h : w.map Char.toLower = f.name.toList) :
    ∃ c rest, w = c :: rest ∧ c.isDigit = false := by
  have hname : ∃ c rest, f.name.toList = c :: rest ∧ c.isDigit = false := by
    cases f <;> exact ⟨_, _, rfl, by decide⟩
  obtain ⟨c, rest, hcons, hc⟩ := hname
  rw [hcons] at h
  obtain ⟨c', w, rfl, rfl, -⟩ := List.map_eq_cons_iff.mp h
  refine ⟨c', w, rfl, Bool.eq_false_iff.mpr fun hdigit => ?_⟩
  rw [Number.toLower_of_isDigit hdigit, hdigit] at hc
  cases hc

end Builtin

namespace Scan

variable {c : Char} {rest w : List Char} {t : Token} {x : Float} {name : String}

/-! ### Denoting -/

/-- What a word **denotes**. A function is denoted by its name in any case; a number and a
reference by what they are written as, whatever stands behind. -/
inductive Denotes : List Char → Token → Prop
  | operator (op : Operator) : Denotes [op.symbol] (.operator op)
  | openBracket : Denotes ['('] .openBracket
  | closeBracket : Denotes [')'] .closeBracket
  | separator : Denotes [';'] .separator
  | function {w : List Char} {f : Builtin} (h : w.map Char.toLower = f.name.toList) :
      Denotes w (.function f)
  | number {w : List Char} {x : Float} (h : number? w = some x) : Denotes w (.number x)
  | reference {w : List Char} {name : String} (h : reference? w = some name)
      (hfunction : Builtin.ofChars? w = none) : Denotes w (.reference name)

/-- The symbol of an operator separates words. -/
theorem isSeparator_symbol (op : Operator) : isSeparator op.symbol = true := by
  cases op <;> rfl

/-- A word that does not begin with a separator is no operator and no punctuation. -/
theorem token?_of_not_separator (h : isSeparator c = false) :
    token? (c :: rest) = ((Builtin.ofChars? (c :: rest)).map .function
      <|> (number? (c :: rest)).map .number <|> (reference? (c :: rest)).map .reference) := by
  have hoperator : Operator.ofChars? (c :: rest) = none := by
    cases rest with
    | nil =>
        refine List.find?_eq_none.mpr fun op _ hop => ?_
        rw [← of_decide_eq_true hop, isSeparator_symbol] at h
        cases h
    | cons d rest => rfl
  have hpunctuation : punctuation? (c :: rest) = none := by
    rw [punctuation?.eq_def]
    split <;> first | rfl | simp_all [isSeparator]
  rw [token?, hoperator, hpunctuation]
  rfl

/-- A number begins with a digit. -/
theorem exists_cons_of_number? (h : number? w = some x) :
    ∃ c rest, w = c :: rest ∧ c.isDigit = true := by
  cases w with
  | nil => cases h
  | cons c rest =>
      refine ⟨c, rest, rfl, ?_⟩
      by_contra hc
      have hwhole : (Decimal.split (c :: rest)).1 = [] := by
        rw [Decimal.split.eq_def]
        split <;> simp [hc]
      rw [number?.eq_def] at h
      generalize Decimal.split (c :: rest) = parts at h hwhole
      obtain ⟨whole, fraction, tail⟩ := parts
      obtain rfl : whole = [] := hwhole
      cases h

/-- A reference is the name of a cell, and the word begins with it. -/
theorem isName_of_reference? (h : reference? w = some name) :
    Address.IsName name.toList ∧ name.toList <+: w := by
  obtain ⟨⟨letters, digits, tail⟩, hsplit, rfl⟩ := Option.map_eq_some_iff.mp h
  rw [String.toList_ofList]
  exact ⟨Address.isName_of_splitName? hsplit, tail, (Address.parts_of_splitName? hsplit).1.symm⟩

/-- A name is read as a reference to the cell. -/
theorem reference?_of_isName (h : Address.IsName w) : reference? w = some (String.ofList w) := by
  obtain ⟨letters, digits, rfl, hletters_ne, hletters, hdigits_ne, hdigits, hhead⟩ := h
  rw [reference?, Address.splitName?_append hletters_ne hletters hdigits_ne hdigits hhead]
  rfl

/-- A reference begins with a capital letter. -/
theorem exists_cons_of_reference? (h : reference? w = some name) :
    ∃ c rest, w = c :: rest ∧ c.isUpper = true := by
  obtain ⟨hname, tail, htail⟩ := isName_of_reference? h
  obtain ⟨c, rest, hcons, hc⟩ := hname.exists_cons
  rw [hcons] at htail
  exact ⟨c, rest ++ tail, htail.symm, hc⟩

/-- **A word is read as what it denotes.** -/
theorem token?_eq_some_iff : token? w = some t ↔ Denotes w t := by
  constructor
  · intro h
    simp only [token?, Option.orElse_eq_orElse, Option.orElse_eq_or, Option.or_eq_some_iff,
      Option.map_eq_some_iff] at h
    rcases h with ⟨op, hop, rfl⟩ | ⟨-, hpunctuation | ⟨-, ⟨f, hf, rfl⟩ | ⟨hfunction, ⟨x, hx, rfl⟩ |
      ⟨-, name, hname, rfl⟩⟩⟩⟩
    · cases w with
      | nil => cases hop
      | cons c rest =>
          cases rest with
          | nil =>
              have hsymbol := List.find?_some hop
              rw [← of_decide_eq_true hsymbol]
              exact .operator op
          | cons d rest => cases hop
    · rw [punctuation?.eq_def] at hpunctuation
      split at hpunctuation <;> cases hpunctuation
      exacts [.openBracket, .closeBracket, .separator]
    · exact .function (Builtin.ofChars?_eq_some_iff.mp hf)
    · exact .number hx
    · exact .reference hname (by simpa using hfunction)
  · intro h
    cases h with
    | operator op => cases op <;> rfl
    | openBracket => rfl
    | closeBracket => rfl
    | separator => rfl
    | function h =>
        have hf := Builtin.ofChars?_eq_some_iff.mpr h
        obtain ⟨c, rest, rfl, -⟩ := Builtin.exists_cons_of_map_toLower h
        rw [token?_of_not_separator (Builtin.ordinary_of_mem h List.mem_cons_self).1, hf]
        rfl
    | number h =>
        obtain ⟨c, rest, rfl, hc⟩ := exists_cons_of_number? h
        have hfunction : Builtin.ofChars? (c :: rest) = none := by
          refine Option.eq_none_iff_forall_ne_some.mpr fun f hf => ?_
          obtain ⟨d, tail, hcons, hd⟩ :=
            Builtin.exists_cons_of_map_toLower (Builtin.ofChars?_eq_some_iff.mp hf)
          rw [← (List.cons.inj hcons).1, hc] at hd
          cases hd
        rw [token?_of_not_separator (ordinary_of_isDigit hc).1, hfunction, h]
        rfl
    | reference h hfunction =>
        obtain ⟨c, rest, rfl, hc⟩ := exists_cons_of_reference? h
        have hnumber : number? (c :: rest) = none := by
          refine Option.eq_none_iff_forall_ne_some.mpr fun x hx => ?_
          obtain ⟨d, tail, hcons, hd⟩ := exists_cons_of_number? hx
          rw [← (List.cons.inj hcons).1] at hd
          rw [isUpper_eq_false_of_isDigit hd] at hc
          cases hc
        rw [token?_of_not_separator (ordinary_of_isUpper hc).1, hfunction, hnumber, h]
        rfl

/-- Every mark is a token. -/
theorem exists_token?_of_mark (h : Mark w) : ∃ t, token? w = some t := by
  obtain ⟨c, hc, rfl⟩ := h
  simp only [isSeparator, Bool.or_eq_true, decide_eq_true_eq] at hc
  rcases hc with ((((((rfl | rfl) | rfl) | rfl) | rfl) | rfl) | rfl) | rfl <;> exact ⟨_, rfl⟩

end Scan

/-- **The tokens of a text hold no numbers but finite ones and the infinity.** -/
theorem Token.isFinite_or_eq_of_mem_scanChars {cs : List Char} {x : Float}
    (h : .number x ∈ scanChars cs) : x.isFinite = true ∨ x = Number.infinity := by
  obtain ⟨word, -, hword⟩ := List.mem_filterMap.mp h
  cases Scan.token?_eq_some_iff.mp hword with
  | number hnumber => exact (Scan.isUnsigned_or_eq_of_number? hnumber).imp_left And.left

end Spreadsheet
