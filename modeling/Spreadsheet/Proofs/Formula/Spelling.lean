import Spreadsheet.Proofs.Formula.Denoting
import Spreadsheet.Proofs.Formula.Scanning

/-!
# Spellings of Formulas

The tokens of a formula can be written in many ways: with blanks anywhere, with the names of
functions in any case, with a decimal comma, and without the zero in front of a sign. All of these
spellings are read as the same tokens (`Token.scanStrict_of_isSpelling`), provided that the tokens
can be told apart when they stand side by side, and that each of them alone is read back.

A text is followed token by token. Its normal form turns every spelling into a word of the token,
and whether a minus sign is a sign can be seen from the token before it, for that decides about the
character before it (`Token.Word.opensSign_iff`). Tokens that are arranged properly are words that
are cut, so they are found again (`Token.exists_words_of_isSpelling`).

## Main definitions

* `Token.Scannable`, `Token.Legible`: tokens that texts hold, and tokens that are read back.
* `Token.Arranged`, `Token.Canonical`: sequences of tokens that can be told apart, and those among
  them whose tokens are read back.
* `Token.IsSpelling`: the texts in which tokens may be written.

## Main results

* `Token.canonical_iff`: canonical are the arranged sequences of legible tokens.
* `Token.isSpelling_source`: the text of tokens is one of their spellings.
* `Token.exists_words_of_isSpelling`: the words of a spelling.
* `Token.scanStrict_eq_ok_iff_legible`: which arranged tokens are read back.
* `Token.scanStrict_of_isSpelling`: canonical tokens are read back from every spelling.
-/

namespace Spreadsheet

namespace Token

variable {t u : Token} {ts : List Token} {x : Float} {name : String} {f : Builtin}
variable {cs w : List Char} {ws : List (List Char)} {s : String} {k : Option Char}

/-! ### Single tokens -/

/-- A token is **scannable** if some word is read as it. -/
def Scannable (t : Token) : Prop :=
  ∃ w, Scan.token? w = some t

/-- Whatever is scanned is scannable. -/
theorem scannable_of_mem_scanChars {cs : List Char} (h : t ∈ scanChars cs) : t.Scannable := by
  obtain ⟨w, -, hw⟩ := List.mem_filterMap.mp h
  exact ⟨w, hw⟩

/-- A token is **legible** if it is read back from what it is written as. -/
def Legible (t : Token) : Prop :=
  Scan.token? t.chars = some t

/-- Whether a token is legible can be computed. -/
instance (t : Token) : Decidable t.Legible :=
  inferInstanceAs (Decidable (_ = _))

/-- A legible token is scannable. -/
theorem Legible.scannable (h : t.Legible) : t.Scannable :=
  ⟨t.chars, h⟩

/-- The infinity is written as a word, not with digits. -/
theorem plainChars_infinity : Number.plainChars Number.infinity = ['i', 'n', 'f'] := by
  decide +kernel

/-- A number that is scanned has no sign, or is too large to be finite. -/
theorem Scannable.isUnsigned_or_eq (h : (number x).Scannable) :
    Number.IsUnsigned x ∨ x = Number.infinity := by
  obtain ⟨w, hw⟩ := h
  cases Scan.token?_eq_some_iff.mp hw with
  | number hw => exact Scan.isUnsigned_or_eq_of_number? hw

/-- A reference that is scanned has the name of a cell. -/
theorem Scannable.isName (h : (reference name).Scannable) : Address.IsName name.toList := by
  obtain ⟨w, hw⟩ := h
  cases Scan.token?_eq_some_iff.mp hw with
  | reference hw => exact (Scan.isName_of_reference? hw).1

/-- No text is scanned. -/
theorem not_scannable_text (content : String) : ¬ (text content).Scannable := by
  rintro ⟨w, hw⟩
  cases Scan.token?_eq_some_iff.mp hw

/-- Numbers are legible if they are finite and have no sign. -/
theorem legible_number_iff : (number x).Legible ↔ Number.IsUnsigned x := by
  constructor
  · intro h
    refine h.scannable.isUnsigned_or_eq.resolve_right ?_
    rintro rfl
    have hinf : Scan.token? ['i', 'n', 'f'] = some (number Number.infinity) := by
      rw [← plainChars_infinity]
      exact h
    revert hinf
    decide
  · intro h
    exact Scan.token?_eq_some_iff.mpr (.number (Number.number?_plainChars h))

/-- References are legible if they are names of cells and not also names of functions. -/
theorem legible_reference_iff :
    (reference name).Legible ↔
      Address.IsName name.toList ∧ ∀ f : Builtin, name.toList.map Char.toLower ≠ f.name.toList := by
  have hfunction : Builtin.ofChars? name.toList = none ↔
      ∀ f : Builtin, name.toList.map Char.toLower ≠ f.name.toList := by
    simp only [Option.eq_none_iff_forall_ne_some, ne_eq, Builtin.ofChars?_eq_some_iff]
  constructor
  · intro h
    have hnone : ∀ w, Scan.token? w = some (reference name) → Builtin.ofChars? w = none := by
      intro w hw
      cases Scan.token?_eq_some_iff.mp hw with
      | reference _ hnone => exact hnone
    exact ⟨h.scannable.isName, hfunction.mp (hnone _ h)⟩
  · rintro ⟨hname, hnone⟩
    refine Scan.token?_eq_some_iff.mpr (.reference ?_ (hfunction.mpr hnone))
    have hread := Scan.reference?_of_isName hname
    rwa [String.ofList_toList] at hread

/-- The name of a function is written in small letters. -/
theorem map_toLower_name (f : Builtin) : f.name.toList.map Char.toLower = f.name.toList := by
  cases f <;> decide

/-- Operators are legible. -/
theorem legible_operator (op : Operator) : (operator op).Legible :=
  Scan.token?_eq_some_iff.mpr (.operator op)

/-- Function names are legible. -/
theorem legible_function (f : Builtin) : (function f).Legible :=
  Scan.token?_eq_some_iff.mpr (.function (map_toLower_name f))

/-! ### Sequences of tokens -/

/-- Numbers, references and functions are written as **plain** words. -/
def IsPlain (t : Token) : Prop :=
  t.kind = .number ∨ t.kind = .reference ∨ t.kind = .function

/-- At the start of a formula, and behind an opening bracket or a separator, a minus sign would be
taken for a **sign**. -/
def OpensSign (before : Option Token) : Prop :=
  before = none ∨ before = some .openBracket ∨ before = some .separator

/-- A token may follow another one if the two can be told apart, and if it is not a minus sign that
would be taken for a sign. -/
def MayFollow (t u : Token) : Prop :=
  ¬ (t.IsPlain ∧ u.IsPlain) ∧ (u = .operator .subtract → ¬ OpensSign (some t))

/-- Tokens are **arranged** if each may follow the one before it, and none is a sign in front. -/
structure Arranged (ts : List Token) : Prop where
  /-- The first token is no minus sign. -/
  head? : ts.head? ≠ some (.operator .subtract)
  /-- Each token may follow the one before it. -/
  isChain : ts.IsChain MayFollow

/-- Tokens are **canonical** if they are arranged, there is no text among them, the numbers are
finite and without a sign, and the references are names of cells and of no function. -/
structure Canonical (ts : List Token) : Prop extends Arranged ts where
  /-- No token is a text. -/
  text : ∀ content, Token.text content ∉ ts
  /-- Numbers are finite and have no sign. -/
  number : ∀ x, Token.number x ∈ ts → Number.IsUnsigned x
  /-- References have the form of a cell's name. -/
  isName : ∀ name, Token.reference name ∈ ts → Address.IsName name.toList
  /-- No reference is the name of a function in any case. -/
  ne_name : ∀ name, Token.reference name ∈ ts →
    ∀ f : Builtin, name.toList.map Char.toLower ≠ f.name.toList

/-- **Canonical tokens are arranged, and each of them is read back.** -/
theorem canonical_iff : Canonical ts ↔ Arranged ts ∧ ∀ t ∈ ts, t.Legible := by
  constructor
  · intro h
    refine ⟨h.toArranged, fun t ht => ?_⟩
    cases t with
    | number x => exact legible_number_iff.mpr (h.number x ht)
    | reference name => exact legible_reference_iff.mpr ⟨h.isName name ht, h.ne_name name ht⟩
    | operator op => exact legible_operator op
    | function f => exact legible_function f
    | text content => exact absurd ht (h.text content)
    | _ => rfl
  · rintro ⟨harranged, h⟩
    exact
      { harranged with
        text := fun content ht => not_scannable_text content (h _ ht).scannable
        number := fun x ht => legible_number_iff.mp (h _ ht)
        isName := fun name ht => (legible_reference_iff.mp (h _ ht)).1
        ne_name := fun name ht => (legible_reference_iff.mp (h _ ht)).2 }

/-! ### Words of tokens -/

/-- The **words** of a token: what it is written as, and for a function its name in any case. -/
inductive Word : Token → List Char → Prop
  | chars (t : Token) : Word t t.chars
  | anyCase {f : Builtin} {w : List Char} (h : w.map Char.toLower = f.name.toList) :
      Word (.function f) w

/-- Only the name of a function has more than one word. -/
theorem Word.eq_chars (h : Word t w) (ht : ¬ ∃ f, t = .function f) : w = t.chars := by
  cases h with
  | chars => rfl
  | anyCase => exact absurd ⟨_, rfl⟩ ht

/-- The words of a function are its name in any case. -/
theorem Word.map_toLower (h : Word (.function f) w) : w.map Char.toLower = f.name.toList := by
  cases h with
  | chars => exact map_toLower_name f
  | anyCase h => exact h

/-- A token is read back from one of its words just as from any other. -/
theorem Word.token?_eq_some_iff (h : Word t w) : Scan.token? w = some t ↔ t.Legible := by
  cases h with
  | chars => exact Iff.rfl
  | anyCase h => exact iff_of_true (Scan.token?_eq_some_iff.mpr (.function h)) (legible_function _)

/-- The words of numbers, references and functions consist of ordinary characters. -/
theorem Word.ordinary (h : Word t w) (ht : t.Scannable) (hplain : t.IsPlain) :
    w ≠ [] ∧ ∀ c ∈ w, Scan.Ordinary c := by
  cases t with
  | number x =>
      rw [h.eq_chars (by simp), Token.chars]
      rcases ht.isUnsigned_or_eq with hx | rfl
      · obtain ⟨d, hd, -⟩ := hx.exists_plainChars_eq
        rw [hd]
        refine ⟨d.plain_ne_nil, fun c hc => ?_⟩
        rcases Decimal.mem_plain hc with hdigit | rfl
        · exact Scan.ordinary_of_isDigit hdigit
        · decide
      · rw [plainChars_infinity]
        have hall : ['i', 'n', 'f'].all Char.isLower = true := by decide
        exact ⟨List.cons_ne_nil _ _, fun c hc =>
          Scan.ordinary_of_isLower (List.all_eq_true.mp hall c hc)⟩
  | reference name =>
      rw [h.eq_chars (by simp), Token.chars]
      obtain ⟨c, rest, hcons, -⟩ := ht.isName.exists_cons
      exact ⟨hcons ▸ List.cons_ne_nil c rest, fun _ => ht.isName.ordinary⟩
  | function f =>
      obtain ⟨c, rest, rfl, -⟩ := Builtin.exists_cons_of_map_toLower h.map_toLower
      exact ⟨List.cons_ne_nil c rest, fun c hc => Builtin.ordinary_of_mem h.map_toLower hc⟩
  | _ => rcases hplain with hkind | hkind | hkind <;> cases hkind

/-- The word of a plain token is plain. -/
theorem Word.plain (h : Word t w) (ht : t.Scannable) (hplain : t.IsPlain) : Scan.Plain w :=
  Scan.plain_of_ordinary (h.ordinary ht hplain).1 (h.ordinary ht hplain).2

/-- Every other token is a mark. -/
theorem Word.mark (h : Word t w) (ht : t.Scannable) (hplain : ¬ t.IsPlain) :
    ∃ c, Scan.isSeparator c = true ∧ w = [c] ∧ (Scan.OpensSign (some c) ↔ OpensSign (some t)) ∧
      (c = '-' → t = .operator .subtract) := by
  cases t with
  | operator op =>
      rw [h.eq_chars (by simp)]
      refine ⟨op.symbol, Scan.isSeparator_symbol op, rfl, ?_⟩
      cases op <;> simp [Scan.OpensSign, OpensSign, Operator.symbol]
  | openBracket => exact ⟨'(', rfl, h.eq_chars (by simp), by simp [Scan.OpensSign, OpensSign]⟩
  | closeBracket => exact ⟨')', rfl, h.eq_chars (by simp), by simp [Scan.OpensSign, OpensSign]⟩
  | separator => exact ⟨';', rfl, h.eq_chars (by simp), by simp [Scan.OpensSign, OpensSign]⟩
  | text content => exact absurd ht (not_scannable_text content)
  | _ => exact absurd (by simp [IsPlain, kind]) hplain

/-- A scannable token is a plain word or a mark. -/
theorem Word.plain_iff (h : Word t w) (ht : t.Scannable) : Scan.Plain w ↔ t.IsPlain := by
  refine ⟨fun hw => ?_, h.plain ht⟩
  by_contra hplain
  obtain ⟨c, hc, rfl, -⟩ := h.mark ht hplain
  exact Scan.Mark.not_plain ⟨c, hc, rfl⟩ hw

/-- **Words of tokens that are arranged are cut.** -/
theorem cut_of_forall₂ (h : List.Forall₂ Word ts ws) (hts : ∀ t ∈ ts, t.Scannable)
    (hchain : ts.IsChain MayFollow) : Scan.Cut ws := by
  have hwords : List.Forall₂ (fun t w => t.Scannable ∧ Word t w) ts ws :=
    (List.forall₂_and_left ts ws).mpr ⟨hts, h⟩
  refine ⟨fun w hw => ?_, isChain_of_forall₂ ?_ hwords hchain⟩
  · obtain ⟨t, -, ht, hw⟩ := exists_of_forall₂_of_mem hwords hw
    by_cases hplain : t.IsPlain
    · exact Or.inl (hw.plain ht hplain)
    · obtain ⟨c, hc, rfl, -⟩ := hw.mark ht hplain
      exact Or.inr ⟨c, hc, rfl⟩
  · rintro t u v w ⟨ht, hv⟩ ⟨hu, hw⟩ hfollow ⟨hplain, hplain'⟩
    exact hfollow.1 ⟨(hv.plain_iff ht).mp hplain, (hw.plain_iff hu).mp hplain'⟩

/-! ### Spellings -/

/-- How a token may be **written**: as one of its words, and for a number with a comma. -/
inductive WrittenAs : Token → List Char → Prop
  | word {t : Token} {w : List Char} (h : Word t w) : WrittenAs t w
  | comma (x : Float) :
      WrittenAs (.number x) ((Number.plainChars x).map fun c => if c = '.' then ',' else c)

/-- Tokens are **spelled** by writing one after another. Where a minus sign is taken for a sign, a
zero in front of it may be left out. The first argument is the token before. -/
inductive Spelled : Option Token → List Token → List Char → Prop
  | nil (before : Option Token) : Spelled before [] []
  | token {before : Option Token} {t : Token} {ts : List Token} {cs ds : List Char}
      (h : WrittenAs t cs) (hrest : Spelled (some t) ts ds) : Spelled before (t :: ts) (cs ++ ds)
  | impliedZero {before : Option Token} {ts : List Token} {ds : List Char}
      (h : OpensSign before) (hrest : Spelled (some (.operator .subtract)) ts ds) :
      Spelled before (.number 0 :: .operator .subtract :: ts) ('-' :: ds)

/-- A token may be spelled as it is rendered. -/
theorem Spelled.chars {before : Option Token} (h : Spelled (some t) ts cs) :
    Spelled before (t :: ts) (t.chars ++ cs) :=
  .token (.word (.chars t)) h

/-- A text is a **spelling** of tokens if they are spelled by what it holds besides blanks. -/
def IsSpelling (ts : List Token) (s : String) : Prop :=
  Spelled none ts (s.toList.filter fun c => !isBlank c)

/-- No token is written with blanks. -/
theorem isBlank_eq_false_of_mem_chars {c : Char} (ht : t.Scannable) (hc : c ∈ t.chars) :
    isBlank c = false := by
  by_cases hplain : t.IsPlain
  · exact (((Word.chars t).ordinary ht hplain).2 c hc).2.2
  · obtain ⟨d, hd, hchars, -⟩ := (Word.chars t).mark ht hplain
    rw [hchars] at hc
    exact Scan.isBlank_of_isSeparator (List.mem_singleton.mp hc ▸ hd)

/-- There are no blanks in a rendered formula. -/
theorem isBlank_eq_false_of_mem_source {c : Char} (hts : ∀ t ∈ ts, t.Scannable)
    (hc : c ∈ (source ts).toList) : isBlank c = false := by
  rw [source, String.toList_ofList] at hc
  obtain ⟨t, ht, hc⟩ := List.mem_flatMap.mp hc
  exact isBlank_eq_false_of_mem_chars (hts t ht) hc

/-- **The text of tokens is one of their spellings.** -/
theorem isSpelling_source (hts : ∀ t ∈ ts, t.Scannable) : IsSpelling ts (source ts) := by
  have hspelled : ∀ before, Spelled before ts (ts.flatMap chars) := by
    clear hts
    induction ts with
    | nil => exact .nil
    | cons t ts ih => exact fun before => (ih (some t)).chars
  have hblank : ∀ c ∈ (source ts).toList, (!isBlank c) = true := fun c hc => by
    rw [isBlank_eq_false_of_mem_source hts hc]
    rfl
  rw [IsSpelling, List.filter_eq_self.mpr hblank, source, String.toList_ofList]
  exact hspelled none

/-! ### Reading spellings -/

/-- The words of a token are in normal form, unless it is a minus sign that is a sign. -/
theorem Word.adjust_append (h : Word t w) (ht : t.Scannable)
    (hk : t = .operator .subtract → ¬ Scan.OpensSign k) (rest : List Char) :
    Scan.adjust k (w ++ rest) = w ++ Scan.adjust (Scan.lastOr k w) rest := by
  by_cases hplain : t.IsPlain
  · exact Scan.adjust_append fun c hc => ((h.ordinary ht hplain).2 c hc).ne
  · obtain ⟨c, hc, rfl, -, hminus⟩ := h.mark ht hplain
    by_cases hc' : c = '-'
    · subst hc'
      exact Scan.adjust_minus (hk (hminus rfl))
    · refine Scan.adjust_append fun d hd => ?_
      rw [List.mem_singleton.mp hd]
      refine ⟨?_, hc'⟩
      rintro rfl
      cases hc

/-- Whether a sign may follow is seen from a token and from its words alike. -/
theorem Word.opensSign_iff (h : Word t w) (ht : t.Scannable) :
    Scan.OpensSign (Scan.lastOr k w) ↔ OpensSign (some t) := by
  by_cases hplain : t.IsPlain
  · refine iff_of_false (h.plain ht hplain).not_opensSign ?_
    rintro (hnone | hopen | hseparator)
    · cases hnone
    · rw [Option.some.inj hopen] at hplain
      revert hplain
      simp [IsPlain, kind]
    · rw [Option.some.inj hseparator] at hplain
      revert hplain
      simp [IsPlain, kind]
  · obtain ⟨c, -, rfl, hopens, -⟩ := h.mark ht hplain
    exact hopens

/-- A point that a number is written with stands between digits. -/
theorem exists_parts_of_point (ht : (number x).Scannable) (hpoint : '.' ∈ Number.plainChars x) :
    ∃ whole fraction, Number.plainChars x = whole ++ '.' :: fraction ∧
      whole ≠ [] ∧ (∀ c ∈ whole, c.isDigit = true) ∧
      fraction ≠ [] ∧ ∀ c ∈ fraction, c.isDigit = true := by
  rcases ht.isUnsigned_or_eq with hx | rfl
  · obtain ⟨d, hd, -⟩ := hx.exists_plainChars_eq
    obtain ⟨whole, fraction, hne, hwhole, hfraction, ⟨hplain, -⟩ | ⟨hplain, hne'⟩⟩ :=
      d.exists_parts_plain
    · rw [hd, hplain] at hpoint
      exact absurd (hwhole _ hpoint) (by decide)
    · exact ⟨whole, fraction, hd.trans hplain, hne, hwhole, hne', hfraction⟩
  · rw [plainChars_infinity] at hpoint
    exact absurd hpoint (by simp)

/-- **What a token is written as becomes one of its words.** -/
theorem WrittenAs.exists_word (h : WrittenAs t cs) (ht : t.Scannable)
    (hk : t = .operator .subtract → ¬ Scan.OpensSign k) :
    ∃ w, Word t w ∧
      ∀ rest, Scan.adjust k (cs ++ rest) = w ++ Scan.adjust (Scan.lastOr k w) rest := by
  cases h with
  | word h => exact ⟨cs, h, h.adjust_append ht hk⟩
  | comma x =>
      refine ⟨Number.plainChars x, .chars (.number x), fun rest => ?_⟩
      have hsame : ∀ {cs : List Char}, '.' ∉ cs →
          cs.map (fun c => if c = '.' then ',' else c) = cs := fun hcs =>
        (List.map_congr_left fun c hc => if_neg (ne_of_mem_of_not_mem hc hcs)).trans
          (List.map_id' _)
      have hdigits : ∀ {cs : List Char}, (∀ c ∈ cs, c.isDigit = true) → '.' ∉ cs :=
        fun hcs hpoint => absurd (hcs _ hpoint) (by decide)
      by_cases hpoint : '.' ∈ Number.plainChars x
      · obtain ⟨whole, fraction, hparts, hne, hwhole, hne', hfraction⟩ :=
          exists_parts_of_point ht hpoint
        rw [hparts, List.map_append, hsame (hdigits hwhole), List.map_cons, if_pos rfl,
          hsame (hdigits hfraction), Scan.adjust_comma hne hwhole hne' hfraction]
      · rw [hsame hpoint]
        exact (Word.chars (.number x)).adjust_append ht hk rest

/-- What is spelled becomes words of the tokens. -/
theorem Spelled.exists_words {before : Option Token} (h : Spelled before ts cs)
    (hts : ∀ t ∈ ts, t.Scannable)
    (hhead : ts.head? = some (.operator .subtract) → ¬ OpensSign before)
    (hchain : ts.IsChain MayFollow) (hk : Scan.OpensSign k ↔ OpensSign before) :
    ∃ ws, List.Forall₂ Word ts ws ∧ Scan.adjust k cs = ws.flatten := by
  induction h generalizing k with
  | nil => exact ⟨[], .nil, rfl⟩
  | @token before t ts cs ds h hrest ih =>
      obtain ⟨ht, hts⟩ := List.forall_mem_cons.mp hts
      obtain ⟨hnext, hchain⟩ := List.isChain_cons.mp hchain
      obtain ⟨w, hw, hadjust⟩ := h.exists_word (k := k) ht fun hsub =>
        hk.not.mpr (hhead (hsub ▸ rfl))
      obtain ⟨ws, hws, hflat⟩ := ih hts (fun hsub => (hnext _ hsub).2 rfl) hchain
        (hw.opensSign_iff ht)
      exact ⟨w :: ws, .cons hw hws, by rw [hadjust, hflat, List.flatten_cons]⟩
  | @impliedZero before ts ds h hrest ih =>
      obtain ⟨-, hts⟩ := List.forall_mem_cons.mp hts
      obtain ⟨-, hts⟩ := List.forall_mem_cons.mp hts
      obtain ⟨hnext, hchain⟩ := List.isChain_cons.mp (List.isChain_cons.mp hchain).2
      have hminus : Scan.OpensSign (some '-') ↔ OpensSign (some (.operator .subtract)) := by
        simp [Scan.OpensSign, OpensSign]
      obtain ⟨ws, hws, hflat⟩ := ih hts (fun hsub => (hnext _ hsub).2 rfl) hchain hminus
      refine ⟨['0'] :: ['-'] :: ws, .cons ?_ (.cons (.chars _) hws), ?_⟩
      · exact .chars (.number 0)
      · rw [Scan.adjust_sign (hk.mpr h), hflat]
        rfl

/-- **The words of a spelling** are words of the tokens. -/
theorem exists_words_of_isSpelling (h : IsSpelling ts s) (hts : ∀ t ∈ ts, t.Scannable)
    (harranged : Arranged ts) :
    ∃ ws, List.Forall₂ Word ts ws ∧ Scan.words (Scan.normalForm s.toList) = ws := by
  obtain ⟨ws, hws, hflat⟩ := h.exists_words (k := none) hts
    (fun hsub => absurd hsub harranged.head?) harranged.isChain
    (iff_of_true (Or.inl rfl) (Or.inl rfl))
  exact ⟨ws, hws, Scan.words_eq_iff.mpr ⟨cut_of_forall₂ hws hts harranged.isChain, hflat.symm⟩⟩

/-- Words are read as their tokens if all of these are legible. -/
theorem forall₂_token?_iff (h : List.Forall₂ Word ts ws) :
    List.Forall₂ (fun w t => Scan.token? w = some t) ws ts ↔ ∀ t ∈ ts, t.Legible := by
  induction h with
  | nil => simp
  | cons hw _ ih =>
      rw [List.forall₂_cons, List.forall_mem_cons, hw.token?_eq_some_iff, ih]

/-- **Which tokens are read back**: if they are arranged, those that are legible. -/
theorem scanStrict_eq_ok_iff_legible (h : IsSpelling ts s) (hts : ∀ t ∈ ts, t.Scannable)
    (harranged : Arranged ts) : scanStrict s = .ok ts ↔ ∀ t ∈ ts, t.Legible := by
  obtain ⟨ws, hws, hwords⟩ := exists_words_of_isSpelling h hts harranged
  rw [scanStrict_eq_ok_iff, hwords, forall₂_token?_iff hws]

/-- **Canonical tokens are read back from every spelling.** Their text is one of these. -/
theorem scanStrict_of_isSpelling (hts : Canonical ts) (h : IsSpelling ts s) :
    scanStrict s = .ok ts ∧ IsSpelling ts (source ts) ∧ scanStrict (source ts) = .ok ts := by
  obtain ⟨harranged, hlegible⟩ := canonical_iff.mp hts
  have hscannable : ∀ t ∈ ts, t.Scannable := fun t ht => (hlegible t ht).scannable
  have hsource : IsSpelling ts (source ts) := isSpelling_source hscannable
  exact ⟨(scanStrict_eq_ok_iff_legible h hscannable harranged).mpr hlegible, hsource,
    (scanStrict_eq_ok_iff_legible hsource hscannable harranged).mpr hlegible⟩

/-- A formula with a sign and a decimal number. -/
def sampleTokens : List Token :=
  [.openBracket, .number 0, .operator .subtract, .reference "AB12", .closeBracket,
    .operator .multiply, .function .round, .openBracket, .number 0, .operator .subtract,
    .number 2.5, .separator, .number 1, .closeBracket]

/-- The formula with one zero left out, a decimal comma, blanks, and a function in another case. -/
def sampleText : String :=
  " (-AB 12)*\tRoUnD ( 0 - 2, 5;1)"

/-- The tokens `sampleTokens` are read back from `sampleText`. -/
theorem scanStrict_sample :
    Canonical sampleTokens ∧ IsSpelling sampleTokens sampleText ∧
      scanStrict sampleText = .ok sampleTokens := by
  have hcanonical : Canonical sampleTokens := by
    refine canonical_iff.mpr ⟨⟨by simp [sampleTokens], ?_⟩, ?_⟩
    · simp [sampleTokens, MayFollow, IsPlain, kind, OpensSign]
    · decide +kernel
  have hspelling : IsSpelling sampleTokens sampleText := by
    have htext : sampleText.toList.filter (fun c => !isBlank c) =
        "(-AB12)*RoUnD(0-2,5;1)".toList := by
      decide
    have hzero : Number.plainChars 0 = ['0'] := by decide +kernel
    have hone : Number.plainChars 1 = ['1'] := by decide +kernel
    have hcomma : (Number.plainChars 2.5).map (fun c => if c = '.' then ',' else c) =
        ['2', ',', '5'] := by
      decide +kernel
    have hround : "RoUnD".toList.map Char.toLower = Builtin.round.name.toList := by decide
    have hspelled : Spelled none sampleTokens _ :=
      .chars <| .impliedZero (Or.inr (Or.inl rfl)) <| .chars <| .chars <| .chars <|
        .token (.word (.anyCase hround)) <| .chars <| .chars <| .chars <|
        .token (.comma 2.5) <| .chars <| .chars <| .chars <| .nil _
    rw [hcomma] at hspelled
    rw [IsSpelling, htext]
    simpa [chars, hzero, hone, Operator.symbol] using hspelled
  exact ⟨hcanonical, hspelling, (scanStrict_of_isSpelling hcanonical hspelling).1⟩

end Token

end Spreadsheet
