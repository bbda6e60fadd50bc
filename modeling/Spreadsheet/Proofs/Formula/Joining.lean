import Spreadsheet.Proofs.Formula.Bracketing
import Spreadsheet.Proofs.Formula.Denoting
import Spreadsheet.Proofs.Formula.Scanning

/-!
# Texts Joined by a Separator

A separator ends a word and begins another one, so a text that consists of two texts with a
separator between them has the tokens of the one, the token of the separator and the tokens of the
other. The texts may be anything, also words that are left out.

Only signs stand in the way. A minus sign opens a text or a part of it where nothing but an opening
bracket or a semicolon is on its left, and is given a zero there. So a minus sign between two texts
must not be one, and a text that begins with a sign must have an opening bracket or a semicolon on
its left, or the zero gets lost. `Scan.StandsApart` is the condition, and it is exact
(`Token.scanChars_append_iff`).

## Main definitions

* `Scan.visible`: the characters of a text that are no blanks.
* `Scan.StandsApart`: a separator keeps two texts apart.

## Main results

* `Scan.words_append_cons`, `Scan.adjust_append_of_head`: words and normal forms at a separator.
* `Token.scanChars_append_iff`: two texts are read as they are on their own.
-/

namespace Spreadsheet

namespace Scan

variable {c : Char} {cs rest f g : List Char} {before : Option Char} {t : Token}

/-! ### At a separator -/

/-- A separator is a word of its own, and the texts on its sides are cut on their own. -/
theorem words_append_cons (hc : isSeparator c = true) (cs rest : List Char) :
    words (cs ++ c :: rest) = words cs ++ [c] :: words rest := by
  have hmark : Mark [c] := ⟨c, hc, rfl⟩
  have hleft := cut_words cs
  have hright := cut_words rest
  refine words_eq_iff.mpr ⟨⟨fun w hw => ?_, ?_⟩, ?_⟩
  · rcases List.mem_append.mp hw with hw | hw
    · exact hleft.plain_or_mark w hw
    · rcases List.mem_cons.mp hw with rfl | hw
      · exact Or.inr hmark
      · exact hright.plain_or_mark w hw
  · refine List.isChain_append.mpr ⟨hleft.isChain, List.isChain_cons.mpr ⟨?_, hright.isChain⟩, ?_⟩
    · exact fun v _ hboth => hmark.not_plain hboth.1
    · rintro v - w hw ⟨-, hplain⟩
      obtain rfl : [c] = w := Option.some.inj hw
      exact hmark.not_plain hplain
  · rw [List.flatten_append, List.flatten_cons, flatten_words, flatten_words]
    rfl

/-- A text is brought into its normal form on its own if no digit follows. -/
theorem adjust_append_of_head (h : ∀ c ∈ rest.head?, c.isDigit = false) :
    adjust before (cs ++ rest) = adjust before cs ++ adjust (lastOr before cs) rest := by
  induction cs generalizing before with
  | nil => rfl
  | cons c cs ih =>
      have hnext : (cs ++ rest).head?.any Char.isDigit = cs.head?.any Char.isDigit := by
        cases cs with
        | nil =>
            cases rest with
            | nil => rfl
            | cons d rest => exact h d rfl
        | cons d cs => rfl
      rw [List.cons_append, adjust, adjust, hnext, ih, lastOr_cons]
      split
      · rfl
      · split <;> rfl

/-- No separator is changed by the normal form, but for a minus sign that is a sign. -/
theorem adjust_separator (hc : isSeparator c = true) (h : c = '-' → ¬ OpensSign before) :
    adjust before (c :: rest) = c :: adjust (some c) rest := by
  have hcomma : c ≠ ',' := by
    rintro rfl
    cases hc
  rw [adjust, if_neg fun hand => hcomma hand.1, if_neg fun hand => h hand.1 hand.2]

/-- No digit separates words. -/
theorem isDigit_of_isSeparator (hc : isSeparator c = true) : c.isDigit = false := by
  refine Bool.eq_false_iff.mpr fun hdigit => ?_
  rw [(ordinary_of_isDigit hdigit).1] at hc
  cases hc

/-- A text that begins with no sign reads the same behind a separator. -/
theorem adjust_none_eq (hc : isSeparator c = true)
    (h : cs.head? = some '-' → OpensSign (some c)) : adjust none cs = adjust (some c) cs := by
  cases cs with
  | nil => rfl
  | cons d cs =>
      by_cases hd : d = '-'
      · subst hd
        rw [adjust_sign (Or.inl rfl), adjust_sign (h rfl)]
      · have hdigit : ¬ (some c).any Char.isDigit = true := by simp [isDigit_of_isSeparator hc]
        rw [adjust, if_neg (by simp), if_neg fun hand => hd hand.1, adjust,
          if_neg fun hand => hdigit hand.2.1, if_neg fun hand => hd hand.1]

/-! ### Characters that are no blanks -/

/-- The characters of a text that are no blanks. -/
def visible (cs : List Char) : List Char :=
  cs.filter fun c => !isBlank c

/-- A separator is visible, and does not change what is visible on either side of it. -/
theorem visible_append_cons (hc : isSeparator c = true) (f g : List Char) :
    visible (f ++ c :: g) = visible f ++ c :: visible g := by
  rw [visible, List.filter_append, List.filter_cons, isBlank_of_isSeparator hc]
  rfl

/-- A separator **stands apart** between two texts if it is no sign and if it does not keep a minus
sign on its right from being one. Blanks do not count. -/
def StandsApart (f : List Char) (c : Char) (g : List Char) : Prop :=
  (c = '-' → ¬ OpensSign (visible f).getLast?) ∧
    ((visible g).head? = some '-' → OpensSign (some c))

/-- Behind a text in which a minus sign is one, a word begins. -/
theorem words_normalForm_append (h : OpensSign (visible f).getLast?) (cs : List Char) :
    words (normalForm f ++ cs) = words (normalForm f) ++ words cs := by
  rcases List.eq_nil_or_concat' (visible f) with hf | ⟨init, d, hf⟩
  · rw [normalForm, show f.filter (fun c => !isBlank c) = [] from hf]
    rfl
  · have hd : d = '(' ∨ d = ';' := by
      rw [hf, List.getLast?_concat] at h
      simpa [OpensSign] using h
    have hsep : isSeparator d = true := by rcases hd with rfl | rfl <;> rfl
    have hminus : d ≠ '-' := by rcases hd with rfl | rfl <;> decide
    have hnormal : normalForm f = adjust none init ++ [d] := by
      rw [normalForm, show f.filter (fun c => !isBlank c) = init ++ [d] from hf,
        adjust_append_of_head (by simp [isDigit_of_isSeparator hsep]),
        adjust_separator hsep fun hd => absurd hd hminus]
      rfl
    rw [hnormal, List.append_assoc, List.singleton_append, words_append_cons hsep,
      words_append_cons hsep, List.append_assoc]
    rfl

end Scan

/-! ### Tokens -/

namespace Token

open Scan

variable {c : Char} {f g : List Char} {t : Token}

/-- The tokens of a text behind a separator. -/
def scanBehind (c : Char) (cs : List Char) : List Token :=
  (words (adjust (some c) (visible cs))).filterMap token?

/-- A separator that is no sign ends the text on its left. -/
theorem scanChars_append_cons (hc : isSeparator c = true) (ht : token? [c] = some t)
    (h : c = '-' → ¬ OpensSign (visible f).getLast?) :
    scanChars (f ++ c :: g) = scanChars f ++ t :: scanBehind c g := by
  have hnormal : normalForm (f ++ c :: g) = normalForm f ++ c :: adjust (some c) (visible g) := by
    show adjust none (visible (f ++ c :: g)) = _
    rw [visible_append_cons hc, adjust_append_of_head (by simp [isDigit_of_isSeparator hc]),
      adjust_separator hc (by rwa [lastOr, Option.or_none])]
    rfl
  rw [scanChars, hnormal, words_append_cons hc, List.filterMap_append,
    List.filterMap_cons_some ht]
  rfl

/-- The zero in front of a sign is a token of its own. -/
theorem filterMap_words_zero (cs : List Char) :
    (words ('0' :: '-' :: cs)).filterMap token? =
      .number 0 :: (words ('-' :: cs)).filterMap token? := by
  have hwords : words ('0' :: '-' :: cs) = ['0'] :: words ('-' :: cs) :=
    words_append_cons rfl ['0'] cs
  have hzero : token? ['0'] = some (.number 0) := by decide +kernel
  rw [hwords, List.filterMap_cons_some hzero]

/-- A sign is given a zero. -/
theorem scanChars_append_sign (h : OpensSign (visible f).getLast?) :
    scanChars (f ++ '-' :: g) =
      scanChars f ++ .number 0 :: .operator .subtract :: scanBehind '-' g := by
  have hnormal : normalForm (f ++ '-' :: g) =
      normalForm f ++ '0' :: '-' :: adjust (some '-') (visible g) := by
    show adjust none (visible (f ++ '-' :: g)) = _
    rw [visible_append_cons rfl, adjust_append_of_head (by simp),
      adjust_sign (by rwa [lastOr, Option.or_none])]
    rfl
  rw [scanChars, hnormal, words_normalForm_append h, List.filterMap_append, filterMap_words_zero]
  rfl

/-- A text that begins with no sign, or stands behind an opening bracket or a semicolon, has the
tokens that it has on its own. -/
theorem scanBehind_eq (hc : isSeparator c = true)
    (h : (visible g).head? = some '-' → OpensSign (some c)) : scanBehind c g = scanChars g := by
  rw [scanBehind, ← adjust_none_eq hc h]
  rfl

/-- Behind any other separator a text that begins with a sign loses the zero. -/
theorem scanChars_eq_cons (hg : (visible g).head? = some '-') (hc : ¬ OpensSign (some c)) :
    scanChars g = .number 0 :: scanBehind c g := by
  obtain ⟨rest, hrest⟩ := List.head?_eq_some_iff.mp hg
  have hnormal : normalForm g = '0' :: '-' :: adjust (some '-') rest := by
    show adjust none (visible g) = _
    rw [hrest, adjust_sign (Or.inl rfl)]
  rw [scanChars, hnormal, filterMap_words_zero, scanBehind, hrest, adjust_minus hc]

/-- **Two texts are read as they are on their own** exactly if the separator stands apart. -/
theorem scanChars_append_iff (hc : isSeparator c = true) (ht : token? [c] = some t) :
    scanChars (f ++ c :: g) = scanChars f ++ t :: scanChars g ↔ StandsApart f c g := by
  constructor
  · intro heq
    have hleft : c = '-' → ¬ OpensSign (visible f).getLast? := by
      rintro rfl hopens
      rw [scanChars_append_sign hopens] at heq
      obtain ⟨rfl, -⟩ := List.cons.inj (List.append_cancel_left heq)
      cases ht
    refine ⟨hleft, fun hg => ?_⟩
    by_contra hopens
    rw [scanChars_append_cons hc ht hleft, scanChars_eq_cons hg hopens] at heq
    have hlength := congrArg List.length heq
    simp at hlength
  · rintro ⟨hleft, hright⟩
    rw [scanChars_append_cons hc ht hleft, scanBehind_eq hc hright]

/-- A text in brackets has the tokens of the text in brackets. -/
theorem scanChars_inBrackets (cs : List Char) :
    scanChars ('(' :: (cs ++ [')'])) = inBrackets (scanChars cs) := by
  have hopen : scanChars ('(' :: (cs ++ [')'])) = .openBracket :: scanChars (cs ++ [')']) :=
    (scanChars_append_iff (f := []) rfl rfl).mpr ⟨nofun, fun _ => Or.inr (Or.inl rfl)⟩
  have hclose : scanChars (cs ++ [')']) = scanChars cs ++ [.closeBracket] :=
    (scanChars_append_iff (g := []) rfl rfl).mpr ⟨nofun, nofun⟩
  rw [hopen, hclose, inBrackets]

/-- **Texts are read piece by piece at separators.** A separator is one token `t`, and two texts
with it between them have the tokens of the first, `t` and those of the second exactly if it stands
apart. An opening bracket and a semicolon always do; other separators do unless a sign follows, and
a minus sign must not be a sign itself. So a text in brackets has its tokens in brackets, and if it
has a value, it has the same one in brackets, with the same questions asked. An equals sign in front
of it, behind blanks perhaps, would be left out without the brackets only. -/
theorem scan_at_separator {σ : Type} (draw : Float) (ask : String → Evaluation σ Float) :
    (∀ c, isSeparator c = true → ∃ t, token? [c] = some t ∧ ∀ f g : String,
      (scan (f ++ String.singleton c ++ g) = scan f ++ t :: scan g ↔
        StandsApart f.toList c g.toList)) ∧
    (∀ f : String, scan ("(" ++ f ++ ")") = inBrackets (scan f)) ∧
    ∀ (f : String) (x : Float) (s s' : σ), (trimStart f.toList).head? ≠ some '=' →
      (evaluateText draw ask f).runFrom s = (.ok x, s') →
        (evaluateText draw ask ("(" ++ f ++ ")")).runFrom s = (.ok x, s') := by
  have hbrackets : ∀ f : String, ("(" ++ f ++ ")").toList = '(' :: (f.toList ++ [')']) := by
    intro f
    simp
  have hscan : ∀ f : String, scan ("(" ++ f ++ ")") = inBrackets (scan f) := by
    intro f
    rw [scan, hbrackets, scanChars_inBrackets]
    rfl
  refine ⟨fun c hc => ?_, hscan, fun f x s s' hf hrun => ?_⟩
  · obtain ⟨t, ht⟩ := exists_token?_of_mark ⟨c, hc, rfl⟩
    refine ⟨t, ht, fun f g => ?_⟩
    have hjoined : (f ++ String.singleton c ++ g).toList = f.toList ++ c :: g.toList := by simp
    rw [scan, hjoined]
    exact scanChars_append_iff hc ht
  · have hopen : (trimStart ("(" ++ f ++ ")").toList).head? ≠ some '=' := by
      rw [hbrackets, trimStart, List.dropWhile_cons_of_neg (by decide)]
      simp
    rw [evaluateText_eq hf] at hrun
    rw [evaluateText_eq hopen, hscan]
    exact evaluate_inBrackets hrun

end Token

end Spreadsheet
