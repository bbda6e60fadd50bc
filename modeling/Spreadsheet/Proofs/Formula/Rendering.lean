import Spreadsheet.Proofs.Formula.Spelling

/-!
# Rendered Formulas

A formula that is made of tokens has the text of its tokens, and the tokens are meant to be found
again in it. If they come from a text that was scanned strictly, they are arranged
(`Token.arranged_of_scanStrict`): the words that were found next to each other could be told apart,
and a minus sign that was a sign has been given a zero. So their text is cut where it ought to be,
and only single tokens can be misread.

Two kinds of tokens are. A numeral that is too large makes the infinity, which is written as a word
that is no token. And of a word that only begins with the name of a cell nothing but that name is
kept, which can be the name of a function. Tokens are *renderable* if neither kind is among them,
and exactly then they are found again (`Token.scanStrict_source_iff`, `Token.scan_source_iff`).

## Main definitions

* `Token.Renderable`: tokens that can be found again in their text.

## Main results

* `Token.arranged_of_scanStrict`: the tokens of a text are arranged.
* `Token.scanStrict_source_iff`, `Token.scan_source_iff`: which tokens are found again.
-/

namespace Spreadsheet

/-! ### Words and their tokens -/

namespace Scan

variable {w : List Char} {t : Token}

/-- A number, a reference or a function is read from a plain word. -/
theorem Denotes.plain (h : Denotes w t) (ht : t.IsPlain) (hw : Plain w ∨ Mark w) : Plain w := by
  refine hw.resolve_right ?_
  rintro ⟨c, hc, rfl⟩
  have hordinary : Ordinary c := by
    cases h with
    | function h => exact Builtin.ordinary_of_mem h List.mem_cons_self
    | number h =>
        obtain ⟨d, rest, hcons, hd⟩ := exists_cons_of_number? h
        exact ordinary_of_isDigit ((List.cons.inj hcons).1 ▸ hd)
    | reference h _ =>
        obtain ⟨d, rest, hcons, hd⟩ := exists_cons_of_reference? h
        exact ordinary_of_isUpper ((List.cons.inj hcons).1 ▸ hd)
    | _ => rcases ht with hkind | hkind | hkind <;> cases hkind
  rw [hordinary.1] at hc
  cases hc

/-- A minus sign is read from a minus sign alone. -/
theorem Denotes.eq_minus (h : Denotes w (.operator .subtract)) : w = ['-'] := by
  cases h with
  | operator op => rfl

/-- Behind a token that a sign may follow, its word is an opening bracket or a separator. -/
theorem Denotes.eq_of_opensSign (h : Denotes w t) (ht : Token.OpensSign (some t)) :
    w = ['('] ∨ w = [';'] := by
  rcases ht with hnone | hopen | hseparator
  · cases hnone
  · obtain rfl := Option.some.inj hopen
    cases h with
    | openBracket => exact Or.inl rfl
  · obtain rfl := Option.some.inj hseparator
    cases h with
    | separator => exact Or.inr rfl

end Scan

namespace Token

variable {ts : List Token} {s : String}

/-! ### The tokens of a text -/

/-- The tokens of a text are scannable. -/
theorem scannable_of_scanStrict (h : scanStrict s = .ok ts) : ∀ t ∈ ts, t.Scannable := by
  intro t ht
  obtain ⟨w, -, hw⟩ := exists_of_forall₂_of_mem (scanStrict_eq_ok_iff.mp h) ht
  exact ⟨w, hw⟩

/-- **The tokens of a text are arranged**, if it is scanned strictly. -/
theorem arranged_of_scanStrict (h : scanStrict s = .ok ts) : Arranged ts := by
  have hfree : Scan.SignFree none (Scan.normalForm s.toList) := Scan.signFree_adjust id
  obtain ⟨hhead, hsigns⟩ := hfree.isChain_words
  have hcut := Scan.cut_words (Scan.normalForm s.toList)
  rw [scanStrict_eq_ok_iff] at h
  generalize Scan.words (Scan.normalForm s.toList) = ws at h hcut hhead hsigns
  constructor
  · intro hfirst
    obtain ⟨ts, rfl⟩ := List.head?_eq_some_iff.mp hfirst
    cases h with
    | cons hw _ => exact hhead (congrArg some (Scan.token?_eq_some_iff.mp hw).eq_minus)
  · have hwords := (List.forall₂_and_left ws ts).mpr ⟨hcut.plain_or_mark, h⟩
    have hboth : ws.IsChain fun v w =>
        ¬ (Scan.Plain v ∧ Scan.Plain w) ∧ (w = ['-'] → v ≠ ['('] ∧ v ≠ [';']) :=
      List.isChain_iff_getElem.mpr fun i hi => ⟨List.isChain_iff_getElem.mp hcut.isChain i hi,
        List.isChain_iff_getElem.mp hsigns i hi⟩
    refine isChain_of_forall₂ ?_ hwords hboth
    rintro v w t u ⟨hv, ht⟩ ⟨hw, hu⟩ ⟨hplain, hsign⟩
    have ht' := Scan.token?_eq_some_iff.mp ht
    have hu' := Scan.token?_eq_some_iff.mp hu
    refine ⟨fun hboth => hplain ⟨ht'.plain hboth.1 hv, hu'.plain hboth.2 hw⟩, ?_⟩
    rintro rfl hopens
    obtain ⟨hopen, hseparator⟩ := hsign hu'.eq_minus
    exact (ht'.eq_of_opensSign hopens).elim hopen hseparator

/-! ### Tokens that are found again -/

/-- Tokens are **renderable** if their numbers are finite, and if no reference among them has the
name of a function, in any case. -/
structure Renderable (ts : List Token) : Prop where
  /-- The numbers are finite. -/
  isFinite : ∀ x, Token.number x ∈ ts → x.isFinite = true
  /-- No reference has the name of a function. -/
  ne_name : ∀ name, Token.reference name ∈ ts →
    ∀ f : Builtin, name.toList.map Char.toLower ≠ f.name.toList

/-- Of the tokens that texts hold, those that are renderable are legible. -/
theorem forall_legible_iff (hts : ∀ t ∈ ts, t.Scannable) :
    (∀ t ∈ ts, t.Legible) ↔ Renderable ts := by
  constructor
  · exact fun h => ⟨fun x hx => (legible_number_iff.mp (h _ hx)).1,
      fun name hname => (legible_reference_iff.mp (h _ hname)).2⟩
  · intro h t ht
    cases t with
    | number x =>
        refine legible_number_iff.mpr ((hts _ ht).isUnsigned_or_eq.resolve_right ?_)
        rintro rfl
        have hfinite := h.isFinite _ ht
        revert hfinite
        decide +kernel
    | reference name => exact legible_reference_iff.mpr ⟨(hts _ ht).isName, h.ne_name name ht⟩
    | operator op => exact legible_operator op
    | function f => exact legible_function f
    | text content => exact absurd (hts _ ht) (not_scannable_text content)
    | _ => rfl

/-- **Which tokens are found again**: those of a text are scanned from their own text if they are
renderable. -/
theorem scanStrict_source_iff (h : scanStrict s = .ok ts) :
    scanStrict (source ts) = .ok ts ↔ Renderable ts := by
  have hts := scannable_of_scanStrict h
  rw [scanStrict_eq_ok_iff_legible (isSpelling_source hts) hts (arranged_of_scanStrict h),
    forall_legible_iff hts]

/-- Nothing is found again by leaving words out. -/
theorem scan_source_iff (h : scanStrict s = .ok ts) : scan (source ts) = ts ↔ Renderable ts := by
  have hts := scannable_of_scanStrict h
  obtain ⟨ws, hws, hwords⟩ :=
    exists_words_of_isSpelling (isSpelling_source hts) hts (arranged_of_scanStrict h)
  rw [← forall_legible_iff hts, ← forall₂_token?_iff hws, scan, scanChars, hwords]
  exact filterMap_eq_iff_forall₂ hws.length_eq.symm

end Token

end Spreadsheet
