import Mathlib.Data.List.Chain
import Spreadsheet.Formula.Scan
import Spreadsheet.Proofs.Text.Trimming

/-!
# Words and Normal Texts

A text is cut into words in exactly one way: every word is a *mark*, a separator alone, or
*plain*, without any separator, and of two plain words no second one stands directly behind the
first (`Scan.words_eq_iff`). So words that are put together in this manner are found again.

A text is brought into its normal form from left to right, and of what has been read only the last
character counts. The lemmas on `Scan.adjust` follow it over one piece of a text at a time. They
leave most pieces as they are, turn a comma between digits into a point, and put a zero in front of
a minus sign at the start or behind an opening bracket or a separator.

In a text that has been adjusted no minus sign is left in such a place (`Scan.signFree_adjust`), and
no comma between two digits (`Scan.commaFree_adjust`). A point or a zero that has been put in calls
for no further change, so the text is its own normal form (`Scan.normalForm_normalForm`).

## Main definitions

* `Scan.Plain`, `Scan.Mark`, `Scan.Cut`: the words that a text is cut into.
* `Scan.Ordinary`: characters that mean nothing to the first two steps of reading.
* `Scan.OpensSign`: the places where a minus sign is taken for a sign.
* `Scan.SignFree`: texts in which no minus sign stands in such a place.
* `Scan.CommaFree`, `Scan.Normal`: texts without decimal commas, and texts in normal form.

## Main results

* `Scan.words_eq_iff`: a text is cut into words in exactly one way.
* `Scan.adjust_append`, `Scan.adjust_comma`, `Scan.adjust_sign`: normal forms piece by piece.
* `Scan.words_of_ordinary`: a text of ordinary characters is a single word.
* `Scan.signFree_adjust`, `Scan.SignFree.isChain_words`: no sign is left, and no word is one.
* `Scan.normalForm_eq_self_iff`: the normal texts are those that are their own normal form.
-/

namespace Spreadsheet

/-- Lists whose items belong together in pairs are chains alike. -/
theorem isChain_of_forall₂ {α β : Type} {R : α → α → Prop} {R' : β → β → Prop}
    {S : α → β → Prop} {as : List α} {bs : List β}
    (hstep : ∀ a a' b b', S a b → S a' b' → R a a' → R' b b')
    (h : List.Forall₂ S as bs) (hchain : as.IsChain R) : bs.IsChain R' := by
  induction h with
  | nil => exact List.isChain_nil
  | cons hab hrest ih =>
      obtain ⟨hnext, hchain⟩ := List.isChain_cons.mp hchain
      refine List.isChain_cons.mpr ⟨fun b' hb' => ?_, ih hchain⟩
      cases hrest with
      | nil => cases hb'
      | cons hab' _ =>
          obtain rfl := Option.some.inj hb'
          exact hstep _ _ _ _ hab hab' (hnext _ rfl)

namespace Scan

variable {c : Char} {cs rest w : List Char} {ws : List (List Char)} {before : Option Char}

/-! ### Cutting -/

/-- A word is **plain** if it is not empty and contains no separator. -/
def Plain (w : List Char) : Prop :=
  w ≠ [] ∧ ∀ c ∈ w, isSeparator c = false

/-- A word is a **mark** if it is a separator alone. -/
def Mark (w : List Char) : Prop :=
  ∃ c, isSeparator c = true ∧ w = [c]

/-- A mark is not plain. -/
theorem Mark.not_plain (h : Mark w) : ¬ Plain w := by
  obtain ⟨c, hc, rfl⟩ := h
  intro hplain
  rw [hplain.2 c List.mem_cons_self] at hc
  cases hc

/-- Words are **cut** if all of them are marks or plain, and no two plain ones meet. -/
structure Cut (ws : List (List Char)) : Prop where
  /-- Every word is a mark or plain. -/
  plain_or_mark : ∀ w ∈ ws, Plain w ∨ Mark w
  /-- No plain word stands directly behind another one. -/
  isChain : ws.IsChain fun v w => ¬ (Plain v ∧ Plain w)

/-- The words behind the first one are cut as well. -/
theorem Cut.tail (h : Cut (w :: ws)) : Cut ws :=
  ⟨fun v hv => h.plain_or_mark v (List.mem_cons_of_mem w hv), (List.isChain_cons.mp h.isChain).2⟩

/-- Behind a plain word a mark follows, if any word does. -/
theorem Cut.mark_of_plain {v : List Char} (h : Cut (w :: v :: ws)) (hw : Plain w) : Mark v :=
  (h.tail.plain_or_mark v List.mem_cons_self).resolve_left fun hv =>
    (List.isChain_cons_cons.mp h.isChain).1 ⟨hw, hv⟩

/-- A plain word ends where a separator follows, or nothing. -/
theorem Cut.head?_flatten (h : Cut (w :: ws)) (hw : Plain w) :
    ∀ c ∈ ws.flatten.head?, isSeparator c = true := by
  intro c hc
  cases ws with
  | nil => cases hc
  | cons v ws =>
      obtain ⟨d, hd, rfl⟩ := h.mark_of_plain hw
      obtain rfl : d = c := Option.some.inj hc
      exact hd

/-- No word is empty. -/
theorem Cut.nil_notMem (h : Cut ws) : [] ∉ ws := fun hmem => by
  rcases h.plain_or_mark [] hmem with hplain | ⟨c, -, hc⟩
  · exact hplain.1 rfl
  · cases hc

/-- A plain piece of a text is a word if it is followed by a separator or by nothing. -/
theorem words_append (hw : Plain w) (hrest : ∀ c ∈ rest.head?, isSeparator c = true) :
    words (w ++ rest) = w :: words rest := by
  obtain ⟨hne, hw⟩ := hw
  induction w with
  | nil => exact absurd rfl hne
  | cons c w ih =>
      have hc : ¬ isSeparator c = true := by simp [hw c List.mem_cons_self]
      rw [List.cons_append, words, if_neg hc]
      cases w with
      | nil =>
          -- The character is the last one of its word.
          cases rest with
          | nil => rfl
          | cons d rest =>
              have hd : isSeparator d = true := hrest d rfl
              rw [List.nil_append, words, if_pos hd, attach, if_pos hd]
      | cons d w =>
          have hd : ¬ isSeparator d = true := by
            simp [hw d (List.mem_cons_of_mem c List.mem_cons_self)]
          rw [ih (List.cons_ne_nil d w) fun e he => hw e (List.mem_cons_of_mem c he), attach,
            if_neg hd]

/-- Words that are cut are found again. -/
theorem words_flatten (h : Cut ws) : words ws.flatten = ws := by
  induction ws with
  | nil => rfl
  | cons w ws ih =>
      rw [List.flatten_cons]
      rcases h.plain_or_mark w List.mem_cons_self with hw | ⟨c, hc, rfl⟩
      · rw [words_append hw (h.head?_flatten hw), ih h.tail]
      · rw [List.singleton_append, words, if_pos hc, ih h.tail]

/-- A character that is put in front of words joins the first one, unless that is a mark. -/
theorem Cut.attach (h : Cut ws) (hc : isSeparator c = false) : Cut (attach c ws) := by
  have hsingle : Plain [c] := ⟨List.cons_ne_nil c [], by simp [hc]⟩
  rw [Scan.attach.eq_def]
  split
  · rename_i d ds ws
    split
    · rename_i hd
      have hmark : ¬ Plain (d :: ds) := fun hplain => by
        simp [hplain.2 d List.mem_cons_self] at hd
      exact ⟨List.forall_mem_cons.mpr ⟨Or.inl hsingle, h.plain_or_mark⟩,
        List.isChain_cons_cons.mpr ⟨fun hboth => hmark hboth.2, h.isChain⟩⟩
    · rename_i hd
      have hplain : Plain (d :: ds) :=
        (h.plain_or_mark _ List.mem_cons_self).resolve_right fun ⟨e, he, heq⟩ => by
          obtain ⟨rfl, -⟩ := List.cons.inj heq
          exact hd he
      obtain ⟨hnext, hrest⟩ := List.isChain_cons.mp h.isChain
      refine ⟨List.forall_mem_cons.mpr ⟨Or.inl ⟨List.cons_ne_nil _ _, ?_⟩,
        (List.forall_mem_cons.mp h.plain_or_mark).2⟩, List.isChain_cons.mpr ⟨?_, hrest⟩⟩
      · exact List.forall_mem_cons.mpr ⟨hc, hplain.2⟩
      · exact fun v hv hboth => hnext v hv ⟨hplain, hboth.2⟩
  · rename_i hws
    cases ws with
    | nil => exact ⟨by simp [hsingle], List.isChain_singleton [c]⟩
    | cons w ws =>
        cases w with
        | nil => exact absurd List.mem_cons_self h.nil_notMem
        | cons d ds => exact absurd rfl (hws d ds ws)

/-- What a text is cut into is cut. -/
theorem cut_words (cs : List Char) : Cut (words cs) := by
  induction cs with
  | nil => exact ⟨by simp [words], List.isChain_nil⟩
  | cons c cs ih =>
      rw [words]
      split
      · rename_i hc
        have hmark : Mark [c] := ⟨c, hc, rfl⟩
        exact ⟨List.forall_mem_cons.mpr ⟨Or.inr hmark, ih.plain_or_mark⟩,
          List.isChain_cons.mpr ⟨fun v _ hboth => hmark.not_plain hboth.1, ih.isChain⟩⟩
      · rename_i hc
        exact ih.attach (Bool.eq_false_iff.mpr hc)

/-- **A text is cut into words in exactly one way.** -/
theorem words_eq_iff : words cs = ws ↔ Cut ws ∧ ws.flatten = cs := by
  constructor
  · rintro rfl
    exact ⟨cut_words cs, flatten_words cs⟩
  · rintro ⟨h, rfl⟩
    exact words_flatten h

/-! ### Ordinary characters -/

/-- A character is **ordinary** if it means nothing to cutting and to the normal form. -/
def Ordinary (c : Char) : Prop :=
  isSeparator c = false ∧ c ≠ ',' ∧ isBlank c = false

/-- Whether a character is ordinary can be computed. -/
instance (c : Char) : Decidable (Ordinary c) :=
  inferInstanceAs (Decidable (_ ∧ _))

/-- Separators and the comma are neither letters nor digits. -/
theorem ordinary_of_toNat
    (h : 48 ≤ c.toNat ∧ c.toNat ≤ 57 ∨ 65 ≤ c.toNat ∧ c.toNat ≤ 90 ∨
      97 ≤ c.toNat ∧ c.toNat ≤ 122) : Ordinary c := by
  have hne : ∀ d : Char, d.toNat < 48 ∨ d.toNat = 59 ∨ d.toNat = 94 → c ≠ d := by
    rintro d hd rfl
    omega
  refine ⟨?_, hne ',' (by decide), isBlank_eq_false (by omega) (by omega)⟩
  rw [isSeparator]
  simp [hne '+' (by decide), hne '-' (by decide), hne '*' (by decide), hne '/' (by decide),
    hne '^' (by decide), hne '(' (by decide), hne ')' (by decide), hne ';' (by decide)]

/-- Digits are ordinary. -/
theorem ordinary_of_isDigit (h : c.isDigit = true) : Ordinary c :=
  ordinary_of_toNat (Or.inl (isDigit_iff.mp h))

/-- Upper case letters are ordinary. -/
theorem ordinary_of_isUpper (h : c.isUpper = true) : Ordinary c :=
  ordinary_of_toNat (Or.inr (Or.inl (isUpper_iff.mp h)))

/-- Lower case letters are ordinary. -/
theorem ordinary_of_isLower (h : c.isLower = true) : Ordinary c := by
  refine ordinary_of_toNat (Or.inr (Or.inr ?_))
  have hlower : c.isLower = (decide ('a'.val ≤ c.val) && decide (c.val ≤ 'z'.val)) := rfl
  rw [hlower] at h
  simpa [UInt32.le_iff_toNat_le, ← Char.toNat_val] using h

/-- What is ordinary in small letters is so in capital letters. -/
theorem ordinary_of_toLower (h : Ordinary c.toLower) : Ordinary c := by
  by_cases hupper : c.isUpper = true
  · exact ordinary_of_isUpper hupper
  · have hsame : c.toLower = c := by
      refine dif_neg fun hrange => hupper (isUpper_iff.mpr ?_)
      rw [← Char.toNat_val]
      exact ⟨UInt32.le_iff_toNat_le.mp hrange.1, UInt32.le_iff_toNat_le.mp hrange.2⟩
    rwa [hsame] at h

/-- No ordinary character is changed by the normal form. -/
theorem Ordinary.ne (h : Ordinary c) : c ≠ ',' ∧ c ≠ '-' := by
  refine ⟨h.2.1, ?_⟩
  rintro rfl
  cases h.1

/-- A word of ordinary characters is plain. -/
theorem plain_of_ordinary (hne : w ≠ []) (h : ∀ c ∈ w, Ordinary c) : Plain w :=
  ⟨hne, fun c hc => (h c hc).1⟩

/-- No blank separates words. -/
theorem isBlank_of_isSeparator (h : isSeparator c = true) : isBlank c = false := by
  simp only [isSeparator, Bool.or_eq_true, decide_eq_true_eq] at h
  rcases h with ((((((rfl | rfl) | rfl) | rfl) | rfl) | rfl) | rfl) | rfl <;> decide

/-! ### Normal forms -/

/-- A minus sign is taken for a **sign** at the start of a text, and behind an opening bracket or a
separator. -/
def OpensSign (before : Option Char) : Prop :=
  before = none ∨ before = some '(' ∨ before = some ';'

/-- The last character of a piece of text, or what stands before the piece if that is empty. -/
def lastOr (before : Option Char) (cs : List Char) : Option Char :=
  cs.getLast?.or before

/-- After a character, it is the last one until another follows. -/
theorem lastOr_cons : lastOr before (c :: cs) = lastOr (some c) cs := by
  rw [lastOr, lastOr, List.getLast?_cons]
  cases cs.getLast? <;> rfl

/-- The last character of texts in a row is that of the second, or else that of the first. -/
theorem lastOr_append : lastOr before (cs ++ rest) = lastOr (lastOr before cs) rest := by
  rw [lastOr, lastOr, lastOr, List.getLast?_append, Option.or_assoc]

/-- What stands before a piece of text that is not empty does not matter. -/
theorem lastOr_of_ne_nil (before' : Option Char) (h : cs ≠ []) :
    lastOr before cs = lastOr before' cs := by
  rw [lastOr, lastOr, List.getLast?_eq_some_getLast h]
  rfl

/-- Behind a plain piece of text no minus sign is taken for a sign. -/
theorem Plain.not_opensSign (h : Plain w) : ¬ OpensSign (lastOr before w) := by
  have hlast : isSeparator (w.getLast h.1) = false := h.2 _ (List.getLast_mem h.1)
  rw [lastOr, List.getLast?_eq_some_getLast h.1, Option.some_or]
  rintro (hnone | hopen | hsemicolon)
  · cases hnone
  · rw [Option.some.inj hopen] at hlast
    cases hlast
  · rw [Option.some.inj hsemicolon] at hlast
    cases hlast

/-- A piece without commas and minus signs is in normal form. -/
theorem adjust_append (h : ∀ c ∈ cs, c ≠ ',' ∧ c ≠ '-') :
    adjust before (cs ++ rest) = cs ++ adjust (lastOr before cs) rest := by
  induction cs generalizing before with
  | nil => rfl
  | cons c cs ih =>
      obtain ⟨hcomma, hminus⟩ := h c List.mem_cons_self
      rw [List.cons_append, adjust, if_neg (fun hand => hcomma hand.1),
        if_neg (fun hand => hminus hand.1), ih fun d hd => h d (List.mem_cons_of_mem c hd),
        lastOr_cons]
      rfl

/-- A comma between digits becomes a point. -/
theorem adjust_comma {whole fraction : List Char}
    (hwhole : whole ≠ []) (hwhole' : ∀ c ∈ whole, c.isDigit = true)
    (hfraction : fraction ≠ []) (hfraction' : ∀ c ∈ fraction, c.isDigit = true) :
    adjust before (whole ++ ',' :: fraction ++ rest) =
      whole ++ '.' :: fraction ++ adjust (lastOr before (whole ++ '.' :: fraction)) rest := by
  have hdigits : ∀ {cs : List Char}, (∀ c ∈ cs, c.isDigit = true) → ∀ c ∈ cs, c ≠ ',' ∧ c ≠ '-' :=
    fun hcs c hc => (ordinary_of_isDigit (hcs c hc)).ne
  have hbefore : (lastOr before whole).any Char.isDigit = true := by
    rw [lastOr, List.getLast?_eq_some_getLast hwhole, Option.some_or]
    exact hwhole' _ (List.getLast_mem hwhole)
  obtain ⟨d, tail, rfl⟩ := List.exists_cons_of_ne_nil hfraction
  have hd : (d :: tail ++ rest).head?.any Char.isDigit = true := hfraction' d List.mem_cons_self
  calc adjust before (whole ++ ',' :: d :: tail ++ rest)
      = whole ++ adjust (lastOr before whole) (',' :: (d :: tail ++ rest)) := by
        rw [List.append_assoc, adjust_append (hdigits hwhole')]
        rfl
    _ = whole ++ '.' :: adjust (some ',') (d :: tail ++ rest) := by
        rw [adjust, if_pos ⟨rfl, hbefore, hd⟩]
    _ = whole ++ '.' :: d :: tail ++ adjust (lastOr before (whole ++ '.' :: d :: tail)) rest := by
        rw [adjust_append (hdigits hfraction'), lastOr_append, @lastOr_cons '.',
          lastOr_of_ne_nil (some '.') hfraction, List.append_assoc]
        rfl

/-- A minus sign that follows an operand stays. -/
theorem adjust_minus (h : ¬ OpensSign before) :
    adjust before ('-' :: rest) = '-' :: adjust (some '-') rest := by
  rw [adjust, if_neg (by simp), if_neg (fun hand => h hand.2)]

/-- A minus sign that opens a text or a part of it is given a zero. -/
theorem adjust_sign (h : OpensSign before) :
    adjust before ('-' :: rest) = '0' :: '-' :: adjust (some '-') rest := by
  rw [adjust, if_neg (by simp), if_pos ⟨rfl, h⟩]

/-- A text of ordinary characters is a single word in normal form. -/
theorem words_of_ordinary (hne : cs ≠ []) (h : ∀ c ∈ cs, Ordinary c) :
    words (normalForm cs) = [cs] := by
  have hblank : cs.filter (fun c => !isBlank c) = cs :=
    List.filter_eq_self.mpr fun c hc => by rw [(h c hc).2.2]; rfl
  have hadjust : adjust none cs = cs := by
    have hstays := @adjust_append cs [] none fun c hc => (h c hc).ne
    rwa [List.append_nil, adjust, List.append_nil] at hstays
  rw [normalForm, hblank, hadjust, words_eq_iff]
  refine ⟨⟨fun w hw => ?_, List.isChain_singleton cs⟩, List.flatten_singleton⟩
  exact Or.inl (List.mem_singleton.mp hw ▸ plain_of_ordinary hne h)

/-- No minus sign of a text stands where it would be taken for a sign. -/
def SignFree (before : Option Char) (cs : List Char) : Prop :=
  (before :: cs.map some).IsChain fun b c => c = some '-' → ¬ OpensSign b

/-- A text is free of signs if its first character is none, and if the others are free of them. -/
theorem signFree_cons :
    SignFree before (c :: cs) ↔ (c = '-' → ¬ OpensSign before) ∧ SignFree (some c) cs := by
  rw [SignFree, List.map_cons, List.isChain_cons_cons, Option.some.injEq]
  rfl

/-- **A text that has been adjusted is free of signs**, for every sign has been given a zero. -/
theorem signFree_adjust {before' : Option Char} (h : OpensSign before' → OpensSign before) :
    SignFree before' (adjust before cs) := by
  induction cs generalizing before before' with
  | nil => exact List.isChain_singleton before'
  | cons c cs ih =>
      rw [adjust]
      split
      · exact signFree_cons.mpr ⟨fun h => absurd h (by decide), ih (by simp [OpensSign])⟩
      · split
        · rename_i hsign
          refine signFree_cons.mpr ⟨fun h => absurd h (by decide),
            signFree_cons.mpr ⟨by simp [OpensSign], ih ?_⟩⟩
          rw [hsign.1]
          exact id
        · rename_i hsign
          exact signFree_cons.mpr ⟨fun hc hopens => hsign ⟨hc, h hopens⟩, ih id⟩

/-- In a text without signs no minus sign is the first word, and none stands behind an opening
bracket or a separator. -/
theorem SignFree.isChain_words (h : SignFree none cs) :
    (words cs).head? ≠ some ['-'] ∧
      (words cs).IsChain fun v w => w = ['-'] → v ≠ ['('] ∧ v ≠ [';'] := by
  have hcs : (words cs).flatten = cs := flatten_words cs
  have hchars := List.isChain_cons.mp h
  rw [List.isChain_map] at hchars
  constructor
  · intro hhead
    obtain ⟨ws, hws⟩ := List.head?_eq_some_iff.mp hhead
    rw [hws] at hcs
    exact hchars.1 (some '-') (by rw [← hcs]; rfl) rfl (Or.inl rfl)
  · have hchain := hchars.2
    rw [← hcs, List.isChain_flatten (cut_words cs).nil_notMem] at hchain
    refine hchain.2.imp fun v w hvw hw => ?_
    subst hw
    refine ⟨?_, ?_⟩
    · rintro rfl
      exact hvw '(' rfl '-' rfl rfl (Or.inr (Or.inl rfl))
    · rintro rfl
      exact hvw ';' rfl '-' rfl rfl (Or.inr (Or.inr rfl))

/-! ### Normal texts -/

/-- No comma of a text stands between two digits. -/
def CommaFree (before : Option Char) : List Char → Prop
  | [] => True
  | c :: rest =>
    (c = ',' → ¬ (before.any Char.isDigit = true ∧ rest.head?.any Char.isDigit = true)) ∧
      CommaFree (some c) rest

/-- Where no sign can stand, adjusting a text neither adds nor removes a digit at its start. -/
theorem any_isDigit_head?_adjust (h : ¬ OpensSign before) :
    (adjust before cs).head?.any Char.isDigit = cs.head?.any Char.isDigit := by
  cases cs with
  | nil => rfl
  | cons c rest =>
      rw [adjust]
      split
      · rename_i hcomma
        rw [hcomma.1]
        rfl
      · rw [if_neg fun hsign => h hsign.2]
        rfl

/-- **A text that has been adjusted has no comma between two digits**, for every such comma has
become a point. -/
theorem commaFree_adjust {before' : Option Char}
    (h : before'.any Char.isDigit = true → before.any Char.isDigit = true) :
    CommaFree before' (adjust before cs) := by
  induction cs generalizing before before' with
  | nil => trivial
  | cons c cs ih =>
      rw [adjust]
      split
      · exact ⟨fun h => absurd h (by decide), ih (by simp)⟩
      · rename_i hcomma
        split
        · rename_i hsign
          refine ⟨fun h => absurd h (by decide), fun h => absurd h (by decide), ih ?_⟩
          rw [hsign.1]
          exact id
        · refine ⟨?_, ih id⟩
          rintro rfl ⟨hbefore, hnext⟩
          rw [any_isDigit_head?_adjust (by simp [OpensSign])] at hnext
          exact hcomma ⟨rfl, h hbefore, hnext⟩

/-- Nothing else is adjusted. -/
theorem adjust_eq_self (hcommas : CommaFree before cs) (hsigns : SignFree before cs) :
    adjust before cs = cs := by
  induction cs generalizing before with
  | nil => rfl
  | cons c cs ih =>
      obtain ⟨hcomma, hcommas⟩ := hcommas
      obtain ⟨hsign, hsigns⟩ := signFree_cons.mp hsigns
      rw [adjust, if_neg fun h => hcomma h.1 h.2, if_neg fun h => hsign h.1 h.2, ih hcommas hsigns]

/-- Adjusting a text puts nothing into it but points and zeros. -/
theorem mem_adjust (h : c ∈ adjust before cs) : c ∈ cs ∨ c = '.' ∨ c = '0' := by
  induction cs generalizing before with
  | nil => exact absurd h List.not_mem_nil
  | cons d cs ih =>
      have hrest : ∀ {before}, c ∈ adjust before cs → c ∈ d :: cs ∨ c = '.' ∨ c = '0' :=
        fun hmem => (ih hmem).imp_left (List.mem_cons_of_mem d)
      rw [adjust] at h
      split at h
      · rcases List.mem_cons.mp h with rfl | hmem
        · exact Or.inr (Or.inl rfl)
        · exact hrest hmem
      · split at h
        · rename_i hsign
          rcases List.mem_cons.mp h with rfl | hmem
          · exact Or.inr (Or.inr rfl)
          · rcases List.mem_cons.mp hmem with rfl | hmem
            · exact Or.inl (hsign.1 ▸ List.mem_cons_self)
            · exact hrest hmem
        · rcases List.mem_cons.mp h with rfl | hmem
          · exact Or.inl List.mem_cons_self
          · exact hrest hmem

/-- A text is **normal** if there is nothing in it for the normal form to change: no blank, no comma
between two digits, and no minus sign that would be taken for a sign. -/
structure Normal (cs : List Char) : Prop where
  /-- No character is a blank. -/
  blankFree : ∀ c ∈ cs, isBlank c = false
  /-- No comma stands between two digits. -/
  commaFree : CommaFree none cs
  /-- No minus sign is a sign. -/
  signFree : SignFree none cs

/-- The normal form of a text is normal. -/
theorem normal_normalForm (cs : List Char) : Normal (normalForm cs) := by
  refine ⟨fun c hc => ?_, commaFree_adjust id, signFree_adjust id⟩
  rcases mem_adjust hc with hmem | rfl | rfl
  · simpa using (List.mem_filter.mp hmem).2
  · decide
  · decide

/-- The normal texts are those that are their own normal form. -/
theorem normalForm_eq_self_iff : normalForm cs = cs ↔ Normal cs := by
  constructor
  · intro h
    exact h ▸ normal_normalForm cs
  · intro h
    have hvisible : cs.filter (fun c => !isBlank c) = cs :=
      List.filter_eq_self.mpr fun c hc => by rw [h.blankFree c hc]; rfl
    rw [normalForm, hvisible, adjust_eq_self h.commaFree h.signFree]

/-- **The normal form of a text is its own normal form.** -/
theorem normalForm_normalForm (cs : List Char) : normalForm (normalForm cs) = normalForm cs :=
  normalForm_eq_self_iff.mpr (normal_normalForm cs)

end Scan

end Spreadsheet
