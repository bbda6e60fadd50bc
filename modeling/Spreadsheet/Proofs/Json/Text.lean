import Mathlib.Data.List.DropRight
import Mathlib.Tactic.SplitIfs
import Mathlib.Data.Nat.Notation
import Spreadsheet.Json.Decode
import Spreadsheet.Json.Printer

/-!
# Printed JSON is Read Back

A tree that is *plain*, without breaks and halves of surrogate pairs, and whose numbers are
numerals of the notation, is printed as a text that is read back as the tree
(`Json.readsBack`). What follows a printed tree may not continue a numeral; a comma, a bracket
and a line break never do.

The reader spends fuel on every level and on every item. The printed text of a tree has at
least one character for each of them, so twice its length is enough fuel, and the induction
goes over the depth of the tree with the items of a level inside.

## Main definitions

* `Json.isNumeral`: whether a text is a number of the notation.
* `Json.ReadsBack`: trees of a depth are read back.

## Main results

* `Json.spanString?_escape`: every string is read back.
* `Json.readsBack`: every plain tree is read back.
* `Json.read_pretty`: so is every plain tree in a whole text.
-/

namespace Spreadsheet

namespace Json

variable {c d : Char} {cs ds r rest tail : List Char} {j : Json} {depth level fuel : ℕ}

/-! ### Strings -/

/-- A hexadecimal digit is read back. -/
theorem hexValue?_hexDigit (n : ℕ) : hexValue? (hexDigit n) = some (n % 16) := by
  have hall : ∀ d < 16, hexValue? (Nat.digitChar d) = some d := by decide
  exact hall _ (Nat.mod_lt n (by decide))

/-- A backslash and a letter are read as the character that they stand for. -/
theorem units?_backslash (hc : unescape? c = some d) :
    units? ('\\' :: c :: cs) = (units? cs).map fun p => (d.toNat :: p.1, p.2) := by
  rw [units?.eq_4 c cs, hc]
  · cases units? cs <;> rfl
  · rintro _ _ _ _ _ rfl
    cases hc

/-- An escaped character is read back, whatever follows. -/
theorem units?_escape_append (c : Char) (cs : List Char) :
    units? (escape c ++ cs) = (units? cs).map fun p => (c.toNat :: p.1, p.2) := by
  rw [escape]
  split_ifs with hquote hslash hback htab hline hform hreturn hcontrol
  · subst hquote
    exact units?_backslash rfl
  · subst hslash
    exact units?_backslash rfl
  · subst hback
    exact units?_backslash rfl
  · subst htab
    exact units?_backslash rfl
  · subst hline
    exact units?_backslash rfl
  · subst hform
    exact units?_backslash rfl
  · subst hreturn
    exact units?_backslash rfl
  · have hzero : hexValue? '0' = some 0 := rfl
    have hvalue : hexValue4? '0' '0' (hexDigit (c.toNat / 16)) (hexDigit c.toNat) =
        some c.toNat := by
      rw [hexValue4?, hzero, hexValue?_hexDigit, hexValue?_hexDigit]
      simp only [bind, Option.bind, pure]
      congr 1
      omega
    simp only [List.cons_append, List.nil_append, units?, hvalue]
    cases units? cs <;> rfl
  · rw [List.singleton_append, units?.eq_5 c cs hquote (fun _ _ _ _ _ h => absurd h hslash)
      (fun _ _ h => absurd h hslash), if_neg hcontrol]
    cases units? cs <;> rfl

/-- The code units of a text are those of its characters, for no character is half of a
surrogate pair. -/
theorem textOfUnits?_map_toNat (cs : List Char) : textOfUnits? (cs.map Char.toNat) = some cs := by
  induction cs with
  | nil => rfl
  | cons c cs ih =>
      have hvalid : c.toNat < 0xD800 ∨ 0xDFFF < c.toNat := by
        rcases c.valid with h | h
        · exact Or.inl h
        · exact Or.inr h.1
      rw [List.map_cons, textOfUnits?.eq_def]
      dsimp only
      rw [if_neg (by omega), if_neg (by omega), ih, Option.map_some, Char.ofNat_toNat]

/-- **Every string is read back.** -/
theorem spanString?_escape (s : String) (rest : List Char) :
    spanString? (s.toList.flatMap escape ++ '"' :: rest) = some (some s, rest) := by
  have hunits : ∀ cs : List Char,
      units? (cs.flatMap escape ++ '"' :: rest) = some (cs.map Char.toNat, rest) := by
    intro cs
    induction cs with
    | nil => rfl
    | cons c cs ih =>
        rw [List.flatMap_cons, List.append_assoc, units?_escape_append, ih]
        rfl
  rw [spanString?, hunits]
  dsimp only [Option.map_some]
  rw [textOfUnits?_map_toNat, Option.map_some, String.ofList_toList]

/-! ### Numerals -/

/-- Whether a text is a number of the notation. -/
def isNumeral (cs : List Char) : Bool :=
  spanNumber? cs = some (cs, [])

/-- What follows a numeral **ends** it: it begins with nothing that could continue one. -/
def Ends (rest : List Char) : Prop :=
  ∀ c ∈ rest.head?, c.isDigit = false ∧ c ≠ '.' ∧ c ≠ 'e' ∧ c ≠ 'E'

/-- A character that no numeral goes on with ends one. -/
theorem ends_of_ne (hdigit : c.isDigit = false) (hpoint : c ≠ '.') (he : c ≠ 'e') (hE : c ≠ 'E') :
    Ends (c :: rest) := by
  rintro d ⟨⟩
  exact ⟨hdigit, hpoint, he, hE⟩

/-- What ends a numeral adds no digits to it. -/
theorem takeWhile_append_of_ends (h : Ends rest) (cs : List Char) :
    (cs ++ rest).takeWhile Char.isDigit = cs.takeWhile Char.isDigit := by
  induction cs with
  | nil =>
      cases rest with
      | nil => rfl
      | cons c rest => simp [(h c rfl).1]
  | cons c cs ih =>
      rw [List.cons_append, List.takeWhile_cons, List.takeWhile_cons, ih]

/-- What ends a numeral is left behind its digits. -/
theorem dropWhile_append_of_ends (h : Ends rest) (cs : List Char) :
    (cs ++ rest).dropWhile Char.isDigit = cs.dropWhile Char.isDigit ++ rest := by
  induction cs with
  | nil =>
      cases rest with
      | nil => rfl
      | cons c rest => simp [(h c rfl).1]
  | cons c cs ih =>
      rw [List.cons_append, List.dropWhile_cons, List.dropWhile_cons, ih]
      split <;> rfl

/-- Digits that are read begin with one. -/
theorem exists_digit_of_spanDigits? (h : spanDigits? cs = some (ds, r)) :
    ∃ d cs', cs = d :: cs' ∧ d.isDigit = true := by
  cases cs with
  | nil => cases h
  | cons d cs =>
      cases hd : d.isDigit with
      | true => exact ⟨d, cs, rfl, hd⟩
      | false =>
          rw [spanDigits?, List.takeWhile_cons_of_neg (by simp [hd])] at h
          cases h

/-- Digits are read the same before what ends them. -/
theorem spanDigits?_append (h : Ends rest) (hcs : spanDigits? cs = some (ds, r)) :
    spanDigits? (cs ++ rest) = some (ds, r ++ rest) := by
  rw [spanDigits?] at hcs ⊢
  rw [takeWhile_append_of_ends h, dropWhile_append_of_ends h]
  split at hcs
  · cases hcs
  · rename_i hne
    cases hcs
    rw [if_neg hne]

/-- A fraction is read as before if what follows ends the numeral. -/
theorem spanFraction?_append (h : Ends rest) (hcs : spanFraction? cs = some (ds, r)) :
    spanFraction? (cs ++ rest) = some (ds, r ++ rest) := by
  rw [spanFraction?.eq_def] at hcs
  split at hcs
  · obtain ⟨⟨digits, r'⟩, hdigits, heq⟩ := Option.map_eq_some_iff.mp hcs
    cases heq
    rw [List.cons_append, spanFraction?, spanDigits?_append h hdigits]
    rfl
  · rename_i hpoint
    cases hcs
    refine spanFraction?.eq_2 _ fun cs' hcs' => ?_
    cases cs with
    | nil =>
        rw [List.nil_append] at hcs'
        exact (h '.' (hcs' ▸ rfl)).2.1 rfl
    | cons c cs =>
        obtain ⟨rfl, -⟩ := List.cons.inj hcs'
        exact hpoint cs rfl

/-- An exponent is read as before if what follows ends the numeral. -/
theorem spanExponent?_append (h : Ends rest) (hcs : spanExponent? cs = some (ds, r)) :
    spanExponent? (cs ++ rest) = some (ds, r ++ rest) := by
  cases cs with
  | nil =>
      cases hcs
      cases rest with
      | nil => rfl
      | cons c rest =>
          rw [List.nil_append, spanExponent?.eq_def]
          dsimp only
          rw [if_neg (by simp [(h c rfl).2.2])]
  | cons c cs =>
      rw [spanExponent?.eq_def] at hcs ⊢
      dsimp only [List.cons_append] at hcs ⊢
      by_cases hmark : c = 'e' ∨ c = 'E'
      · rw [if_pos hmark] at hcs ⊢
        split at hcs
        · obtain ⟨⟨digits, r'⟩, hdigits, heq⟩ := Option.map_eq_some_iff.mp hcs
          cases heq
          show Option.map _ (spanDigits? (_ ++ rest)) = _
          rw [spanDigits?_append h hdigits]
          rfl
        · obtain ⟨⟨digits, r'⟩, hdigits, heq⟩ := Option.map_eq_some_iff.mp hcs
          cases heq
          show Option.map _ (spanDigits? (_ ++ rest)) = _
          rw [spanDigits?_append h hdigits]
          rfl
        · obtain ⟨⟨digits, r'⟩, hdigits, heq⟩ := Option.map_eq_some_iff.mp hcs
          cases heq
          obtain ⟨d, cs', rfl, hd⟩ := exists_digit_of_spanDigits? hdigits
          -- A digit is no sign, so the sign is missing here, too.
          split
          · rename_i hplus
            obtain ⟨rfl, -⟩ := List.cons.inj hplus
            exact absurd hd (by decide)
          · rename_i hminus
            obtain ⟨rfl, -⟩ := List.cons.inj hminus
            exact absurd hd (by decide)
          · rw [spanDigits?_append h hdigits]
            rfl
      · rw [if_neg hmark] at hcs ⊢
        cases hcs
        rfl

/-- A magnitude is read as before if what follows ends the numeral. -/
theorem spanMagnitude?_append (h : Ends rest) (hcs : spanMagnitude? cs = some (ds, r)) :
    spanMagnitude? (cs ++ rest) = some (ds, r ++ rest) := by
  simp only [spanMagnitude?, bind, Option.bind_eq_some_iff] at hcs
  obtain ⟨⟨whole, r₁⟩, hwhole, hcs⟩ := hcs
  by_cases hzero : whole.head? = some '0' ∧ whole.length ≠ 1
  · simp [hzero] at hcs
  · simp only [if_neg hzero, Option.bind_eq_some_iff] at hcs
    obtain ⟨⟨fraction, r₂⟩, hfraction, ⟨exponent, r₃⟩, hexponent, heq⟩ := hcs
    cases heq
    simp only [spanMagnitude?, bind, spanDigits?_append h hwhole, Option.bind_some, if_neg hzero,
      spanFraction?_append h hfraction, spanExponent?_append h hexponent]
    rfl

/-- A number begins with a sign or a digit. -/
theorem exists_of_spanNumber? (h : spanNumber? cs = some (ds, r)) :
    ∃ c cs', cs = c :: cs' ∧ (c = '-' ∨ c.isDigit = true) := by
  rw [spanNumber?.eq_def] at h
  split at h
  · exact ⟨_, _, rfl, Or.inl rfl⟩
  · simp only [spanMagnitude?, bind, Option.bind_eq_some_iff] at h
    obtain ⟨⟨whole, r₁⟩, hwhole, -⟩ := h
    obtain ⟨c, cs', rfl, hc⟩ := exists_digit_of_spanDigits? hwhole
    exact ⟨c, cs', rfl, Or.inr hc⟩

/-- A number is read the same before what ends it. -/
theorem spanNumber?_append (h : Ends rest) (hcs : spanNumber? cs = some (ds, r)) :
    spanNumber? (cs ++ rest) = some (ds, r ++ rest) := by
  obtain ⟨c, cs', rfl, -⟩ := exists_of_spanNumber? hcs
  rw [spanNumber?.eq_def] at hcs
  split at hcs
  · rename_i cs'' heq
    obtain ⟨⟨digits, r'⟩, hdigits, heq'⟩ := Option.map_eq_some_iff.mp hcs
    cases heq
    cases heq'
    rw [List.cons_append, spanNumber?, spanMagnitude?_append h hdigits]
    rfl
  · rename_i hminus
    have hne : ∀ cs'', c :: cs' ++ rest ≠ '-' :: cs'' := by
      intro cs'' heq
      obtain ⟨rfl, -⟩ := List.cons.inj heq
      exact hminus cs' rfl
    rw [spanNumber?.eq_2 _ hne]
    exact spanMagnitude?_append h hcs

/-! ### Blanks -/

/-- A character **opens** a tree if it is no blank, and if it closes no list. -/
def Opens (c : Char) : Prop :=
  c ≠ ' ' ∧ c ≠ '\n' ∧ c ≠ '\t' ∧ c ≠ '\r' ∧ c ≠ ']'

/-- Whether a character opens a tree can be computed. -/
instance (c : Char) : Decidable (Opens c) :=
  inferInstanceAs (Decidable (_ ∧ _))

/-- A digit opens a tree. -/
theorem opens_of_isDigit (h : c.isDigit = true) : Opens c := by
  refine ⟨?_, ?_, ?_, ?_, ?_⟩ <;>
  · rintro rfl
    exact absurd h (by decide)

/-- What opens a tree is not skipped. -/
theorem skip_of_opens (h : Opens c) : skip (c :: cs) = c :: cs := by
  obtain ⟨hspace, hline, htab, hreturn, -⟩ := h
  exact List.dropWhile_cons_of_neg (by simp [hspace, hline, htab, hreturn])

/-- Once blanks have been skipped, nothing more is. -/
theorem skip_skip (cs : List Char) : skip (skip cs) = skip cs :=
  List.dropWhile_idempotent ..

/-- A new line and its indentation are skipped. -/
theorem skip_newline (level : ℕ) (cs : List Char) : skip (newline level ++ cs) = skip cs := by
  have hblank : ∀ n : ℕ, skip (List.replicate n ' ' ++ cs) = skip cs := by
    intro n
    induction n with
    | zero => rfl
    | succ n ih => exact ih
  exact hblank (2 * level)

/-- Blanks before a tree do not count. -/
theorem readTree_skip (fuel : ℕ) (cs : List Char) : readTree fuel (skip cs) = readTree fuel cs := by
  cases fuel with
  | zero => rfl
  | succ fuel => rw [readTree, readTree, skip_skip]

/-- Blanks before the items of a list do not count. -/
theorem readItems_skip (fuel : ℕ) (cs : List Char) :
    readItems fuel (skip cs) = readItems fuel cs := by
  cases fuel with
  | zero => rfl
  | succ fuel => rw [readItems, readItems, readTree_skip]

/-- Blanks before the fields of an object do not count. -/
theorem readFields_skip (fuel : ℕ) (cs : List Char) :
    readFields fuel (skip cs) = readFields fuel cs := by
  cases fuel with
  | zero => rfl
  | succ fuel => rw [readFields, readFields, skip_skip]

/-- A tree may stand on a line of its own. -/
theorem readTree_newline (fuel level : ℕ) (cs : List Char) :
    readTree fuel (newline level ++ cs) = readTree fuel cs := by
  rw [← readTree_skip, skip_newline, readTree_skip]

/-! ### Trees -/

/-- Items are plain if each of them is. -/
theorem allPlain_iff {ok : List Char → Bool} {items : List Json} :
    allPlain ok depth items = true ↔ ∀ j ∈ items, j.isPlain ok depth = true := by
  induction items with
  | nil => simp [allPlain]
  | cons j items ih => simp [allPlain, ih]

/-- A printed tree begins with a character that opens one. -/
theorem exists_opens_prettyChars (h : j.isPlain isNumeral depth = true) (level : ℕ) :
    ∃ c cs, j.prettyChars level = c :: cs ∧ Opens c := by
  cases j with
  | null => exact ⟨_, _, rfl, by decide⟩
  | bool b => cases b <;> exact ⟨_, _, rfl, by decide⟩
  | number spelling =>
      have hnumeral : isNumeral spelling = true := by
        simpa only [isPlain] using h
      obtain ⟨c, cs, rfl, hc⟩ := exists_of_spanNumber? (of_decide_eq_true hnumeral)
      refine ⟨c, cs, rfl, ?_⟩
      rcases hc with rfl | hc
      · decide
      · exact opens_of_isDigit hc
  | string content => exact ⟨_, _, rfl, by decide⟩
  | list items => cases items <;> exact ⟨_, _, rfl, by decide⟩
  | object fields => cases fields <;> exact ⟨_, _, rfl, by decide⟩
  | broken => cases h

/-- A numeral is read back. -/
theorem readTree_numeral (h : isNumeral cs = true) (hrest : Ends rest) :
    readTree (fuel + 1) (cs ++ rest) = (.number cs, rest) := by
  have hspan : spanNumber? cs = some (cs, []) := of_decide_eq_true h
  have hnumber := spanNumber?_append hrest hspan
  obtain ⟨c, cs', rfl, hc⟩ := exists_of_spanNumber? hspan
  have hopens : Opens c := by
    rcases hc with rfl | hc
    · decide
    · exact opens_of_isDigit hc
  have hne : ∀ d : Char, d ≠ '-' → d.isDigit = false → c ≠ d := by
    rintro d hminus hdigit rfl
    rcases hc with rfl | hc
    · exact hminus rfl
    · rw [hdigit] at hc
      cases hc
  have hatom : atom (c :: cs' ++ rest) = (.number (c :: cs'), rest) := by
    rw [atom.eq_def]
    split
    · rename_i heq
      exact absurd (List.cons.inj heq).1 (hne _ (by decide) (by decide))
    · rename_i heq
      exact absurd (List.cons.inj heq).1 (hne _ (by decide) (by decide))
    · rename_i heq
      exact absurd (List.cons.inj heq).1 (hne _ (by decide) (by decide))
    · rw [hnumber]
      rfl
  rw [readTree, List.cons_append, skip_of_opens hopens]
  split
  · rename_i heq
    exact absurd (List.cons.inj heq).1 (hne _ (by decide) (by decide))
  · rename_i heq
    exact absurd (List.cons.inj heq).1 (hne _ (by decide) (by decide))
  · rename_i heq
    exact absurd (List.cons.inj heq).1 (hne _ (by decide) (by decide))
  · exact hatom

/-- What begins with an opening bracket and does not go on with a closing one is read as the
items of a list. -/
theorem readTree_list (h : ∀ cs', skip cs ≠ ']' :: cs') :
    readTree (fuel + 1) ('[' :: cs) =
      (.list (readItems fuel cs).1, (readItems fuel cs).2) := by
  simp only [readTree, skip_of_opens (by decide : Opens '[')]
  rw [readItems_skip]

/-- What begins with an opening brace and does not go on with a closing one is read as the
fields of an object. -/
theorem readTree_object (h : ∀ cs', skip cs ≠ '}' :: cs') :
    readTree (fuel + 1) ('{' :: cs) =
      (.object (readFields fuel cs).1, (readFields fuel cs).2) := by
  simp only [readTree, skip_of_opens (by decide : Opens '{')]
  rw [readFields_skip]

/-- Printed trees at most `depth` deep **are read back**, before anything that ends a numeral
and with enough fuel. -/
def ReadsBack (depth : ℕ) : Prop :=
  ∀ ⦃j : Json⦄ ⦃level fuel : ℕ⦄ ⦃rest : List Char⦄, j.isPlain isNumeral depth = true → Ends rest →
    2 * (j.prettyChars level).length ≤ fuel →
      readTree fuel (j.prettyChars level ++ rest) = (j, rest)

/-- The items of a list are read back if trees of their depth are. -/
theorem ReadsBack.readItems (hread : ReadsBack depth) {items : List Json} (hne : items ≠ [])
    (hplain : allPlain isNumeral depth items = true) (htail : skip tail = ']' :: rest)
    (hends : Ends tail) (hfuel : 2 * (prettyItems level items).length ≤ fuel) :
    Json.readItems fuel (prettyItems level items ++ tail) = (items, rest) := by
  induction items generalizing fuel with
  | nil => exact absurd rfl hne
  | cons j items ih =>
      simp only [allPlain, Bool.and_eq_true] at hplain
      obtain ⟨hj, hitems⟩ := hplain
      cases items with
      | nil =>
          simp only [prettyItems, newline, List.length_append, List.length_cons] at hfuel
          obtain ⟨fuel, rfl⟩ : ∃ f, fuel = f + 1 := ⟨fuel - 1, by omega⟩
          rw [prettyItems, Json.readItems, List.append_assoc, readTree_newline,
            hread hj hends (by omega)]
          simp only [htail]
      | cons k items =>
          simp only [prettyItems, newline, List.length_append, List.length_cons] at hfuel
          obtain ⟨fuel, rfl⟩ : ∃ f, fuel = f + 1 := ⟨fuel - 1, by omega⟩
          have hcomma : Ends (',' :: (prettyItems level (k :: items) ++ tail)) :=
            ends_of_ne (by decide) (by decide) (by decide) (by decide)
          have htext : prettyItems level (j :: k :: items) ++ tail = newline level ++
              (prettyChars level j ++ ',' :: (prettyItems level (k :: items) ++ tail)) := by
            simp [prettyItems]
          rw [htext, Json.readItems, readTree_newline, hread hj hcomma (by omega)]
          simp only [skip_of_opens (by decide : Opens ',')]
          rw [ih (List.cons_ne_nil _ _) hitems (by omega)]

/-- A field is read as its name and its value. A comma behind it goes on with the next one, and a
brace ends the object. -/
theorem readFields_field {name : String} (hread : readTree fuel cs = (j, tail)) :
    (∀ rest, skip tail = ',' :: rest →
      Json.readFields (fuel + 1) (newline level ++ (quote name ++ ':' :: ' ' :: cs)) =
        ((some name, j) :: (readFields fuel rest).1, (readFields fuel rest).2)) ∧
    ∀ rest, skip tail = '}' :: rest →
      Json.readFields (fuel + 1) (newline level ++ (quote name ++ ':' :: ' ' :: cs)) =
        ([(some name, j)], rest) := by
  have hspace : readTree fuel (' ' :: cs) = (j, tail) := by
    rw [← readTree_skip, ← hread, ← readTree_skip fuel cs]
    rfl
  have hname : quote name ++ ':' :: ' ' :: cs =
      '"' :: (name.toList.flatMap escape ++ '"' :: ':' :: ' ' :: cs) := by
    simp [quote]
  rw [← readFields_skip, skip_newline, readFields_skip, hname]
  constructor <;>
  · intro rest htail
    simp only [readFields, skip_of_opens (by decide : Opens '"'), spanString?_escape,
      skip_of_opens (by decide : Opens ':'), hspace, htail]

/-- The fields of an object are read back if trees of their depth are. -/
theorem ReadsBack.readFields (hread : ReadsBack depth) {fields : List (Option String × Json)}
    (hne : fields ≠ []) (hplain : fieldsPlain isNumeral depth fields = true)
    (htail : skip tail = '}' :: rest) (hends : Ends tail)
    (hfuel : 2 * (prettyFields level fields).length ≤ fuel) :
    Json.readFields fuel (prettyFields level fields ++ tail) = (fields, rest) := by
  induction fields generalizing fuel with
  | nil => exact absurd rfl hne
  | cons f fields ih =>
      obtain ⟨name?, j⟩ := f
      simp only [fieldsPlain, Bool.and_eq_true] at hplain
      obtain ⟨⟨hname, hj⟩, hfields⟩ := hplain
      obtain ⟨name, rfl⟩ := Option.isSome_iff_exists.mp hname
      cases fields with
      | nil =>
          simp only [prettyFields, newline, List.length_append, List.length_cons] at hfuel
          obtain ⟨fuel, rfl⟩ : ∃ f, fuel = f + 1 := ⟨fuel - 1, by omega⟩
          have htext : prettyFields level [(some name, j)] ++ tail = newline level ++
              (quote name ++ ':' :: ' ' :: (prettyChars level j ++ tail)) := by
            simp [prettyFields]
          rw [htext, (readFields_field (hread hj hends (by omega))).2 _ htail]
      | cons g fields =>
          simp only [prettyFields, newline, List.length_append, List.length_cons] at hfuel
          obtain ⟨fuel, rfl⟩ : ∃ f, fuel = f + 1 := ⟨fuel - 1, by omega⟩
          have hcomma : Ends (',' :: (prettyFields level (g :: fields) ++ tail)) :=
            ends_of_ne (by decide) (by decide) (by decide) (by decide)
          have htext : prettyFields level ((some name, j) :: g :: fields) ++ tail =
              newline level ++ (quote name ++ ':' :: ' ' :: (prettyChars level j ++
                ',' :: (prettyFields level (g :: fields) ++ tail))) := by
            simp [prettyFields]
          rw [htext, (readFields_field (hread hj hcomma (by omega))).1 _
            (skip_of_opens (by decide)), ih (List.cons_ne_nil _ _) hfields (by omega)]

/-- The items of a list do not begin with a closing bracket. -/
theorem skip_prettyItems_ne {items : List Json}
    (hplain : allPlain isNumeral depth (j :: items) = true) (cs : List Char) :
    skip (prettyItems level (j :: items) ++ tail) ≠ ']' :: cs := by
  simp only [allPlain, Bool.and_eq_true] at hplain
  obtain ⟨c, cs', hchars, hopens⟩ := exists_opens_prettyChars hplain.1 level
  obtain ⟨more, hmore⟩ : ∃ more, prettyItems level (j :: items) ++ tail =
      newline level ++ (c :: more) := by
    cases items with
    | nil => exact ⟨cs' ++ tail, by simp [prettyItems, hchars]⟩
    | cons k items =>
        exact ⟨cs' ++ ',' :: (prettyItems level (k :: items) ++ tail), by
          simp [prettyItems, hchars]⟩
  rw [hmore, skip_newline, skip_of_opens hopens]
  intro heq
  exact hopens.2.2.2.2 (List.cons.inj heq).1

/-- The fields of an object do not begin with a closing brace. -/
theorem skip_prettyFields_ne {f : Option String × Json} {fields : List (Option String × Json)}
    (cs : List Char) : skip (prettyFields level (f :: fields) ++ tail) ≠ '}' :: cs := by
  obtain ⟨more, hmore⟩ : ∃ more, prettyFields level (f :: fields) ++ tail =
      newline level ++ ('"' :: more) := by
    cases fields with
    | nil => exact ⟨_, by simp [prettyFields, quote]; rfl⟩
    | cons g fields => exact ⟨_, by simp [prettyFields, quote]; rfl⟩
  rw [hmore, skip_newline, skip_of_opens (by decide)]
  rintro ⟨⟩

/-- What a level of a tree ends with. -/
theorem ends_newline (level : ℕ) (cs : List Char) : Ends (newline level ++ cs) :=
  ends_of_ne (by decide) (by decide) (by decide) (by decide)

/-- A tree is read back if the trees inside it are. -/
theorem readsBack_of_lt (hdeep : ∀ d < depth, ReadsBack d) : ReadsBack depth := by
  intro j level fuel rest hplain hends hfuel
  obtain ⟨c, cs, hchars, -⟩ := exists_opens_prettyChars hplain level
  obtain ⟨fuel, rfl⟩ : ∃ f, fuel = f + 1 := by
    rw [hchars, List.length_cons] at hfuel
    exact ⟨fuel - 1, by omega⟩
  cases j with
  | null => rfl
  | bool b => cases b <;> rfl
  | number spelling =>
      rw [isPlain] at hplain
      exact readTree_numeral hplain hends
  | string content =>
      rw [isPlain] at hplain
      obtain ⟨s, rfl⟩ := Option.isSome_iff_exists.mp hplain
      have htext : prettyChars level (.string (some s)) ++ rest =
          '"' :: (s.toList.flatMap escape ++ '"' :: rest) := by
        simp [prettyChars, quote]
      rw [htext]
      simp only [readTree, skip_of_opens (by decide : Opens '"'), spanString?_escape]
  | list items =>
      cases depth with
      | zero => cases hplain
      | succ depth =>
          rw [isPlain] at hplain
          cases items with
          | nil => rfl
          | cons k items =>
              have htail : skip (newline level ++ ']' :: rest) = ']' :: rest := skip_newline _ _
              have htext : prettyChars level (.list (k :: items)) ++ rest =
                  '[' :: (prettyItems (level + 1) (k :: items) ++
                    (newline level ++ ']' :: rest)) := by
                simp [prettyChars]
              simp only [prettyChars, List.length_cons, List.length_append] at hfuel
              rw [htext, readTree_list (skip_prettyItems_ne hplain),
                (hdeep depth (Nat.lt_succ_self _)).readItems (List.cons_ne_nil _ _) hplain htail
                  (ends_newline _ _) (by omega)]
  | object fields =>
      cases depth with
      | zero => cases hplain
      | succ depth =>
          rw [isPlain] at hplain
          cases fields with
          | nil => rfl
          | cons f fields =>
              have htail : skip (newline level ++ '}' :: rest) = '}' :: rest := skip_newline _ _
              have htext : prettyChars level (.object (f :: fields)) ++ rest =
                  '{' :: (prettyFields (level + 1) (f :: fields) ++
                    (newline level ++ '}' :: rest)) := by
                simp [prettyChars]
              simp only [prettyChars, List.length_cons, List.length_append] at hfuel
              rw [htext, readTree_object (skip_prettyFields_ne),
                (hdeep depth (Nat.lt_succ_self _)).readFields (List.cons_ne_nil _ _) hplain htail
                  (ends_newline _ _) (by omega)]
  | broken => cases hplain

/-- **Every plain tree is read back.** -/
theorem readsBack (depth : ℕ) : ReadsBack depth := by
  induction depth using Nat.strong_induction_on with
  | _ depth ih => exact readsBack_of_lt ih

/-- A plain tree that is the whole of a text but for a line break is read back. -/
theorem read_pretty {α : Type} {value : Json → Except JsonError α}
    (h : j.isPlain isNumeral depth = true) : Json.read value (j.pretty ++ "\n") = value j := by
  have htext : (j.pretty ++ "\n").toList = j.prettyChars 0 ++ ['\n'] := by
    rw [String.toList_append, pretty, String.toList_ofList]
    rfl
  have hends : Ends ['\n'] := ends_of_ne (by decide) (by decide) (by decide) (by decide)
  have hread : ofChars (j.pretty ++ "\n").toList = (j, ['\n']) := by
    rw [ofChars, htext]
    refine readsBack depth h hends ?_
    rw [List.length_append]
    omega
  have hblank : (skip ['\n']).isEmpty = true := rfl
  rw [Json.read, hread]
  simp only [hblank]
  cases value j <;> rfl

end Json

end Spreadsheet
