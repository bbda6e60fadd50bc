import Mathlib.Data.List.Basic
import Spreadsheet.Proofs.Address.Names
import Spreadsheet.Proofs.Number.ReadBack
import Spreadsheet.Proofs.Sheet.Entries
import Spreadsheet.Sheet.Listing

/-!
# Listings are Read Back

What a listing can hold of a cell is what fits on one line: a finite number, a text or a
formula without a line feed, and a formula must not end with a blank and must have the tokens
of its text. Such a cell is *listable*, and its line is read back as the cell, whatever
characters a text is made of (`Listing.readLine_body`). Line by line, the listing of a sheet
whose cells are listable is read back as the sheet without its empty cells
(`Sheet.survives_ofListing_toListing`).

Conversely nothing else can come out of a listing (`Sheet.listable_of_ofListing`), so what is
not listable does not survive.

## Main definitions

* `Content.Listable`, `Cell.Listable`: what a listing can hold.

## Main results

* `Listing.readLine_body`: the line of a listable cell is read back.
* `Sheet.survives_ofListing_toListing`: a sheet whose cells are listable survives.
* `Sheet.listable_of_ofListing`: what is read from a listing is listable.
-/

namespace Spreadsheet

/-! ### Texts in quotes -/

namespace Quoted

variable {c : Char} {cs inner : List Char}

/-- Quoting puts in nothing but backslashes. -/
theorem mem_of_mem_encode (h : c ∈ encode cs) : c = '\\' ∨ c ∈ cs := by
  obtain ⟨d, hd, hc⟩ := List.mem_flatMap.mp h
  rw [escape] at hc
  split at hc
  · rcases List.mem_cons.mp hc with rfl | hc
    · exact Or.inl rfl
    · exact Or.inr (List.mem_singleton.mp hc ▸ hd)
  · exact Or.inr (List.mem_singleton.mp hc ▸ hd)

/-- Reading what stands between quotes puts in nothing. -/
theorem mem_of_mem_decode (h : c ∈ decode cs) : c ∈ cs := by
  induction cs using decode.induct with
  | case1 d rest hd ih =>
      rw [decode, if_pos hd] at h
      grind
  | case2 d rest hd ih =>
      rw [decode, if_neg hd] at h
      grind
  | case3 d rest hd ih =>
      rw [decode] at h
      · grind
      · exact hd
  | case4 => exact h

/-- What stands between quotes is what is left of the text without its two ends. -/
theorem eq_of_inner? (h : inner? cs = some inner) : cs = '"' :: (inner ++ ['"']) := by
  rw [inner?.eq_def] at h
  split at h
  · split at h
    · rename_i hlast
      obtain rfl := Option.some.inj h
      rw [List.dropLast_append_getLast? _ hlast]
    · simp at h
  · simp at h

/-- What stands between quotes is part of the text. -/
theorem mem_of_inner? (h : inner? cs = some inner) (hc : c ∈ inner) : c ∈ cs := by
  rw [eq_of_inner? h]
  exact List.mem_cons_of_mem _ (List.mem_append_left _ hc)

end Quoted

/-! ### Lines -/

/-- No line of a text contains a line feed. -/
theorem not_mem_of_mem_lines {cs l : List Char} (h : l ∈ lines cs) : '\n' ∉ l := by
  induction cs generalizing l with
  | nil =>
      obtain rfl := List.mem_singleton.mp h
      exact List.not_mem_nil
  | cons c cs ih =>
      rw [lines] at h
      split at h
      · rcases List.mem_cons.mp h with rfl | h
        · exact List.not_mem_nil
        · exact ih h
      · rename_i hc
        cases hlines : lines cs with
        | nil => exact absurd hlines (lines_ne_nil cs)
        | cons first rest =>
            rw [hlines, consLine] at h
            rcases List.mem_cons.mp h with rfl | h
            · intro hmem
              rcases List.mem_cons.mp hmem with heq | hmem
              · exact hc heq.symm
              · exact ih (hlines ▸ List.mem_cons_self) hmem
            · exact ih (hlines ▸ List.mem_cons_of_mem _ h)

/-! ### Divided texts -/

/-- A text is divided at the first of some character if that is not in the front part. -/
theorem eq_append_cons_iff {cs front rest : List Char} {c : Char} :
    cs = front ++ c :: rest ∧ c ∉ front ↔
      cs.takeWhile (· ≠ c) = front ∧ cs.dropWhile (· ≠ c) = c :: rest := by
  constructor
  · rintro ⟨rfl, hfront⟩
    have hpos : ∀ x ∈ front, decide (x ≠ c) = true := fun x hx =>
      decide_eq_true fun hxc => hfront (hxc ▸ hx)
    rw [List.takeWhile_append_of_pos hpos, List.dropWhile_append_of_pos hpos]
    simp
  · rintro ⟨rfl, hrest⟩
    refine ⟨?_, fun hc => by simpa using List.mem_takeWhile_imp hc⟩
    rw [← hrest, List.takeWhile_append_dropWhile]

/-! ### What a listing can hold -/

/-- What a listing can hold: it fits on one line, and nothing of it is lost. -/
def Content.Listable : Content → Prop
  | .empty => True
  | .number x => x.isFinite = true
  | .text s => '\n' ∉ s.toList
  | .formula f =>
    '\n' ∉ f.source.toList ∧ (∀ c ∈ f.source.toList.getLast?, isBlank c = false) ∧
      f = .ofSource f.source

/-- A cell is **listable** if a listing can hold what it holds, and if its references are
those of its formula. -/
structure Cell.Listable (c : Cell) : Prop where
  /-- What the cell holds fits on one line. -/
  content : c.content.Listable
  /-- The cell lists what its formula refers to. -/
  references : c.references = Token.references (c.tokens?.getD [])

namespace Listing

variable {a : Address} {c : Cell} {v : List Char}

/-! ### Values -/

/-- What stands behind the colon for listable contents is one line without blanks at its
ends. -/
theorem trimmed_value {x : Content} (hx : x.Listable) (hv : value? x = some v) :
    Trimmed v ∧ v ≠ [] ∧ '\n' ∉ v := by
  cases x with
  | empty => cases hv
  | number x =>
      cases hv
      have hchars : ∀ c ∈ Number.plainChars x, isBlank c = false := by
        intro c hc
        rcases Number.mem_plainChars hx hc with hdigit | rfl | rfl
        · exact isBlank_eq_false_of_isDigit hdigit
        · decide
        · decide
      refine ⟨trimmed_of_forall hchars, fun hnil => ?_, fun hline => ?_⟩
      · have hread := Number.read?_plainChars hx
        rw [hnil] at hread
        cases hread
      · exact absurd (hchars _ hline) (by decide)
  | text s =>
      cases hv
      refine ⟨⟨?_, ?_⟩, List.cons_ne_nil _ _, ?_⟩
      · rintro c ⟨⟩
        decide
      · rw [← List.cons_append, List.getLast?_concat]
        rintro c ⟨⟩
        decide
      · intro hline
        simp only [List.mem_cons, List.mem_append] at hline
        rcases hline with hline | hline | hline
        · cases hline
        · rcases Quoted.mem_of_mem_encode hline with hline | hline
          · cases hline
          · exact hx hline
        · simp at hline
  | formula f =>
      cases hv
      obtain ⟨hline, hlast, -⟩ := hx
      refine ⟨⟨?_, ?_⟩, List.cons_ne_nil _ _, ?_⟩
      · rintro c ⟨⟩
        decide
      · intro c hc
        rw [List.getLast?_cons] at hc
        cases hsource : f.source.toList.getLast? with
        | none =>
            rw [hsource] at hc
            cases hc
            decide
        | some d =>
            rw [hsource] at hc
            cases hc
            exact hlast d hsource
      · simpa using hline

/-- What stands behind the colon for a listable cell is read back. -/
theorem readValue_value (hc : c.Listable) (hv : value? c.content = some v) :
    readValue v = .ok c := by
  obtain ⟨content, references⟩ := c
  obtain ⟨hcontent, hrefs⟩ := hc
  cases content with
  | empty => cases hv
  | number x =>
      cases hv
      obtain rfl : references = [] := hrefs
      have hchars : ∀ c ∈ Number.plainChars x, c ≠ '=' ∧ c ≠ '"' := by
        intro c hc
        rcases Number.mem_plainChars hcontent hc with hdigit | rfl | rfl
        · constructor <;>
          · rintro rfl
            cases hdigit
        · decide
        · decide
      have hinner : Quoted.inner? (Number.plainChars x) = none := by
        rw [Quoted.inner?.eq_def]
        split
        · rename_i rest hrest
          exact absurd rfl (hchars '"' (hrest ▸ List.mem_cons_self)).2
        · rfl
      show readValue (Number.plainChars x) = _
      rw [readValue, hinner, Number.read?_plainChars hcontent]
      · have hfinite : x.isFinite = true := hcontent
        rw [Option.filter_some, if_pos hfinite]
        rfl
      · intro hnil
        have hread := Number.read?_plainChars hcontent
        rw [hnil] at hread
        cases hread
      · intro source hsource
        exact absurd rfl (hchars '=' (hsource ▸ List.mem_cons_self)).1
  | text s =>
      cases hv
      obtain rfl : references = [] := hrefs
      show readValue ('"' :: (Quoted.encode s.toList ++ ['"'])) = _
      rw [readValue, Quoted.inner?_enclosed]
      · dsimp only
        rw [Quoted.decode_encode, String.ofList_toList]
        rfl
      · exact fun hnil => List.cons_ne_nil _ _ hnil
      · rintro source ⟨⟩
  | formula f =>
      cases hv
      obtain rfl : references = Token.references f.tokens := hrefs
      obtain ⟨-, -, hf⟩ := hcontent
      rw [readValue, String.ofList_toList, ← hf]
      rfl

/-- What is read behind a colon is listable. -/
theorem listable_of_readValue (htrim : Trimmed v) (hline : '\n' ∉ v)
    (h : readValue v = .ok c) : c.Listable := by
  rw [readValue.eq_def] at h
  split at h
  · cases h
    exact ⟨trivial, rfl⟩
  · rename_i source
    cases h
    refine ⟨⟨?_, ?_, ?_⟩, rfl⟩
    · show '\n' ∉ (String.ofList source).toList
      rw [String.toList_ofList]
      exact fun hmem => hline (List.mem_cons_of_mem _ hmem)
    · show ∀ c ∈ (String.ofList source).toList.getLast?, isBlank c = false
      rw [String.toList_ofList]
      intro c hc
      refine htrim.last c ?_
      rw [List.getLast?_cons, hc]
      rfl
    · rfl
  · split at h
    · rename_i content hinner
      cases h
      refine ⟨?_, rfl⟩
      show '\n' ∉ (String.ofList (Quoted.decode content)).toList
      rw [String.toList_ofList]
      exact fun hmem => hline (Quoted.mem_of_inner? hinner (Quoted.mem_of_mem_decode hmem))
    · split at h
      · rename_i x hx
        cases h
        exact ⟨(Option.filter_eq_some_iff.mp hx).2, rfl⟩
      · cases h

/-! ### Lines -/

/-- The line of a cell without its line feed. -/
def body (a : Address) (v : List Char) : List Char :=
  a.nameChars ++ ':' :: ' ' :: v

/-- The line of a cell is its body and a line feed. -/
theorem line?_eq (a : Address) (c : Cell) :
    line? a c = (value? c.content).map fun v => body a v ++ ['\n'] := by
  simp [line?, body]

/-- **The line of a listable cell is read back.** -/
theorem readLine_body (ha : a.Within) (hc : c.Listable) (hv : value? c.content = some v) :
    readLine (trim (body a v)) = .ok (some (a, c)) := by
  obtain ⟨htrim, hne, -⟩ := trimmed_value hc.content hv
  have hname : ∀ d ∈ a.nameChars, d ≠ ':' ∧ d ≠ '#' ∧ isBlank d = false ∧ d.toUpper = d := by
    intro d hd
    have hclass := (Address.isName_nameChars a).isUpper_or_isDigit hd
    have hrange : (65 ≤ d.toNat ∧ d.toNat ≤ 90) ∨ 48 ≤ d.toNat ∧ d.toNat ≤ 57 := by
      rwa [isUpper_iff, isDigit_iff] at hclass
    refine ⟨?_, ?_, isBlank_eq_false (by omega) (by omega), toUpper_of_isUpper_or_isDigit hclass⟩
    · rintro rfl
      revert hrange
      decide
    · rintro rfl
      revert hrange
      decide
  have hhead : ∀ d ∈ (body a v).head?, d ∈ a.nameChars := by
    obtain ⟨d, ds, hds⟩ := List.exists_cons_of_ne_nil a.nameChars_ne_nil
    rw [body, hds]
    rintro d ⟨⟩
    exact List.mem_cons_self
  have hbody : Trimmed (body a v) := by
    refine ⟨fun d hd => (hname d (hhead d hd)).2.2.1, fun d hd => ?_⟩
    have hsplit : body a v = (a.nameChars ++ [':', ' ']) ++ v := by simp [body]
    rw [hsplit, List.getLast?_append_of_ne_nil _ hne] at hd
    exact htrim.last d hd
  have hreadName : readName a.nameChars = .ok a := by
    have hupper : a.nameChars.map Char.toUpper = a.nameChars :=
      (List.map_congr_left fun d hd => (hname d hd).2.2.2).trans (List.map_id' _)
    rw [readName, trim_of_trimmed (trimmed_of_forall fun d hd => (hname d hd).2.2.1)]
    simp only [hupper, Address.readChars?_nameChars ha]
  have hcolon : ∀ d ∈ a.nameChars, decide (d ≠ ':') = true := fun d hd =>
    decide_eq_true (hname d hd).1
  have hdrop : (body a v).dropWhile (· ≠ ':') = ':' :: ' ' :: v := by
    rw [body, List.dropWhile_append_of_pos hcolon]
    rfl
  have htake : (body a v).takeWhile (· ≠ ':') = a.nameChars := by
    rw [body, List.takeWhile_append_of_pos hcolon]
    exact List.append_nil _
  have hcell : ¬ ((body a v).isEmpty = true ∨ (body a v).head? = some '#') := by
    rintro (hempty | hcomment)
    · exact absurd (List.isEmpty_iff.mp hempty) (by simp [body])
    · exact (hname '#' (hhead '#' hcomment)).2.1 rfl
  rw [trim_of_trimmed hbody, readLine, if_neg hcell, hdrop, htake, hreadName]
  simp only [trim_cons_of_isBlank (by decide : isBlank ' ' = true), trim_of_trimmed htrim,
    readValue_value hc hv]
  rfl

/-- What is read from a line is listable, and its address is within the limits. -/
theorem listable_of_readLine {l : List Char} (hline : '\n' ∉ l)
    (h : readLine (trim l) = .ok (some (a, c))) : a.Within ∧ c.Listable := by
  rw [readLine] at h
  split at h
  · cases h
  · split at h
    · cases h
    · rename_i rest hrest
      cases hname : readName ((trim l).takeWhile (· ≠ ':')) with
      | error fault =>
          rw [hname] at h
          cases h
      | ok b =>
          cases hvalue : readValue (trim rest) with
          | error fault =>
              rw [hname, hvalue] at h
              cases h
          | ok d =>
              rw [hname, hvalue] at h
              cases h
              constructor
              · rw [readName] at hname
                split at hname
                · rename_i a' ha'
                  cases hname
                  exact Address.within_of_readChars? ha'
                · cases hname
              · refine listable_of_readValue (trimmed_trim rest) (fun hmem => hline ?_) hvalue
                have hrest' : '\n' ∈ (trim l).dropWhile (· ≠ ':') := by
                  rw [hrest]
                  exact List.mem_cons_of_mem _ (mem_of_mem_trim hmem)
                exact mem_of_mem_trim ((List.dropWhile_sublist _).mem hrest')

/-! ### Whole texts -/

/-- Something stands behind the colon unless the cell is empty. -/
theorem isSome_value? (c : Cell) : (value? c.content).isSome = !c.isEmpty := by
  obtain ⟨content, references⟩ := c
  cases content <;> simp [Cell.isEmpty, value?]

/-- The line of a cell is one line. -/
theorem not_mem_body (hv : '\n' ∉ v) : '\n' ∉ body a v := by
  intro hmem
  rcases List.mem_append.mp hmem with hname | hmem
  · have hclass := (Address.isName_nameChars a).isUpper_or_isDigit hname
    revert hclass
    decide
  · simp [hv] at hmem

/-- The lines of filled and listable entries are read back. -/
theorem readLines_lines {es : List (Address × Cell)}
    (h : ∀ e ∈ es, e.2.isEmpty = false ∧ e.1.Within ∧ e.2.Listable) (n : ℕ) :
    readLines n (lines (es.filterMap fun e => line? e.1 e.2).flatten) = .ok es := by
  induction es generalizing n with
  | nil => rfl
  | cons e es ih =>
      obtain ⟨a, c⟩ := e
      obtain ⟨hempty, ha, hc⟩ := h (a, c) List.mem_cons_self
      obtain ⟨v, hv⟩ : ∃ v, value? c.content = some v := by
        rw [← Option.isSome_iff_exists, isSome_value?, hempty]
        rfl
      have hline : line? a c = some (body a v ++ ['\n']) := by
        rw [line?_eq, hv, Option.map_some]
      have hbody : '\n' ∉ body a v := not_mem_body (trimmed_value hc.content hv).2.2
      rw [List.filterMap_cons_some (f := fun e : Address × Cell => line? e.1 e.2) hline,
        List.flatten_cons, List.append_assoc, List.singleton_append, lines_append,
        lines_of_not_mem hbody, List.singleton_append, readLines, readLine_body ha hc hv,
        ih fun e he => h e (List.mem_cons_of_mem _ he)]
      rfl

/-- What is read from lines without line feeds is listable. -/
theorem listable_of_readLines {ls : List (List Char)} {n : ℕ} {es : List (Address × Cell)}
    (hlines : ∀ l ∈ ls, '\n' ∉ l) (h : readLines n ls = .ok es) :
    ∀ e ∈ es, e.1.Within ∧ e.2.Listable := by
  induction ls generalizing n es with
  | nil =>
      cases h
      exact fun e he => absurd he List.not_mem_nil
  | cons l ls ih =>
      rw [readLines] at h
      split at h
      · cases h
      · rename_i entry hentry
        cases hrest : readLines (n + 1) ls with
        | error fault =>
            rw [hrest] at h
            cases h
        | ok es' =>
            rw [hrest] at h
            cases h
            intro e he
            rcases List.mem_append.mp he with he | he
            · cases entry with
              | none => cases he
              | some entry =>
                  obtain rfl := List.mem_singleton.mp he
                  exact listable_of_readLine (hlines l List.mem_cons_self) hentry
            · exact ih (fun l hl => hlines l (List.mem_cons_of_mem _ hl)) hrest e he

end Listing

/-! ### Sheets -/

namespace Sheet

variable {s t : Sheet} {a : Address} {c : Cell}

/-- A listing is made of the filled entries. -/
theorem toListing_eq (s : Sheet) : s.toListing = String.ofList
    (Listing.header.toList ++ (s.filled.filterMap fun e => Listing.line? e.1 e.2).flatten) := by
  rw [toListing, filterMap_entries fun e => ?_]
  rw [Listing.line?_eq, Option.isSome_map, Listing.isSome_value?]

/-- Of a cell nothing is listed but what stands behind its colon. -/
theorem toListing_congr
    (h : ∀ a, ((s.get? a).bind fun c => Listing.value? c.content) =
      (t.get? a).bind fun c => Listing.value? c.content) : s.toListing = t.toListing := by
  have hlines := filterMap_entries_congr (g := fun a v => Listing.body a v ++ ['\n']) h
  simp only [← Listing.line?_eq] at hlines
  rw [toListing, toListing, hlines]

/-- **A sheet whose cells are listable survives** being listed. -/
theorem survives_ofListing_toListing
    (h : ∀ a c, s.get? a = some c → c.isEmpty = false → a.Within ∧ c.Listable) :
    s.Survives (ofListing s.toListing) := by
  have hheader : Listing.header.toList = "# Cellcalc Spreadsheet".toList ++ ['\n'] := by
    decide +kernel
  have hcomment : Listing.readLine (trim "# Cellcalc Spreadsheet".toList) = .ok none := by
    decide +kernel
  have hread : Listing.readLines 2
      (lines (s.filled.filterMap fun e => Listing.line? e.1 e.2).flatten) = .ok s.filled := by
    refine Listing.readLines_lines (fun e he => ?_) 2
    obtain ⟨hget, hempty⟩ := mem_filled.mp he
    exact ⟨hempty, h e.1 e.2 hget hempty⟩
  have hlisting : ofListing s.toListing = .ok (ofList s.filled) := by
    rw [ofListing, toListing_eq, String.toList_ofList, hheader, List.append_assoc,
      List.singleton_append, lines_append, lines_of_not_mem (by decide +kernel),
      List.singleton_append, Listing.readLines, hcomment, hread]
    rfl
  rw [hlisting]
  exact s.survives_ofList_filled

/-- **What is read from a listing is listable**, and its address is within the limits. -/
theorem listable_of_ofListing {text : String} (h : ofListing text = .ok t)
    (hc : t.get? a = some c) : a.Within ∧ c.Listable := by
  rw [ofListing] at h
  cases hread : Listing.readLines 1 (lines text.toList) with
  | error fault =>
      rw [hread] at h
      cases h
  | ok es =>
      rw [hread] at h
      cases h
      exact Listing.listable_of_readLines (fun l => not_mem_of_mem_lines) hread _
        (mem_of_get?_ofList hc)

end Sheet

end Spreadsheet
