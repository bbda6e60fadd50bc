import Spreadsheet.Proofs.Sheet.Listing

/-!
# Listings One Behind the Other

A listing is read line by line, and no line has any influence on how another one is read. So of two
texts with a line feed between them the second one is read as it would be on its own, but for the
numbers of its lines, and its sheet is put over that of the first (`Sheet.ofListing_append`). In any
listing the first faulty line is reported, and if there is none, the last line that names a cell
decides what it holds (`Sheet.ofListing_eq_error_iff`, `Sheet.get?_ofListing`).

How lines end is of no account. An empty last line says nothing, and a carriage return in front of a
line feed is a blank at the end of its line. It makes no difference whether they are counted as
belonging to the ends of the lines (`Listing.readLines_endedLines`).

## Main definitions

* `Sheet.overlaid`: a sheet with the entries of another one put over its own.
* `ListingError.below`: the same fault, some lines further down.
* `Listing.Says`: a line says what a cell holds.
* `Listing.LastSays`, `Listing.FirstFault`: which of some lines decides.
* `endedLines`: the lines of a text without their ends.

## Main results

* `Listing.readLines_append`, `Sheet.ofListing_append`: a listing behind another one.
* `Listing.readLine_trim_iff`: what is read from a line is what it says.
* `Sheet.get?_ofListing`: the last line that names a cell decides what it holds.
* `Sheet.ofListing_eq_error_iff`: the first faulty line is what is wrong with a listing.
* `Sheet.listing_line_by_line`: a listing is read line by line.
-/

namespace Spreadsheet

/-! ### Sheets over one another -/

namespace Sheet

/-- The sheet with the entries of another one put over its own. -/
def overlaid (s t : Sheet) : Sheet :=
  t.entries.foldl (fun s e => s.insert e.1 e.2) s

/-- Entries that are put in hide those that were there before. -/
theorem get?_foldl_insert (s : Sheet) (es : List (Address × Cell)) (a : Address) :
    (es.foldl (fun s e => s.insert e.1 e.2) s).get? a =
      ((ofList es).get? a).or (s.get? a) := by
  induction es using List.reverseRecOn with
  | nil => rw [ofList, List.foldl_nil, List.foldl_nil, get?_empty, Option.none_or]
  | append_singleton es e ih =>
      rw [ofList, List.foldl_append, List.foldl_append, ← ofList]
      simp only [List.foldl_cons, List.foldl_nil, get?_insert]
      split
      · rfl
      · exact ih

/-- The sheet of a sheet's entries is the sheet. -/
theorem ofList_entries (s : Sheet) : ofList s.entries = s := by
  ext a : 1
  ext c
  rw [get?_ofList s.distinct_entries, mem_entries]

/-- A cell of the second sheet covers that of the first. -/
theorem get?_overlaid (s t : Sheet) (a : Address) :
    (s.overlaid t).get? a = (t.get? a).or (s.get? a) := by
  rw [overlaid, get?_foldl_insert, ofList_entries]

/-- A list behind another one makes a sheet over that of the first. -/
theorem ofList_append (es es' : List (Address × Cell)) :
    ofList (es ++ es') = (ofList es).overlaid (ofList es') := by
  ext a : 1
  rw [get?_overlaid, ofList, List.foldl_append, ← ofList, get?_foldl_insert]

end Sheet

/-! ### Numbers of lines -/

/-- The same fault, some lines further down. -/
def ListingError.below (e : ListingError) (n : ℕ) : ListingError :=
  { e with line := e.line + n }

/-- A text has one line more than it has line feeds. -/
theorem length_lines (cs : List Char) : (lines cs).length = cs.count '\n' + 1 := by
  induction cs with
  | nil => rfl
  | cons c cs ih =>
      rw [lines]
      split
      · rename_i hc
        rw [List.length_cons, ih, hc, List.count_cons_self]
      · rename_i hc
        rw [List.count_cons_of_ne hc, ← ih]
        cases hlines : lines cs with
        | nil => exact absurd hlines (lines_ne_nil cs)
        | cons l ls => rfl

namespace Listing

/-- The number of the first line shows in the number of a faulty one only. -/
theorem readLines_add (n k : ℕ) (ls : List (List Char)) :
    readLines (n + k) ls = (readLines n ls).mapError (·.below k) := by
  induction ls generalizing n with
  | nil => rfl
  | cons l ls ih =>
      rw [readLines, readLines]
      cases readLine (trim l) with
      | error fault => rfl
      | ok entry =>
          dsimp only
          rw [Nat.add_right_comm, ih]
          cases readLines (n + 1) ls <;> rfl

/-- **Lines behind other lines** are read once these have been read. -/
theorem readLines_append (n : ℕ) (ls ls' : List (List Char)) :
    readLines n (ls ++ ls') =
      (readLines n ls).bind fun es => (readLines (n + ls.length) ls').map (es ++ ·) := by
  induction ls generalizing n with
  | nil =>
      rw [List.nil_append, readLines, List.length_nil, Nat.add_zero]
      cases readLines n ls' <;> rfl
  | cons l ls ih =>
      rw [List.cons_append, readLines, readLines]
      cases readLine (trim l) with
      | error fault => rfl
      | ok entry =>
          dsimp only
          rw [ih, List.length_cons, Nat.add_right_comm]
          cases readLines (n + 1) ls with
          | error e => rfl
          | ok es =>
              cases readLines (n + ls.length + 1) ls' <;>
                simp [Except.map, Except.bind, List.append_assoc]

/-! ### What a line says -/

variable {l : List Char} {ls : List (List Char)} {n : ℕ} {a : Address} {c : Cell}

/-- A line **says** of a cell what it holds: it is no comment, the cell's name stands before its
first colon, in capital or small letters, and what the cell holds stands behind it. -/
def Says (l : List Char) (a : Address) (c : Cell) : Prop :=
  ∃ name value, trim l = name ++ ':' :: value ∧ ':' ∉ name ∧ name.head? ≠ some '#' ∧
    (a.Within ∧ a.nameChars = (trim name).map Char.toUpper) ∧ readValue (trim value) = .ok c

/-- A name is read if it is that of an address within the limits, in any case and with blanks around
it. -/
theorem readName_eq_ok_iff {cs : List Char} :
    readName cs = .ok a ↔ a.Within ∧ a.nameChars = (trim cs).map Char.toUpper := by
  rw [← Address.readChars?_eq_some_iff, readName]
  cases Address.readChars? ((trim cs).map Char.toUpper) <;> simp

/-- A line with a colon is read part by part. -/
theorem readLine_divided {name value : List Char} (hcolon : ':' ∉ name)
    (hcomment : name.head? ≠ some '#') :
    readLine (name ++ ':' :: value) = do
      let a ← readName name
      let c ← readValue (trim value)
      return some (a, c) := by
  obtain ⟨htake, hdrop⟩ :=
    eq_append_cons_iff.mp ⟨(rfl : name ++ ':' :: value = name ++ ':' :: value), hcolon⟩
  have hcell : ¬ ((name ++ ':' :: value).isEmpty = true ∨
      (name ++ ':' :: value).head? = some '#') := by
    cases name with
    | nil => simp
    | cons d ds => simpa using hcomment
  rw [readLine, if_neg hcell, htake, hdrop]

/-- On a line from which a cell is read there is a colon. -/
theorem mem_of_readLine {cs : List Char} (h : readLine cs = .ok (some (a, c))) : ':' ∈ cs := by
  by_contra hcolon
  have hdrop : cs.dropWhile (· ≠ ':') = [] :=
    List.dropWhile_eq_nil_iff.mpr fun d hd => decide_eq_true fun hd' => hcolon (hd' ▸ hd)
  rw [readLine, hdrop] at h
  split at h <;> cases h

/-- **What is read from a line is what it says.** -/
theorem readLine_trim_iff : readLine (trim l) = .ok (some (a, c)) ↔ Says l a c := by
  simp only [Says, ← readName_eq_ok_iff]
  constructor
  · intro h
    obtain ⟨name, value, hl, hcolon⟩ := List.eq_append_cons_of_mem (mem_of_readLine h)
    have hcomment : name.head? ≠ some '#' := by
      intro hhead
      have hskip : readLine (trim l) = .ok none := if_pos (Or.inr (by rw [hl]; simp [hhead]))
      rw [hskip] at h
      cases h
    rw [hl, readLine_divided hcolon hcomment] at h
    refine ⟨name, value, hl, hcolon, hcomment, ?_⟩
    cases hname : readName name with
    | error fault => rw [hname] at h; cases h
    | ok b =>
        cases hvalue : readValue (trim value) with
        | error fault => rw [hname, hvalue] at h; cases h
        | ok d =>
            rw [hname, hvalue] at h
            cases h
            exact ⟨rfl, rfl⟩
  · rintro ⟨name, value, hl, hcolon, hcomment, hname, hvalue⟩
    rw [hl, readLine_divided hcolon hcomment, hname, hvalue]
    rfl

/-- Among some lines the last one that names a cell says what it holds. -/
def LastSays (ls : List (List Char)) (a : Address) (c : Cell) : Prop :=
  ∃ before l after, ls = before ++ l :: after ∧ Says l a c ∧ ∀ l' ∈ after, ∀ d, ¬ Says l' a d

/-- Where there are no lines, nothing is said of any cell. -/
theorem not_lastSays_nil : ¬ LastSays [] a c := by
  rintro ⟨before, l, after, hls, -⟩
  simp at hls

/-- The last line decides if it names the cell, and otherwise the lines before it do. -/
theorem lastSays_append_singleton :
    LastSays (ls ++ [l]) a c ↔ Says l a c ∨ (∀ d, ¬ Says l a d) ∧ LastSays ls a c := by
  constructor
  · rintro ⟨before, l', after, hls, htells, hlater⟩
    rcases List.eq_nil_or_concat after with rfl | ⟨after, last, rfl⟩
    · obtain ⟨rfl, rfl⟩ := List.append_singleton_inj.mp hls
      exact Or.inl htells
    · rw [List.concat_eq_append, ← List.cons_append, ← List.append_assoc] at hls
      obtain ⟨rfl, rfl⟩ := List.append_singleton_inj.mp hls
      simp only [List.concat_eq_append, List.mem_append, List.mem_singleton] at hlater
      exact Or.inr ⟨hlater l (Or.inr rfl), before, l', after, rfl, htells,
        fun l'' hl'' => hlater l'' (Or.inl hl'')⟩
  · rintro (htells | ⟨hnot, before, l', after, rfl, htells, hlater⟩)
    · exact ⟨ls, l, [], rfl, htells, nofun⟩
    · refine ⟨before, l', after ++ [l], by simp, htells, fun l'' hl'' d => ?_⟩
      rcases List.mem_append.mp hl'' with hl'' | hl''
      · exact hlater l'' hl'' d
      · exact List.mem_singleton.mp hl'' ▸ hnot d

/-- **The last line that names a cell** decides what it holds. -/
theorem get?_of_readLines {es : List (Address × Cell)} (h : readLines n ls = .ok es) :
    (Sheet.ofList es).get? a = some c ↔ LastSays ls a c := by
  induction ls using List.reverseRecOn generalizing es with
  | nil =>
      cases h
      exact iff_of_false (by simp [Sheet.ofList]) not_lastSays_nil
  | append_singleton ls l ih =>
      rw [readLines_append, readLines] at h
      cases hbefore : readLines n ls with
      | error e => rw [hbefore] at h; cases h
      | ok before =>
          cases hline : readLine (trim l) with
          | error fault => rw [hbefore, hline] at h; cases h
          | ok entry =>
              rw [hbefore, hline] at h
              cases h
              simp only [Sheet.ofList_append, Sheet.get?_overlaid, lastSays_append_singleton,
                ← ih hbefore, ← readLine_trim_iff, hline]
              cases entry with
              | none => simp [Sheet.ofList]
              | some e =>
                  obtain ⟨b, d⟩ := e
                  by_cases hb : b = a <;> simp [Sheet.ofList, Sheet.get?_insert, hb]

/-! ### Faulty lines -/

/-- Among some lines the first faulty one has this fault, if the first line has this number. -/
def FirstFault (n : ℕ) (ls : List (List Char)) (e : ListingError) : Prop :=
  ∃ before l after, ls = before ++ l :: after ∧ e.line = n + before.length ∧
    readLine (trim l) = .error e.fault ∧ ∀ l' ∈ before, ∃ entry, readLine (trim l') = .ok entry

/-- A first line that is faulty is the first faulty one. -/
theorem firstFault_cons_of_error {e : ListingError} {fault : LineFault}
    (hline : readLine (trim l) = .error fault) : FirstFault n (l :: ls) e ↔ e = ⟨n, fault⟩ := by
  constructor
  · rintro ⟨before, l', after, hls, hn, hfault, hbefore⟩
    cases before with
    | nil =>
        cases hls
        rw [hline] at hfault
        obtain ⟨line, fault'⟩ := e
        cases hfault
        cases hn
        rfl
    | cons d before =>
        cases hls
        obtain ⟨entry, hentry⟩ := hbefore l List.mem_cons_self
        rw [hline] at hentry
        cases hentry
  · rintro rfl
    exact ⟨[], l, ls, rfl, rfl, hline, by simp⟩

/-- Behind a line that is read the numbers go on. -/
theorem firstFault_cons_of_ok {e : ListingError} {entry : Option (Address × Cell)}
    (hline : readLine (trim l) = .ok entry) :
    FirstFault n (l :: ls) e ↔ FirstFault (n + 1) ls e := by
  constructor
  · rintro ⟨before, l', after, hls, hn, hfault, hbefore⟩
    cases before with
    | nil =>
        cases hls
        rw [hline] at hfault
        cases hfault
    | cons d before =>
        cases hls
        refine ⟨before, l', after, rfl, ?_, hfault, (List.forall_mem_cons.mp hbefore).2⟩
        rw [hn, List.length_cons]
        omega
  · rintro ⟨before, l', after, rfl, hn, hfault, hbefore⟩
    refine ⟨l :: before, l', after, rfl, ?_, hfault,
      List.forall_mem_cons.mpr ⟨⟨entry, hline⟩, hbefore⟩⟩
    rw [hn, List.length_cons]
    omega

/-- **The first faulty line** is the one that is reported. -/
theorem readLines_eq_error_iff {e : ListingError} :
    readLines n ls = .error e ↔ FirstFault n ls e := by
  induction ls generalizing n with
  | nil => simp [readLines, FirstFault]
  | cons l ls ih =>
      rw [readLines]
      cases hline : readLine (trim l) with
      | error fault =>
          rw [firstFault_cons_of_error hline]
          simp [eq_comm]
      | ok entry =>
          rw [firstFault_cons_of_ok hline, ← ih]
          cases readLines (n + 1) ls <;> simp [Except.map]

end Listing

/-! ### Where lines end -/

/-- A line without a carriage return at its end. -/
def dropReturn (l : List Char) : List Char :=
  if l.getLast? = some '\r' then l.dropLast else l

/-- The lines of a text without their ends: a line ends with a line feed or with a carriage return
and a line feed, and what stands behind the last end is a line unless it is empty. -/
def endedLines (cs : List Char) : List (List Char) :=
  (lines cs).dropLast.map dropReturn ++ ((lines cs).getLast?.filter (· ≠ [])).toList

/-- A blank at the end of a line does not count. -/
theorem trim_concat_of_isBlank {l : List Char} {d : Char} (h : isBlank d = true) :
    trim (l ++ [d]) = trim l := by
  rw [← trimStart_trimEnd, ← trimStart_trimEnd, trimEnd, List.reverse_append]
  exact congrArg trimStart (congrArg List.reverse (List.dropWhile_cons_of_pos h))

/-- The carriage return at the end of a line does not count. -/
theorem trim_dropReturn (l : List Char) : trim (dropReturn l) = trim l := by
  rw [dropReturn]
  split
  · rename_i hlast
    conv_rhs => rw [← List.dropLast_append_getLast? _ hlast]
    exact (trim_concat_of_isBlank (by decide)).symm
  · rfl

namespace Listing

/-- Of a line only what is left after trimming counts. -/
theorem readLines_congr {ls ls' : List (List Char)} (h : ls.map trim = ls'.map trim) (n : ℕ) :
    readLines n ls = readLines n ls' := by
  induction ls generalizing ls' n with
  | nil =>
      obtain rfl : ls' = [] := by simpa using h.symm
      rfl
  | cons l ls ih =>
      cases ls' with
      | nil => simp at h
      | cons l' ls' =>
          obtain ⟨hl, hls⟩ := List.cons.inj h
          rw [readLines, readLines, hl, ih hls]

/-- An empty last line says nothing. -/
theorem readLines_append_nil (n : ℕ) (ls : List (List Char)) :
    readLines n (ls ++ [[]]) = readLines n ls := by
  rw [readLines_append]
  cases readLines n ls with
  | error e => rfl
  | ok es => exact congrArg Except.ok (List.append_nil es)

/-- It makes no difference what counts as belonging to the end of a line. -/
theorem readLines_endedLines (n : ℕ) (cs : List Char) :
    readLines n (endedLines cs) = readLines n (lines cs) := by
  have hfront (front : List (List Char)) : (front.map dropReturn).map trim = front.map trim := by
    rw [List.map_map]
    exact List.map_congr_left fun l _ => trim_dropReturn l
  rcases List.eq_nil_or_concat (lines cs) with hnil | ⟨front, last, hlines⟩
  · exact absurd hnil (lines_ne_nil cs)
  rw [List.concat_eq_append] at hlines
  rw [endedLines, hlines, List.dropLast_concat, List.getLast?_concat, Option.filter_some]
  by_cases hlast : last = []
  · simp only [hlast, ne_eq, not_true_eq_false, decide_false, Bool.false_eq_true, if_false,
      Option.toList_none, List.append_nil, readLines_append_nil]
    exact readLines_congr (hfront front) n
  · rw [if_pos (decide_eq_true hlast), Option.toList_some]
    exact readLines_congr (by rw [List.map_append, List.map_append, hfront]) n

end Listing

namespace Sheet

/-- A listing is read line by line, without the ends of the lines. -/
theorem ofListing_eq_endedLines (text : String) :
    ofListing text = (Listing.readLines 1 (endedLines text.toList)).map ofList := by
  rw [ofListing, Listing.readLines_endedLines]

/-- **A listing behind another one** is read as it would be on its own, but for the numbers of its
lines, and its sheet is put over that of the first. -/
theorem ofListing_append (a b : String) :
    ofListing (a ++ "\n" ++ b) = (ofListing a).bind fun s =>
      ((ofListing b).mapError (·.below (a.toList.count '\n' + 1))).map s.overlaid := by
  have htext : (a ++ "\n" ++ b).toList = a.toList ++ '\n' :: b.toList := by
    simp
  rw [ofListing, ofListing, ofListing, htext, lines_append, Listing.readLines_append, length_lines,
    Listing.readLines_add]
  cases Listing.readLines 1 (lines a.toList) with
  | error e => rfl
  | ok es =>
      cases Listing.readLines 1 (lines b.toList) with
      | error e => rfl
      | ok es' => exact congrArg Except.ok (ofList_append es es')

/-- **The last line that names a cell** decides what a listing makes of it. -/
theorem get?_ofListing {s : Sheet} {text : String} {x : Address} {c : Cell}
    (h : ofListing text = .ok s) :
    s.get? x = some c ↔ Listing.LastSays (endedLines text.toList) x c := by
  rw [ofListing_eq_endedLines] at h
  cases hread : Listing.readLines 1 (endedLines text.toList) with
  | error e => rw [hread] at h; cases h
  | ok es =>
      rw [hread] at h
      cases h
      exact Listing.get?_of_readLines hread

/-- **The first faulty line** is what is wrong with a listing. -/
theorem ofListing_eq_error_iff {text : String} {e : ListingError} :
    ofListing text = .error e ↔ Listing.FirstFault 1 (endedLines text.toList) e := by
  rw [ofListing_eq_endedLines, ← Listing.readLines_eq_error_iff]
  cases Listing.readLines 1 (endedLines text.toList) <;> simp [Except.map]

/-- **A listing is read line by line.** The first faulty line is reported with its number, and the
last line that names a cell decides what it holds. Of two listings with a line feed between them
the first one is reported if it is faulty, then the second one with the number its line has behind
the first, and otherwise what the second one says of a cell hides what the first one says. -/
theorem listing_line_by_line (a b : String) :
    (∀ e, ofListing a = .error e → ofListing (a ++ "\n" ++ b) = .error e) ∧
    (∀ s e, ofListing a = .ok s → ofListing b = .error e →
      ofListing (a ++ "\n" ++ b) = .error ⟨e.line + a.toList.count '\n' + 1, e.fault⟩) ∧
    (∀ s t, ofListing a = .ok s → ofListing b = .ok t →
      ∃ u, ofListing (a ++ "\n" ++ b) = .ok u ∧ ∀ x, u.get? x = (t.get? x).or (s.get? x)) ∧
    (∀ e, ofListing a = .error e ↔ Listing.FirstFault 1 (endedLines a.toList) e) ∧
    ∀ s, ofListing a = .ok s →
      ∀ x c, s.get? x = some c ↔ Listing.LastSays (endedLines a.toList) x c := by
  refine ⟨fun e ha => ?_, fun s e ha hb => ?_, fun s t ha hb => ?_,
    fun e => ofListing_eq_error_iff, fun s ha x c => get?_ofListing ha⟩
  · rw [ofListing_append, ha]
    rfl
  · rw [ofListing_append, ha, hb]
    rfl
  · rw [ofListing_append, ha, hb]
    exact ⟨s.overlaid t, rfl, get?_overlaid s t⟩

/-- A listing with both ends of lines, a comment, an empty line and two lines that name `B2`. -/
def sampleBase : String := "# first\r\nb2: 1\r\n\r\nB2 : 2\n\n"

/-- A listing whose first line names `B2` and whose second line is given. -/
def sampleUpdate (line : String) : String := "b2: \"x\"\r\n" ++ line

/-- A fault of the update is reported in its second line if it comes first, and in the eighth line
if it follows the five lines of the base. Without the fault the update covers `B2`, of which the
last line of the base would have said 2. -/
theorem listing_line_by_line_sample :
    ofListing (sampleUpdate "A1 3" ++ "\n" ++ sampleBase) = .error ⟨2, .noColon⟩ ∧
    ofListing (sampleBase ++ "\n" ++ sampleUpdate "A1 3") = .error ⟨8, .noColon⟩ ∧
    (∃ u, ofListing (sampleBase ++ "\n" ++ sampleUpdate "A1: 3") = .ok u ∧
      u.get? ⟨1, 1⟩ = some (.ofText "x")) ∧
    ∀ s, ofListing sampleBase = .ok s → s.get? ⟨1, 1⟩ = some (.ofNumber 2) ∧
      Listing.LastSays (endedLines sampleBase.toList) ⟨1, 1⟩ (.ofNumber 2) := by
  have hfaulty : ofListing (sampleUpdate "A1 3") = .error ⟨2, .noColon⟩ :=
    ofListing_eq_error_iff.mpr
      ⟨["b2: \"x\"".toList], "A1 3".toList, [], by decide +kernel, rfl, by decide +kernel,
        List.forall_mem_singleton.mpr ⟨some (⟨1, 1⟩, .ofText "x"), by decide +kernel⟩⟩
  have hbase : (ofListing sampleBase).map (·.get? ⟨1, 1⟩) = .ok (some (.ofNumber 2)) := by
    decide +kernel
  have hupdate : (ofListing (sampleUpdate "A1: 3")).map (·.get? ⟨1, 1⟩) =
      .ok (some (.ofText "x")) := by
    decide +kernel
  refine ⟨(listing_line_by_line _ _).1 _ hfaulty, ?_⟩
  cases hs : ofListing sampleBase with
  | error e => rw [hs] at hbase; cases hbase
  | ok s =>
      cases ht : ofListing (sampleUpdate "A1: 3") with
      | error e => rw [ht] at hupdate; cases hupdate
      | ok t =>
          rw [hs] at hbase
          rw [ht] at hupdate
          have hsecond : t.get? ⟨1, 1⟩ = some (.ofText "x") := Except.ok.inj hupdate
          obtain ⟨u, hu, hget⟩ := (listing_line_by_line _ _).2.2.1 s t hs ht
          refine ⟨(listing_line_by_line _ _).2.1 s _ hs hfaulty, ⟨u, hu, ?_⟩, ?_⟩
          · rw [hget, hsecond, Option.some_or]
          · rintro s' ⟨⟩
            exact ⟨Except.ok.inj hbase,
              ((listing_line_by_line sampleBase "").2.2.2.2 s hs _ _).mp (Except.ok.inj hbase)⟩

end Sheet

end Spreadsheet
