import Mathlib.Data.List.Basic
import Mathlib.Data.List.Induction
import Spreadsheet.Address
import Spreadsheet.Number.Decimal
import Spreadsheet.Proofs.Text.Trimming

/-!
# Cell Names are Read Back

The name of a cell is read back as its address, as long as its column and its row are within
the limits. Letters count without a zero digit, so column 26 is `Z` and column 27 is `AA`. The
value of letters undoes that count whatever the size (`Column.value_letters`), and the count undoes
the value (`Column.letters_value`). The number of a row never begins with a zero, which a name may
not, and so digits are counted out again as they were written (`toDigits_ofDigitChars`).

Letters are read one at a time, and the limit is tested at every step. No number on the way exceeds
the last one, so the tests fail exactly if the value of all letters exceeds the limit
(`Column.ofLetters?_eq_some_iff`). Names and addresses within the limits therefore belong together
one to one (`Address.read?_exact`).

## Main definitions

* `Column.value`: the number that letters denote.
* `Address.Within`: a column and a row within the limits.
* `Address.IsName`: the texts that name cells, within the limits or beyond them.

## Main results

* `Column.value_letters`, `Column.letters_value`: the letters of a column denote it and no other.
* `Address.readChars?_eq_some_iff`: a text is read as the address whose name it is.
* `Address.read?_exact`: which texts are read, and as what.
-/

namespace Spreadsheet

/-! ### Columns -/

namespace Column

/-- The letter of a digit, counted from one. -/
theorem toNat_ofNat_digit (n : ℕ) : (Char.ofNat (65 + n % 26)).toNat = 65 + n % 26 := by
  have hvalid : (65 + n % 26).isValidChar := Or.inl (by omega)
  rw [Char.ofNat, dif_pos hvalid]
  exact UInt32.toNat_ofNatLT

/-- No letters stand for zero. -/
theorem letters_zero : letters 0 = [] := by
  rw [letters, lettersRev, if_pos rfl, List.reverse_nil]

/-- The last letter counts the rest of a division by 26, and the others its quotient. -/
theorem letters_of_pos {n : ℕ} (h : 0 < n) :
    letters n = letters ((n - 1) / 26) ++ [Char.ofNat (65 + (n - 1) % 26)] := by
  rw [letters, lettersRev, if_neg (Nat.pos_iff_ne_zero.mp h), List.reverse_cons]
  rfl

/-- The number that column letters denote, whatever its size. -/
def value (cs : List Char) : ℕ :=
  cs.foldl (fun n c => 26 * n + (c.toNat - 64)) 0

/-- One more letter at the end counts for itself, and the others for 26 times as much. -/
theorem value_append (cs : List Char) (c : Char) :
    value (cs ++ [c]) = 26 * value cs + (c.toNat - 64) := by
  rw [value, List.foldl_append]
  rfl

/-- **The letters of a column denote it.** -/
theorem value_letters (n : ℕ) : value (letters n) = n := by
  induction n using Nat.strongRecOn with
  | ind n ih =>
      rcases Nat.eq_zero_or_pos n with rfl | h
      · rw [letters_zero]
        rfl
      · rw [letters_of_pos h, value_append, ih _ (by omega), toNat_ofNat_digit]
        omega

/-- A column is spelled with capital letters. -/
theorem isUpper_of_mem_letters {n : ℕ} {c : Char} (h : c ∈ letters n) : c.isUpper = true := by
  induction n using Nat.strongRecOn with
  | ind n ih =>
      rcases Nat.eq_zero_or_pos n with rfl | hn
      · rw [letters_zero] at h
        cases h
      · rw [letters_of_pos hn] at h
        rcases List.mem_append.mp h with h | h
        · exact ih _ (by omega) h
        · have hnat : c.toNat = 65 + (n - 1) % 26 := by
            rw [List.mem_singleton.mp h, toNat_ofNat_digit]
          rw [isUpper_iff]
          omega

/-- A column has letters. -/
theorem letters_ne_nil {n : ℕ} (h : 0 < n) : letters n ≠ [] := by
  rw [letters_of_pos h]
  exact List.append_ne_nil_of_right_ne_nil _ (List.cons_ne_nil _ _)

/-- Capital letters are those of the column that they denote. -/
theorem letters_value {cs : List Char} (h : ∀ c ∈ cs, c.isUpper = true) :
    letters (value cs) = cs := by
  induction cs using List.reverseRecOn with
  | nil => exact letters_zero
  | append_singleton cs c ih =>
      have hc := isUpper_iff.mp (h c (by simp))
      have hquotient : (26 * value cs + (c.toNat - 64) - 1) / 26 = value cs := by omega
      have hdigit : 65 + (26 * value cs + (c.toNat - 64) - 1) % 26 = c.toNat := by omega
      rw [value_append, letters_of_pos (by omega), hquotient, hdigit, Char.ofNat_toNat,
        ih fun d hd => h d (List.mem_append_left _ hd)]

/-! ### Reading letters -/

/-- A letter is read on if it is one and the number stays within the limit. -/
theorem next?_eq_some_iff {n k : ℕ} {c : Char} :
    next? n c = some k ↔
      c.isUpper = true ∧ 26 * n + (c.toNat - 64) ≤ addressLimit ∧ 26 * n + (c.toNat - 64) = k := by
  rw [next?]
  split
  · rename_i hcond
    simp only [Bool.and_eq_true, decide_eq_true_eq] at hcond
    simp [hcond.1.1, hcond.2]
  · rename_i hcond
    simp only [Bool.and_eq_true, decide_eq_true_eq] at hcond
    refine iff_of_false nofun fun h => hcond ⟨⟨h.1, ?_⟩, h.2.1⟩
    exact Nat.le_trans (Nat.le_add_right _ _) h.2.1

/-- The number of a column only grows with further letters. -/
theorem le_foldl (cs : List Char) (n : ℕ) :
    n ≤ cs.foldl (fun n c => 26 * n + (c.toNat - 64)) n := by
  induction cs generalizing n with
  | nil => exact Nat.le_refl n
  | cons c cs ih => exact Nat.le_trans (by omega) (ih (26 * n + (c.toNat - 64)))

/-- Letters can be read on exactly if all of them are capital letters and the number at the end is
within the limit, for none on the way is larger. -/
theorem foldlM_next?_eq_some_iff {cs : List Char} {n k : ℕ} (h : n ≤ addressLimit) :
    cs.foldlM next? n = some k ↔
      (∀ c ∈ cs, c.isUpper = true) ∧ k ≤ addressLimit ∧
        cs.foldl (fun n c => 26 * n + (c.toNat - 64)) n = k := by
  induction cs generalizing n with
  | nil =>
      rw [List.foldlM_nil, List.foldl_nil]
      constructor
      · intro hk
        obtain rfl : n = k := Option.some.inj hk
        exact ⟨by simp, h, rfl⟩
      · rintro ⟨-, -, rfl⟩
        rfl
  | cons c cs ih =>
      rw [List.foldlM_cons, List.foldl_cons, List.forall_mem_cons]
      constructor
      · intro hk
        obtain ⟨m, hm, hrest⟩ := Option.bind_eq_some_iff.mp hk
        obtain ⟨hc, hle, rfl⟩ := next?_eq_some_iff.mp hm
        obtain ⟨hcs, hlast⟩ := (ih hle).mp hrest
        exact ⟨⟨hc, hcs⟩, hlast⟩
      · rintro ⟨⟨hc, hcs⟩, hle, rfl⟩
        have hnext := Nat.le_trans (le_foldl cs (26 * n + (c.toNat - 64))) hle
        exact Option.bind_eq_some_iff.mpr
          ⟨_, next?_eq_some_iff.mpr ⟨hc, hnext, rfl⟩, (ih hnext).mpr ⟨hcs, hle, rfl⟩⟩

/-- **Letters are read as the number that they denote**, if it is within the limit. -/
theorem ofLetters?_eq_some_iff {cs : List Char} {n : ℕ} :
    ofLetters? cs = some n ↔
      cs ≠ [] ∧ (∀ c ∈ cs, c.isUpper = true) ∧ n ≤ addressLimit ∧ value cs = n := by
  rw [ofLetters?]
  split
  · rename_i hempty
    exact iff_of_false nofun fun h => h.1 (List.isEmpty_iff.mp hempty)
  · rename_i hne
    rw [foldlM_next?_eq_some_iff (Nat.zero_le _)]
    exact (and_iff_right (mt List.isEmpty_iff.mpr hne)).symm

/-- A column within the limit is read from its letters, and from no others. -/
theorem ofLetters?_eq_some_iff_letters {cs : List Char} {n : ℕ} :
    ofLetters? cs = some n ↔ (0 < n ∧ n ≤ addressLimit) ∧ letters n = cs := by
  rw [ofLetters?_eq_some_iff]
  constructor
  · rintro ⟨hne, hupper, hle, rfl⟩
    have hletters := letters_value hupper
    refine ⟨⟨Nat.pos_of_ne_zero fun hzero => hne ?_, hle⟩, hletters⟩
    rw [← hletters, hzero, letters_zero]
  · rintro ⟨⟨hpos, hle⟩, rfl⟩
    exact ⟨letters_ne_nil hpos, fun _ => isUpper_of_mem_letters, hle, value_letters n⟩

end Column

/-! ### Rows -/

/-- The digits of a positive number do not begin with a zero. -/
theorem head?_toDigits_ne_zero {n : ℕ} (h : 0 < n) : (Nat.toDigits 10 n).head? ≠ some '0' := by
  induction n using Nat.strongRecOn with
  | ind n ih =>
      rcases Nat.lt_or_ge n 10 with hlt | hge
      · have hdigit : ∀ d < 10, 0 < d → some (Nat.digitChar d) ≠ some '0' := by decide
        rw [Nat.toDigits_of_lt_base hlt]
        exact hdigit n hlt h
      · rw [Nat.toDigits_of_base_le (by decide) hge,
          List.head?_append_of_ne_nil _ Nat.toDigits_ne_nil]
        exact ih (n / 10) (by omega) (by omega)

/-- A digit is the one of its value. -/
theorem digitChar_toNat {c : Char} (h : c.isDigit = true) : Nat.digitChar (c.toNat - 48) = c := by
  have hall : ∀ n < 10, Nat.digitChar n = Char.ofNat (48 + n) := by decide
  rw [isDigit_iff] at h
  rw [hall _ (by omega), Nat.add_sub_cancel' h.1, Char.ofNat_toNat]

/-- A number whose digits do not begin with a zero is positive. -/
theorem pos_of_head?_toDigits {n : ℕ} (h : (Nat.toDigits 10 n).head? ≠ some '0') : 0 < n := by
  refine Nat.pos_of_ne_zero fun hzero => h ?_
  rw [hzero]
  rfl

/-- Digits that do not begin with a zero are those of the number that they denote. -/
theorem toDigits_ofDigitChars {ds : List Char} (hne : ds ≠ [])
    (h : ∀ c ∈ ds, c.isDigit = true) (hhead : ds.head? ≠ some '0') :
    Nat.toDigits 10 (Nat.ofDigitChars 10 ds 0) = ds := by
  induction ds using List.reverseRecOn with
  | nil => exact absurd rfl hne
  | append_singleton ds d ih =>
      have hd := h d (by simp)
      have hlt : d.toNat - 48 < 10 := by
        rw [isDigit_iff] at hd
        omega
      have hvalue : Nat.ofDigitChars 10 (ds ++ [d]) 0 =
          10 * Nat.ofDigitChars 10 ds 0 + (d.toNat - 48) := Nat.ofDigitChars_append 0
      rw [hvalue]
      rcases eq_or_ne ds [] with rfl | hds
      · rw [Nat.ofDigitChars_nil, Nat.mul_zero, Nat.zero_add, Nat.toDigits_of_lt_base hlt,
          digitChar_toNat hd, List.nil_append]
      · rw [List.head?_append_of_ne_nil _ hds] at hhead
        have hrest := ih hds (fun c hc => h c (List.mem_append_left _ hc)) hhead
        have hpos : 0 < Nat.ofDigitChars 10 ds 0 := pos_of_head?_toDigits (hrest.symm ▸ hhead)
        have hquotient : (10 * Nat.ofDigitChars 10 ds 0 + (d.toNat - 48)) / 10 =
            Nat.ofDigitChars 10 ds 0 := by omega
        have hdigit : (10 * Nat.ofDigitChars 10 ds 0 + (d.toNat - 48)) % 10 = d.toNat - 48 := by
          omega
        rw [Nat.toDigits_of_base_le (by decide) (by omega), hquotient, hdigit, hrest,
          digitChar_toNat hd]

/-! ### Addresses -/

namespace Address

/-- An address is **within** the limits if its name can be read: its column and its row,
counted from one, do not exceed the largest number. -/
def Within (a : Address) : Prop :=
  a.row < addressLimit ∧ a.col < addressLimit

/-- Whether an address lies within the limits can be computed. -/
instance (a : Address) : Decidable a.Within :=
  inferInstanceAs (Decidable (_ ∧ _))

/-- No address has an empty name. -/
theorem nameChars_ne_nil (a : Address) : a.nameChars ≠ [] :=
  List.append_ne_nil_of_left_ne_nil (Column.letters_ne_nil (Nat.succ_pos a.col)) _

/-- A text is a **name** if it consists of capital letters and digits behind them, at least one of
each, and the digits do not begin with a zero. Whether it is within the limits is another matter. -/
def IsName (cs : List Char) : Prop :=
  ∃ letters digits, cs = letters ++ digits ∧
    letters ≠ [] ∧ (∀ c ∈ letters, c.isUpper = true) ∧
    digits ≠ [] ∧ (∀ c ∈ digits, c.isDigit = true) ∧ digits.head? ≠ some '0'

/-- A name is made of upper case letters and digits. -/
theorem IsName.isUpper_or_isDigit {cs : List Char} (h : IsName cs) {c : Char} (hc : c ∈ cs) :
    c.isUpper = true ∨ c.isDigit = true := by
  obtain ⟨letters, digits, rfl, -, hletters, -, hdigits, -⟩ := h
  exact (List.mem_append.mp hc).imp (hletters c) (hdigits c)

/-- A name begins with a capital letter. -/
theorem IsName.exists_cons {cs : List Char} (h : IsName cs) :
    ∃ c rest, cs = c :: rest ∧ c.isUpper = true := by
  obtain ⟨letters, digits, rfl, hne, hletters, -⟩ := h
  obtain ⟨c, rest, rfl⟩ := List.exists_cons_of_ne_nil hne
  exact ⟨c, rest ++ digits, rfl, hletters c List.mem_cons_self⟩

/-- A name is split where its letters end. -/
theorem splitName?_append {letters digits : List Char} (hletters_ne : letters ≠ [])
    (hletters : ∀ c ∈ letters, c.isUpper = true) (hdigits_ne : digits ≠ [])
    (hdigits : ∀ c ∈ digits, c.isDigit = true) (hhead : digits.head? ≠ some '0') :
    splitName? (letters ++ digits) = some (letters, digits, []) := by
  have hstop : digits.takeWhile Char.isUpper = [] ∧ digits.dropWhile Char.isUpper = digits := by
    cases digits with
    | nil => exact ⟨rfl, rfl⟩
    | cons d ds =>
        have hd : ¬ d.isUpper = true := by
          simp [isUpper_eq_false_of_isDigit (hdigits d List.mem_cons_self)]
        exact ⟨List.takeWhile_cons_of_neg hd, List.dropWhile_cons_of_neg hd⟩
  rw [splitName?, List.takeWhile_append_of_pos hletters, List.dropWhile_append_of_pos hletters,
    hstop.1, hstop.2, List.append_nil, Decimal.takeWhile_digits hdigits,
    Decimal.dropWhile_digits hdigits]
  exact if_neg (by simp [hletters_ne, hdigits_ne, hhead])

/-- What a text is split into: capital letters, digits that do not begin with a zero, and the rest
of the text. -/
theorem parts_of_splitName? {cs letters digits rest : List Char}
    (h : splitName? cs = some (letters, digits, rest)) :
    cs = letters ++ digits ++ rest ∧ letters ≠ [] ∧ (∀ c ∈ letters, c.isUpper = true) ∧
      digits ≠ [] ∧ (∀ c ∈ digits, c.isDigit = true) ∧ digits.head? ≠ some '0' := by
  rw [splitName?] at h
  split at h
  · cases h
  · rename_i hparts
    cases h
    simp only [Bool.or_eq_true, List.isEmpty_iff, decide_eq_true_eq, not_or] at hparts
    refine ⟨?_, hparts.1.1, List.all_eq_true.mp List.all_takeWhile, hparts.1.2,
      List.all_eq_true.mp List.all_takeWhile, hparts.2⟩
    rw [List.append_assoc, List.takeWhile_append_dropWhile, List.takeWhile_append_dropWhile]

/-- What is split off as a name is one. -/
theorem isName_of_splitName? {cs letters digits rest : List Char}
    (h : splitName? cs = some (letters, digits, rest)) : IsName (letters ++ digits) :=
  ⟨letters, digits, rfl, (parts_of_splitName? h).2⟩

/-- The letters and the digits of an address make a name. -/
theorem isName_nameChars (a : Address) : IsName a.nameChars :=
  ⟨a.letters, Nat.toDigits 10 (a.row + 1), rfl, Column.letters_ne_nil (Nat.succ_pos a.col),
    fun _ => Column.isUpper_of_mem_letters, Nat.toDigits_ne_nil,
    fun _ => Nat.isDigit_of_mem_toDigits (by decide) (by decide),
    head?_toDigits_ne_zero (Nat.succ_pos a.row)⟩

/-- The name of a cell is split where its letters end. -/
theorem splitName?_nameChars (a : Address) :
    splitName? a.nameChars = some (a.letters, Nat.toDigits 10 (a.row + 1), []) :=
  splitName?_append (Column.letters_ne_nil (Nat.succ_pos a.col))
    (fun _ => Column.isUpper_of_mem_letters) Nat.toDigits_ne_nil
    (fun _ => Nat.isDigit_of_mem_toDigits (by decide) (by decide))
    (head?_toDigits_ne_zero (Nat.succ_pos a.row))

/-- Which texts are read as an address, and as which. -/
theorem readChars?_eq_some_iff_parts {cs : List Char} {a : Address} :
    readChars? cs = some a ↔ ∃ letters digits,
      splitName? cs = some (letters, digits, []) ∧
        Nat.ofDigitChars 10 digits 0 ≤ addressLimit ∧
        ∃ col, Column.ofLetters? letters = some col ∧
          ⟨Nat.ofDigitChars 10 digits 0 - 1, col - 1⟩ = a := by
  rw [readChars?]
  split
  · rename_i letters digits hsplit
    dsimp only
    split
    · rename_i hrow
      rw [Option.map_eq_some_iff]
      constructor
      · exact fun hcol => ⟨letters, digits, hsplit, hrow, hcol⟩
      · rintro ⟨letters', digits', heq, -, hcol⟩
        rw [hsplit] at heq
        cases heq
        exact hcol
    · rename_i hrow
      refine iff_of_false nofun ?_
      rintro ⟨letters', digits', heq, hle, -⟩
      rw [hsplit] at heq
      cases heq
      exact hrow hle
  · rename_i hsplit
    refine iff_of_false nofun ?_
    rintro ⟨letters, digits, heq, -⟩
    exact hsplit letters digits heq

/-- **A text is read as the address within the limits whose name it is.** -/
theorem readChars?_eq_some_iff {cs : List Char} {a : Address} :
    readChars? cs = some a ↔ a.Within ∧ a.nameChars = cs := by
  rw [readChars?_eq_some_iff_parts]
  constructor
  · rintro ⟨letters, digits, hsplit, hrow, col, hcol, rfl⟩
    obtain ⟨rfl, -, -, hne, hdigits, hhead⟩ := parts_of_splitName? hsplit
    obtain ⟨⟨hcol_pos, hcol_le⟩, rfl⟩ := Column.ofLetters?_eq_some_iff_letters.mp hcol
    have hdigits := toDigits_ofDigitChars hne hdigits hhead
    have hrow_pos := pos_of_head?_toDigits (hdigits.symm ▸ hhead)
    refine ⟨⟨Nat.sub_one_lt_of_le hrow_pos hrow, Nat.sub_one_lt_of_le hcol_pos hcol_le⟩, ?_⟩
    rw [nameChars, Address.letters, Nat.sub_add_cancel hcol_pos, Nat.sub_add_cancel hrow_pos,
      hdigits, List.append_nil]
  · rintro ⟨⟨hrow, hcol⟩, rfl⟩
    have hdigits : Nat.ofDigitChars 10 (Nat.toDigits 10 (a.row + 1)) 0 = a.row + 1 :=
      Nat.ofDigitChars_toDigits (by decide) (by decide)
    refine ⟨_, _, splitName?_nameChars a, ?_, a.col + 1,
      Column.ofLetters?_eq_some_iff_letters.mpr ⟨⟨Nat.succ_pos _, hcol⟩, rfl⟩, ?_⟩
    · rw [hdigits]
      exact hrow
    · rw [hdigits]
      rfl

/-- The name of a cell within the limits is read back. -/
theorem readChars?_nameChars {a : Address} (h : a.Within) : readChars? a.nameChars = some a :=
  readChars?_eq_some_iff.mpr ⟨h, rfl⟩

/-- What is read as an address is within the limits. -/
theorem within_of_readChars? {cs : List Char} {a : Address} (h : readChars? cs = some a) :
    a.Within :=
  (readChars?_eq_some_iff.mp h).1

/-- A name is read exactly if its column and its row do not exceed the limit. -/
theorem isSome_readChars?_iff {cs : List Char} :
    (readChars? cs).isSome = true ↔ ∃ letters digits, cs = letters ++ digits ∧
      letters ≠ [] ∧ (∀ c ∈ letters, c.isUpper = true) ∧
      digits ≠ [] ∧ (∀ c ∈ digits, c.isDigit = true) ∧ digits.head? ≠ some '0' ∧
      Column.value letters ≤ addressLimit ∧ Nat.ofDigitChars 10 digits 0 ≤ addressLimit := by
  simp only [Option.isSome_iff_exists, readChars?_eq_some_iff_parts]
  constructor
  · rintro ⟨a, letters, digits, hsplit, hrow, col, hcol, -⟩
    obtain ⟨rfl, hletters_ne, hletters, hne, hdigits, hhead⟩ := parts_of_splitName? hsplit
    obtain ⟨-, -, hle, rfl⟩ := Column.ofLetters?_eq_some_iff.mp hcol
    exact ⟨letters, digits, List.append_nil _, hletters_ne, hletters, hne, hdigits, hhead, hle,
      hrow⟩
  · rintro ⟨letters, digits, rfl, hletters_ne, hletters, hne, hdigits, hhead, hle, hrow⟩
    exact ⟨_, letters, digits, splitName?_append hletters_ne hletters hne hdigits hhead, hrow,
      _, Column.ofLetters?_eq_some_iff.mpr ⟨hletters_ne, hletters, hle, rfl⟩, rfl⟩

/-- **Names and addresses within the limits belong together one to one**, and so do letters and
columns. Capital letters are read exactly if the number that they denote does not exceed the limit,
and a text is read exactly if it consists of such letters and of the digits of such a number. -/
theorem read?_exact :
    (∀ cs n, Column.ofLetters? cs = some n ↔
      (0 < n ∧ n ≤ addressLimit) ∧ Column.letters n = cs) ∧
    (∀ cs, cs ≠ [] → (∀ c ∈ cs, c.isUpper = true) →
      Column.ofLetters? cs =
        if Column.value cs ≤ addressLimit then some (Column.value cs) else none) ∧
    (∀ s a, read? s = some a ↔ a.Within ∧ a.name = s) ∧
    (∀ s, (read? s).isSome = true ↔ ∃ letters digits, s.toList = letters ++ digits ∧
      letters ≠ [] ∧ (∀ c ∈ letters, c.isUpper = true) ∧
      digits ≠ [] ∧ (∀ c ∈ digits, c.isDigit = true) ∧ digits.head? ≠ some '0' ∧
      Column.value letters ≤ addressLimit ∧ Nat.ofDigitChars 10 digits 0 ≤ addressLimit) ∧
    ∀ s t a, read? s = some a → read? t = some a → s = t := by
  have hread : ∀ s a, read? s = some a ↔ a.Within ∧ a.name = s := by
    intro s a
    rw [read?, readChars?_eq_some_iff, name, ← String.toList_inj, String.toList_ofList]
  refine ⟨fun _ _ => Column.ofLetters?_eq_some_iff_letters, fun cs hne hupper => ?_, hread,
    fun _ => isSome_readChars?_iff, fun s t a hs ht => ?_⟩
  · split
    · rename_i hle
      exact Column.ofLetters?_eq_some_iff.mpr ⟨hne, hupper, hle, rfl⟩
    · rename_i hgt
      refine Option.eq_none_iff_forall_ne_some.mpr fun n hn => hgt ?_
      obtain ⟨-, -, hle, rfl⟩ := Column.ofLetters?_eq_some_iff.mp hn
      exact hle
  · exact ((hread s a).mp hs).2.symm.trans ((hread t a).mp ht).2

-- The last cell has a name, and there is none with the next column or the next row.
example :
    read? "GKGWBYLWRXTLPO18446744073709551615" = some ⟨addressLimit - 1, addressLimit - 1⟩ ∧
      read? "GKGWBYLWRXTLPP1" = none ∧ read? "A18446744073709551616" = none := by
  decide +kernel

end Address

end Spreadsheet
