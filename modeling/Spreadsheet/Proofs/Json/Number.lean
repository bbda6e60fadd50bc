import Spreadsheet.Json.Number
import Spreadsheet.Proofs.Json.Text
import Spreadsheet.Proofs.Number.Plain

/-!
# Numbers are Written as Numerals

A finite number is written as digits, a point with digits behind it, and perhaps an exponent.
The digits before the point do not begin with a zero unless that is all there is, so what is
written is a numeral of the notation, whatever the number (`Json.exists_numeral_ofNumber`). What
is not finite is written as `null`. Either way a number is written as a plain tree.

Whether the numeral denotes the number that it was written for is another question: the reader
rounds more than once. A number that comes back is *kept*.

## Main definitions

* `Json.Keeps`: a number comes back from its numeral.

## Main results

* `Json.spanMagnitude?_layout`: what is written for a decimal is read as one numeral.
* `Json.isPlain_ofNumber`: a number is written as a plain tree.
-/

namespace Spreadsheet

namespace Json

variable {cs ds rest : List Char}

/-! ### Parts of a numeral -/

/-- Digits are read up to the first character that is none. -/
theorem spanDigits?_of_digits (hds : ∀ c ∈ ds, c.isDigit = true) (hne : ds ≠ [])
    (hrest : ∀ c ∈ rest.head?, c.isDigit = false) : spanDigits? (ds ++ rest) = some (ds, rest) := by
  have htake : rest.takeWhile Char.isDigit = [] := by
    cases rest with
    | nil => rfl
    | cons c rest => exact List.takeWhile_cons_of_neg (by simp [hrest c rfl])
  have hdrop : rest.dropWhile Char.isDigit = rest := by
    cases rest with
    | nil => rfl
    | cons c rest => exact List.dropWhile_cons_of_neg (by simp [hrest c rfl])
  have hsome : ds.isEmpty = false := by simpa using hne
  simp only [spanDigits?, List.takeWhile_append_of_pos hds, List.dropWhile_append_of_pos hds, htake,
    hdrop, List.append_nil, hsome, Bool.false_eq_true, if_false]

/-- Digits alone are read to their end. -/
theorem spanDigits?_self (hds : ∀ c ∈ ds, c.isDigit = true) (hne : ds ≠ []) :
    spanDigits? ds = some (ds, []) := by
  have hspan : spanDigits? (ds ++ []) = some (ds, []) :=
    spanDigits?_of_digits hds hne fun c hc => nomatch hc
  rwa [List.append_nil] at hspan

/-- An exponent with a sign is read to its end. -/
theorem spanExponent?_mark {sign : Char} (hsign : sign = '+' ∨ sign = '-')
    (hds : ∀ c ∈ ds, c.isDigit = true) (hne : ds ≠ []) :
    spanExponent? ('e' :: sign :: ds) = some ('e' :: sign :: ds, []) := by
  have hspan := spanDigits?_self hds hne
  rcases hsign with rfl | rfl <;>
  · simp only [spanExponent?, hspan]
    rfl

/-- Digits without a needless zero, a fraction and an exponent are one numeral. -/
theorem spanMagnitude?_of_parts {whole tail fraction exponent : List Char}
    (hwhole : ∀ c ∈ whole, c.isDigit = true) (hne : whole ≠ [])
    (hzero : whole.head? = some '0' → whole.length = 1)
    (htail : ∀ c ∈ tail.head?, c.isDigit = false)
    (hfraction : spanFraction? tail = some (fraction, exponent))
    (hexponent : spanExponent? exponent = some (exponent, [])) (heq : fraction ++ exponent = tail) :
    spanMagnitude? (whole ++ tail) = some (whole ++ tail, []) := by
  have hok : ¬ (whole.head? = some '0' ∧ whole.length ≠ 1) := fun h => h.2 (hzero h.1)
  simp only [spanMagnitude?, bind, spanDigits?_of_digits hwhole hne htail, Option.bind_some,
    if_neg hok, hfraction, hexponent]
  rw [List.append_assoc, heq]
  rfl

/-- A fraction and no exponent. -/
theorem spanMagnitude?_point {whole fraction : List Char}
    (hwhole : ∀ c ∈ whole, c.isDigit = true) (hne : whole ≠ [])
    (hzero : whole.head? = some '0' → whole.length = 1)
    (hfraction : ∀ c ∈ fraction, c.isDigit = true) (hfraction_ne : fraction ≠ []) :
    spanMagnitude? (whole ++ '.' :: fraction) = some (whole ++ '.' :: fraction, []) := by
  have hspan : spanFraction? ('.' :: fraction) = some ('.' :: fraction, []) := by
    rw [spanFraction?, spanDigits?_self hfraction hfraction_ne]
    rfl
  refine spanMagnitude?_of_parts hwhole hne hzero (fun c hc => ?_) hspan rfl (List.append_nil _)
  cases hc
  rfl

/-- One digit, perhaps a fraction, and an exponent. -/
theorem spanMagnitude?_exponent {sign : Char} {es : List Char} (hsign : sign = '+' ∨ sign = '-')
    (hes : ∀ c ∈ es, c.isDigit = true) (hes_ne : es ≠ []) (ds : List Char) :
    let mantissa := match ds with
      | c :: c' :: rest => c :: '.' :: c' :: rest
      | ds => ds
    (∀ c ∈ ds, c.isDigit = true) → ds ≠ [] →
      spanMagnitude? (mantissa ++ 'e' :: sign :: es) =
        some (mantissa ++ 'e' :: sign :: es, []) := by
  have hexponent := spanExponent?_mark hsign hes hes_ne
  match ds with
  | [] =>
      intro _ _ hne
      exact absurd rfl hne
  | [c] =>
      intro _ hds _
      show spanMagnitude? ([c] ++ 'e' :: sign :: es) = some ([c] ++ 'e' :: sign :: es, [])
      refine spanMagnitude?_of_parts hds (List.cons_ne_nil _ _) (fun _ => rfl) (fun d hd => ?_) rfl
        hexponent rfl
      cases hd
      rfl
  | c :: c' :: rest =>
      intro _ hds _
      have hwhole : ∀ d ∈ [c], d.isDigit = true := fun d hd =>
        hds d (List.mem_singleton.mp hd ▸ List.mem_cons_self)
      have hspan : spanDigits? (c' :: rest ++ 'e' :: sign :: es) =
          some (c' :: rest, 'e' :: sign :: es) := by
        refine spanDigits?_of_digits (fun d hd => hds d (List.mem_cons_of_mem _ hd))
          (List.cons_ne_nil _ _) (fun d hd => ?_)
        cases hd
        rfl
      have hfraction : spanFraction? ('.' :: (c' :: rest ++ 'e' :: sign :: es)) =
          some ('.' :: c' :: rest, 'e' :: sign :: es) := by
        rw [spanFraction?, hspan]
        rfl
      show spanMagnitude? ([c] ++ '.' :: (c' :: rest ++ 'e' :: sign :: es)) =
        some ([c] ++ '.' :: (c' :: rest ++ 'e' :: sign :: es), [])
      refine spanMagnitude?_of_parts hwhole (List.cons_ne_nil _ _) (fun _ => rfl) (fun d hd => ?_)
        hfraction hexponent rfl
      cases hd
      rfl

/-- **What is written for a decimal is read as one numeral.** -/
theorem spanMagnitude?_layout (d : Decimal) :
    spanMagnitude? (layout d) = some (layout d, []) := by
  have hdigits : ∀ n, ∀ c ∈ Nat.toDigits 10 n, c.isDigit = true := fun n c hc =>
    Nat.isDigit_of_mem_toDigits (by decide) (by decide) hc
  rw [layout]
  dsimp only
  split
  · split
    · rename_i hexponent
      rw [Decimal.plain_of_exponent_nonneg hexponent]
      refine spanMagnitude?_point (hdigits _) Nat.toDigits_ne_nil length_toDigits_of_head?
        (fun c hc => ?_) (List.cons_ne_nil _ _)
      obtain rfl := List.mem_singleton.mp hc
      rfl
    · rename_i hexponent
      obtain ⟨whole, fraction, heq, hwhole, hfraction, hne, hfraction_ne, hzero⟩ :=
        Decimal.plain_of_exponent_neg (Int.not_le.mp hexponent)
      rw [heq]
      exact spanMagnitude?_point hwhole hne hzero hfraction hfraction_ne
  · refine spanMagnitude?_exponent ?_ (hdigits _) Nat.toDigits_ne_nil _ (hdigits _)
      Nat.toDigits_ne_nil
    split
    · exact Or.inr rfl
    · exact Or.inl rfl

/-! ### Numbers -/

open Float.Model (UnpackedFloat)

/-- With its sign, what is written for a decimal is a numeral. -/
theorem isNumeral_signText_append (s : UnpackedFloat.Sign) (h : spanMagnitude? cs = some (cs, [])) :
    isNumeral (Number.signText s ++ cs) = true := by
  refine decide_eq_true ?_
  cases s with
  | negative =>
      show spanNumber? ('-' :: cs) = _
      rw [spanNumber?, h]
      rfl
  | positive =>
      show spanNumber? cs = some (cs, [])
      rw [spanNumber?.eq_2]
      · exact h
      · rintro cs' rfl
        simp only [spanMagnitude?, bind, Option.bind_eq_some_iff] at h
        obtain ⟨⟨whole, r⟩, hwhole, -⟩ := h
        cases hwhole

/-- A finite number is written as a numeral. -/
theorem exists_numeral_ofNumber {x : Float} (hx : x.isFinite = true) :
    ∃ cs, ofNumber x = .number cs ∧ isNumeral cs = true := by
  rw [Float.isFinite, Float.Model.isFinite] at hx
  rw [ofNumber]
  split
  · rename_i hunpack
    rw [hunpack] at hx
    cases hx
  · rename_i hunpack
    rw [hunpack] at hx
    cases hx
  · exact ⟨_, rfl, isNumeral_signText_append _ (by decide)⟩
  · exact ⟨_, rfl, isNumeral_signText_append _ (spanMagnitude?_layout _)⟩

/-- What is not finite is written as `null`. -/
theorem ofNumber_of_not_isFinite {x : Float} (hx : x.isFinite = false) : ofNumber x = .null := by
  rw [Float.isFinite, Float.Model.isFinite] at hx
  rw [ofNumber]
  split
  · rfl
  · rfl
  · rename_i hunpack
    rw [hunpack] at hx
    cases hx
  · rename_i hunpack
    rw [hunpack] at hx
    cases hx

/-- **A number is written as a plain tree.** -/
theorem isPlain_ofNumber (x : Float) (depth : ℕ) :
    (ofNumber x).isPlain isNumeral depth = true := by
  cases hx : x.isFinite with
  | false =>
      rw [ofNumber_of_not_isFinite hx]
      rfl
  | true =>
      obtain ⟨cs, hcs, hnumeral⟩ := exists_numeral_ofNumber hx
      rw [hcs, isPlain]
      exact hnumeral

/-- A number is **kept** if its numeral denotes it. -/
def Keeps (x : Float) : Prop :=
  asNumber (ofNumber x) = .ok x

/-- Whether a number is kept can be computed. -/
instance (x : Float) : Decidable (Keeps x) :=
  inferInstanceAs (Decidable (_ = _))

/-- The numeral of a number that is kept. -/
theorem Keeps.exists_numeral {x : Float} (h : Keeps x) :
    ∃ cs, ofNumber x = .number cs ∧ numberValue? cs = some x := by
  rw [Keeps] at h
  cases hx : ofNumber x with
  | number cs =>
      rw [hx, asNumber] at h
      split at h
      · rename_i y hy
        cases h
        exact ⟨cs, rfl, hy⟩
      · cases h
  | null =>
      rw [hx] at h
      cases h
  | bool b =>
      rw [hx] at h
      cases h
  | string content =>
      rw [hx] at h
      cases h
  | list items =>
      rw [hx] at h
      cases h
  | object fields =>
      rw [hx] at h
      cases h
  | broken =>
      rw [hx] at h
      cases h

end Json

end Spreadsheet
