import Spreadsheet.Formula.Scan
import Spreadsheet.Proofs.Number.Overflow

/-!
# Numbers Without a Sign

A formula writes no signs: the number that a word begins with is zero or positive, unless it is
too large and has become the infinity (`Decimal.isUnsigned_or_eq_infinity`). The other way round,
a finite number without a sign is printed as digits with a point perhaps, and as a word these are
read as the number again (`Number.number?_plainChars`).

## Main definitions

* `Number.IsUnsigned`: finite numbers that are printed without a sign.

## Main results

* `Number.isUnsigned_iff`: the value of a number without a sign.
* `Decimal.isUnsigned_or_eq_infinity`: a decimal names no number with a sign.
* `Number.number?_plainChars`: a number without a sign is read back from a word.
-/

namespace Spreadsheet

namespace Number

open Float.Model Float.Model.UnpackedFloat

variable {x : Float}

/-- A number is **unsigned** if it is finite, not negative, and not the negative zero. -/
def IsUnsigned (x : Float) : Prop :=
  x.isFinite = true ∧ 0 ≤ x ∧ x ≠ -0

/-- Whether a number is unsigned can be computed. -/
instance (x : Float) : Decidable (IsUnsigned x) :=
  inferInstanceAs (Decidable (_ ∧ _))

/-- Zero is packed from the positive zero. -/
theorem zero_eq : (0 : Float) = .ofModel (.pack (.zero .positive)) := by
  decide +kernel

/-- Minus zero is packed from the negative zero. -/
theorem neg_zero_eq : (-0 : Float) = .ofModel (.pack (.zero .negative)) := by
  decide +kernel

/-- Zero unpacks to the positive zero. -/
theorem unpack_zero : (0 : Float).toModel.unpack = .zero .positive := by
  rw [zero_eq]
  rfl

/-- Minus zero unpacks to the negative zero. -/
theorem unpack_neg_zero : (-0 : Float).toModel.unpack = .zero .negative := by
  rw [neg_zero_eq]
  rfl

/-- Zero is at most a number if their values compare in this way. -/
theorem zero_le_iff : 0 ≤ x ↔ (UnpackedFloat.zero .positive).le x.toModel.unpack = true := by
  rw [← unpack_zero]
  show Float.le 0 x = true ↔ _
  rw [Float.le, decide_eq_true_eq]
  rfl

/-- What is not negative is a number. -/
theorem isNaN_eq_false_of_zero_le (h : 0 ≤ x) : x.isNaN = false := by
  rw [zero_le_iff] at h
  rw [Float.isNaN, Float.Model.isNaN]
  cases hunpack : x.toModel.unpack with
  | notANumber =>
      rw [hunpack] at h
      cases h
  | _ => rfl

/-- **The value of an unsigned number** is the positive zero or positive. -/
theorem isUnsigned_iff :
    IsUnsigned x ↔ x.toModel.unpack = .zero .positive ∨
      ∃ m e hm, x.toModel.unpack = .finite .positive m e hm := by
  rw [IsUnsigned, zero_le_iff, Float.isFinite, Float.Model.isFinite]
  constructor
  · rintro ⟨hfinite, hle, hne⟩
    cases hunpack : x.toModel.unpack with
    | notANumber =>
        rw [hunpack] at hfinite
        cases hfinite
    | infinity s =>
        rw [hunpack] at hfinite
        cases hfinite
    | zero s =>
        cases s with
        | positive => exact Or.inl rfl
        | negative =>
            refine absurd ?_ hne
            have hpack : Float.Model.pack x.toModel.unpack = x.toModel := pack_unpack hfinite
            rw [neg_zero_eq, ← hunpack, hpack]
    | finite s m e hm =>
        cases s with
        | positive => exact Or.inr ⟨m, e, hm, rfl⟩
        | negative =>
            rw [hunpack] at hle
            cases hle
  · intro h
    have hne : x ≠ -0 := by
      rintro rfl
      rw [unpack_neg_zero] at h
      rcases h with h | ⟨m, e, hm, h⟩ <;> cases h
    rcases h with h | ⟨m, e, hm, h⟩
    · rw [h]
      exact ⟨rfl, rfl, hne⟩
    · rw [h]
      exact ⟨rfl, rfl, hne⟩

end Number

namespace Decimal

open Float.Model Float.Model.UnpackedFloat

/-- **A decimal names an unsigned number, or the infinity** if it is too large. -/
theorem isUnsigned_or_eq_infinity (d : Decimal) :
    Number.IsUnsigned d.toFloat ∨ d.toFloat = Number.infinity := by
  rw [Number.isUnsigned_iff, toFloat, Float.Model.ofScientific]
  rcases Number.ofScientific_cases d.digits d.exponent with hd | hd | ⟨m, e, hm, hd⟩
  · rw [hd]
    exact Or.inl (Or.inl rfl)
  · rw [hd, Number.infinity_eq]
    exact Or.inr rfl
  · rw [hd]
    rcases Number.pack_finite_cases .positive m e hm with hpack | ⟨E, M, hE, hpack⟩
    · refine Or.inr ?_
      rw [Number.infinity_eq]
      simp only [Float.Model.pack, hpack]
    · refine Or.inl ?_
      show UnpackedFloat.unpack .binary64 (UnpackedFloat.pack .binary64 _) = _ ∨
        ∃ m' e' hm', UnpackedFloat.unpack .binary64 (UnpackedFloat.pack .binary64 _) = _
      rw [hpack, Number.unpack_packComponents]
      exact Number.ofParts_cases .positive M hE

end Decimal

namespace Number

open Float.Model Float.Model.UnpackedFloat

variable {x : Float}

/-- An unsigned number is printed in positional notation, as a decimal that names it. -/
theorem IsUnsigned.exists_plainChars_eq (h : IsUnsigned x) :
    ∃ d : Decimal, plainChars x = d.plain ∧ d.positional.toFloat = x := by
  have hplain : ∃ d : Decimal, plainChars x = d.plain := by
    rw [plainChars]
    rcases isUnsigned_iff.mp h with hunpack | ⟨m, e, hm, hunpack⟩
    · rw [hunpack]
      exact ⟨⟨0, 0⟩, by decide⟩
    · rw [hunpack]
      exact ⟨shortest .up m e, rfl⟩
  obtain ⟨d, hd⟩ := hplain
  have hread : read? d.plain = some x := hd ▸ read?_plainChars h.1
  have hsign : ∀ c ∈ d.plain, c ≠ '-' ∧ c ≠ '+' := by
    intro c hc
    rcases Decimal.mem_plain hc with hdigit | rfl
    · constructor <;>
      · rintro rfl
        cases hdigit
    · decide
  rw [read?_of_no_sign hsign, readUnsigned?_plain] at hread
  exact ⟨d, hd, Option.some.inj hread⟩

/-- **An unsigned number is read back from the word that it is printed as.** -/
theorem number?_plainChars (h : IsUnsigned x) : Scan.number? (plainChars x) = some x := by
  obtain ⟨d, hd, rfl⟩ := h.exists_plainChars_eq
  obtain ⟨whole, fraction, hsplit, hne, hdigits⟩ := d.exists_split_plain
  rw [hd, Scan.number?, hsplit]
  simp [hne, hdigits]

end Number

/-- The number that a word begins with is unsigned, or it is too large. -/
theorem Scan.isUnsigned_or_eq_of_number? {word : List Char} {x : Float}
    (h : number? word = some x) : Number.IsUnsigned x ∨ x = Number.infinity := by
  rw [number?.eq_def] at h
  dsimp only at h
  split at h
  · cases h
  · cases h
    exact Decimal.isUnsigned_or_eq_infinity _

end Spreadsheet
