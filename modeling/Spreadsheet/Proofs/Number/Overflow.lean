import Spreadsheet.Proofs.Number.ReadBack

/-!
# Numbers that are Too Large

A decimal names the nearest number. Rounding it yields zero or a positive number, and if that is
beyond the largest number of the format, it is packed as the infinity.

## Main results

* `Number.isFinite_orZero`: zero stands in for all that is not finite.
* `Number.ofScientific_cases`: what a decimal is rounded to.
* `Number.pack_finite_cases`: what a number is packed as.
-/

namespace Spreadsheet

namespace Number

open Float.Model Float.Model.UnpackedFloat

/-- What counts in place of a number is finite. -/
theorem isFinite_orZero (x : Float) : (orZero x).isFinite = true := by
  rw [orZero]
  split
  · assumption
  · decide +kernel

/-- Parts whose exponent is not the largest one make a number with their sign. -/
theorem ofParts_cases (s : Sign) {E : BitVec 11} (M : BitVec 52) (h : E ≠ -1#11) :
    ofParts s E M = .zero s ∨ ∃ m e hm, ofParts s E M = .finite s m e hm := by
  rw [ofParts, if_neg h]
  split
  · split
    · rename_i hpos
      exact Or.inr ⟨_, _, hpos, rfl⟩
    · exact Or.inl rfl
  · exact Or.inr ⟨_, _, Nat.add_pos_left (Nat.two_pow_pos 52) _, rfl⟩

/-- A number is packed with its own sign, as the infinity or as parts that are finite. -/
theorem pack_finite_cases (s : Sign) (m : ℕ) (e : ℤ) (hm : 0 < m) :
    UnpackedFloat.pack .binary64 (.finite s m e hm) = UnpackedFloat.pack .binary64 (.infinity s) ∨
      ∃ (E : BitVec 11) (M : BitVec 52), E ≠ -1#11 ∧
        UnpackedFloat.pack .binary64 (.finite s m e hm) = packComponents .binary64 s E M := by
  obtain ⟨biased, hbiased⟩ : ∃ biased, (e + (Format.binary64.exponentBias : ℤ) +
      (Format.binary64.mantissaBitsWithoutImplicit : ℤ)).toNat = biased := ⟨_, rfl⟩
  by_cases hlarge : 2 ^ 11 ≤ biased + 1
  · exact Or.inl (by simp only [UnpackedFloat.pack, hbiased, if_pos hlarge])
  · have hE : BitVec.ofNat 11 biased ≠ -1#11 := by
      intro heq
      have hnat := congrArg BitVec.toNat heq
      rw [BitVec.toNat_ofNat, Nat.mod_eq_of_lt (by omega)] at hnat
      have hones : (-1#11).toNat = 2047 := by decide
      omega
    by_cases hlog : m.log2 + 1 = Format.binary64.mantissaBits
    · refine Or.inr ⟨BitVec.ofNat 11 biased, BitVec.ofNat 52 m, hE, ?_⟩
      simp only [UnpackedFloat.pack, hbiased, if_neg hlarge, if_pos hlog]
    · refine Or.inr ⟨0#11, BitVec.ofNat 52 m, by decide, ?_⟩
      simp only [UnpackedFloat.pack, hbiased, if_neg hlarge, if_neg hlog]

/-- Rounding yields no infinity; that is left to packing. -/
theorem roundWithAccuracy_cases (s : Sign) (m : ℕ) (e : ℤ) (accuracy : Accuracy) :
    roundWithAccuracy .binary64 s m e accuracy = .zero s ∨
      ∃ m' e' hm, roundWithAccuracy .binary64 s m e accuracy = .finite s m' e' hm := by
  simp only [roundWithAccuracy]
  split
  · exact Or.inl rfl
  · rename_i hne
    exact Or.inr ⟨_, _, Nat.pos_of_ne_zero hne, rfl⟩

/-- A decimal is zero, or positive and perhaps too large. -/
theorem ofScientific_cases (m : ℕ) (e : ℤ) :
    UnpackedFloat.ofScientific .binary64 m e = .zero .positive ∨
      UnpackedFloat.ofScientific .binary64 m e = .infinity .positive ∨
      ∃ m' e' hm, UnpackedFloat.ofScientific .binary64 m e = .finite .positive m' e' hm := by
  have hround : ∀ {x : UnpackedFloat}, (x = .zero .positive ∨
      ∃ m' e' hm, x = .finite .positive m' e' hm) →
      x = .zero .positive ∨ x = .infinity .positive ∨
        ∃ m' e' hm, x = .finite .positive m' e' hm :=
    fun h => h.imp_right Or.inr
  rw [UnpackedFloat.ofScientific]
  split
  · exact Or.inl rfl
  · split
    · exact Or.inr (Or.inl rfl)
    · split
      · exact Or.inl rfl
      · split
        · exact hround (roundWithAccuracy_cases _ _ _ _)
        · simp only [UnpackedFloat.div]
          exact hround (roundWithAccuracy_cases _ _ _ _)

/-- The infinity is what is packed as positive infinity. -/
theorem infinity_eq : infinity = .ofModel (.pack (.infinity .positive)) := by
  decide +kernel

end Number

end Spreadsheet
