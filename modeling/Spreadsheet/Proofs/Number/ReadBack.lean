import Mathlib
import Spreadsheet.Proofs.Number.Plain

/-!
# Numbers are Read Back

The plain text of a finite number is read back as that number, bit for bit. By construction
the shortest digits name whatever all digits of the number name (`Number.toFloat_shortest`),
so what is left to show is that the exact value of a number is rounded to the number itself.

A number that is not zero has the form `m · 2 ^ e`, where `e` is the exponent that the format
chooses for the value (`Number.Canonical`). Its decimal is `m · 2 ^ e` for an integer, and
`m · 5 ^ k · 10 ^ -k` for a fraction whose exponent is `-k`. Rounding shifts the former to the
right; for the latter it first divides by `10 ^ k`, with so many zeros appended that nothing
is left over. In both cases only zeros are shifted out (`Number.roundWithAccuracy_exact`).
That a number is determined by its sign, its mantissa and its exponent is a matter of the bits
in which it is packed (`Number.pack_unpack`).

## Main definitions

* `Number.Canonical`: the exponent is the one that the format chooses.
* `Number.ofParts`: the value of the three parts of a bit pattern.

## Main results

* `Number.roundWithAccuracy_exact`: what can be represented is not rounded.
* `Number.pack_unpack`: a number is its own value packed again.
* `Number.toFloat_exactly`: all digits of a number name it.
* `Number.read?_plainChars`: the plain text of a finite number is read back.
-/

namespace Spreadsheet.Number

open Float.Model Float.Model.UnpackedFloat

/-! ### Values that need no rounding -/

/-- A mantissa and an exponent are **canonical** if the exponent is the one that the format
chooses for their value. -/
def Canonical (m : ℕ) (e : ℤ) : Prop :=
  Format.binary64.targetExponent (totalExponent m e) = e

/-- A shift by some bits adds their number to the logarithm. -/
theorem log2_mul_two_pow {m : ℕ} (hm : m ≠ 0) (j : ℕ) : (m * 2 ^ j).log2 = m.log2 + j := by
  induction j with
  | zero => simp
  | succ j ih =>
      have hne : m * 2 ^ j ≠ 0 := Nat.mul_ne_zero hm (Nat.two_pow_pos j).ne'
      have heq : m * 2 ^ (j + 1) = 2 * (m * 2 ^ j) := by ring
      rw [heq, Nat.log2_two_mul hne, ih, Nat.add_assoc]

/-- Zeros that are shifted out leave no trace. -/
theorem repeat_shiftRightOne (m j : ℕ) :
    j.repeat ExtendedMantissa.shiftRightOne ⟨m * 2 ^ j, false, false⟩ = ⟨m, false, false⟩ := by
  induction j generalizing m with
  | zero => simp [Nat.repeat]
  | succ j ih =>
      have heq : m * 2 ^ (j + 1) = 2 * m * 2 ^ j := by ring
      rw [heq, Nat.repeat, ih]
      simp [ExtendedMantissa.shiftRightOne]

/-- Shifting a value to its own exponent takes off the zeros at the end of its mantissa. -/
theorem shiftToTargetExponent_exact {m : ℕ} {e : ℤ} (hm : m ≠ 0) (h : Canonical m e) (j : ℕ) :
    shiftToTargetExponent .binary64 (m * 2 ^ j) (e - j) .exact = (⟨m, false, false⟩, e) := by
  have htotal : totalExponent (m * 2 ^ j) (e - j) = totalExponent m e := by
    rw [totalExponent, totalExponent, log2_mul_two_pow hm]
    push_cast
    ring
  have hshift : (e - (e - j)).toNat = j := by omega
  rw [shiftToTargetExponent, htotal, h, shiftToExponent, hshift]
  refine Prod.ext (repeat_shiftRightOne m j) ?_
  show e - j + j = e
  omega

/-- **What can be represented is not rounded.** -/
theorem roundWithAccuracy_exact {m : ℕ} {e : ℤ} (hm : 0 < m) (h : Canonical m e) (s : Sign)
    (j : ℕ) : roundWithAccuracy .binary64 s (m * 2 ^ j) (e - j) .exact = .finite s m e hm := by
  have hagain := shiftToTargetExponent_exact hm.ne' h 0
  rw [Nat.pow_zero, Nat.mul_one, Nat.cast_zero, Int.sub_zero] at hagain
  have hrounded : (⟨m, false, false⟩ : ExtendedMantissa).roundedMantissa = m := rfl
  simp only [roundWithAccuracy, shiftToTargetExponent_exact hm.ne' h j, hrounded, hagain]
  exact dif_neg hm.ne'

/-! ### Numerals of exact values -/

/-- The exponents beyond which scaling is not attempted. -/
theorem two_pow_exponentBits : (2 : ℤ) ^ Format.binary64.exponentBits = 2048 := rfl

/-- All digits of an integer name it. -/
theorem ofScientific_of_nonneg {m : ℕ} (k : ℕ) (hm : 0 < m) (h : Canonical m k) :
    UnpackedFloat.ofScientific .binary64 (m * 2 ^ k) 0 = .finite .positive m k hm := by
  have hne : m * 2 ^ k ≠ 0 := Nat.mul_ne_zero hm.ne' (Nat.two_pow_pos k).ne'
  have hmantissa : (m * 2 ^ k) <<< Format.binary64.mantissaBits * 10 ^ (0 : ℤ).toNat =
      m * 2 ^ (k + 53) := by
    have hbits : Format.binary64.mantissaBits = 53 := rfl
    rw [hbits, Nat.shiftLeft_eq, Int.toNat_zero]
    ring
  have hexponent : -(Format.binary64.mantissaBits : ℤ) + 0 = k - (k + 53 : ℕ) := by
    have hbits : Format.binary64.mantissaBits = 53 := rfl
    rw [hbits]
    omega
  have hlow : ¬ (0 : ℤ) < -(2 ^ Format.binary64.exponentBits + ((m * 2 ^ k).log2 : ℤ)) := by
    rw [two_pow_exponentBits]
    omega
  have hhigh : ¬ (0 : ℤ) > 2 ^ Format.binary64.exponentBits := by
    rw [two_pow_exponentBits]
    omega
  rw [UnpackedFloat.ofScientific, dif_neg hne, if_neg hhigh, if_neg hlow, if_pos (Int.le_refl 0)]
  simp only [UnpackedFloat.mul]
  rw [hmantissa, hexponent]
  exact roundWithAccuracy_exact hm h .positive (k + 53)

/-- The leading digits of a product of two numbers, and those of its factors. -/
theorem log2_mul_le {a b : ℕ} (ha : a ≠ 0) (hb : b ≠ 0) :
    (a * b).log2 ≤ a.log2 + b.log2 + 1 := by
  refine Nat.le_of_lt_succ ((Nat.log2_lt (Nat.mul_ne_zero ha hb)).mpr ?_)
  calc a * b < 2 ^ (a.log2 + 1) * 2 ^ (b.log2 + 1) :=
        Nat.mul_lt_mul'' Nat.lt_log2_self Nat.lt_log2_self
    _ = 2 ^ (a.log2 + b.log2 + 1).succ := by rw [← Nat.pow_add]; congr 1; omega

/-- The larger a number, the larger is the exponent that it is rounded for. -/
theorem targetExponent_mono {a b : ℤ} (h : a ≤ b) :
    Format.binary64.targetExponent a ≤ Format.binary64.targetExponent b := by
  rw [Format.targetExponent, Format.targetExponent]
  omega

/-- All digits of a binary fraction name it. The division by a power of ten leaves no
remainder, because there are at least as many twos in the dividend as in the divisor. -/
theorem ofScientific_of_neg {m k : ℕ} (hm : 0 < m) (hk : 0 < k) (hle : k ≤ 1074)
    (h : Canonical m (-k)) :
    UnpackedFloat.ofScientific .binary64 (m * 5 ^ k) (-k) = .finite .positive m (-(k : ℤ)) hm := by
  have hfive : (5 ^ k : ℕ) ≠ 0 := (Nat.pow_pos (by decide)).ne'
  have hne : m * 5 ^ k ≠ 0 := Nat.mul_ne_zero hm.ne' hfive
  have hten : (10 ^ k : ℕ) = 5 ^ k * 2 ^ k := by rw [← Nat.mul_pow]
  -- The exponent at which the quotient is computed.
  obtain ⟨j, hj⟩ : ∃ j : ℕ, min ((0 : ℤ) - 0) (Format.binary64.targetExponent
      (totalExponent (m * 5 ^ k) 0 - totalExponent (10 ^ k) 0)) = -k - j := by
    have htarget : Format.binary64.targetExponent
        (totalExponent (m * 5 ^ k) 0 - totalExponent (10 ^ k) 0) ≤ -k := by
      have hlog := log2_mul_le hm.ne' hfive
      refine (targetExponent_mono ?_).trans_eq h
      rw [totalExponent, totalExponent, totalExponent, hten, log2_mul_two_pow hfive]
      omega
    exact ⟨(-k - min ((0 : ℤ) - 0) (Format.binary64.targetExponent
      (totalExponent (m * 5 ^ k) 0 - totalExponent (10 ^ k) 0))).toNat, by omega⟩
  have hshift : ((0 : ℤ) - 0 - (-k - j)).toNat = k + j := by omega
  have hdividend : (m * 5 ^ k) <<< (k + j) = m * 2 ^ j * 10 ^ k := by
    rw [Nat.shiftLeft_eq, hten]
    ring
  have hdiv : divCore .binary64 (m * 5 ^ k) 0 (10 ^ k) 0 = (m * 2 ^ j, -(k : ℤ) - j, .exact) := by
    have hpos : 0 < 10 ^ k := Nat.pow_pos (by decide)
    simp only [divCore, hj, hshift, hdividend, Nat.mul_div_cancel _ hpos, Nat.mul_mod_left]
    rfl
  have hneg : (-(-(k : ℤ))).toNat = k := by omega
  have hhigh : ¬ -(k : ℤ) > 2 ^ Format.binary64.exponentBits := by
    rw [two_pow_exponentBits]
    omega
  have hlow : ¬ -(k : ℤ) < -(2 ^ Format.binary64.exponentBits + ((m * 5 ^ k).log2 : ℤ)) := by
    rw [two_pow_exponentBits]
    omega
  have hsign : ¬ (0 : ℤ) ≤ -k := by omega
  rw [UnpackedFloat.ofScientific, dif_neg hne, if_neg hhigh, if_neg hlow, if_neg hsign]
  simp only [UnpackedFloat.div, hneg, hdiv]
  exact roundWithAccuracy_exact hm h .positive j

/-! ### Bit patterns -/

/-- A sign is got back from its bit. -/
theorem ofBitVec_toBitVec (s : Sign) : Sign.ofBitVec s.toBitVec = s := by
  cases s <;> rfl

/-- A bit is got back from the sign that it stands for. -/
theorem toBitVec_ofBitVec (b : BitVec 1) : (Sign.ofBitVec b).toBitVec = b := by
  have hbit : b = 0#1 ∨ b = 1#1 := by
    revert b
    decide
  rcases hbit with rfl | rfl <;> rfl

/-- The sign of a bit pattern is the sign that was put into it. -/
theorem unpackSign_packComponents (s : Sign) (E : BitVec 11) (M : BitVec 52) :
    unpackSign (packComponents .binary64 s E M) = s.toBitVec := by
  simp only [unpackSign, packComponents, BitVec.extractLsb]
  ext i hi
  grind

/-- A bit pattern consists of its sign, its exponent and its mantissa. -/
theorem packComponents_parts (b : BitVec Format.binary64.numBits) :
    packComponents .binary64 (Sign.ofBitVec (unpackSign b)) (unpackExponent b)
      (unpackMantissa b) = b := by
  simp only [packComponents, toBitVec_ofBitVec, unpackSign, unpackExponent, unpackMantissa,
    BitVec.extractLsb]
  ext i hi
  grind

/-- A mantissa with the leading bit that is not stored. -/
theorem toNat_one_append (M : BitVec 52) : (1#1 ++ M).toNat = 2 ^ 52 + M.toNat := by
  rw [BitVec.toNat_append, ← Nat.shiftLeft_add_eq_or_of_lt M.isLt]
  simp [Nat.shiftLeft_eq]

/-- Bits that are not all zero have a positive value. -/
theorem toNat_pos {n : ℕ} {b : BitVec n} (h : b ≠ 0#n) : 0 < b.toNat :=
  Nat.pos_of_ne_zero fun hzero => h (BitVec.eq_of_toNat_eq (by simpa using hzero))

/-- The value of a sign, an exponent and a mantissa. -/
def ofParts (s : Sign) (E : BitVec 11) (M : BitVec 52) : UnpackedFloat :=
  if E = -1#11 then
    if M = 0#52 then .infinity s else .notANumber
  else if E = 0#11 then
    if h : 0 < M.toNat then .finite s M.toNat (-1074) h else .zero s
  else .finite s (2 ^ 52 + M.toNat) (E.toNat - 1075) (Nat.add_pos_left (by decide) _)

/-- Packed from a sign, an exponent and a mantissa, a number unpacks to what these stand for. -/
theorem unpack_packComponents (s : Sign) (E : BitVec 11) (M : BitVec 52) :
    UnpackedFloat.unpack .binary64 (packComponents .binary64 s E M) = ofParts s E M := by
  have hbias : ((Format.binary64.exponentBias : ℕ) : ℤ) = 1023 := rfl
  have hbits : ((Format.binary64.mantissaBitsWithoutImplicit : ℕ) : ℤ) = 52 := rfl
  rw [UnpackedFloat.unpack, ofParts]
  simp only [unpackMantissa_packComponents, unpackExponent_packComponents,
    unpackSign_packComponents, ofBitVec_toBitVec, toNat_one_append, hbias, hbits]
  split
  · rfl
  · split
    · rename_i hE
      by_cases hM : M = 0#52
      · subst hM
        rfl
      · have hpos : 0 < M.toNat := toNat_pos hM
        rw [dif_neg hM, dif_pos hpos]
        subst hE
        rfl
    · rfl

/-- A bit pattern has the value of its parts. -/
theorem unpack_eq_ofParts (b : BitVec Format.binary64.numBits) :
    UnpackedFloat.unpack .binary64 b =
      ofParts (Sign.ofBitVec (unpackSign b)) (unpackExponent b) (unpackMantissa b) := by
  rw [← unpack_packComponents, packComponents_parts]

/-- **Packing undoes unpacking** for all that is a number. -/
theorem pack_ofParts {s : Sign} {E : BitVec 11} {M : BitVec 52} (h : E ≠ -1#11) :
    UnpackedFloat.pack .binary64 (ofParts s E M) = packComponents .binary64 s E M := by
  have hM : M.toNat < 2 ^ 52 := M.isLt
  have hbits : Format.binary64.mantissaBits = 53 := rfl
  rw [ofParts, if_neg h]
  split
  · rename_i hE
    subst hE
    split
    · rename_i hpos
      have hlog : ¬ M.toNat.log2 + 1 = 53 := by
        have := (Nat.log2_lt hpos.ne').mpr hM
        omega
      have hbiased : (-1074 + (Format.binary64.exponentBias : ℤ) +
          (Format.binary64.mantissaBitsWithoutImplicit : ℤ)).toNat = 1 := rfl
      simp only [UnpackedFloat.pack, hbiased, hbits, if_neg hlog]
      rw [if_neg (by decide), BitVec.ofNat_toNat, BitVec.setWidth_eq]
    · rename_i hpos
      have hzero : M = 0#52 := BitVec.eq_of_toNat_eq (by simpa using hpos)
      rw [hzero]
      rfl
  · rename_i hE
    have hEM : E.toNat < 2 ^ 11 := E.isLt
    have hE' : E.toNat ≠ 2047 := fun heq => h (BitVec.eq_of_toNat_eq (by simpa using heq))
    have hlog : (2 ^ 52 + M.toNat).log2 = 52 := by
      rw [Nat.log2_eq_iff (by omega)]
      omega
    have hbiased : ((E.toNat : ℤ) - 1075 + (Format.binary64.exponentBias : ℤ) +
        (Format.binary64.mantissaBitsWithoutImplicit : ℤ)).toNat = E.toNat := by
      have hbias : ((Format.binary64.exponentBias : ℕ) : ℤ) = 1023 := rfl
      have hbits : ((Format.binary64.mantissaBitsWithoutImplicit : ℕ) : ℤ) = 52 := rfl
      rw [hbias, hbits]
      omega
    have hmantissa : BitVec.ofNat 52 (2 ^ 52 + M.toNat) = M :=
      BitVec.eq_of_toNat_eq (by simpa using hM)
    simp only [UnpackedFloat.pack, hbiased, hbits, hlog]
    rw [if_neg (by omega), if_pos trivial, BitVec.ofNat_toNat, BitVec.setWidth_eq]
    exact congrArg _ hmantissa

/-- What the parts of a positive or negative number are, and that they do not depend on its
sign. -/
theorem of_ofParts_eq_finite {s s' : Sign} {E : BitVec 11} {M : BitVec 52} {m : ℕ} {e : ℤ}
    {hm : 0 < m} (h : ofParts s E M = .finite s' m e hm) :
    s = s' ∧ E ≠ -1#11 ∧ Canonical m e ∧ -1074 ≤ e ∧
      ∀ s'', ofParts s'' E M = .finite s'' m e hm := by
  have hM : M.toNat < 2 ^ 52 := M.isLt
  have hbits : Format.binary64.mantissaBits = 53 := rfl
  have hmin : Format.binary64.minExponent = -1074 := rfl
  rw [ofParts] at h
  split at h
  · split at h <;> cases h
  · rename_i hE
    split at h
    · rename_i hE'
      split at h
      · rename_i hpos
        cases h
        refine ⟨rfl, hE, ?_, Int.le_refl _, fun s'' => ?_⟩
        · have hlog := (Nat.log2_lt hpos.ne').mpr hM
          rw [Canonical, Format.targetExponent, totalExponent, hbits, hmin]
          omega
        · rw [ofParts, if_neg hE, if_pos hE', dif_pos hpos]
      · cases h
    · rename_i hE'
      cases h
      have hlog : (2 ^ 52 + M.toNat).log2 = 52 := by
        rw [Nat.log2_eq_iff (by omega)]
        omega
      have hEM : 0 < E.toNat := toNat_pos hE'
      refine ⟨rfl, hE, ?_, by omega, fun s'' => ?_⟩
      · rw [Canonical, Format.targetExponent, totalExponent, hbits, hmin, hlog]
        omega
      · rw [ofParts, if_neg hE, if_neg hE']

/-! ### Numbers -/

/-- A number that is finite is its bit pattern packed again. -/
theorem pack_unpack {x : Float.Model} (h : x.isFinite = true) : Float.Model.pack x.unpack = x := by
  have hparts : x.unpack = _ := unpack_eq_ofParts x.toBits.toBitVec
  have hE : @unpackExponent .binary64 x.toBits.toBitVec ≠ -1#11 := by
    intro hE
    rw [Float.Model.isFinite, hparts, ofParts, if_pos hE] at h
    split at h <;> cases h
  have hbits : UnpackedFloat.pack .binary64 x.unpack = x.toBits.toBitVec := by
    rw [hparts, pack_ofParts hE, packComponents_parts]
  obtain ⟨bits, valid⟩ := x
  have hbits' : UInt64.ofBitVec (UnpackedFloat.pack .binary64
      (Float.Model.mk bits valid).unpack) = bits := by
    rw [hbits]
  simp only [Float.Model.pack, hbits']

/-- A number that is not zero has a canonical mantissa and exponent, and packed with either
sign they are unpacked again. -/
theorem of_unpack_eq_finite {x : Float.Model} {s : Sign} {m : ℕ} {e : ℤ} {hm : 0 < m}
    (h : x.unpack = .finite s m e hm) :
    Canonical m e ∧ -1074 ≤ e ∧
      ∀ s', (Float.Model.pack (.finite s' m e hm)).unpack = .finite s' m e hm := by
  have hparts : x.unpack = _ := unpack_eq_ofParts x.toBits.toBitVec
  rw [hparts] at h
  obtain ⟨-, hE, hcanonical, hlow, hsign⟩ := of_ofParts_eq_finite h
  refine ⟨hcanonical, hlow, fun s' => ?_⟩
  show UnpackedFloat.unpack .binary64 (UnpackedFloat.pack .binary64 _) = _
  rw [← hsign s', pack_ofParts hE, unpack_packComponents]

/-- **All digits of a number name it.** -/
theorem toFloat_exactly {m : ℕ} {e : ℤ} (hm : 0 < m) (h : Canonical m e) (hlow : -1074 ≤ e) :
    (Magnitude.exactly m e).toFloat = .ofModel (.pack (.finite .positive m e hm)) := by
  have hnamed : UnpackedFloat.ofScientific .binary64 (Magnitude.exactly m e).digits
      (Magnitude.exactly m e).exponent = .finite .positive m e hm := by
    rcases lt_or_ge e 0 with hneg | hnonneg
    · obtain ⟨k, rfl⟩ : ∃ k : ℕ, e = -k := ⟨(-e).toNat, by omega⟩
      have hexactly : Magnitude.exactly m (-k) = ⟨m * 5 ^ k, -k⟩ := by
        have htwo : (-(k : ℤ)).toNat = 0 := by omega
        have hfive : (-(-(k : ℤ))).toNat = k := by omega
        have hmin : min (-(k : ℤ)) 0 = -k := by omega
        rw [Magnitude.exactly, hfive, htwo, hmin]
        exact congrArg (fun n => Decimal.mk (n * 5 ^ k) (-k)) (Nat.mul_one m)
      rw [hexactly]
      exact ofScientific_of_neg hm (by omega) (by omega) h
    · obtain ⟨k, rfl⟩ := Int.eq_ofNat_of_zero_le hnonneg
      have hexactly : Magnitude.exactly m k = ⟨m * 2 ^ k, 0⟩ := by
        have hfive : (-(k : ℤ)).toNat = 0 := by omega
        have hmin : min (k : ℤ) 0 = 0 := by omega
        rw [Magnitude.exactly, hfive, hmin, Int.toNat_natCast]
        exact congrArg (Decimal.mk · 0) (Nat.mul_one _)
      rw [hexactly]
      exact ofScientific_of_nonneg k hm h
  rw [Decimal.toFloat, Float.Model.ofScientific, hnamed]

/-- A digit has no other case. -/
theorem toLower_of_isDigit {c : Char} (h : c.isDigit = true) : c.toLower = c := by
  have hle : c.val ≤ 57 := by
    simp only [Char.isDigit, Bool.and_eq_true, decide_eq_true_eq] at h
    exact h.2
  refine dif_neg fun hupper => ?_
  have hge : (65 : UInt32) ≤ c.val := hupper.1
  exact absurd (UInt32.le_trans hge hle) (by decide)

/-- Positional notation without a sign is read back. -/
theorem readUnsigned?_plain (d : Decimal) : readUnsigned? d.plain = some d.positional.toFloat := by
  have hname : ∀ name : String, 'n' ∈ name.toList →
      String.ofList (d.plain.map Char.toLower) ≠ name := by
    rintro name hn rfl
    rw [String.toList_ofList] at hn
    obtain ⟨c, hc, hlower⟩ := List.mem_map.mp hn
    rcases Decimal.mem_plain hc with hdigit | rfl
    · rw [toLower_of_isDigit hdigit] at hlower
      rw [hlower] at hdigit
      cases hdigit
    · revert hlower
      decide
  rw [readUnsigned?]
  rw [if_neg (not_or.mpr ⟨hname "inf" (by decide), hname "infinity" (by decide)⟩),
    if_neg (hname "nan" (by decide)), Decimal.read?_plain]
  rfl

/-- A text that begins with no sign is read without one. -/
theorem read?_of_no_sign {cs : List Char} (h : ∀ c ∈ cs, c ≠ '-' ∧ c ≠ '+') :
    read? cs = readUnsigned? cs := by
  rw [read?.eq_def]
  split
  · exact absurd rfl (h '-' List.mem_cons_self).1
  · exact absurd rfl (h '+' List.mem_cons_self).2
  · rfl

/-- **A finite number is read back from its plain text.** -/
theorem read?_plainChars {x : Float} (h : x.isFinite = true) : read? (plainChars x) = some x := by
  have hpack : Float.Model.pack x.toModel.unpack = x.toModel := pack_unpack h
  have hx : Float.ofModel (Float.Model.pack x.toModel.unpack) = x := by rw [hpack]
  rw [plainChars]
  cases hunpack : x.toModel.unpack with
  | notANumber =>
      rw [Float.isFinite, Float.Model.isFinite, hunpack] at h
      cases h
  | infinity s =>
      rw [Float.isFinite, Float.Model.isFinite, hunpack] at h
      cases h
  | zero s =>
      rw [hunpack] at hx
      rw [← hx]
      cases s <;> decide +kernel
  | finite s m e hm =>
      rw [hunpack] at hx
      obtain ⟨hcanonical, hlow, hagain⟩ := of_unpack_eq_finite hunpack
      have hread : readUnsigned? (shortest .up m e).plain =
          some (.ofModel (.pack (.finite .positive m e hm))) := by
        rw [readUnsigned?_plain, toFloat_shortest, toFloat_exactly hm hcanonical hlow]
      show read? (signText s ++ (shortest .up m e).plain) = some x
      cases s with
      | positive =>
          have hsign : signText .positive = [] := rfl
          rw [hsign, List.nil_append, read?_of_no_sign, hread, hx]
          intro c hc
          rcases Decimal.mem_plain hc with hdigit | rfl
          · constructor <;>
            · rintro rfl
              cases hdigit
          · decide
      | negative =>
          have hsign : signText .negative = ['-'] := rfl
          have hneg : -Float.ofModel (.pack (.finite .positive m e hm)) = x := by
            rw [← hx]
            show Float.ofModel (Float.Model.pack
              (Float.Model.pack (.finite .positive m e hm)).unpack.neg) = _
            rw [hagain .positive]
            rfl
          rw [hsign, List.singleton_append, read?, hread, Option.map_some, hneg]

end Spreadsheet.Number
