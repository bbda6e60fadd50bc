import Spreadsheet.Number.Printer
import Spreadsheet.Proofs.Address.Names
import Spreadsheet.Sheet.Display

/-!
# The Characters of Printed Numbers

Positional notation consists of digits and at most one point. With its sign, or as one of
the names of the values that are not finite, a printed number therefore never looks like
anything else that may stand in its place: a marker, a formula, a text in quotes.

## Main results

* `Decimal.exists_parts_plain`: the parts of positional notation.
* `Decimal.mem_plain`: positional notation consists of digits and a point.
* `Number.mem_plainChars`: so does the plain text of a finite number, but for its sign.
* `Number.not_hash_mem_fixed`: no printed number contains the sign with which markers begin.
-/

namespace Spreadsheet

/-- Only the number zero begins with a zero. -/
theorem length_toDigits_of_head? {n : ℕ} (h : (Nat.toDigits 10 n).head? = some '0') :
    (Nat.toDigits 10 n).length = 1 := by
  rcases Nat.eq_zero_or_pos n with rfl | hpos
  · rfl
  · exact absurd h (head?_toDigits_ne_zero hpos)

namespace Decimal

/-- Without places there is no point. -/
theorem plain_of_exponent_nonneg {d : Decimal} (h : 0 ≤ d.exponent) :
    d.plain = Nat.toDigits 10 d.positional.digits := by
  have hplaces : (-d.exponent).toNat = 0 := by omega
  have hlen : 0 + 1 - (Nat.toDigits 10 d.positional.digits).length = 0 := by
    have := @Nat.length_toDigits_pos 10 d.positional.digits
    omega
  simp only [plain, hplaces, hlen]
  rfl

/-- With places there is a point, with digits on both sides, and no needless zero in front. -/
theorem plain_of_exponent_neg {d : Decimal} (h : d.exponent < 0) :
    ∃ whole fraction, d.plain = whole ++ '.' :: fraction ∧
      (∀ c ∈ whole, c.isDigit = true) ∧ (∀ c ∈ fraction, c.isDigit = true) ∧
      whole ≠ [] ∧ fraction ≠ [] ∧ (whole.head? = some '0' → whole.length = 1) := by
  have hplaces : (-d.exponent).toNat ≠ 0 := by omega
  have hdigits : ∀ c ∈ Nat.toDigits 10 d.positional.digits, c.isDigit = true :=
    fun c hc => Nat.isDigit_of_mem_toDigits (by decide) (by decide) hc
  have hhead := @length_toDigits_of_head? d.positional.digits
  rw [plain]
  generalize Nat.toDigits 10 d.positional.digits = ds at hdigits hhead
  generalize (-d.exponent).toNat = places at hplaces
  generalize hpadded : List.replicate (places + 1 - ds.length) '0' ++ ds = padded
  have hall : ∀ c ∈ padded, c.isDigit = true := by
    intro c hc
    rw [← hpadded, List.mem_append] at hc
    rcases hc with hc | hc
    · rw [(List.mem_replicate.mp hc).2]
      decide
    · exact hdigits c hc
  have hlength : padded.length = max ds.length (places + 1) := by
    rw [← hpadded, List.length_append, List.length_replicate]
    omega
  rw [if_neg hplaces]
  refine ⟨_, _, rfl, fun c hc => hall c (List.mem_of_mem_take hc),
    fun c hc => hall c (List.mem_of_mem_drop hc), ?_, ?_, fun hzero => ?_⟩
  · refine List.ne_nil_of_length_pos ?_
    rw [List.length_take]
    omega
  · refine List.ne_nil_of_length_pos ?_
    rw [List.length_drop]
    omega
  · rw [List.length_take]
    -- Either the digits are filled up and one stands before the point, or nothing is added.
    rcases Nat.lt_or_ge places ds.length with hlong | hshort
    · have hsame : padded = ds := by
        rw [← hpadded, show places + 1 - ds.length = 0 by omega]
        rfl
      rw [hsame, List.head?_take, if_neg (by omega)] at hzero
      have := hhead hzero
      omega
    · omega

/-- Positional notation has digits before its point, and behind it if there is one. -/
theorem exists_parts_plain (d : Decimal) : ∃ whole fraction,
    whole ≠ [] ∧ (∀ c ∈ whole, c.isDigit = true) ∧ (∀ c ∈ fraction, c.isDigit = true) ∧
      (d.plain = whole ∧ fraction = [] ∨ d.plain = whole ++ '.' :: fraction ∧ fraction ≠ []) := by
  by_cases hneg : d.exponent < 0
  · obtain ⟨whole, fraction, hplain, hwhole, hfraction, hne, hne', -⟩ := plain_of_exponent_neg hneg
    exact ⟨whole, fraction, hne, hwhole, hfraction, Or.inr ⟨hplain, hne'⟩⟩
  · exact ⟨_, [], Nat.toDigits_ne_nil, fun _ => Nat.isDigit_of_mem_toDigits (by decide) (by decide),
      nofun, Or.inl ⟨plain_of_exponent_nonneg (Int.not_lt.mp hneg), rfl⟩⟩

/-- Positional notation consists of digits and a point. -/
theorem mem_plain {d : Decimal} {c : Char} (h : c ∈ d.plain) : c.isDigit = true ∨ c = '.' := by
  obtain ⟨whole, fraction, -, hwhole, hfraction, ⟨hplain, -⟩ | ⟨hplain, -⟩⟩ := exists_parts_plain d
  · rw [hplain] at h
    exact Or.inl (hwhole c h)
  · rw [hplain] at h
    rcases List.mem_append.mp h with h | h
    · exact Or.inl (hwhole c h)
    · exact (List.mem_cons.mp h).symm.imp_left (hfraction c)

/-- No number is written without characters. -/
theorem plain_ne_nil (d : Decimal) : d.plain ≠ [] := by
  obtain ⟨whole, fraction, hne, -, -, ⟨hplain, -⟩ | ⟨hplain, -⟩⟩ := exists_parts_plain d
  · exact hplain ▸ hne
  · exact hplain ▸ List.append_ne_nil_of_left_ne_nil hne _

/-- Positional notation is split at its point, and nothing is left over. -/
theorem exists_split_plain (d : Decimal) : ∃ whole fraction, split d.plain = (whole, fraction, []) ∧
    whole ≠ [] ∧ ofDigits whole fraction 0 = d.positional := by
  have hread := read?_plain d
  obtain ⟨whole, fraction, hne, hwhole, hfraction, ⟨hplain, rfl⟩ | ⟨hplain, -⟩⟩ :=
    exists_parts_plain d
  · have hsplit : split d.plain = (whole, [], []) := by rw [hplain, split_digits hwhole]
    rw [read?_of_split hsplit hne] at hread
    exact ⟨whole, [], hsplit, hne, Option.some.inj hread⟩
  · have hsplit : split d.plain = (whole, fraction, []) := by
      rw [hplain, split_point hwhole hfraction]
    rw [read?_of_split hsplit hne] at hread
    exact ⟨whole, fraction, hsplit, hne, Option.some.inj hread⟩

end Decimal

namespace Number

open Float.Model (UnpackedFloat)

/-- The only sign that is written is a minus. -/
theorem mem_signText {s : UnpackedFloat.Sign} {c : Char} (h : c ∈ signText s) : c = '-' := by
  cases s with
  | negative => exact List.mem_singleton.mp h
  | positive => cases h

/-- The plain text of a finite number consists of digits, a point and a sign. -/
theorem mem_plainChars {x : Float} (hx : x.isFinite = true) {c : Char} (h : c ∈ plainChars x) :
    c.isDigit = true ∨ c = '.' ∨ c = '-' := by
  rw [Float.isFinite, Float.Model.isFinite] at hx
  rw [plainChars] at h
  cases hunpack : x.toModel.unpack with
  | notANumber =>
      rw [hunpack] at hx
      cases hx
  | infinity s =>
      rw [hunpack] at hx
      cases hx
  | zero s =>
      rw [hunpack] at h
      rcases List.mem_append.mp h with h | h
      · exact Or.inr (Or.inr (mem_signText h))
      · exact Or.inl (List.mem_singleton.mp h ▸ rfl)
  | finite s m e hm =>
      rw [hunpack] at h
      rcases List.mem_append.mp h with h | h
      · exact Or.inr (Or.inr (mem_signText h))
      · exact (Decimal.mem_plain h).imp_right Or.inl

/-- No printed number contains the sign with which markers begin. -/
theorem not_hash_mem_fixed (places : Nat) (x : Float) : '#' ∉ (fixed places x).toList := by
  have hplain : ∀ (s : UnpackedFloat.Sign) (d : Decimal), '#' ∉ signText s ++ d.plain := by
    intro s d h
    rcases List.mem_append.mp h with h | h
    · have := mem_signText h
      contradiction
    · have := Decimal.mem_plain h
      revert this
      decide
  rw [fixed, String.toList_ofList]
  split
  · decide
  · rename_i s _
    cases s <;> decide
  · exact hplain _ _
  · exact hplain _ _

/-- No number is displayed like a circular reference. -/
theorem shown_ne_cycle (x : Float) : shown x ≠ "#CYCLE!" := by
  intro h
  rw [shown] at h
  split at h
  · revert h
    decide
  · split at h
    · revert h
      decide
    · have hfixed : ∀ places, fixed places x ≠ "#CYCLE!" := by
        intro places hplaces
        have hhash := not_hash_mem_fixed places x
        rw [hplaces] at hhash
        exact hhash (by decide)
      split at h
      · exact hfixed 0 h
      · exact hfixed 2 h

end Number

end Spreadsheet
