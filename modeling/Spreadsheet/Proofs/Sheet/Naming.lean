import Spreadsheet.Proofs.Formula.Denoting
import Spreadsheet.Proofs.Formula.Scanning
import Spreadsheet.Proofs.Formula.Stepping
import Spreadsheet.Proofs.Sheet.Recalculation

/-!
# Naming Cells in Formulas

The name of a cell, written as a formula, has the value of the cell. A name is a single word, and
it begins with no number and no separator. But the names of functions come first, in any case, and
four of them consist of letters and digits behind them as the names of cells do. The cells of these
names are the only ones that cannot be named (`Sheet.valueOfText_name`).

## Main results

* `Address.name_mem_of_ofChars?`: the cells that have the name of a function.
* `Sheet.valueOfText_name`: the value of a cell's name.
-/

namespace Spreadsheet

namespace Address

variable {a : Address} {f : Builtin}

/-- The characters of an address make up its name. -/
theorem toList_name (a : Address) : a.name.toList = a.nameChars :=
  String.toList_ofList

/-- **The cells that have the name of a function.** There is a digit in the name of a cell, and
four functions have one in their names. -/
theorem name_mem_of_ofChars? (h : Builtin.ofChars? a.nameChars = some f) :
    a.name ∈ ["ROUND1", "ROUND2", "ROUND3", "ROUND4"] := by
  rw [Builtin.ofChars?_eq_some_iff] at h
  have hclass := fun c => (isName_nameChars a).isUpper_or_isDigit (c := c)
  have hupper : a.nameChars = f.name.toList.map Char.toUpper := by
    rw [← h, List.map_map]
    exact ((List.map_congr_left fun c hc => toUpper_toLower (hclass c hc)).trans
      (List.map_id _)).symm
  have hdigit : f.name.toList.any Char.isDigit = true := by
    obtain ⟨letters, digits, hname, -, -, hne, hdigits, -⟩ := isName_nameChars a
    obtain ⟨d, digits, rfl⟩ := List.exists_cons_of_ne_nil hne
    have hd : d.isDigit = true := hdigits d List.mem_cons_self
    have hmem : d ∈ a.nameChars := by simp [hname]
    rw [← h]
    refine List.any_eq_true.mpr ⟨d.toLower, List.mem_map_of_mem hmem, ?_⟩
    rwa [Number.toLower_of_isDigit hd]
  rw [name, hupper]
  cases f with
  | round1 | round2 | round3 | round4 => decide
  | _ => exact absurd hdigit (by decide)

/-- Every other name is read as a reference. -/
theorem token?_nameChars (h : a.name ∉ ["ROUND1", "ROUND2", "ROUND3", "ROUND4"]) :
    Scan.token? a.nameChars = some (.reference a.name) := by
  have hname : Scan.reference? a.nameChars = some a.name :=
    Scan.reference?_of_isName (isName_nameChars a)
  refine Scan.token?_eq_some_iff.mpr (.reference hname ?_)
  exact Option.eq_none_iff_forall_ne_some.mpr fun f hf => h (name_mem_of_ofChars? hf)

/-- The four names are read as functions. -/
theorem exists_function_of_name (h : a.name ∈ ["ROUND1", "ROUND2", "ROUND3", "ROUND4"]) :
    ∃ f, Scan.token? a.nameChars = some (.function f) := by
  rw [← toList_name]
  simp only [List.mem_cons, List.not_mem_nil, or_false] at h
  rcases h with h | h | h | h
  · exact ⟨.round1, by rw [h]; decide⟩
  · exact ⟨.round2, by rw [h]; decide⟩
  · exact ⟨.round3, by rw [h]; decide⟩
  · exact ⟨.round4, by rw [h]; decide⟩

/-- The name of a cell makes one token. -/
theorem scanChars_nameChars {t : Token} (h : Scan.token? a.nameChars = some t) :
    Token.scanChars a.nameChars = [t] ∧ Token.scanStrict a.name = .ok [t] := by
  have hwords := Scan.words_of_ordinary a.nameChars_ne_nil fun _ => (isName_nameChars a).ordinary
  constructor
  · rw [Token.scanChars, hwords, List.filterMap_cons_some h]
    rfl
  · rw [Token.scanStrict_eq_ok_iff, toList_name, hwords]
    exact .cons h .nil

end Address

namespace Sheet

variable {a : Address}

/-- The value of a cell's name is the value of its tokens. -/
theorem valueOfText_name_eq (s : Sheet) (draw : Float) (a : Address) :
    s.valueOfText draw a.name = s.valueOf draw (Token.scanChars a.nameChars) := by
  obtain ⟨c, rest, hcons, hc⟩ := (Address.isName_nameChars a).exists_cons
  have htrim : trimStart a.nameChars = a.nameChars :=
    dropWhile_of_head fun d hd =>
      ((Address.isName_nameChars a).ordinary (List.mem_of_head? hd)).2.2
  have hequals : (trimStart a.name.toList).head? ≠ some '=' := by
    rw [Address.toList_name, htrim, hcons]
    rintro heq
    rw [Option.some.inj heq] at hc
    exact absurd hc (by decide)
  rw [valueOfText, evaluateText_eq hequals, Token.scan, Address.toList_name, valueOf]

/-- A reference has the value of its cell. -/
theorem valueOf_reference (s : Sheet) (draw : Float) (ha : a.Within) :
    s.valueOf draw [.reference a.name] = s.value draw a := by
  have hread : Address.read? a.name = some a := by
    rw [Address.read?, Address.toList_name, Address.readChars?_nameChars ha]
  rw [valueOf_eq, evaluateWith_eq, List.foldlM_cons, Stacks.stepWith, answerNames_of_some hread]
  cases s.value draw a <;> rfl

/-- **The value of a cell's name** is the value of the cell, except for the four cells that have
the name of a function. Their names are read as functions, which have no value without brackets. -/
theorem valueOfText_name (s : Sheet) (draw : Float) (ha : a.Within) :
    (a.name ∉ ["ROUND1", "ROUND2", "ROUND3", "ROUND4"] →
      Token.scan a.name = [.reference a.name] ∧
        Token.scanStrict a.name = .ok [.reference a.name] ∧
        s.valueOfText draw a.name = s.value draw a) ∧
    (a.name ∈ ["ROUND1", "ROUND2", "ROUND3", "ROUND4"] →
      ∃ f, Token.scan a.name = [.function f] ∧ Token.scanStrict a.name = .ok [.function f] ∧
        s.valueOfText draw a.name = .error (.malformed (.notCalled f))) := by
  constructor
  · intro h
    obtain ⟨hscan, hstrict⟩ := Address.scanChars_nameChars (Address.token?_nameChars h)
    refine ⟨?_, hstrict, ?_⟩
    · rw [Token.scan, Address.toList_name, hscan]
    · rw [valueOfText_name_eq, hscan, valueOf_reference s draw ha]
  · intro h
    obtain ⟨f, hf⟩ := Address.exists_function_of_name h
    obtain ⟨hscan, hstrict⟩ := Address.scanChars_nameChars hf
    refine ⟨f, ?_, hstrict, ?_⟩
    · rw [Token.scan, Address.toList_name, hscan]
    · rw [valueOfText_name_eq, hscan, valueOf_eq, evaluateWith_eq]
      rfl

/-- A cell of two letters is named. -/
theorem valueOfText_name_ab12 :
    (⟨11, 27⟩ : Address).Within ∧ (⟨11, 27⟩ : Address).name = "AB12" ∧
      (ofList [(⟨11, 27⟩, .ofNumber 4)]).valueOfText 0 "AB12" = .ok 4 := by
  have hname : (⟨11, 27⟩ : Address).name = "AB12" := by decide +kernel
  have hvalue : (ofList [(⟨11, 27⟩, .ofNumber 4)]).value 0 ⟨11, 27⟩ = .ok 4 := by decide +kernel
  have hcell := (valueOfText_name (ofList [(⟨11, 27⟩, .ofNumber 4)]) 0
    (a := ⟨11, 27⟩) (by decide)).1 (by rw [hname]; decide)
  rw [hname] at hcell
  exact ⟨by decide, hname, hcell.2.2.trans hvalue⟩

/-- The cell `ROUND1` holds a number, and its name is not read as a reference. -/
theorem valueOfText_name_round1 :
    (⟨0, 8503771⟩ : Address).Within ∧ (⟨0, 8503771⟩ : Address).name = "ROUND1" ∧
      Token.scan "ROUND1" = [.function .round1] ∧
      (ofList [(⟨0, 8503771⟩, .ofNumber 5)]).value 0 ⟨0, 8503771⟩ = .ok 5 ∧
      (ofList [(⟨0, 8503771⟩, .ofNumber 5)]).valueOfText 0 "ROUND1" =
        .error (.malformed (.notCalled .round1)) := by
  decide +kernel

end Sheet

end Spreadsheet
