import Mathlib.Tactic.Common
import Spreadsheet.CommandLine.Options

/-!
# Arguments

The arguments of a run are options, some of which take the next argument as their value whatever
it looks like, and a bare argument for the sheet to load. Reading them from left to right comes to
a run exactly if they can be divided in that way with at most one bare argument
(`Request.ofArguments_eq_run_iff`). What the run is asked to do can then be told without the order
of reading: all edits count, in order, and of everything else the last one.

## Main definitions

* `Argument`, `Argument.WrittenAs`: options with their values, and how they are written.
* `Argument.AllWrittenAs`: what a list of arguments is made up of.
* `Options.ofList`: what they ask for together.

## Main results

* `Request.read_append`: what one option with its value does.
* `Request.ofArguments_eq_run_iff`: which arguments come to a run, and to which one.
-/

namespace Spreadsheet

/-- An option with its value, or a bare argument. -/
inductive Argument where
  /-- A formula to evaluate. -/
  | formula (text : String)
  /-- An edit to make. -/
  | edit (text : String)
  /-- The file to save the sheet to. -/
  | output (path : String)
  /-- The file to read settings from. -/
  | settings (path : String)
  /-- Unknown words are refused. -/
  | strict
  /-- Operators and functions are listed. -/
  | list
  /-- The sheet to load. -/
  | file (path : String)
deriving DecidableEq

namespace Argument

/-- How an option with its value is **written**. The value may be any text; a bare argument does
not begin with a dash. -/
inductive WrittenAs : Argument → List String → Prop
  | formula {option text : String} (h : option = "-c" ∨ option = "--command") :
      WrittenAs (formula text) [option, text]
  | edit {option text : String} (h : option = "-s" ∨ option = "--set") :
      WrittenAs (edit text) [option, text]
  | output {option path : String} (h : option = "-o" ∨ option = "--output") :
      WrittenAs (output path) [option, path]
  | settings {path : String} : WrittenAs (settings path) ["--config", path]
  | strict : WrittenAs strict ["--strict"]
  | list {option : String} (h : option = "-l" ∨ option = "--list") : WrittenAs list [option]
  | file {path : String} (h : path.toList.head? ≠ some '-') : WrittenAs (file path) [path]

/-- What a list of arguments is made up of. -/
inductive AllWrittenAs : List Argument → List String → Prop
  | nil : AllWrittenAs [] []
  | cons {a : Argument} {as : List Argument} {texts args : List String}
      (h : WrittenAs a texts) (hs : AllWrittenAs as args) : AllWrittenAs (a :: as) (texts ++ args)

/-- The formula to evaluate, if that is what is asked for. -/
def formula? : Argument → Option String
  | formula text => some text
  | _ => none

/-- The edit to make, if that is what is asked for. -/
def edit? : Argument → Option String
  | edit text => some text
  | _ => none

/-- The file to save the sheet to, if that is what is asked for. -/
def output? : Argument → Option String
  | output path => some path
  | _ => none

/-- The file to read settings from, if that is what is asked for. -/
def settings? : Argument → Option String
  | settings path => some path
  | _ => none

/-- The sheet to load, if that is what is asked for. -/
def file? : Argument → Option String
  | file path => some path
  | _ => none

end Argument

namespace Options

variable {o : Options} {a : Argument} {as : List Argument}

/-- What is asked for after one more option. -/
def take (o : Options) : Argument → Options
  | .formula text => { o with formula? := some text }
  | .edit text => { o with edits := o.edits ++ [text] }
  | .output path => { o with output? := some path }
  | .settings path => { o with settings? := some path }
  | .strict => { o with strict := true }
  | .list => { o with list := true }
  | .file path => { o with file? := some path }

/-- What arguments **ask for together**: every edit, and of everything else the last one. -/
def ofList (as : List Argument) : Options where
  file? := (as.filterMap Argument.file?).getLast?
  formula? := (as.filterMap Argument.formula?).getLast?
  edits := as.filterMap Argument.edit?
  output? := (as.filterMap Argument.output?).getLast?
  settings? := (as.filterMap Argument.settings?).getLast?
  strict := decide (.strict ∈ as)
  list := decide (.list ∈ as)

/-- Taken one after the other, options add to the edits and replace everything else. -/
theorem foldl_take (as : List Argument) (o : Options) :
    as.foldl take o =
      { file? := (ofList as).file?.or o.file?
        formula? := (ofList as).formula?.or o.formula?
        edits := o.edits ++ (ofList as).edits
        output? := (ofList as).output?.or o.output?
        settings? := (ofList as).settings?.or o.settings?
        strict := o.strict || (ofList as).strict
        list := o.list || (ofList as).list } := by
  induction as generalizing o with
  | nil => simp [ofList]
  | cons a as ih =>
      rw [List.foldl_cons, ih]
      cases a <;>
        simp [take, ofList, List.filterMap_cons, List.getLast?_cons, Argument.file?,
          Argument.formula?, Argument.edit?, Argument.output?, Argument.settings?]

/-- Taking arguments in one by one gives the options of the whole list. -/
theorem foldl_take_eq_ofList (as : List Argument) : as.foldl take {} = ofList as := by
  rw [foldl_take]
  simp

/-- Whether there is **room for the bare arguments**, of which there may be one in all. -/
def Admits (o : Options) (as : List Argument) : Prop :=
  (o.file?.toList ++ as.filterMap Argument.file?).length ≤ 1

/-- No further arguments are always admitted. -/
theorem admits_nil : o.Admits [] := by
  cases hfile : o.file? <;> simp [Admits, hfile]

/-- An argument is admitted with those behind it if it is no second file. -/
theorem admits_cons :
    o.Admits (a :: as) ↔ (a.file? = none ∨ o.file? = none) ∧ (o.take a).Admits as := by
  cases a with
  | file path =>
      cases hfile : o.file? with
      | none => simp [Admits, hfile, take, Argument.file?]
      | some other => simp [Admits, hfile, Argument.file?]
  | _ => simp [Admits, take, Argument.file?, List.filterMap_cons]

end Options

namespace Request

variable {o o' : Options} {a : Argument} {as : List Argument} {texts args : List String}

/-- The texts that are options. -/
def optionNames : List String :=
  ["-h", "--help", "-c", "--command", "-s", "--set", "-o", "--output", "--config", "--strict",
    "-l", "--list"]

/-- The name of an option begins with a dash. -/
theorem head?_of_mem_optionNames :
    ∀ option ∈ optionNames, option.toList.head? = some '-' := by
  decide

/-- **What one option with its value does**, in front of any other arguments. A bare argument does
it only if there has been none. -/
theorem read_append (h : a.WrittenAs texts) (hfile : a.file? = none ∨ o.file? = none)
    (args : List String) : read o (texts ++ args) = read (o.take a) args := by
  cases h with
  | formula h => rcases h with rfl | rfl <;> simp [read, Options.take]
  | edit h => rcases h with rfl | rfl <;> simp [read, Options.take]
  | output h => rcases h with rfl | rfl <;> simp [read, Options.take]
  | settings => simp [read, Options.take]
  | strict => simp [read.eq_def o ("--strict" :: args), Options.take]
  | @list option h => rcases h with rfl | rfl <;> simp [read.eq_def o (_ :: args), Options.take]
  | @file path h =>
      have hnone : o.file? = none := by simpa [Argument.file?] using hfile
      have hne : ∀ option ∈ optionNames, path ≠ option := by
        rintro option hoption rfl
        exact h (head?_of_mem_optionNames _ hoption)
      simp only [optionNames, List.forall_mem_cons] at hne
      rw [List.singleton_append, read.eq_def]
      simp [hne, h, hnone, Options.take]

/-- One option in front of arguments that come to a run. -/
theorem exists_cons_of_read (h : a.WrittenAs texts) (hfile : a.file? = none ∨ o.file? = none)
    (hrest : ∃ as, Argument.AllWrittenAs as args ∧ (o.take a).Admits as ∧
      as.foldl Options.take (o.take a) = o') :
    ∃ as, Argument.AllWrittenAs as (texts ++ args) ∧ o.Admits as ∧
      as.foldl Options.take o = o' := by
  obtain ⟨as, hs, hadmits, heq⟩ := hrest
  exact ⟨a :: as, .cons h hs, Options.admits_cons.mpr ⟨hfile, hadmits⟩, heq⟩

/-- Arguments that come to a run are made up of options with at most one bare argument. -/
theorem exists_of_read_eq_run (h : read o args = .run o') :
    ∃ as, Argument.AllWrittenAs as args ∧ o.Admits as ∧ as.foldl Options.take o = o' := by
  fun_induction read o args with
  | case1 o => exact ⟨[], .nil, Options.admits_nil, Request.run.inj h⟩
  | case3 o arg _ hoption text rest ih =>
      exact exists_cons_of_read (.formula hoption) (.inl rfl) (ih h)
  | case5 o arg _ _ hoption text rest ih =>
      exact exists_cons_of_read (.edit hoption) (.inl rfl) (ih h)
  | case7 o arg _ _ _ hoption path rest ih =>
      exact exists_cons_of_read (.output hoption) (.inl rfl) (ih h)
  | case9 o path rest _ _ _ _ ih => exact exists_cons_of_read .settings (.inl rfl) (ih h)
  | case11 o rest _ _ _ _ _ ih => exact exists_cons_of_read .strict (.inl rfl) (ih h)
  | case12 o arg rest _ _ _ _ _ _ hoption ih =>
      exact exists_cons_of_read (.list hoption) (.inl rfl) (ih h)
  | case14 o path rest _ _ _ _ _ _ _ hdash hnone ih =>
      exact exists_cons_of_read (.file hdash) (.inr hnone) (ih h)
  | case2 | case4 | case6 | case8 | case10 | case13 | case15 => simp at h

/-- Options with at most one bare argument come to a run, which is asked for all of them. -/
theorem read_eq_run_of_allWrittenAs (h : Argument.AllWrittenAs as args) (hadmits : o.Admits as) :
    read o args = .run (as.foldl Options.take o) := by
  induction h generalizing o with
  | nil => rw [read, List.foldl_nil]
  | cons h _ ih =>
      obtain ⟨hfile, hadmits⟩ := Options.admits_cons.mp hadmits
      rw [read_append h hfile, ih hadmits, List.foldl_cons]

/-- **Which arguments come to a run**: those that can be divided into options with their values and
at most one bare argument. The run is asked for all of that together. -/
theorem ofArguments_eq_run_iff :
    ofArguments args = .run o ↔
      ∃ as, Argument.AllWrittenAs as args ∧ (as.filterMap Argument.file?).length ≤ 1 ∧
        o = Options.ofList as := by
  constructor
  · intro h
    obtain ⟨as, hs, hadmits, rfl⟩ := exists_of_read_eq_run h
    exact ⟨as, hs, by simpa [Options.Admits] using hadmits, Options.foldl_take_eq_ofList as⟩
  · rintro ⟨as, hs, hsingle, rfl⟩
    rw [ofArguments, ← Options.foldl_take_eq_ofList]
    exact read_eq_run_of_allWrittenAs hs (by simpa [Options.Admits] using hsingle)

/-- The value of an option may look like an option. -/
example : ofArguments ["-s", "-o", "a.grd", "-o", "--list", "-s", "A1=5"] =
    .run { file? := some "a.grd", edits := ["-o", "A1=5"], output? := some "--list" } := by
  decide

end Request

end Spreadsheet
