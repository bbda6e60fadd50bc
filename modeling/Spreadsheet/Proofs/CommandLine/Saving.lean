import Spreadsheet.CommandLine.Run
import Spreadsheet.Proofs.CommandLine.Arguments
import Spreadsheet.Proofs.Sheet.Listing
import Spreadsheet.Proofs.Workbook.Disk
import Spreadsheet.Proofs.Workbook.Handling

/-!
# What a Run Writes

A run writes at most one file. It attempts that if it gets past everything that comes before: the
arguments come to a run that is not asked for a list, an output is named, the settings and the sheet
can be loaded, and all edits can be made. What is written then is the sheet with the edits, in the
format that the path asks for (`Asked`). The formula has no part in this, whatever it is and
whether it has a value or not.

The outcome of a run does not tell a write that was attempted in vain from one that never was. But
a run can be made in any way of writing (`runArgumentsIn`), and in each of them it comes to one
attempt to write or to none (`exists_attemptIn`). If every write is noted down, the outcome is the
one of the program, and the notes are its attempts.

## Main definitions

* `Workbook.Edited`: what a workbook becomes by edits.
* `Asked`: which text is to be written to which path.
* `Outcome.attemptIn`: one attempt to write, or none.
* `Disk.noting`: the way of writing that takes notes.

## Main results

* `Workbook.foldlM_edit_eq_ok_iff`: which edits can be made.
* `attempt?_eq_some_iff_asked`: what is attempted is what is asked for.
* `exists_attemptIn`: a run comes to one attempt, or to none, in any way of writing.
* `runArguments_writes`: what a run writes.
-/

namespace Spreadsheet

/-! ### Edits -/

namespace Workbook

variable {w w' : Workbook} {e : String} {edits : List String}

/-- An edit is made if it has an equals sign with the name of a cell in front of the first one, and
what comes after that can be typed into the cell. -/
theorem edit_eq_ok_iff :
    w.edit e = .ok w' ↔
      ∃ name input a, e = name ++ "=" ++ input ∧ '=' ∉ name.toList ∧
        Address.readChars? ((trim name.toList).map Char.toUpper) = some a ∧
        w.set a input = (.ok (), w') := by
  constructor
  · intro h
    rw [edit] at h
    split at h
    · simp at h
    · rename_i c input hdrop
      have hc : c = '=' := by
        have hhead := List.head?_dropWhile_not (· ≠ '=') e.toList
        rw [hdrop] at hhead
        simpa using hhead
      subst hc
      obtain ⟨htext, hname⟩ := eq_append_cons_iff.mpr ⟨rfl, hdrop⟩
      dsimp only at h
      split at h
      · simp at h
      · rename_i a haddress
        split at h
        · rename_i v hset
          obtain rfl := Except.ok.inj h
          refine ⟨String.ofList (e.toList.takeWhile (· ≠ '=')), String.ofList input, a, ?_, ?_, ?_,
            hset⟩
          · rw [← String.toList_inj]
            simpa using htext
          · rwa [String.toList_ofList]
          · rwa [String.toList_ofList]
        · simp at h
  · rintro ⟨name, input, a, rfl, hname, haddress, hset⟩
    have htext : (name ++ "=" ++ input).toList = name.toList ++ '=' :: input.toList := by
      simp
    obtain ⟨htake, hdrop⟩ := eq_append_cons_iff.mp ⟨htext, hname⟩
    rw [edit]
    simp only [hdrop, htake, haddress, String.ofList_toList, hset]

/-- What a workbook **becomes by edits**, one after the other. Each is made of a name and an input,
which may have more equals signs in it. -/
inductive Edited : Workbook → List String → Workbook → Prop
  | nil (w : Workbook) : Edited w [] w
  | cons {w v w' : Workbook} {name input : String} {a : Address} {edits : List String}
      (hname : '=' ∉ name.toList)
      (haddress : Address.readChars? ((trim name.toList).map Char.toUpper) = some a)
      (hset : w.set a input = (.ok (), v)) (hrest : Edited v edits w') :
      Edited w ((name ++ "=" ++ input) :: edits) w'

/-- **Which edits can be made**: those of which each can be made after the ones before it. -/
theorem foldlM_edit_eq_ok_iff : edits.foldlM edit w = .ok w' ↔ Edited w edits w' := by
  constructor
  · intro h
    induction edits generalizing w with
    | nil =>
        obtain rfl := Except.ok.inj h
        exact .nil w
    | cons e edits ih =>
        rw [List.foldlM_cons] at h
        obtain ⟨v, hedit, hrest⟩ := exists_of_bind_eq_ok h
        obtain ⟨name, input, a, rfl, hname, haddress, hset⟩ := edit_eq_ok_iff.mp hedit
        exact .cons hname haddress hset (ih hrest)
  · intro h
    induction h with
    | nil w => rfl
    | @cons w v w' name input a edits hname haddress hset _ ih =>
        have hedit : w.edit (name ++ "=" ++ input) = .ok v :=
          edit_eq_ok_iff.mpr ⟨name, input, a, rfl, hname, haddress, hset⟩
        rw [List.foldlM_cons, hedit]
        exact ih

end Workbook

/-! ### What is asked for -/

/-- What is **asked for**: a text is to be written to the path that is named by the last output. -/
inductive Asked (args : List String) (usual? : Option String) (d : Disk) (path text : String) : Prop
  /-- The arguments can be divided into options with their values and at most one bare argument, the
  options do not ask for a list, and everything can be loaded and edited. -/
  | intro {as : List Argument} {settings : Settings} {w w' : Workbook}
      (harguments : Argument.AllWrittenAs as args)
      (hsingle : (as.filterMap Argument.file?).length ≤ 1)
      (hlist : .list ∉ as)
      (houtput : (as.filterMap Argument.output?).getLast? = some path)
      (hsettings :
        Settings.load d (as.filterMap Argument.settings?).getLast? usual? = .ok settings)
      (hfile : Workbook.openFile d (as.filterMap Argument.file?).getLast? = .ok w)
      (hedits : Workbook.Edited { w with strict := decide (.strict ∈ as) || settings.strict }
        (as.filterMap Argument.edit?) w')
      (htext : text = (FileFormat.ofPath path).render w'.sheet)

namespace Options

variable {o : Options} {usual? : Option String} {d : Disk} {w : Workbook}

/-- The workbook of a run is ready if settings and sheet can be loaded and all edits are made. -/
theorem prepare_eq_ok_iff :
    o.prepare usual? d = .ok w ↔
      ∃ settings v, Settings.load d o.settings? usual? = .ok settings ∧
        Workbook.openFile d o.file? = .ok v ∧
        Workbook.Edited { v with strict := o.strict || settings.strict } o.edits w := by
  constructor
  · intro h
    rw [prepare] at h
    obtain ⟨settings, hsettings, h⟩ := exists_of_bind_eq_ok h
    obtain ⟨v, hfile, h⟩ := exists_of_bind_eq_ok h
    exact ⟨settings, v, eq_ok_of_mapError_eq_ok hsettings, eq_ok_of_mapError_eq_ok hfile,
      Workbook.foldlM_edit_eq_ok_iff.mp h⟩
  · rintro ⟨settings, v, hsettings, hfile, hedits⟩
    rw [prepare, hsettings, hfile]
    exact Workbook.foldlM_edit_eq_ok_iff.mpr hedits

/-- The path and the text of the write that a run attempts. -/
def attempt? (o : Options) (usual? : Option String) (d : Disk) : Option (String × String) :=
  if o.list then none
  else match o.prepare usual? d with
    | .error _ => none
    | .ok w => o.output?.map fun path => (path, (FileFormat.ofPath path).render w.sheet)

/-- A write is attempted if no list is asked for, an output is named, and the workbook can be
prepared. What is written then is the sheet, in the format of the path. -/
theorem attempt?_eq_some_iff {path text : String} :
    o.attempt? usual? d = some (path, text) ↔
      o.list = false ∧ o.output? = some path ∧
        ∃ w, o.prepare usual? d = .ok w ∧ text = (FileFormat.ofPath path).render w.sheet := by
  rw [attempt?]
  cases o.list with
  | true => simp
  | false =>
      cases o.prepare usual? d with
      | error e => simp
      | ok w =>
          cases o.output? with
          | none => simp
          | some named =>
              constructor
              · intro h
                obtain ⟨rfl, rfl⟩ := Prod.mk.inj (Option.some.inj h)
                exact ⟨rfl, rfl, w, rfl, rfl⟩
              · rintro ⟨-, hnamed, v, hv, rfl⟩
                obtain rfl := Option.some.inj hnamed
                obtain rfl := Except.ok.inj hv
                rfl

end Options

/-- The path and the text of the write that the program attempts. -/
def attempt? (args : List String) (usual? : Option String) (d : Disk) : Option (String × String) :=
  match Request.ofArguments args with
  | .run o => o.attempt? usual? d
  | _ => none

/-- **What is attempted is what is asked for.** -/
theorem attempt?_eq_some_iff_asked {args : List String} {usual? : Option String} {d : Disk}
    {path text : String} :
    attempt? args usual? d = some (path, text) ↔ Asked args usual? d path text := by
  constructor
  · intro h
    rw [attempt?] at h
    split at h
    · rename_i o hrun
      obtain ⟨as, harguments, hsingle, rfl⟩ := Request.ofArguments_eq_run_iff.mp hrun
      obtain ⟨hlist, houtput, w', hprepare, htext⟩ := Options.attempt?_eq_some_iff.mp h
      obtain ⟨settings, w, hsettings, hfile, hedits⟩ := Options.prepare_eq_ok_iff.mp hprepare
      exact .intro harguments hsingle (of_decide_eq_false hlist) houtput hsettings hfile hedits
        htext
    · simp at h
  · rintro @⟨as, settings, w, w', harguments, hsingle, hlist, houtput, hsettings, hfile, hedits,
      htext⟩
    have hrun : Request.ofArguments args = .run (Options.ofList as) :=
      Request.ofArguments_eq_run_iff.mpr ⟨as, harguments, hsingle, rfl⟩
    have hprepare : (Options.ofList as).prepare usual? d = .ok w' :=
      Options.prepare_eq_ok_iff.mpr ⟨settings, w, hsettings, hfile, hedits⟩
    rw [attempt?, hrun]
    exact Options.attempt?_eq_some_iff.mpr ⟨decide_eq_false hlist, houtput, w', hprepare, htext⟩

/-- A formula without a value keeps nothing from being written. -/
example : attempt? ["-s", "A1=5", "-o", "a.grd", "-c", "1+", "-s", "B1==A1"] none {} =
    some ("a.grd", "# Cellcalc Spreadsheet\nA1: 5\nB1: =A1\n") := by
  decide +kernel

/-! ### Runs in any way of writing -/

section

variable {m : Type → Type} [Monad m] (write : Writing m)

/-- **One attempt to write, or none**, and what is printed and left behind after it. -/
def Outcome.attemptIn (before : Outcome) : Option (String × String) → m Outcome
  | none => return before
  | some (path, text) => do
    let written ← write before.disk path text
    return before.afterSaving path (written.mapError .file)

variable [LawfulMonad m]

/-- **Saving is one attempt to write** if it is asked for, in any way of writing. -/
theorem Options.finishIn_eq (o : Options) (w : Workbook) (before : Outcome) :
    o.finishIn write w before =
      before.attemptIn write
        (o.output?.map fun path => (path, (FileFormat.ofPath path).render w.sheet)) := by
  rw [finishIn]
  cases o.output? with
  | none => rfl
  | some path =>
      dsimp only [Option.map_some, Outcome.attemptIn]
      rw [Handling.runIn_saveAs, map_eq_pure_bind, bind_assoc]
      refine bind_congr fun written => ?_
      cases written <;> simp [Workbook.orWritten, Except.mapError]

end

/-- What is printed before leaves the disk as it is. -/
theorem Options.disk_answer (o : Options) (draw : Float) (w : Workbook) (d : Disk) :
    (o.answer draw w d).disk = d ∧ (o.answer draw w d).saved? = none := by
  rw [answer]
  split
  · split <;> exact ⟨rfl, rfl⟩
  · split
    · exact ⟨rfl, rfl⟩
    · split <;> exact ⟨rfl, rfl⟩

/-- **What a run comes to**, in any way of writing: what it prints at first depends on no way of
writing and leaves the disk as it is, and after that there is one attempt to write, or none. -/
theorem exists_attemptIn (args : List String) (usual? : Option String) (draw : Float) (d : Disk) :
    ∃ before : Outcome, before.disk = d ∧ before.saved? = none ∧
      ∀ {m : Type → Type} [Monad m] [LawfulMonad m] (write : Writing m),
        runArgumentsIn write args usual? draw d =
          before.attemptIn write (attempt? args usual? d) := by
  simp only [runArgumentsIn, attempt?]
  cases Request.ofArguments args with
  | help => exact ⟨_, rfl, rfl, fun _ => rfl⟩
  | misuse cause => exact ⟨_, rfl, rfl, fun _ => rfl⟩
  | run o =>
      simp only [Options.runIn, Options.attempt?]
      cases o.list with
      | true => exact ⟨_, rfl, rfl, fun _ => rfl⟩
      | false =>
          cases o.prepare usual? d with
          | error e => exact ⟨_, rfl, rfl, fun _ => rfl⟩
          | ok w =>
              obtain ⟨hdisk, hsaved⟩ := o.disk_answer draw w d
              exact ⟨_, hdisk, hsaved, fun write => o.finishIn_eq write w _⟩

/-! ### Taking notes -/

/-- Writes a file, and notes down the path and the text whether that succeeds or not. -/
def Disk.noting : Writing (StateM (List (String × String))) :=
  fun d path text notes => (d.write path text, notes ++ [(path, text)])

/-- What an attempt to write leaves, if there is one: the disk, and the path if the attempt has been
successful. -/
def Disk.afterAttempt (d : Disk) : Option (String × String) → Disk × Option String
  | none => (d, none)
  | some (path, text) =>
    match d.write path text with
    | .ok d' => (d', some path)
    | .error _ => (d, none)

namespace Disk

variable {d d' : Disk} {attempt? : Option (String × String)}

/-- After an attempt that succeeds the disk is the written one, and the path is known. -/
theorem afterAttempt_of_write {path text : String} (h : d.write path text = .ok d') :
    d.afterAttempt (some (path, text)) = (d', some path) := by
  rw [afterAttempt, h]

/-- Without an attempt that succeeds, everything stays as it was. -/
theorem afterAttempt_of_failed
    (h : ∀ path text d', attempt? = some (path, text) → d.write path text ≠ .ok d') :
    d.afterAttempt attempt? = (d, none) := by
  cases attempt? with
  | none => rfl
  | some attempt =>
      obtain ⟨path, text⟩ := attempt
      cases hwrite : d.write path text with
      | ok d' => exact absurd hwrite (h path text d' rfl)
      | error cause => rw [afterAttempt, hwrite]

/-- Something else can only be found along the names of the path that was to be written. -/
theorem exists_of_node?_afterAttempt {other : String}
    (h : (d.afterAttempt attempt?).1.node? other ≠ d.node? other) :
    ∃ path text, attempt? = some (path, text) ∧ Path.names other = Path.names path := by
  cases attempt? with
  | none => exact absurd rfl h
  | some attempt =>
      obtain ⟨path, text⟩ := attempt
      refine ⟨path, text, rfl, ?_⟩
      by_contra hother
      cases hwrite : d.write path text with
      | ok d' =>
          rw [afterAttempt_of_write hwrite] at h
          exact h (node?_of_write hwrite hother)
      | error cause =>
          rw [afterAttempt, hwrite] at h
          exact h rfl

end Disk

namespace Outcome

variable (before : Outcome) (attempt? : Option (String × String))

/-- **Taking notes changes nothing**: the outcome is that of just writing, and the notes are the
attempt. -/
theorem run_attemptIn_noting :
    (before.attemptIn Disk.noting attempt?).run [] =
      (Id.run (before.attemptIn Disk.write attempt?), attempt?.toList) := by
  rcases attempt? with _ | ⟨path, text⟩ <;> rfl

/-- What an attempt leaves is known from the disk alone. -/
theorem disk_attemptIn (h : before.saved? = none) :
    ((Id.run (before.attemptIn Disk.write attempt?)).disk,
        (Id.run (before.attemptIn Disk.write attempt?)).saved?) =
      before.disk.afterAttempt attempt? := by
  rcases attempt? with _ | ⟨path, text⟩
  · simp [attemptIn, Disk.afterAttempt, h]
  · simp only [attemptIn, Disk.afterAttempt, Id.run_bind, Id.run_pure]
    change ((before.afterSaving path ((before.disk.write path text).mapError .file)).disk,
      (before.afterSaving path ((before.disk.write path text).mapError .file)).saved?) = _
    cases before.disk.write path text <;> simp [afterSaving, Except.mapError, h]

end Outcome

/-- **What a run comes to**: at most one attempt to write, which is noted down, and what it
leaves. -/
theorem runArguments_attempt (args : List String) (usual? : Option String) (draw : Float)
    (d : Disk) :
    (runArgumentsIn Disk.noting args usual? draw d).run [] =
        (runArguments args usual? draw d, (attempt? args usual? d).toList) ∧
      ((runArguments args usual? draw d).disk, (runArguments args usual? draw d).saved?) =
        d.afterAttempt (attempt? args usual? d) := by
  obtain ⟨before, rfl, hsaved, hrun⟩ := exists_attemptIn args usual? draw d
  rw [runArguments, hrun, hrun]
  exact ⟨before.run_attemptIn_noting _, before.disk_attemptIn _ hsaved⟩

end Spreadsheet
