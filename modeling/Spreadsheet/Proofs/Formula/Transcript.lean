import Spreadsheet.Proofs.Formula.Stepping

/-!
# What an Evaluation Asks For

An evaluation asks for the references of a formula from left to right, each as often as it is
written, and stops at the first one that has no value or at the first token that is out of place.
What it asks for can be seen when names and answers are noted down on the way (`noting`), which
changes nothing else. The *course* of an evaluation has the transcript beside the stacks, one rule
for each thing that can happen at a token (`Course`); every evaluation takes one
(`exists_course`), and what is to be shown of transcripts is shown by induction on it.

A reference that has been answered is as good as the number that was the answer. So an evaluation
in which nothing is refused comes to the same as one of the tokens with the answers in their
places, which asks for nothing (`Course.withAnswers`).

## Main definitions

* `Token.names`: the names that tokens refer to.
* `Token.withAnswers`: tokens with answers in the places of their first references.
* `noting`: asking with a transcript.
* `Course`: the course of an evaluation.

## Main results

* `exists_course`: every evaluation takes a course.
* `evaluate_noting`: what the transcript of an evaluation is, and what it says about the outcome.
-/

namespace Spreadsheet

open Evaluation

variable {σ : Type} {draw : Float}

/-! ### References in written order -/

namespace Token

/-- The name that a token refers to. -/
def name? : Token → Option String
  | reference name => some name
  | _ => none

/-- The names that tokens refer to, in written order and each as often as it is written. -/
def names (ts : List Token) : List String :=
  ts.filterMap name?

/-- The tokens with numbers in the places of their first references. -/
def withAnswers : List Token → List Float → List Token
  | [], _ => []
  | reference _ :: ts, x :: xs => number x :: withAnswers ts xs
  | t :: ts, xs => t :: withAnswers ts xs

variable {t : Token}

/-- A token that is no reference has no name. -/
theorem name?_eq_none (h : ∀ name, t ≠ .reference name) : t.name? = none := by
  cases t with
  | reference name => exact absurd rfl (h name)
  | _ => rfl

/-- Only a reference has a name. -/
theorem eq_reference_of_name?_eq_some {name : String} (h : t.name? = some name) :
    t = .reference name := by
  cases t with
  | reference name' => exact congrArg reference (Option.some.inj h)
  | _ => cases h

/-- A token that is no reference has no name. -/
theorem names_cons_of_ne_reference (h : ∀ name, t ≠ .reference name) (ts : List Token) :
    names (t :: ts) = names ts :=
  List.filterMap_cons_none (name?_eq_none h)

/-- A token that is no reference stays where it is. -/
theorem withAnswers_cons_of_ne_reference (h : ∀ name, t ≠ .reference name) (ts : List Token)
    (xs : List Float) : withAnswers (t :: ts) xs = t :: withAnswers ts xs := by
  cases t with
  | reference name => exact absurd rfl (h name)
  | _ => rfl

end Token

/-! ### Transcripts -/

/-- The names that have been asked for, and the answers. -/
abbrev Transcript : Type :=
  List (String × Except FormulaError Float)

/-- Asks in the same way, and notes down the name and the answer. -/
def noting (ask : String → Evaluation σ Float) (name : String) :
    Evaluation (σ × Transcript) Float :=
  ExceptT.mk fun (s, log) =>
    match (ask name).runFrom s with
    | (r, s') => (r, s', log ++ [(name, r)])

/-- Noting takes down the name and its answer, and changes nothing else. -/
theorem runFrom_noting (ask : String → Evaluation σ Float) (name : String) (s : σ)
    (log : Transcript) :
    (noting ask name).runFrom (s, log) =
      (((ask name).runFrom s).1, ((ask name).runFrom s).2,
        log ++ [(name, ((ask name).runFrom s).1)]) :=
  rfl

/-- Either every answer is a number, or one of them is an error. -/
theorem answered_or_refused (log : Transcript) :
    (∃ xs : List Float, log.map Prod.snd = xs.map .ok) ∨
      ∃ init name e rest, log = init ++ (name, .error e) :: rest := by
  induction log with
  | nil => exact Or.inl ⟨[], rfl⟩
  | cons entry log ih =>
      obtain ⟨name, e | x⟩ := entry
      · exact Or.inr ⟨[], name, e, log, rfl⟩
      · rcases ih with ⟨xs, hxs⟩ | ⟨init, name', e, rest, rfl⟩
        · exact Or.inl ⟨x :: xs, by rw [List.map_cons, List.map_cons, hxs]⟩
        · exact Or.inr ⟨(name, .ok x) :: init, name', e, rest, rfl⟩

/-- Forgetting the transcript gives the evaluation as it was. -/
theorem evaluate_noting_related (draw : Float) (ask : String → Evaluation σ Float)
    (ts : List Token) :
    Related (fun s (p : σ × Transcript) => s = p.1) (evaluate draw ask ts)
      (evaluate draw (noting ask) ts) := by
  refine evaluate_related fun name _ s p h => ?_
  obtain ⟨s, log⟩ := p
  obtain rfl := h
  exact ⟨rfl, rfl⟩

/-! ### Courses -/

/-- **The course of an evaluation**: tokens are taken in one after the other, the answers being
noted down, until there are none left, one is refused or one is out of place. -/
inductive Course (draw : Float) :
    List Token → Stacks → Transcript → Except FormulaError Stacks → Prop
  /-- All tokens have been taken in. -/
  | done (st : Stacks) : Course draw [] st [] (.ok st)
  /-- A reference has been answered. -/
  | answered {ts : List Token} {st : Stacks} {log : Transcript} {r : Except FormulaError Stacks}
      (name : String) (x : Float) (rest : Course draw ts (st.addOperand x) log r) :
      Course draw (.reference name :: ts) st ((name, .ok x) :: log) r
  /-- A reference has no value. -/
  | refused (name : String) (e : FormulaError) (ts : List Token) (st : Stacks) :
      Course draw (.reference name :: ts) st [(name, .error e)] (.error e)
  /-- Any other token has been taken in. -/
  | taken {t : Token} {ts : List Token} {st st' : Stacks} {log : Transcript}
      {r : Except FormulaError Stacks} (ht : ∀ name, t ≠ .reference name)
      (hstep : st.step draw t = .ok st') (rest : Course draw ts st' log r) :
      Course draw (t :: ts) st log r
  /-- Any other token is out of place. -/
  | misplaced {t : Token} {st : Stacks} {cause : Malformation} (ht : ∀ name, t ≠ .reference name)
      (hstep : st.step draw t = .error cause) (ts : List Token) :
      Course draw (t :: ts) st [] (.error (.malformed cause))

/-- **Every evaluation takes a course**, whatever was noted down before, and what is noted down
are answers that have been given. -/
theorem exists_course (draw : Float) (ask : String → Evaluation σ Float) (ts : List Token)
    (st : Stacks) (s : σ) (before : Transcript) :
    ∃ r s' log,
      (ts.foldlM (Stacks.stepAsking draw (noting ask)) st).runFrom (s, before) =
          (r, s', before ++ log) ∧
        Course draw ts st log r ∧
        ∀ entry ∈ log, ∃ s, ((ask entry.1).runFrom s).1 = entry.2 := by
  induction ts generalizing st s before with
  | nil =>
      rw [List.foldlM_nil, runFrom_pure]
      exact ⟨.ok st, s, [], by rw [List.append_nil], .done st, by simp⟩
  | cons t ts ih =>
      rw [List.foldlM_cons, runFrom_bind]
      by_cases href : ∃ name, t = .reference name
      · obtain ⟨name, rfl⟩ := href
        rw [Stacks.stepAsking, runFrom_bind, runFrom_noting]
        rcases hname : (ask name).runFrom s with ⟨e | x, s₁⟩
        · exact ⟨.error e, s₁, _, rfl, .refused name e ts st,
            List.forall_mem_singleton.mpr ⟨s, congrArg Prod.fst hname⟩⟩
        · obtain ⟨r, s', log, hrun, hcourse, hgiven⟩ :=
            ih (st.addOperand x) s₁ (before ++ [(name, .ok x)])
          rw [List.append_assoc] at hrun
          exact ⟨r, s', _, hrun, .answered name x hcourse,
            List.forall_mem_cons.mpr ⟨⟨s, congrArg Prod.fst hname⟩, hgiven⟩⟩
      · have ht := not_exists.mp href
        rw [Stacks.stepAsking_of_ne_reference ht, runFrom_ofStacks]
        cases hstep : st.step draw t with
        | error cause =>
            exact ⟨_, s, [], by rw [List.append_nil]; rfl, .misplaced ht hstep ts, by simp⟩
        | ok st' =>
            obtain ⟨r, s', log, hrun, hcourse, hgiven⟩ := ih st' s before
            exact ⟨r, s', log, hrun, .taken ht hstep hcourse, hgiven⟩

namespace Course

variable {ts : List Token} {st : Stacks} {log : Transcript} {r : Except FormulaError Stacks}

/-- What is asked for are the first references, in written order. -/
theorem names_isPrefix (h : Course draw ts st log r) :
    log.map Prod.fst <+: Token.names ts := by
  induction h with
  | done st => exact List.prefix_rfl
  | answered name x _ ih => exact List.cons_prefix_cons.mpr ⟨rfl, ih⟩
  | refused name e ts st => exact List.cons_prefix_cons.mpr ⟨rfl, List.nil_prefix⟩
  | taken ht _ _ ih =>
      rw [Token.names_cons_of_ne_reference ht]
      exact ih
  | misplaced _ _ ts => exact List.nil_prefix

/-- If all tokens have been taken in, all references have been asked for. -/
theorem names_eq (h : Course draw ts st log r) (hr : r.isOk = true) :
    log.map Prod.fst = Token.names ts := by
  induction h with
  | done st => rfl
  | answered name x _ ih => exact congrArg (name :: ·) (ih hr)
  | refused name e ts st => cases hr
  | taken ht _ _ ih =>
      rw [Token.names_cons_of_ne_reference ht]
      exact ih hr
  | misplaced _ _ ts => cases hr

/-- **Answers act as literals.** If nothing has been refused, the tokens with the answers in
their places come to the same, and nothing is asked for. -/
theorem withAnswers {τ : Type} (h : Course draw ts st log r) {xs : List Float}
    (hxs : log.map Prod.snd = xs.map .ok) (ask : String → Evaluation τ Float) (t : τ) :
    ((Token.withAnswers ts xs).foldlM (Stacks.stepAsking draw ask) st).runFrom t = (r, t) := by
  induction h generalizing xs with
  | done st => rfl
  | answered name x _ ih =>
      obtain ⟨y, ys, rfl, hy, hys⟩ := List.map_eq_cons_iff.mp hxs.symm
      cases hy
      exact ih hys.symm
  | refused name e ts st =>
      obtain ⟨y, ys, -, hy, -⟩ := List.map_eq_cons_iff.mp hxs.symm
      cases hy
  | taken ht hstep _ ih =>
      rw [Token.withAnswers_cons_of_ne_reference ht, List.foldlM_cons,
        Stacks.stepAsking_of_ne_reference ht, hstep]
      exact ih hxs
  | misplaced ht hstep ts =>
      rw [Token.withAnswers_cons_of_ne_reference ht, List.foldlM_cons,
        Stacks.stepAsking_of_ne_reference ht, hstep]
      rfl

/-- A reference without a value is the last thing that is asked for, and its error is the
outcome. -/
theorem of_refused (h : Course draw ts st log r) {init rest : Transcript} {name : String}
    {e : FormulaError} (hlog : log = init ++ (name, .error e) :: rest) :
    rest = [] ∧ r = .error e := by
  induction h generalizing init with
  | done st => simp at hlog
  | answered name' x _ ih =>
      rcases List.cons_eq_append_iff.mp hlog with ⟨-, hcons⟩ | ⟨init', -, hinit⟩
      · cases hcons
      · exact ih hinit
  | refused name' e' ts st =>
      rcases List.cons_eq_append_iff.mp hlog with ⟨-, hcons⟩ | ⟨init', -, hinit⟩
      · cases hcons
        exact ⟨rfl, rfl⟩
      · simp at hinit
  | taken _ _ _ ih => exact ih hlog
  | misplaced _ _ ts => simp at hlog

/-- The outcome of an evaluation, from the stacks at the end of its course. -/
def outcome (r : Except FormulaError Stacks) : Except FormulaError Float :=
  r.bind fun st => st.result.mapError .malformed

/-- What has a value has not failed. -/
theorem isOk_of_outcome_eq_ok {x : Float} (h : outcome r = .ok x) : r.isOk = true := by
  obtain ⟨st, rfl, -⟩ := exists_of_bind_eq_ok h
  rfl

/-- What becomes of the stacks at the end asks for nothing. -/
theorem runFrom_evaluate {τ : Type} {ask : String → Evaluation τ Float} {t t' : τ}
    (h : (ts.foldlM (Stacks.stepAsking draw ask) {}).runFrom t = (r, t')) :
    (evaluate draw ask ts).runFrom t = (outcome r, t') := by
  rw [evaluate, runFrom_bind, h]
  cases r with
  | error e => rfl
  | ok st => exact runFrom_ofStacks st.result t'

end Course

/-- An evaluation and its course. -/
theorem exists_course_evaluate (draw : Float) (ask : String → Evaluation σ Float)
    (ts : List Token) (s : σ) :
    ∃ r s' log,
      (evaluate draw ask ts).runFrom s = (Course.outcome r, s') ∧
        (evaluate draw (noting ask) ts).runFrom (s, []) = (Course.outcome r, s', log) ∧
        Course draw ts {} log r ∧
        ∀ entry ∈ log, ∃ s, ((ask entry.1).runFrom s).1 = entry.2 := by
  obtain ⟨r, s', log, hrun, hcourse, hgiven⟩ := exists_course draw ask ts {} s []
  have hnoting := Course.runFrom_evaluate hrun
  obtain ⟨hout, hstate⟩ := evaluate_noting_related draw ask ts s (s, []) rfl
  rw [hnoting] at hout hstate
  exact ⟨r, s', log, Prod.ext hout hstate, hnoting, hcourse, hgiven⟩

/-- An evaluation fails because a reference is refused, or it comes to the same as an evaluation
of the tokens with answers in their places, which asks for nothing. -/
theorem refused_or_withAnswers (draw : Float) (ask : String → Evaluation σ Float)
    (ts : List Token) (s : σ) :
    (∃ name ∈ Token.names ts, ∃ e s', ((ask name).runFrom s').1 = .error e ∧
      ((evaluate draw ask ts).runFrom s).1 = .error e) ∨
    ∃ xs, ∀ {τ : Type} (ask' : String → Evaluation τ Float) (t : τ),
      (evaluate draw ask' (Token.withAnswers ts xs)).runFrom t =
        (((evaluate draw ask ts).runFrom s).1, t) := by
  obtain ⟨r, s', log, hrun, -, hcourse, hgiven⟩ := exists_course_evaluate draw ask ts s
  rw [hrun]
  rcases answered_or_refused log with ⟨xs, hxs⟩ | ⟨init, name, e, rest, rfl⟩
  · exact Or.inr ⟨xs, fun ask' t => Course.runFrom_evaluate (hcourse.withAnswers hxs ask' t)⟩
  · obtain ⟨-, rfl⟩ := hcourse.of_refused rfl
    have hname : name ∈ Token.names ts := hcourse.names_isPrefix.subset (by simp)
    obtain ⟨s₁, hs₁⟩ := hgiven (name, .error e) (by simp)
    exact Or.inl ⟨name, hname, e, s₁, hs₁, rfl⟩

/-- **What an evaluation asks for.** The names in its transcript are the first ones that the tokens
refer to, in written order, and all of them if it has a value. If nothing is refused, the tokens
with the answers in their places have the same outcome, whatever the others would be answered. If
a reference is refused, that is the last one asked for, and its error is the outcome. -/
theorem evaluate_noting (draw : Float) (ask : String → Evaluation σ Float) (ts : List Token)
    (s : σ) :
    ∃ outcome s' log,
      (evaluate draw ask ts).runFrom s = (outcome, s') ∧
      (evaluate draw (noting ask) ts).runFrom (s, []) = (outcome, s', log) ∧
      log.map Prod.fst <+: Token.names ts ∧
      (∀ x, outcome = .ok x → log.map Prod.fst = Token.names ts) ∧
      (∀ xs : List Float, log.map Prod.snd = xs.map .ok →
        ∀ {τ : Type} (ask' : String → Evaluation τ Float) (t : τ),
          (evaluate draw ask' (Token.withAnswers ts xs)).runFrom t = (outcome, t)) ∧
      ∀ init name e rest, log = init ++ (name, .error e) :: rest →
        rest = [] ∧ outcome = .error e := by
  obtain ⟨r, s', log, hrun, hnoting, hcourse, -⟩ := exists_course_evaluate draw ask ts s
  refine ⟨_, s', log, hrun, hnoting, hcourse.names_isPrefix, fun x hx => ?_, fun xs hxs => ?_,
    fun init name e rest hlog => ?_⟩
  · exact hcourse.names_eq (Course.isOk_of_outcome_eq_ok hx)
  · exact fun ask' t => Course.runFrom_evaluate (hcourse.withAnswers hxs ask' t)
  · obtain ⟨hrest, rfl⟩ := hcourse.of_refused hlog
    exact ⟨hrest, rfl⟩

end Spreadsheet
