import Mathlib.Data.Nat.Notation
import Spreadsheet.Formula.Evaluation

/-!
# How an Evaluation Uses its Answers

The value of a formula depends on the answers to its references and on nothing else. Two
evaluations of the same tokens that ask in different ways, and from different states, have
the same outcome if their answers agree (`evaluate_related`). With answers that are fixed
once and for all, an evaluation is a plain function (`evaluateWith`): it has a value only
if every reference has one, and it fails as one of its references does or because the
tokens are malformed.

## Main definitions

* `Evaluation.Related`: two computations agree in their outcomes and keep a relation
  between their states.
* `evaluateWith`: the value of tokens whose references have fixed answers.

## Main results

* `evaluate_related`: evaluations agree if their answers do.
* `evaluate_keeps`: what the answers keep of the state, the evaluation keeps.
* `evaluateWith_congr`: only the answers to the references of the tokens count.
* `answer_of_evaluateWith_eq_ok`, `answer_of_evaluateWith_eq_error`: what an outcome says
  about the answers.
-/

namespace Spreadsheet

namespace Evaluation

variable {σ τ α β : Type}

/-! ### Computations in a row -/

/-- A success of two computations in a row comes from a success of each. -/
theorem runFrom_bind_eq_ok {x : Evaluation σ α} {f : α → Evaluation σ β} {s t : σ} {b : β}
    (h : (x >>= f).runFrom s = (.ok b, t)) :
    ∃ a s', x.runFrom s = (.ok a, s') ∧ (f a).runFrom s' = (.ok b, t) := by
  rw [runFrom_bind] at h
  rcases hx : x.runFrom s with ⟨e | a, s'⟩
  · rw [hx] at h
    cases h
  · rw [hx] at h
    exact ⟨a, s', rfl, h⟩

/-- A failure of two computations in a row comes from one of them. -/
theorem runFrom_bind_eq_error {x : Evaluation σ α} {f : α → Evaluation σ β} {s t : σ}
    {e : FormulaError} (h : (x >>= f).runFrom s = (.error e, t)) :
    x.runFrom s = (.error e, t) ∨
      ∃ a s', x.runFrom s = (.ok a, s') ∧ (f a).runFrom s' = (.error e, t) := by
  rw [runFrom_bind] at h
  rcases hx : x.runFrom s with ⟨e' | a, s'⟩
  · rw [hx] at h
    cases h
    exact Or.inl rfl
  · rw [hx] at h
    exact Or.inr ⟨a, s', rfl, h⟩

/-- The two stacks fail only because the tokens are malformed. -/
theorem ofStacks_eq_error {r : Except Malformation α} {s t : σ} {e : FormulaError}
    (h : (ofStacks r : Evaluation σ α).runFrom s = (.error e, t)) :
    ∃ cause, e = .malformed cause := by
  cases r with
  | ok a => cases h
  | error cause =>
      cases h
      exact ⟨cause, rfl⟩

/-! ### Computations that agree -/

/-- Two computations **agree** along a relation between their states: from related states
they have the same outcome and leave related states. -/
def Related (R : σ → τ → Prop) (x : Evaluation σ α) (y : Evaluation τ α) : Prop :=
  ∀ s t, R s t → (x.runFrom s).1 = (y.runFrom t).1 ∧ R (x.runFrom s).2 (y.runFrom t).2

variable {R : σ → τ → Prop}

/-- Results agree along any relation. -/
theorem Related.pure (a : α) : Related R (pure a) (pure a) :=
  fun _ _ h => ⟨rfl, h⟩

/-- What comes of the stacks has nothing to do with the states. -/
theorem Related.ofStacks (r : Except Malformation α) :
    Related R (ofStacks r) (ofStacks r) := by
  intro s t h
  cases r <;> exact ⟨rfl, h⟩

/-- Computations in a row agree if each of them does. -/
theorem Related.bind {x : Evaluation σ α} {y : Evaluation τ α} {f : α → Evaluation σ β}
    {g : α → Evaluation τ β} (hxy : Related R x y) (hfg : ∀ a, Related R (f a) (g a)) :
    Related R (x >>= f) (y >>= g) := by
  intro s t h
  obtain ⟨hout, hstate⟩ := hxy s t h
  rw [runFrom_bind, runFrom_bind]
  rcases hx : x.runFrom s with ⟨r, s'⟩
  rcases hy : y.runFrom t with ⟨r', t'⟩
  rw [hx, hy] at hout hstate
  obtain rfl : r = r' := hout
  cases r with
  | ok a => exact hfg a s' t' hstate
  | error e => exact ⟨rfl, hstate⟩

/-- Computations over a list agree if they do so for each item. -/
theorem Related.foldlM {f : α → β → Evaluation σ α} {g : α → β → Evaluation τ α}
    {l : List β} (h : ∀ b ∈ l, ∀ a, Related R (f a b) (g a b)) (a : α) :
    Related R (l.foldlM f a) (l.foldlM g a) := by
  induction l generalizing a with
  | nil => exact .pure a
  | cons b l ih =>
      rw [List.foldlM_cons, List.foldlM_cons]
      exact .bind (h b List.mem_cons_self a) fun a' =>
        ih (fun c hc => h c (List.mem_cons_of_mem _ hc)) a'

end Evaluation

open Evaluation

variable {σ τ : Type} {draw : Float}

/-- **Evaluations agree if their answers do.** It is enough that the answers to the
references among the tokens agree. -/
theorem evaluate_related {R : σ → τ → Prop} {ask : String → Evaluation σ Float}
    {ask' : String → Evaluation τ Float} {ts : List Token}
    (h : ∀ name, .reference name ∈ ts → Related R (ask name) (ask' name)) :
    Related R (evaluate draw ask ts) (evaluate draw ask' ts) := by
  refine .bind (.foldlM (fun t ht st => ?_) _) fun st => .ofStacks _
  cases t with
  | reference name => exact .bind (h name ht) fun x => .pure _
  | _ => exact .ofStacks _

/-- What every answer keeps, with or without success, the evaluation keeps. -/
theorem evaluate_keeps {I : σ → Prop} {ask : String → Evaluation σ Float} {ts : List Token} {s : σ}
    (h : ∀ name, .reference name ∈ ts → ∀ s, I s → I ((ask name).runFrom s).2) (hs : I s) :
    I ((evaluate draw ask ts).runFrom s).2 := by
  have hrelated : Related (fun s t => s = t ∧ I s) (evaluate draw ask ts)
      (evaluate draw ask ts) := by
    refine evaluate_related fun name hname s t hst => ?_
    obtain ⟨rfl, hs⟩ := hst
    exact ⟨rfl, rfl, h name hname s hs⟩
  exact (hrelated s s ⟨rfl, hs⟩).2.2

/-! ### What an outcome says about the answers -/

/-- Every reference among the tokens of a formula that has a value has been asked for,
and had a value. -/
theorem ask_of_evaluate_eq_ok {ask : String → Evaluation σ Float} {ts : List Token} {s t : σ}
    {x : Float} (h : (evaluate draw ask ts).runFrom s = (.ok x, t)) :
    ∀ name, .reference name ∈ ts → ∃ y s' t', (ask name).runFrom s' = (.ok y, t') := by
  obtain ⟨st, u, hfold, -⟩ := runFrom_bind_eq_ok h
  clear h
  generalize ({} : Stacks) = start at hfold
  induction ts generalizing start s with
  | nil => exact fun name hname => absurd hname List.not_mem_nil
  | cons t ts ih =>
      rw [List.foldlM_cons] at hfold
      obtain ⟨next, s', hstep, hrest⟩ := runFrom_bind_eq_ok hfold
      intro name hname
      rcases List.mem_cons.mp hname with rfl | hmem
      · obtain ⟨y, t', hy, -⟩ := runFrom_bind_eq_ok hstep
        exact ⟨y, s, t', hy⟩
      · exact ih next hrest name hmem

/-- A formula that has no value is malformed, or the first of its references without a
value is to blame. -/
theorem ask_of_evaluate_eq_error {ask : String → Evaluation σ Float} {ts : List Token}
    {s t : σ} {e : FormulaError} (h : (evaluate draw ask ts).runFrom s = (.error e, t)) :
    (∃ cause, e = .malformed cause) ∨
      ∃ name, .reference name ∈ ts ∧ ∃ s' t', (ask name).runFrom s' = (.error e, t') := by
  rcases runFrom_bind_eq_error h with hfold | ⟨st, u, -, hresult⟩
  · clear h
    generalize ({} : Stacks) = start at hfold
    induction ts generalizing start s with
    | nil => cases hfold
    | cons t ts ih =>
        rw [List.foldlM_cons] at hfold
        rcases runFrom_bind_eq_error hfold with hstep | ⟨next, s', -, hrest⟩
        · by_cases href : ∃ name, t = .reference name
          · obtain ⟨name, rfl⟩ := href
            rcases runFrom_bind_eq_error hstep with hask | ⟨x, u, -, hpure⟩
            · exact Or.inr ⟨name, List.mem_cons_self, s, _, hask⟩
            · cases hpure
          · rw [Stacks.stepAsking_of_ne_reference (not_exists.mp href)] at hstep
            exact Or.inl (ofStacks_eq_error hstep)
        · rcases ih next hrest with hcause | ⟨name, hname, hask⟩
          · exact Or.inl hcause
          · exact Or.inr ⟨name, List.mem_cons_of_mem _ hname, hask⟩
  · exact Or.inl (ofStacks_eq_error hresult)

/-! ### Fixed answers -/

/-- An outcome as a computation that leaves the state as it is. -/
def Evaluation.ofOutcome {σ α : Type} (r : Except FormulaError α) : Evaluation σ α :=
  ExceptT.mk (pure r)

/-- The value of tokens whose references have fixed answers. -/
def evaluateWith (draw : Float) (answer : String → Except FormulaError Float)
    (ts : List Token) : Except FormulaError Float :=
  ((evaluate draw (fun name => .ofOutcome (answer name)) ts).runFrom ()).1

variable {answer answer' : String → Except FormulaError Float} {ts : List Token}

/-- Only the answers to the references among the tokens count. -/
theorem evaluateWith_congr (h : ∀ name, .reference name ∈ ts → answer name = answer' name) :
    evaluateWith draw answer ts = evaluateWith draw answer' ts := by
  have hrelated : Related (fun _ _ : Unit => True)
      (evaluate draw (fun name => .ofOutcome (answer name)) ts)
      (evaluate draw (fun name => .ofOutcome (answer' name)) ts) := by
    refine evaluate_related fun name hname => ?_
    rw [h name hname]
    exact fun _ _ _ => ⟨rfl, trivial⟩
  exact (hrelated () () trivial).1

/-- An evaluation whose answers are fixed, as long as an invariant of its states holds, is
the function of these answers and keeps the invariant. -/
theorem evaluate_runFrom_eq {I : σ → Prop} {ask : String → Evaluation σ Float} {s : σ}
    (h : ∀ name, .reference name ∈ ts → ∀ s, I s →
      ((ask name).runFrom s).1 = answer name ∧ I ((ask name).runFrom s).2) (hs : I s) :
    ((evaluate draw ask ts).runFrom s).1 = evaluateWith draw answer ts ∧
      I ((evaluate draw ask ts).runFrom s).2 := by
  have hrelated : Related (fun s (_ : Unit) => I s) (evaluate draw ask ts)
      (evaluate draw (fun name => .ofOutcome (answer name)) ts) :=
    evaluate_related fun name hname s _ hs => h name hname s hs
  exact hrelated s () hs

/-- Every reference of a formula that has a value has one. -/
theorem answer_of_evaluateWith_eq_ok {x : Float} (h : evaluateWith draw answer ts = .ok x) :
    ∀ name, .reference name ∈ ts → ∃ y, answer name = .ok y := by
  intro name hname
  obtain ⟨y, s, t, hy⟩ := ask_of_evaluate_eq_ok (Prod.ext h rfl) name hname
  exact ⟨y, congrArg Prod.fst hy⟩

/-- A formula without a value is malformed or fails as one of its references does. -/
theorem answer_of_evaluateWith_eq_error {e : FormulaError}
    (h : evaluateWith draw answer ts = .error e) :
    (∃ cause, e = .malformed cause) ∨
      ∃ name, .reference name ∈ ts ∧ answer name = .error e := by
  rcases ask_of_evaluate_eq_error (Prod.ext h rfl) with hcause | ⟨name, hname, s, t, hask⟩
  · exact Or.inl hcause
  · exact Or.inr ⟨name, hname, congrArg Prod.fst hask⟩

end Spreadsheet
