import Spreadsheet.Formula.Scan
import Spreadsheet.Formula.Stacks

/-!
# Evaluating Formulas

The value of a formula depends on the cells that it refers to. What a reference is worth
is asked of the caller, once per reference and in written order. The answer may fail,
which ends the evaluation, and asking may change a state, which outlives a failure.

## Main definitions

* `Evaluation` — a computation that asks for cells.
* `evaluate` — the value of a sequence of tokens.
* `evaluateText` — the value of a formula's text.
* `askBlank`, `askTable` — answers without a sheet.
-/

namespace Spreadsheet

/-- A computation that may fail and that keeps a state in either case. -/
abbrev Evaluation (σ α : Type) : Type :=
  ExceptT FormulaError (StateM σ) α

namespace Evaluation

variable {σ α : Type}

/-- The outcome of a computation from a given state, and the state it leaves. -/
def runFrom (x : Evaluation σ α) (s : σ) : Except FormulaError α × σ :=
  (ExceptT.run x).run s

/-- A result of the two stacks as a computation that asks for nothing. -/
def ofStacks : Except Malformation α → Evaluation σ α
  | .ok a => pure a
  | .error cause => throw (.malformed cause)

/-- A result is there without anything being asked. -/
@[simp]
theorem runFrom_pure (a : α) (s : σ) : (pure a : Evaluation σ α).runFrom s = (.ok a, s) := rfl

/-- A failure leaves the state as it is. -/
@[simp]
theorem runFrom_throw (e : FormulaError) (s : σ) :
    (throw e : Evaluation σ α).runFrom s = (.error e, s) := rfl

/-- Of two computations in a row, the second runs from the state that the first leaves,
unless the first fails. -/
theorem runFrom_bind {β : Type} (x : Evaluation σ α) (f : α → Evaluation σ β) (s : σ) :
    (x >>= f).runFrom s =
      match x.runFrom s with
      | (.ok a, s') => (f a).runFrom s'
      | (.error e, s') => (.error e, s') := by
  show (ExceptT.run (x >>= f)) s = _
  rw [ExceptT.run_bind]
  show (bind (m := StateM σ) _ _) s = _
  generalize hx : x.runFrom s = r
  obtain ⟨r, s'⟩ := r
  have hx : ExceptT.run x s = (r, s') := hx
  simp only [bind, StateT.bind, hx]
  cases r <;> rfl

end Evaluation

variable {σ : Type}

/-- Takes in one token, asking for the value of a reference. -/
def Stacks.stepAsking (draw : Float) (ask : String → Evaluation σ Float) (st : Stacks) :
    Token → Evaluation σ Stacks
  | .reference name => do return st.addOperand (← ask name)
  | t => .ofStacks (st.step draw t)

/-- A token that is no reference asks for nothing. -/
theorem Stacks.stepAsking_of_ne_reference {t : Token} (h : ∀ name, t ≠ .reference name)
    (draw : Float) (ask : String → Evaluation σ Float) (st : Stacks) :
    st.stepAsking draw ask t = .ofStacks (st.step draw t) := by
  cases t with
  | reference name => exact absurd rfl (h name)
  | _ => rfl

/-- The value of a sequence of tokens. -/
def evaluate (draw : Float) (ask : String → Evaluation σ Float) (ts : List Token) :
    Evaluation σ Float := do
  let st ← ts.foldlM (Stacks.stepAsking draw ask) {}
  .ofStacks st.result

/-- The value of a formula's text, with or without an equals sign in front. -/
def evaluateText (draw : Float) (ask : String → Evaluation σ Float) (s : String) :
    Evaluation σ Float :=
  evaluate draw ask <| Token.scanChars <|
    match trimStart s.toList with
    | '=' :: rest => rest
    | cs => cs

/-- Every cell is blank, and asking leaves no trace. -/
def askBlank (_ : String) : Evaluation Unit Float :=
  pure 0

/-- Cells are looked up by name in a table, and the names are noted in the order of
asking. A name that is missing is no cell name. -/
def askTable (table : List (String × Float)) (name : String) :
    Evaluation (List String) Float := do
  modify (· ++ [name])
  match table.lookup name with
  | some x => return x
  | none => throw (.badAddress name)

end Spreadsheet
