import Mathlib.Data.List.Chain
import Spreadsheet.Proofs.Formula.Expression

/-!
# The Levels of a Formula

Brackets cut a formula into levels. At each of them operands and operators stand in a row,
where a bracket or a call that has been closed is one operand. The row is an expression if
operands and operators alternate in it, with an operand at both ends.

The two stacks know less of a level: how many operands lie there and which operators wait.
Every operator that is applied leaves one operand less, so one operand and no operator at
the end mean that there was one operand more than there were operators (`Clear.count`). If
no operand directly follows another one, such a row does alternate
(`Piece.exists_expression`).

## Main definitions

* `Token.Separated`: no operand directly follows another one.
* `Piece`: what stands at a level.
* `Clear`, `Level`: what the stacks hold of a level.

## Main results

* `Piece.exists_expression`: separated pieces, one operand more than operators.
* `Clear.exists_expression`: a level with one operand left is an expression.
* `Clear.exists_arguments`: a level with at most one left makes the arguments of a call.
-/

namespace Spreadsheet

/-! ### Operands next to each other -/

namespace Token

/-- Whether an operand may end with the token. -/
def endsOperand : Token → Bool
  | .number _ | .text _ | .reference _ | .closeBracket => true
  | _ => false

/-- Whether an operand may begin with the token. -/
def beginsOperand : Token → Bool
  | .number _ | .text _ | .reference _ | .function _ | .openBracket => true
  | _ => false

/-- No operand directly follows another one: there is something between any two. -/
def Separated (ts : List Token) : Prop :=
  ts.IsChain fun t u => ¬ (t.endsOperand = true ∧ u.beginsOperand = true)

/-- Whether operands are kept apart can be computed. -/
instance (ts : List Token) : Decidable (Separated ts) :=
  inferInstanceAs (Decidable (ts.IsChain _))

end Token

open Token

/-- An operand begins with a token that begins operands. -/
theorem Operand.exists_tokens_eq_cons (x : Operand) :
    ∃ t ts, x.tokens = t :: ts ∧ t.beginsOperand = true := by
  cases x <;> exact ⟨_, _, rfl, rfl⟩

/-- An operand ends with a token that ends operands. -/
theorem Operand.exists_tokens_eq_concat (x : Operand) :
    ∃ ts t, x.tokens = ts ++ [t] ∧ t.endsOperand = true := by
  cases x with
  | number x => exact ⟨[], _, rfl, rfl⟩
  | text content => exact ⟨[], _, rfl, rfl⟩
  | reference name => exact ⟨[], _, rfl, rfl⟩
  | bracketed e => exact ⟨.openBracket :: e.tokens, _, rfl, rfl⟩
  | call f args => exact ⟨.function f :: .openBracket :: args.tokens, _, rfl, rfl⟩

/-- An expression ends as its last operand does. -/
theorem Expression.exists_tokens_eq_concat (e : Expression) :
    ∃ ts t, e.tokens = ts ++ [t] ∧ t.endsOperand = true :=
  match e with
  | .single x => x.exists_tokens_eq_concat
  | .joined x op rest => by
      obtain ⟨ts, t, hts, ht⟩ := rest.exists_tokens_eq_concat
      exact ⟨x.tokens ++ .operator op :: ts, t, by simp [Expression.tokens, hts], ht⟩

/-- No expression ends with an operator, an opening bracket or a separator. -/
theorem Expression.any_getLast? (e : Expression) : e.tokens.getLast?.any endsOperand = true := by
  obtain ⟨ts, t, hts, ht⟩ := e.exists_tokens_eq_concat
  rw [hts, List.getLast?_concat]
  exact ht

/-! ### Pieces of a level -/

/-- What is read at one level of brackets. A function name is a piece of its own until its
bracket opens. -/
inductive Piece where
  /-- A complete operand. -/
  | operand (x : Operand)
  /-- An operator. -/
  | operator (op : Operator)
  /-- A function name without a bracket behind it. -/
  | name (f : Builtin)

namespace Piece

/-- The tokens of a piece. -/
def tokens : Piece → List Token
  | operand x => x.tokens
  | operator op => [.operator op]
  | name f => [.function f]

/-- The tokens of pieces in a row. -/
def allTokens (ps : List Piece) : List Token :=
  ps.flatMap tokens

/-- No pieces have no tokens. -/
@[simp]
theorem allTokens_nil : allTokens [] = [] := rfl

/-- Pieces in a row have their tokens in a row. -/
@[simp]
theorem allTokens_append (ps qs : List Piece) :
    allTokens (ps ++ qs) = allTokens ps ++ allTokens qs :=
  List.flatMap_append

/-- The tokens of the first piece come first. -/
@[simp]
theorem allTokens_cons (p : Piece) (ps : List Piece) :
    allTokens (p :: ps) = p.tokens ++ allTokens ps := rfl

/-- Whether a piece is an operand. -/
def isOperand : Piece → Bool
  | operand _ => true
  | _ => false

/-- Whether a piece is an operator. -/
def isOperator : Piece → Bool
  | operator _ => true
  | _ => false

/-- How many operands there are. -/
def operands (ps : List Piece) : ℕ :=
  ps.countP isOperand

/-- How many operators there are. -/
def operators (ps : List Piece) : ℕ :=
  ps.countP isOperator

/-- Without pieces there are no operands. -/
@[simp]
theorem operands_nil : operands [] = 0 := rfl

/-- Without pieces there are no operators. -/
@[simp]
theorem operators_nil : operators [] = 0 := rfl

/-- The operands of pieces in a row add up. -/
@[simp]
theorem operands_append (ps qs : List Piece) :
    operands (ps ++ qs) = operands ps + operands qs :=
  List.countP_append

/-- The operators of pieces in a row add up. -/
@[simp]
theorem operators_append (ps qs : List Piece) :
    operators (ps ++ qs) = operators ps + operators qs :=
  List.countP_append

/-- An operand is counted as such. -/
@[simp]
theorem operands_operand (x : Operand) (ps : List Piece) :
    operands (operand x :: ps) = operands ps + 1 :=
  List.countP_cons_of_pos rfl

/-- An operand is no operator. -/
@[simp]
theorem operators_operand (x : Operand) (ps : List Piece) :
    operators (operand x :: ps) = operators ps :=
  List.countP_cons_of_neg (by simp [isOperator])

/-- An operator is no operand. -/
@[simp]
theorem operands_operator (op : Operator) (ps : List Piece) :
    operands (operator op :: ps) = operands ps :=
  List.countP_cons_of_neg (by simp [isOperand])

/-- An operator is counted as such. -/
@[simp]
theorem operators_operator (op : Operator) (ps : List Piece) :
    operators (operator op :: ps) = operators ps + 1 :=
  List.countP_cons_of_pos rfl

/-- Behind an operand the next piece is no operand. -/
theorem ne_operand_of_separated {x : Operand} {p : Piece} {ps : List Piece}
    (h : Separated (allTokens (operand x :: p :: ps))) : ∀ y, p ≠ operand y := by
  rintro y rfl
  obtain ⟨ts, t, hx, ht⟩ := x.exists_tokens_eq_concat
  obtain ⟨u, us, hy, hu⟩ := y.exists_tokens_eq_cons
  have htokens : allTokens (operand x :: operand y :: ps) =
      ts ++ t :: u :: (us ++ allTokens ps) := by
    simp [tokens, hx, hy]
  rw [htokens] at h
  exact (List.isChain_cons_cons.mp (List.IsChain.right_of_append h)).1 ⟨ht, hu⟩

/-- The rest of separated pieces is separated. -/
theorem separated_of_cons {p : Piece} {ps : List Piece} (h : Separated (allTokens (p :: ps))) :
    Separated (allTokens ps) :=
  List.IsChain.right_of_append h

/-- Among separated pieces without names there is at most one operand more than there are
operators, and none more if an operator comes first. -/
theorem operands_le {ps : List Piece} (hnames : ∀ f, name f ∉ ps)
    (h : Separated (allTokens ps)) :
    operands ps ≤ operators ps + 1 ∧
      ∀ op rest, ps = operator op :: rest → operands ps ≤ operators ps := by
  induction ps with
  | nil => exact ⟨Nat.zero_le _, fun op rest hps => by cases hps⟩
  | cons p ps ih =>
      have hrest := ih (fun f hf => hnames f (List.mem_cons_of_mem _ hf)) (separated_of_cons h)
      cases p with
      | operator op =>
          rw [operands_operator, operators_operator]
          exact ⟨by omega, fun _ _ _ => hrest.1⟩
      | name f => exact absurd List.mem_cons_self (hnames f)
      | operand x =>
          refine ⟨?_, fun op rest hps => by cases hps⟩
          cases ps with
          | nil => exact Nat.le_refl 1
          | cons q ps =>
              cases q with
              | operand y => exact absurd rfl (ne_operand_of_separated h y)
              | name f => exact absurd (by simp) (hnames f)
              | operator op =>
                  have := hrest.2 op ps rfl
                  simp only [operands_operand, operands_operator, operators_operand,
                    operators_operator] at this ⊢
                  omega

/-- **Separated pieces with one operand more than operators are an expression.** -/
theorem exists_expression {ps : List Piece} (hnames : ∀ f, name f ∉ ps)
    (h : Separated (allTokens ps)) (hcount : operands ps = operators ps + 1) :
    ∃ e : Expression, e.tokens = allTokens ps := by
  match ps with
  | [] => cases hcount
  | name f :: ps => exact absurd List.mem_cons_self (hnames f)
  | operator op :: ps =>
      have := (operands_le hnames h).2 op ps rfl
      omega
  | [operand x] => exact ⟨.single x, by simp [Expression.tokens, tokens]⟩
  | operand x :: operand y :: ps => exact absurd rfl (ne_operand_of_separated h y)
  | operand x :: name f :: ps => exact absurd (by simp) (hnames f)
  | operand x :: operator op :: ps =>
      have hps : ∀ f, name f ∉ ps := fun f hf => hnames f (by simp [hf])
      have hcount : operands ps = operators ps + 1 := by
        simp only [operands_operand, operands_operator, operators_operand,
          operators_operator] at hcount
        omega
      obtain ⟨e, he⟩ := exists_expression hps (separated_of_cons (separated_of_cons h)) hcount
      exact ⟨.joined x op e, by simp [Expression.tokens, tokens, he]⟩

end Piece

/-! ### Levels -/

/-- What the stacks hold of a level all of whose function names have been called: the
operators that wait are `ops`, and `n` operands lie there. -/
structure Clear (ps : List Piece) (n : ℕ) (ops : List Operator) : Prop where
  /-- No function name is without its bracket. -/
  names : ∀ f, .name f ∉ ps
  /-- Every operator that has been applied has left one operand less. -/
  count : n + Piece.operators ps = ops.length + Piece.operands ps
  /-- Where something has been read, something is left. -/
  pos : ps ≠ [] → 0 < n + ops.length

/-- What the stacks hold of a level: `n` operands, and what waits. A function name whose
bracket has not opened waits as a call, with at most one operand behind it. -/
inductive Level : List Piece → ℕ → List Waiting → Prop
  | clear {ps : List Piece} {n : ℕ} {ops : List Operator} :
      Clear ps n ops → Level ps n (ops.map .operator)
  | stuck {ps : List Piece} {n : ℕ} {ws : List Waiting} (f : Builtin) (x? : Option Operand) :
      Level ps n ws →
      Level (ps ++ .name f :: x?.toList.map .operand) (n + x?.toList.length)
        (.call f [] :: ws)

/-- An operand can be added to pieces: the last of them is no operand. -/
def Free (ps : List Piece) : Prop :=
  ∀ x, ps.getLast? ≠ some (.operand x)

section Levels

variable {ps : List Piece} {n : ℕ} {ws : List Waiting} {ops : List Operator}

/-- Nothing has been read at a level that has just been opened. -/
theorem Clear.nil : Clear [] 0 [] :=
  ⟨fun _ => List.not_mem_nil, rfl, fun h => absurd rfl h⟩

/-- An operator comes to wait on top of the others. -/
theorem Clear.operator (h : Clear ps n ops) (op : Operator) :
    Clear (ps ++ [.operator op]) n (op :: ops) := by
  refine ⟨fun f hf => ?_, ?_, fun _ => ?_⟩
  · rcases List.mem_append.mp hf with hf | hf
    · exact h.names f hf
    · simp at hf
  · have := h.count
    simp only [Piece.operators_append, Piece.operators_operator, Piece.operands_append,
      Piece.operands_operator, Piece.operators_nil, Piece.operands_nil, List.length_cons]
    omega
  · rw [List.length_cons]
    omega

/-- What follows is read with one operand more. -/
theorem Level.operand (h : Level ps n ws) (hfree : Free ps) (x : Operand) :
    Level (ps ++ [.operand x]) (n + 1) ws := by
  cases h with
  | clear h =>
      refine .clear ⟨fun f hf => ?_, ?_, fun _ => by omega⟩
      · rcases List.mem_append.mp hf with hf | hf
        · exact h.names f hf
        · simp at hf
      · have := h.count
        simp only [Piece.operators_append, Piece.operators_operand, Piece.operands_append,
          Piece.operands_operand, Piece.operators_nil, Piece.operands_nil]
        omega
  | stuck f x? h =>
      cases x? with
      | none =>
          rw [List.append_assoc]
          exact .stuck f (some x) h
      | some y => exact absurd (by simp) (hfree y)

/-- A level with one operand left and nothing waiting is an expression. -/
theorem Clear.exists_expression (h : Clear ps 1 []) (hps : Separated (Piece.allTokens ps)) :
    ∃ e : Expression, e.tokens = Piece.allTokens ps := by
  refine Piece.exists_expression h.names hps ?_
  have := h.count
  rw [List.length_nil] at this
  omega

/-- Nothing has been read at a level that holds nothing. -/
theorem Clear.eq_nil (h : Clear ps 0 []) : ps = [] :=
  Decidable.byContradiction fun hne => absurd (h.pos hne) (by simp)

/-- A level with at most one operand left and nothing waiting makes the arguments of a call,
as far as they have not been ended by a separator. -/
theorem Clear.exists_arguments (h : Clear ps n []) (hps : Separated (Piece.allTokens ps))
    (hn : n ≤ 1) : ∃ args : Arguments, args.tokens = Piece.allTokens ps := by
  rcases Nat.le_one_iff_eq_zero_or_eq_one.mp hn with rfl | rfl
  · obtain rfl := h.eq_nil
    exact ⟨.none, rfl⟩
  · obtain ⟨e, he⟩ := h.exists_expression hps
    exact ⟨.last e, he⟩

/-- If something that begins an operand can follow, no operand comes last. -/
theorem free_of_separated (before : List Token) {after : List Token} {t : Token}
    (h : Separated (before ++ Piece.allTokens ps ++ t :: after)) (ht : t.beginsOperand = true) :
    Free ps := by
  intro x hx
  obtain ⟨front, rfl⟩ := List.getLast?_eq_some_iff.mp hx
  obtain ⟨ts, u, hts, hu⟩ := x.exists_tokens_eq_concat
  have htokens : before ++ Piece.allTokens (front ++ [.operand x]) ++ t :: after =
      (before ++ Piece.allTokens front ++ ts) ++ u :: t :: after := by
    simp [Piece.tokens, hts]
  rw [htokens] at h
  exact (List.isChain_cons_cons.mp (List.IsChain.right_of_append h)).1 ⟨hu, ht⟩

end Levels

end Spreadsheet
