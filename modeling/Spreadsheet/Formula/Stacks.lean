import Spreadsheet.Formula.Error
import Spreadsheet.Formula.Token

/-!
# The Two Stacks of an Evaluation

A sequence of tokens becomes a number with the help of two stacks. Operands lie on the
one; operators, open brackets and open calls wait on the other. An operator that comes
in first applies all waiting operators that bind at least as tightly, so operators of
one rank, the power included, associate to the left. A bracket remembers how many
operands lay below it when it opened, and nothing inside it reaches below that base.

Operands are taken off one at a time, those of a bracket are counted by a subtraction
that may be cut off at zero, and the call of a bracket is looked up by its index. Each
of these accesses is told of as it is made (`Act`). What is done with that is left open:
the program just computes, and other computations may take notes.

## Main definitions

* `Waiting`, `Stacks` — the entries of the second stack, and both stacks.
* `Act`, `Accessing` — an access to the stacks, and computations that tell of them.
* `Stacks.stepIn`, `Stacks.resultIn` — one token is taken in, and what is left at the
  end, in any such computation.
* `Stacks.settle`, `Stacks.step`, `Stacks.result` — what the program does.
-/

namespace Spreadsheet

/-- What waits on the second stack. -/
inductive Waiting where
  /-- An operator whose right operand is not complete. -/
  | operator (op : Operator)
  /-- A call with the arguments that are complete. -/
  | call (f : Builtin) (args : List Float)
  /-- An open bracket with the number of operands below it. -/
  | bracket (base : Nat)
deriving DecidableEq, Repr

/-- How tightly a waiting entry binds; a bracket yields to nothing but the end. -/
def Waiting.rank : Waiting → Nat
  | operator op => op.rank
  | call _ _ => Builtin.rank
  | bracket _ => 0

/-- The two stacks, each with its top first. -/
structure Stacks where
  /-- The operands. -/
  operands : List Float := []
  /-- The operators, brackets and calls that wait. -/
  waiting : List Waiting := []
deriving DecidableEq, Repr

/-! ### Accesses -/

/-- An access to the stacks other than putting something on top. -/
inductive Act where
  /-- The operand on top is taken off while `waiting` wait. It has `index` operands below
  it. -/
  | takeOff (index : Nat) (waiting : List Waiting)
  /-- The operands above a base are counted by subtracting the base from the number of
  all. -/
  | countAbove (base total : Nat)
  /-- Of `entries` that wait, the second from the top is looked up by its index from the
  bottom. -/
  | lookUpSecond (entries : Nat)
  /-- An open bracket is about to be applied. -/
  | applyBracket
deriving DecidableEq, Repr

/-- Computations that tell of their accesses to the stacks, and that may be refused. -/
class Accessing (m : Type → Type) where
  /-- Tells of an access. -/
  note : Act → m Unit
  /-- Fails because of the order of the tokens. -/
  refuse {α : Type} : Malformation → m α

/-- The program just computes. -/
instance : Accessing (Except Malformation) where
  note _ := .ok ()
  refuse := .error

namespace Stacks

open Accessing

section

variable {m : Type → Type} [Monad m] [Accessing m]

/-- Takes off the operand on top, if there is one. -/
def takeOff (waiting : List Waiting) : List Float → m (Option (Float × List Float))
  | [] => return none
  | x :: below => do
    note (.takeOff below.length waiting)
    return some (x, below)

/-- How many operands lie above a base. -/
def countAbove (base : Nat) (operands : List Float) : m Nat := do
  note (.countAbove base operands.length)
  return operands.length - base

/-- The second entry from the top. The entries are indexed from the bottom. -/
def lookUpSecond (waiting : List Waiting) : m (Option Waiting) := do
  note (.lookUpSecond waiting.length)
  return waiting.reverse[waiting.length - 2]?

/-! ### Waiting operators -/

/-- The base of the innermost open bracket, or zero outside of all brackets. -/
def innermostBase : List Waiting → Nat
  | [] => 0
  | .bracket base :: _ => base
  | _ :: rest => innermostBase rest

/-- Takes an operand for an operator, but none from below the base. -/
def takeOperandIn (op : Operator) (waiting : List Waiting) (operands : List Float) :
    m (Float × List Float) := do
  if operands.length ≤ innermostBase waiting then
    refuse (.missingOperand op)
  else
    match ← takeOff waiting operands with
    | some taken => return taken
    | none => refuse (.missingOperand op)

/-- Applies the waiting operators from the top on while they bind at least as tightly
as `rank`. A call that has not met its bracket, and a bracket that is to be applied,
are errors. -/
def applyWaitingIn (rank : Nat) (operands : List Float) : List Waiting → m Stacks
  | [] => return ⟨operands, []⟩
  | top :: rest =>
    if top.rank < rank then return ⟨operands, top :: rest⟩
    else match top with
      | .operator op => do
        let (right, operands) ← takeOperandIn op rest operands
        let (left, operands) ← takeOperandIn op rest operands
        applyWaitingIn rank (op.apply left right :: operands) rest
      | .call f _ => refuse (.notCalled f)
      | .bracket _ => do
        note .applyBracket
        refuse .unclosedBracket

/-- Applies the waiting operators that bind at least as tightly as `rank`. -/
def settleIn (rank : Nat) (st : Stacks) : m Stacks :=
  applyWaitingIn rank st.operands st.waiting

/-! ### Brackets and calls -/

/-- Ends an argument of the innermost call. It must consist of exactly one value. The
call waits below the innermost bracket, and is looked up again to be given the value. -/
def endArgumentIn (st : Stacks) : m Stacks := do
  let st ← st.settleIn 1
  match st.waiting with
  | .bracket base :: rest =>
    if st.waiting.length < 2 then refuse .separatorOutsideCall
    else match ← lookUpSecond st.waiting with
      | some (.call _ _) =>
        match ← countAbove base st.operands with
        | 0 => refuse .emptyArgument
        | 1 =>
          match ← takeOff st.waiting st.operands with
          | none => refuse .emptyArgument
          | some (x, operands) =>
            match ← lookUpSecond st.waiting with
            | some (.call f args) =>
              return ⟨operands, .bracket base :: .call f (args ++ [x]) :: rest.tail⟩
            | _ => return ⟨operands, st.waiting⟩
        | _ => refuse .missingOperatorInArgument
      | _ => refuse .separatorOutsideCall
  | _ => refuse .separatorOutsideCall

/-- Ends the innermost bracket. If it belongs to a call, the call is made, with what
the bracket still held as its last argument; if not, it must hold exactly one value. -/
def endBracketIn (draw : Float) (st : Stacks) : m Stacks := do
  let st ← st.settleIn 1
  match st.waiting with
  | .bracket base :: rest =>
    let count ← countAbove base st.operands
    if 1 < count then refuse .missingOperatorInBrackets
    else match rest with
      | .call f args :: rest =>
        if count = 1 then
          match ← takeOff rest st.operands with
          | some (x, operands) => return ⟨f.apply draw (args ++ [x]) :: operands, rest⟩
          | none => return ⟨f.apply draw args :: st.operands, rest⟩
        else return ⟨f.apply draw args :: st.operands, rest⟩
      | rest => if count = 0 then refuse .emptyBrackets else return ⟨st.operands, rest⟩
  | _ => refuse .unmatchedBracket

/-! ### Tokens -/

/-- Takes in an operand. -/
def addOperand (x : Float) (st : Stacks) : Stacks :=
  { st with operands := x :: st.operands }

/-- Puts an entry on the second stack. -/
def addWaiting (w : Waiting) (st : Stacks) : Stacks :=
  { st with waiting := w :: st.waiting }

/-- Takes in an operator. -/
def addOperatorIn (op : Operator) (st : Stacks) : m Stacks := do
  let st ← st.settleIn op.rank
  return st.addWaiting (.operator op)

/-- Takes in a token. A text counts as zero, and so does a reference, whose value is
not known here. -/
def stepIn (draw : Float) (st : Stacks) : Token → m Stacks
  | .number x => return st.addOperand x
  | .text _ | .reference _ => return st.addOperand 0
  | .function f => return st.addWaiting (.call f [])
  | .separator => st.endArgumentIn
  | .operator op => st.addOperatorIn op
  | .openBracket => return st.addWaiting (.bracket st.operands.length)
  | .closeBracket => st.endBracketIn draw

/-- The value that is left when all tokens have been taken in. -/
def resultIn (st : Stacks) : m Float := do
  let st ← st.settleIn 0
  match st.operands with
  | [x] => return x
  | [] => refuse .emptyFormula
  | _ => refuse .missingOperator

end

/-! ### What the program does -/

/-- Takes an operand for an operator, but none from below the base. -/
def takeOperand (op : Operator) (waiting : List Waiting) (operands : List Float) :
    Except Malformation (Float × List Float) :=
  takeOperandIn op waiting operands

/-- Applies the waiting operators from the top on while they bind at least as tightly
as `rank`. -/
def applyWaiting (rank : Nat) (operands : List Float) (waiting : List Waiting) :
    Except Malformation Stacks :=
  applyWaitingIn rank operands waiting

/-- Applies the waiting operators that bind at least as tightly as `rank`. -/
def settle (rank : Nat) (st : Stacks) : Except Malformation Stacks :=
  st.settleIn rank

/-- Ends an argument of the innermost call. -/
def endArgument (st : Stacks) : Except Malformation Stacks :=
  st.endArgumentIn

/-- Ends the innermost bracket. -/
def endBracket (draw : Float) (st : Stacks) : Except Malformation Stacks :=
  st.endBracketIn draw

/-- Takes in an operator. -/
def addOperator (op : Operator) (st : Stacks) : Except Malformation Stacks :=
  st.addOperatorIn op

/-- Takes in a token. -/
def step (draw : Float) (st : Stacks) (t : Token) : Except Malformation Stacks :=
  st.stepIn draw t

/-- The value that is left when all tokens have been taken in. -/
def result (st : Stacks) : Except Malformation Float :=
  st.resultIn

/-! ### In other words -/

/-- Settling goes through what waits, from the top on. -/
theorem settle_eq (rank : Nat) (st : Stacks) :
    st.settle rank = applyWaiting rank st.operands st.waiting := rfl

/-- An operator waits once the stacks have been settled for its rank. -/
theorem addOperator_eq (op : Operator) (st : Stacks) :
    st.addOperator op = (do
      let st ← st.settle op.rank
      return st.addWaiting (.operator op)) := rfl

/-- At the end exactly one operand must be left. -/
theorem result_eq (st : Stacks) :
    st.result = (do
      let st ← st.settle 0
      match st.operands with
      | [x] => .ok x
      | [] => .error .emptyFormula
      | _ => .error .missingOperator) := rfl

/-- The operands that lie above a base, top first. -/
def above (base : Nat) (operands : List Float) : List Float :=
  operands.take (operands.length - base)

/-- The operands that lie below a base, top first. -/
def below (base : Nat) (operands : List Float) : List Float :=
  operands.drop (operands.length - base)

/-- Where two entries wait, the one that is looked up is the second. -/
theorem reverse_getElem?_second (w v : Waiting) (ws : List Waiting) :
    (w :: v :: ws).reverse[(w :: v :: ws).length - 2]? = some v := by
  rw [List.reverse_cons, List.reverse_cons, List.append_assoc]
  simp

/-- Where two entries wait, the second is found. -/
theorem lookUpSecond_eq (w v : Waiting) (ws : List Waiting) :
    (lookUpSecond (w :: v :: ws) : Except Malformation (Option Waiting)) = .ok (some v) :=
  congrArg Except.ok (reverse_getElem?_second w v ws)

/-- The operands above a base are as many as the subtraction tells: none, or one, or at
least two. -/
theorem cases_of_above (base : Nat) (operands : List Float) :
    (operands.length - base = 0 ∧ above base operands = [] ∧ below base operands = operands) ∨
      (∃ x rest, operands = x :: rest ∧ operands.length - base = 1 ∧
        above base operands = [x] ∧ below base operands = rest) ∨
      ∃ n x y rest, operands.length - base = n + 2 ∧ above base operands = x :: y :: rest := by
  rw [above, below]
  generalize hcount : operands.length - base = count
  match count, operands with
  | 0, operands => exact Or.inl ⟨rfl, rfl, rfl⟩
  | 1, x :: rest => exact Or.inr (Or.inl ⟨x, rest, rfl, rfl, rfl, rfl⟩)
  | n + 2, x :: y :: rest => exact Or.inr (Or.inr ⟨n, x, y, rest.take n, rfl, rfl⟩)
  | _ + 1, [] => simp at hcount
  | n + 2, [x] => simp at hcount; omega

/-- The end of an argument, told by the operands above and below the base: there must be
exactly one above it. -/
theorem endArgument_eq (st : Stacks) :
    st.endArgument = (do
      let st ← st.settle 1
      match st.waiting with
      | .bracket base :: .call f args :: rest =>
        match above base st.operands with
        | [] => .error .emptyArgument
        | [x] => .ok ⟨below base st.operands, .bracket base :: .call f (args ++ [x]) :: rest⟩
        | _ => .error .missingOperatorInArgument
      | _ => .error .separatorOutsideCall) := by
  refine bind_congr fun settled => ?_
  obtain ⟨operands, ws⟩ := settled
  rcases ws with - | ⟨w, - | ⟨v, ws⟩⟩
  · rfl
  · cases w <;> rfl
  cases w with
  | operator op => rfl
  | call f args => rfl
  | bracket base =>
    have hlength : ¬ (Waiting.bracket base :: v :: ws).length < 2 := by simp
    dsimp only
    rw [if_neg hlength, lookUpSecond_eq]
    cases v with
    | operator op => rfl
    | bracket outer => rfl
    | call f args =>
      dsimp only
      rw [countAbove]
      obtain ⟨hcount, habove, -⟩ | ⟨x, rest, rfl, hcount, habove, hbelow⟩ |
        ⟨n, x, y, rest, hcount, habove⟩ := cases_of_above base operands
      · rw [hcount, habove]
        rfl
      · rw [hcount, habove, hbelow]
        rfl
      · rw [hcount, habove]
        rfl

/-- The end of a bracket, told by the operands above and below the base. -/
theorem endBracket_eq (draw : Float) (st : Stacks) :
    st.endBracket draw = (do
      let st ← st.settle 1
      match st.waiting with
      | .bracket base :: rest =>
        match above base st.operands, rest with
        | _ :: _ :: _, _ => .error .missingOperatorInBrackets
        | last, .call f args :: rest =>
          .ok ⟨f.apply draw (args ++ last) :: below base st.operands, rest⟩
        | [], _ => .error .emptyBrackets
        | [_], rest => .ok ⟨st.operands, rest⟩
      | _ => .error .unmatchedBracket) := by
  refine bind_congr fun settled => ?_
  obtain ⟨operands, ws⟩ := settled
  rcases ws with - | ⟨w, ws⟩
  · rfl
  cases w with
  | operator op => rfl
  | call f args => rfl
  | bracket base =>
    dsimp only
    rw [countAbove]
    obtain ⟨hcount, habove, hbelow⟩ | ⟨x, rest, rfl, hcount, habove, hbelow⟩ |
      ⟨n, x, y, rest, hcount, habove⟩ := cases_of_above base operands
    · rw [hcount, habove, hbelow]
      rcases ws with - | ⟨v, ws⟩
      · rfl
      cases v with
      | operator op => rfl
      | bracket outer => rfl
      | call f args =>
        show _ = Except.ok (Stacks.mk (f.apply draw (args ++ []) :: operands) ws)
        rw [List.append_nil]
        rfl
    · rw [hcount, habove, hbelow]
      rcases ws with - | ⟨v, ws⟩
      · rfl
      · cases v <;> rfl
    · rw [hcount, habove]
      rcases ws with - | ⟨v, ws⟩ <;> rfl

end Stacks

end Spreadsheet
