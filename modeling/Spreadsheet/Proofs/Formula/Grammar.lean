import Spreadsheet.Proofs.Formula.Asking
import Spreadsheet.Proofs.Formula.Level

/-!
# Which Sequences of Tokens Have a Value

A sequence of tokens should have a value only if it is the written form of an expression.
The two stacks check this by counting: what is left inside a bracket, in an argument or at
the end must be one operand. Two mistakes can cancel in such a count. An operator that is
missing between two operands is made up for by one that stands elsewhere, so that
`(1)(2)+` has the value of `1+2` (`evaluateText_surplus`). This is the only gap. Where no
operand directly follows another one, a sequence that is no expression is malformed
(`Expression.exists_tokens_or_malformed`).

The proof keeps, beside the stacks, an account of what has been read: the brackets that are
open, and behind the last of them the operands and operators in written order. Each token
that is taken in without an error is added to that account (`Unfinished.Fits.step`). The
stacks know of every level only how many operands and how many operators wait there; where
operands do not follow each other, one operand at the end of a level means that operands and
operators alternate.

## Main definitions

* `Unfinished`: a formula that has been read in part.
* `Unfinished.Fits`: the stacks are those of an unfinished formula.

## Main results

* `Stacks.applyWaiting_operators`: what applying waiting operators does to the stacks.
* `Unfinished.Fits.step`: a token that is taken in continues the formula.
* `Expression.exists_tokens_or_malformed`: what is no expression is malformed.
-/

namespace Spreadsheet

open Token

/-! ### Applying waiting operators -/

namespace Stacks

variable {rank base : ℕ} {operands below : List Float} {ws : List Waiting} {st st' : Stacks}

/-- **Waiting operators are applied from the top** until one binds less tightly than the
rank. Each of them leaves one operand less, and those below the innermost bracket stay. -/
theorem applyWaiting_operators {ops : List Operator}
    (h : applyWaiting rank operands (ops.map .operator ++ ws) = .ok st) :
    ∃ applied ops' operands', ops = applied ++ ops' ∧
      operands'.length + applied.length = operands.length ∧
      (applied ≠ [] → innermostBase ws < operands'.length) ∧
      (∀ op ∈ ops'.head?, op.rank < rank) ∧
      applyWaiting rank operands' (ops'.map .operator ++ ws) = .ok st := by
  induction ops generalizing operands with
  | nil => exact ⟨[], [], operands, rfl, rfl, by simp, by simp, h⟩
  | cons op ops ih =>
      by_cases hop : op.rank < rank
      · exact ⟨[], op :: ops, operands, rfl, rfl, by simp, by simpa using hop, h⟩
      · obtain ⟨x, y, below, rfl, hle, h⟩ :=
          applyWaiting_operator_eq_ok (Nat.le_of_not_lt hop) h
        have hbase : innermostBase (ops.map .operator ++ ws) = innermostBase ws := by
          have := innermostBase_operators (ops.map fun op => ((0 : Float), op)) ws
          rwa [List.map_map] at this
        have hle : innermostBase ws ≤ below.length := hbase ▸ hle
        obtain ⟨applied, ops', operands', hops, hcount, hpos, hhead, happly⟩ := ih h
        rw [List.length_cons] at hcount
        refine ⟨op :: applied, ops', operands', by rw [hops, List.cons_append], ?_, ?_,
          hhead, happly⟩
        · simp only [List.length_cons]
          omega
        · intro _
          by_cases hnil : applied = []
          · rw [hnil, List.length_nil] at hcount
            omega
          · exact hpos hnil

end Stacks

/-! ### Unfinished formulas -/

/-- An open bracket. -/
structure Frame where
  /-- What has been read before it at its level. -/
  before : List Piece
  /-- The call that it belongs to, if any, with the arguments that are complete. -/
  call? : Option (Builtin × List Expression)

/-- The arguments of a call that are complete, with what follows them. -/
def Arguments.ofList (rest : Arguments) : List Expression → Arguments
  | [] => rest
  | e :: es => .more e (rest.ofList es)

/-- Arguments with separators behind them are written in front of the rest. -/
theorem Arguments.tokens_ofList (rest : Arguments) (es : List Expression) :
    (rest.ofList es).tokens = es.flatMap (fun e => e.tokens ++ [.separator]) ++ rest.tokens := by
  induction es with
  | nil => rfl
  | cons e es ih => simp [Arguments.ofList, Arguments.tokens, ih]

namespace Frame

/-- What has been read from the bracket's level on up to the place behind the bracket, or
behind the last complete argument. -/
def tokens (fr : Frame) : List Token :=
  Piece.allTokens fr.before ++
    match fr.call? with
    | none => [.openBracket]
    | some (f, done) =>
      .function f :: .openBracket :: done.flatMap fun e => e.tokens ++ [.separator]

/-- What has been read before the innermost level. The innermost bracket comes first. -/
def allTokens : List Frame → List Token
  | [] => []
  | fr :: outer => allTokens outer ++ fr.tokens

end Frame

/-- A formula that has been read in part: the brackets that are open, and the pieces behind
the innermost one. -/
structure Unfinished where
  /-- The open brackets, the innermost first. -/
  frames : List Frame
  /-- What has been read at the innermost level. -/
  pieces : List Piece

/-- What open brackets are on the stacks: the number of operands below the innermost one,
and what waits from that bracket on. -/
inductive Beneath : List Frame → ℕ → List Waiting → Prop
  | nil : Beneath [] 0 []
  | group {frames : List Frame} {base n : ℕ} {ws : List Waiting} {ps : List Piece}
      {ops : List Operator} :
      Beneath frames base ws → Clear ps n ops →
      Beneath (⟨ps, none⟩ :: frames) (base + n)
        (.bracket (base + n) :: (ops.map .operator ++ ws))
  | call {frames : List Frame} {base n : ℕ} {ws level : List Waiting} {ps : List Piece}
      (f : Builtin) (done : List Expression) (args : List Float) :
      Beneath frames base ws → Level ps n level →
      Beneath (⟨ps, some (f, done)⟩ :: frames) (base + n)
        (.bracket (base + n) :: .call f args :: (level ++ ws))

namespace Unfinished

/-- Everything that has been read. -/
def tokens (u : Unfinished) : List Token :=
  Frame.allTokens u.frames ++ Piece.allTokens u.pieces

/-- The stacks are those of an unfinished formula: the open brackets, and above them the
innermost level. -/
def Fits (u : Unfinished) (st : Stacks) : Prop :=
  ∃ base n ws level, Beneath u.frames base ws ∧ Level u.pieces n level ∧
    st.operands.length = base + n ∧ st.waiting = level ++ ws

/-- Nothing has been read at the beginning. -/
theorem Fits.nil : Fits ⟨[], []⟩ {} :=
  ⟨0, 0, [], [], .nil, .clear .nil, rfl, rfl⟩

end Unfinished

open Unfinished

variable {u : Unfinished} {st st' : Stacks} {frames : List Frame} {ps : List Piece}
  {base n rank : ℕ} {ws level : List Waiting} {operands : List Float} {draw : Float}

/-- The base of the innermost bracket is the number of operands below it. -/
theorem Beneath.innermostBase_eq (h : Beneath frames base ws) :
    Stacks.innermostBase ws = base := by
  cases h <;> rfl

/-- Open brackets stay when operators are applied. -/
theorem Beneath.applyWaiting_eq (h : Beneath frames base ws) (hrank : 1 ≤ rank) :
    Stacks.applyWaiting rank operands ws = .ok ⟨operands, ws⟩ := by
  cases h with
  | nil => rfl
  | group => exact if_pos hrank
  | call => exact if_pos hrank

/-- **Applying waiting operators** leaves a level clear, up to the first operator that binds
less tightly. -/
theorem Clear.applyWaiting_eq_ok {ops : List Operator} (h : Clear ps n ops)
    (hws : Beneath frames base ws) (hlen : operands.length = base + n)
    (hok : Stacks.applyWaiting rank operands (ops.map .operator ++ ws) = .ok st) :
    ∃ n' ops' operands', Clear ps n' ops' ∧ operands'.length = base + n' ∧
      (∀ op ∈ ops'.head?, op.rank < rank) ∧
      Stacks.applyWaiting rank operands' (ops'.map .operator ++ ws) = .ok st := by
  obtain ⟨applied, ops', operands', rfl, hcount, hpos, hhead, hrest⟩ :=
    Stacks.applyWaiting_operators hok
  have hbase := hws.innermostBase_eq
  have hclear := h.count
  have hsome := h.pos
  rw [List.length_append] at hclear hsome
  -- An operator that has been applied leaves its result above the base.
  have habove : applied = [] ∨ base < operands'.length :=
    or_iff_not_imp_left.mpr fun hne => hbase ▸ hpos hne
  have hcount' : operands'.length - base + Piece.operators ps =
      ops'.length + Piece.operands ps := by
    rcases habove with rfl | habove
    · rw [List.length_nil] at hcount hclear
      omega
    · omega
  have hpos' : ps ≠ [] → 0 < operands'.length - base + ops'.length := by
    intro hne
    have := hsome hne
    rcases habove with rfl | habove
    · rw [List.length_nil] at hcount this
      omega
    · omega
  have hbelow : base ≤ operands'.length := by
    rcases habove with rfl | habove
    · rw [List.length_nil] at hcount
      omega
    · omega
  exact ⟨operands'.length - base, ops', operands', ⟨h.names, hcount', hpos'⟩, by omega, hhead,
    hrest⟩

/-- **Settling a level** leaves it clear and everything below it as it was. -/
theorem Level.applyWaiting_eq_ok (h : Level ps n level) (hws : Beneath frames base ws)
    (hlen : operands.length = base + n) (hle : 1 ≤ rank) (hrank : rank ≤ 3)
    (hok : Stacks.applyWaiting rank operands (level ++ ws) = .ok st) :
    ∃ n' ops, Clear ps n' ops ∧ st.operands.length = base + n' ∧
      st.waiting = ops.map .operator ++ ws ∧ (rank = 1 → ops = []) := by
  cases h with
  | stuck f x? h =>
      have hcall : ¬ (Waiting.call f []).rank < rank := Nat.not_lt.mpr (by
        show rank ≤ 4
        omega)
      rw [List.cons_append, Stacks.applyWaiting_call hcall] at hok
      cases hok
  | clear h =>
      obtain ⟨n', ops', operands', hclear, hlen', hhead, hrest⟩ :=
        h.applyWaiting_eq_ok hws hlen hok
      cases ops' with
      | nil =>
          rw [List.map_nil, List.nil_append, hws.applyWaiting_eq hle] at hrest
          cases hrest
          exact ⟨n', [], hclear, hlen', rfl, fun _ => rfl⟩
      | cons op ops' =>
          have hop : op.rank < rank := hhead op rfl
          have hwaiting : (Waiting.operator op).rank < rank := hop
          rw [List.map_cons, List.cons_append,
            Stacks.applyWaiting_eq_self fun w hw => Option.some.inj hw ▸ hwaiting] at hrest
          cases hrest
          have hpos := op.one_le_rank
          exact ⟨n', op :: ops', hclear, hlen', rfl, fun hone => by omega⟩

namespace Unfinished

/-- Tokens that are read at the innermost level are added to its pieces. -/
theorem tokens_append (frames : List Frame) (ps qs : List Piece) :
    tokens ⟨frames, ps ++ qs⟩ = tokens ⟨frames, ps⟩ ++ Piece.allTokens qs := by
  simp [tokens]

/-- Settling the innermost level leaves it clear. -/
theorem Fits.settle (h : Fits ⟨frames, ps⟩ st) (hle : 1 ≤ rank) (hrank : rank ≤ 3)
    (hok : st.settle rank = .ok st') :
    ∃ base n ws ops, Beneath frames base ws ∧ Clear ps n ops ∧
      st'.operands.length = base + n ∧ st'.waiting = ops.map .operator ++ ws ∧
      (rank = 1 → ops = []) := by
  obtain ⟨base, n, ws, level, hws, hlevel, hlen, hwaiting⟩ := h
  rw [Stacks.settle_eq, hwaiting] at hok
  obtain ⟨n', ops, hclear, hlen', hwaiting', hone⟩ :=
    hlevel.applyWaiting_eq_ok hws hlen hle hrank hok
  exact ⟨base, n', ws, ops, hws, hclear, hlen', hwaiting', hone⟩

/-- What begins an operand finds the level ready for it. -/
theorem free_pieces {t : Token} (h : Separated (tokens ⟨frames, ps⟩ ++ [t]))
    (ht : t.beginsOperand = true) : Free ps :=
  free_of_separated _ h ht

/-- A simple operand is added to the innermost level. -/
theorem Fits.addOperand (h : Fits ⟨frames, ps⟩ st) (hfree : Free ps) (x : Operand) (y : Float) :
    Fits ⟨frames, ps ++ [.operand x]⟩ (st.addOperand y) := by
  obtain ⟨base, n, ws, level, hws, hlevel, hlen, hwaiting⟩ := h
  refine ⟨base, n + 1, ws, level, hws, hlevel.operand hfree x, ?_, hwaiting⟩
  show st.operands.length + 1 = _
  omega

/-- A function name waits for its bracket. -/
theorem Fits.addName (h : Fits ⟨frames, ps⟩ st) (f : Builtin) :
    Fits ⟨frames, ps ++ [.name f]⟩ (st.addWaiting (.call f [])) := by
  obtain ⟨base, n, ws, level, hws, hlevel, hlen, hwaiting⟩ := h
  refine ⟨base, n, ws, .call f [] :: level, hws, .stuck f none hlevel, hlen, ?_⟩
  show .call f [] :: st.waiting = _
  rw [hwaiting, List.cons_append]

/-- An operator is added to the innermost level once it has been settled. -/
theorem Fits.addOperator {op : Operator} (h : Fits ⟨frames, ps⟩ st)
    (hok : st.addOperator op = .ok st') : Fits ⟨frames, ps ++ [.operator op]⟩ st' := by
  cases hsettle : st.settle op.rank with
  | error cause =>
      rw [Stacks.addOperator_eq, hsettle] at hok
      cases hok
  | ok st₁ =>
      rw [Stacks.addOperator_eq, hsettle] at hok
      obtain rfl : st₁.addWaiting (.operator op) = st' := Except.ok.inj hok
      obtain ⟨base, n, ws, ops, hws, hclear, hlen, hwaiting, -⟩ :=
        h.settle op.one_le_rank op.rank_le_three hsettle
      refine ⟨base, n, ws, _, hws, .clear (hclear.operator op), hlen, ?_⟩
      show .operator op :: st₁.waiting = _
      rw [hwaiting, List.map_cons, List.cons_append]

/-- An opening bracket belongs to the function name before it, if there is one. -/
theorem Fits.openBracket (h : Fits ⟨frames, ps⟩ st) (hfree : Free ps) :
    ∃ fr, Fits ⟨fr :: frames, []⟩ (st.addWaiting (.bracket st.operands.length)) ∧
      fr.tokens = Piece.allTokens ps ++ [.openBracket] := by
  obtain ⟨base, n, ws, level, hws, hlevel, hlen, hwaiting⟩ := h
  cases hlevel with
  | clear hclear =>
      refine ⟨⟨ps, none⟩, ⟨_, 0, _, [], .group hws hclear, .clear .nil, hlen, ?_⟩, rfl⟩
      show .bracket st.operands.length :: st.waiting = _
      rw [hwaiting, hlen, List.nil_append]
  | @stuck ps' n' level' f x? hlevel =>
      cases x? with
      | some x => exact absurd (by simp) (hfree x)
      | none =>
          refine ⟨⟨ps', some (f, [])⟩,
            ⟨_, 0, _, [], .call f [] [] hws hlevel, .clear .nil, hlen, ?_⟩, ?_⟩
          · show .bracket st.operands.length :: st.waiting = _
            rw [hwaiting, hlen, List.nil_append]
            rfl
          · simp [Frame.tokens, Piece.tokens]

end Unfinished

/-- How many operands lie above a base. -/
theorem length_above {xs : List Float} (h : xs.length = base + n) :
    (Stacks.above base xs).length = n := by
  rw [Stacks.above, List.length_take]
  omega

/-- As many operands lie below a base as it says. -/
theorem length_below {xs : List Float} (h : xs.length = base + n) :
    (Stacks.below base xs).length = base := by
  rw [Stacks.below, List.length_drop]
  omega

/-- What waits below a bracket that belongs to no call is no call. -/
theorem Beneath.head?_ne_call (hws : Beneath frames base ws) (ops : List Operator)
    (f : Builtin) (args : List Float) :
    (ops.map Waiting.operator ++ ws).head? ≠ some (.call f args) := by
  cases ops with
  | nil => cases hws <;> simp
  | cons op ops => simp

/-- A bracket on top of a call is a bracket of that call. -/
theorem Beneath.of_call {b : ℕ} {f : Builtin} {args : List Float} {rest : List Waiting}
    (h : Beneath frames base (.bracket b :: .call f args :: rest)) :
    ∃ outer before done base₀ n₀ ws₀ level, frames = ⟨before, some (f, done)⟩ :: outer ∧
      base = b ∧ b = base₀ + n₀ ∧ rest = level ++ ws₀ ∧ Beneath outer base₀ ws₀ ∧
      Level before n₀ level := by
  generalize htop : Waiting.bracket b :: .call f args :: rest = ws at h
  cases h with
  | nil => cases htop
  | group hws hbefore =>
      have hhead := congrArg (fun l => l.tail.head?) htop.symm
      exact absurd hhead (hws.head?_ne_call _ f args)
  | call f' done args' hws hbefore =>
      cases htop
      exact ⟨_, _, done, _, _, _, _, rfl, rfl, rfl, rfl, hws, hbefore⟩

/-- Any other bracket is a bracket of its own. -/
theorem Beneath.of_group {b : ℕ} {rest : List Waiting}
    (h : Beneath frames base (.bracket b :: rest))
    (hrest : ∀ f args, rest.head? ≠ some (.call f args)) :
    ∃ outer before base₀ n₀ ws₀ ops, frames = ⟨before, none⟩ :: outer ∧ base = b ∧
      b = base₀ + n₀ ∧ rest = ops.map .operator ++ ws₀ ∧ Beneath outer base₀ ws₀ ∧
      Clear before n₀ ops := by
  generalize htop : Waiting.bracket b :: rest = ws at h
  cases h with
  | nil => cases htop
  | group hws hbefore =>
      cases htop
      exact ⟨_, _, _, _, _, _, rfl, rfl, rfl, rfl, hws, hbefore⟩
  | call f' done args' hws hbefore =>
      cases htop
      exact absurd rfl (hrest f' args')

namespace Unfinished

/-- Settling all operators of the innermost level leaves its bracket on top. -/
theorem Fits.settle_one (h : Fits ⟨frames, ps⟩ st) (hok : st.settle 1 = .ok ⟨operands, ws⟩) :
    ∃ base n, Beneath frames base ws ∧ Clear ps n [] ∧ operands.length = base + n := by
  obtain ⟨base, n, ws', ops, hws, hclear, hlen, hwaiting, hone⟩ :=
    h.settle (Nat.le_refl 1) (by omega) hok
  obtain rfl := hone rfl
  obtain rfl : ws = ws' := hwaiting
  exact ⟨base, n, hws, hclear, hlen⟩

/-- A separator ends an argument of the call that the innermost bracket belongs to. -/
theorem Fits.endArgument (h : Fits ⟨frames, ps⟩ st) (hps : Separated (Piece.allTokens ps))
    (hok : st.endArgument = .ok st') :
    ∃ frames', Fits ⟨frames', []⟩ st' ∧
      Frame.allTokens frames' = tokens ⟨frames, ps⟩ ++ [.separator] := by
  obtain ⟨operands, b, f, args, rest, x, hsettle, hx, rfl⟩ := Stacks.endArgument_eq_ok_iff.mp hok
  obtain ⟨base, n, hws, hclear, hlen⟩ := h.settle_one hsettle
  obtain ⟨outer, before, done, base₀, n₀, ws₀, level, rfl, rfl, rfl, rfl, hws, hbefore⟩ :=
    hws.of_call
  have habove := length_above hlen
  rw [hx] at habove
  obtain rfl : 1 = n := habove
  obtain ⟨e, he⟩ := hclear.exists_expression hps
  refine ⟨⟨before, some (f, done ++ [e])⟩ :: outer,
    ⟨_, 0, _, [], .call f (done ++ [e]) (args ++ [x]) hws hbefore, .clear .nil,
      length_below hlen, rfl⟩, ?_⟩
  simp [tokens, Frame.allTokens, Frame.tokens, he]

/-- A closing bracket ends a call or an expression in brackets, which is an operand of the
level around it. -/
theorem Fits.endBracket (h : Fits ⟨frames, ps⟩ st)
    (hps : Separated (tokens ⟨frames, ps⟩)) (hok : st.endBracket draw = .ok st') :
    ∃ u, Fits u st' ∧ u.tokens = tokens ⟨frames, ps⟩ ++ [.closeBracket] := by
  have hpieces : Separated (Piece.allTokens ps) := List.IsChain.right_of_append hps
  rcases Stacks.endBracket_eq_ok_iff.mp hok with
    ⟨operands, b, f, args, rest, hsettle, hlast, rfl⟩ |
    ⟨operands, b, rest, x, hsettle, hrest, hx, rfl⟩
  · obtain ⟨base, n, hws, hclear, hlen⟩ := h.settle_one hsettle
    obtain ⟨outer, before, done, base₀, n₀, ws₀, level, rfl, rfl, rfl, rfl, hws, hbefore⟩ :=
      hws.of_call
    have hfree : Free before := by
      have hsep : Separated (Frame.allTokens outer ++ Piece.allTokens before ++
          .function f :: (.openBracket :: done.flatMap (fun e => e.tokens ++ [.separator]) ++
            Piece.allTokens ps)) := by
        simpa [tokens, Frame.allTokens, Frame.tokens] using hps
      exact free_of_separated _ hsep rfl
    rw [length_above hlen] at hlast
    obtain ⟨last, hlast⟩ := hclear.exists_arguments hpieces hlast
    refine ⟨⟨outer, before ++ [.operand (.call f (last.ofList done))]⟩,
      ⟨base₀, n₀ + 1, ws₀, level, hws, hbefore.operand hfree _, ?_, rfl⟩, ?_⟩
    · rw [List.length_cons, length_below hlen, Nat.add_assoc]
    · simp [tokens, Frame.allTokens, Frame.tokens, Piece.tokens, Operand.tokens,
        Arguments.tokens_ofList, hlast]
  · obtain ⟨base, n, hws, hclear, hlen⟩ := h.settle_one hsettle
    obtain ⟨outer, before, base₀, n₀, ws₀, ops, rfl, rfl, rfl, rfl, hws, hbefore⟩ :=
      hws.of_group hrest
    have hfree : Free before := by
      have hsep : Separated (Frame.allTokens outer ++ Piece.allTokens before ++
          .openBracket :: Piece.allTokens ps) := by
        simpa [tokens, Frame.allTokens, Frame.tokens] using hps
      exact free_of_separated _ hsep rfl
    have habove := length_above hlen
    rw [hx] at habove
    obtain rfl : 1 = n := habove
    obtain ⟨e, he⟩ := hclear.exists_expression hpieces
    refine ⟨⟨outer, before ++ [.operand (.bracketed e)]⟩,
      ⟨base₀, n₀ + 1, ws₀, _, hws, (Level.clear hbefore).operand hfree _, hlen, rfl⟩, ?_⟩
    simp [tokens, Frame.allTokens, Frame.tokens, Piece.tokens, Operand.tokens, he]

/-- **A token that is taken in continues the formula.** -/
theorem Fits.step {u : Unfinished} {t : Token} (h : u.Fits st)
    (hts : Separated (u.tokens ++ [t])) (hok : st.step draw t = .ok st') :
    ∃ u' : Unfinished, u'.Fits st' ∧ u'.tokens = u.tokens ++ [t] := by
  obtain ⟨frames, ps⟩ := u
  have hread : Separated (tokens ⟨frames, ps⟩) := List.IsChain.left_of_append hts
  cases t with
  | number x =>
      cases hok
      exact ⟨_, h.addOperand (free_pieces hts rfl) (.number x) x, tokens_append frames ps _⟩
  | text content =>
      cases hok
      exact ⟨_, h.addOperand (free_pieces hts rfl) (.text content) 0, tokens_append frames ps _⟩
  | reference name =>
      cases hok
      exact ⟨_, h.addOperand (free_pieces hts rfl) (.reference name) 0, tokens_append frames ps _⟩
  | function f =>
      cases hok
      exact ⟨_, h.addName f, tokens_append frames ps _⟩
  | operator op => exact ⟨_, h.addOperator hok, tokens_append frames ps _⟩
  | openBracket =>
      cases hok
      obtain ⟨fr, hfits, hfr⟩ := h.openBracket (free_pieces hts rfl)
      exact ⟨_, hfits, by simp [tokens, Frame.allTokens, hfr]⟩
  | separator =>
      obtain ⟨frames', hfits, htokens⟩ :=
        h.endArgument (List.IsChain.right_of_append hread) hok
      exact ⟨_, hfits, by rw [← htokens, tokens, Piece.allTokens_nil, List.append_nil]⟩
  | closeBracket => exact h.endBracket hread hok

/-- **Tokens that are taken in one after the other continue the formula**, whatever the
references among them are worth. -/
theorem Fits.foldlM {σ : Type} {ask : String → Evaluation σ Float} {ts : List Token}
    {u : Unfinished} {s s' : σ} (h : u.Fits st) (hts : Separated (u.tokens ++ ts))
    (hok : (ts.foldlM (Stacks.stepAsking draw ask) st).runFrom s = (.ok st', s')) :
    ∃ u' : Unfinished, u'.Fits st' ∧ u'.tokens = u.tokens ++ ts := by
  induction ts generalizing u st s with
  | nil =>
      cases hok
      exact ⟨u, h, (List.append_nil _).symm⟩
  | cons t ts ih =>
      rw [List.append_cons] at hts
      rw [List.foldlM_cons] at hok
      obtain ⟨next, s₁, hstep, hrest⟩ := Evaluation.runFrom_bind_eq_ok hok
      have hnext : ∃ u' : Unfinished, u'.Fits next ∧ u'.tokens = u.tokens ++ [t] := by
        have hread : Separated (u.tokens ++ [t]) := List.IsChain.left_of_append hts
        by_cases href : ∃ name, t = .reference name
        · obtain ⟨name, rfl⟩ := href
          obtain ⟨x, s₂, -, hpure⟩ := Evaluation.runFrom_bind_eq_ok hstep
          cases hpure
          exact ⟨_, h.addOperand (free_pieces hread rfl) (.reference name) x,
            tokens_append u.frames u.pieces _⟩
        · rw [Stacks.stepAsking_of_ne_reference (not_exists.mp href)] at hstep
          cases hok : st.step draw t with
          | error cause =>
              rw [hok] at hstep
              cases hstep
          | ok st₁ =>
              rw [hok] at hstep
              cases hstep
              exact h.step hread hok
      obtain ⟨u₁, hfits, htokens⟩ := hnext
      rw [← htokens] at hts
      obtain ⟨u', hfits', htokens'⟩ := ih hfits hts hrest
      exact ⟨u', hfits', by rw [htokens', htokens, List.append_assoc, List.singleton_append]⟩

/-- **What is left at the end is an expression.** -/
theorem Fits.result {x : Float} (h : Fits u st) (hts : Separated u.tokens)
    (hok : st.result = .ok x) : ∃ e : Expression, e.tokens = u.tokens := by
  obtain ⟨frames, ps⟩ := u
  obtain ⟨base, n, ws, level, hws, hlevel, hlen, hwaiting⟩ := h
  cases hsettle : st.settle 0 with
  | error cause =>
      rw [Stacks.result_eq, hsettle] at hok
      cases hok
  | ok st₁ =>
      simp only [Stacks.result_eq, hsettle, bind, Except.bind] at hok
      rw [Stacks.settle_eq, hwaiting] at hsettle
      cases hlevel with
      | stuck f x? h => cases hsettle
      | clear hclear =>
          obtain ⟨n', ops', operands', hclear, hlen', hhead, hrest⟩ :=
            hclear.applyWaiting_eq_ok hws hlen hsettle
          obtain rfl : ops' = [] := List.head?_eq_none_iff.mp <|
            Option.eq_none_iff_forall_ne_some.mpr fun op hop => Nat.not_lt_zero _ (hhead op hop)
          cases hws with
          | group => cases hrest
          | call => cases hrest
          | nil =>
              cases hrest
              dsimp only at hok
              split at hok
              · obtain rfl : 1 = n' := hlen'.trans (Nat.zero_add n')
                exact hclear.exists_expression hts
              · cases hok
              · cases hok

end Unfinished

/-! ### What is no expression -/

section Answers

variable {σ : Type} {ask : String → Evaluation σ Float} {look : String → StateM σ Float}

/-- **A sequence of tokens is the written form of an expression, or it is malformed**, if
no operand directly follows another one and asking for a cell never fails. A missing
operand, a bracket without its partner, a separator outside of a call and a function name
without a bracket are all found. -/
theorem Expression.exists_tokens_or_malformed (answers : AnswersAs ask look) {ts : List Token}
    (hts : Separated ts) (s : σ) :
    (∃ e : Expression, e.tokens = ts) ∨
      ∃ cause s', (evaluate draw ask ts).runFrom s = (.error (.malformed cause), s') := by
  rcases hrun : (evaluate draw ask ts).runFrom s with ⟨e | x, s'⟩
  · obtain ⟨cause, rfl⟩ := answers.eq_malformed hrun
    exact Or.inr ⟨cause, s', rfl⟩
  · left
    obtain ⟨st, s₁, hfold, hresult⟩ := Evaluation.runFrom_bind_eq_ok hrun
    obtain ⟨u, hfits, htokens⟩ := Fits.nil.foldlM hts hfold
    obtain rfl : u.tokens = ts := htokens
    cases hst : st.result with
    | error cause =>
        rw [hst] at hresult
        cases hresult
    | ok y => exact hfits.result hts hst

/-- No expression ends with an operator, so `1+` is malformed. -/
theorem Expression.malformed_of_operator_last :
    Separated [.number 1, .operator .add] ∧
      ∃ cause s', (evaluate 0 askBlank [.number 1, .operator .add]).runFrom () =
        (.error (.malformed cause), s') := by
  have hts : Separated [.number 1, .operator .add] := by decide
  have answers : AnswersAs askBlank fun _ => pure 0 := fun _ _ => rfl
  refine ⟨hts, (exists_tokens_or_malformed answers hts ()).resolve_left ?_⟩
  rintro ⟨e, he⟩
  have hlast := e.any_getLast?
  rw [he] at hlast
  cases hlast

/-- The gap: in `(1)(2)+` the operator that is missing between the brackets stands at the
end, and the value is 3, although no expression ends with an operator. -/
theorem evaluateText_surplus :
    (evaluateText 0 askBlank "(1)(2)+").runFrom () = (.ok 3, ()) ∧
      ¬ ∃ e : Expression, e.tokens = Token.scan "(1)(2)+" := by
  have hscan : Token.scan "(1)(2)+" =
      [.openBracket, .number 1, .closeBracket, .openBracket, .number 2, .closeBracket,
        .operator .add] := by
    decide +kernel
  constructor
  · show (evaluate 0 askBlank (Token.scan "(1)(2)+")).runFrom () = _
    rw [hscan]
    decide +kernel
  · rintro ⟨e, he⟩
    have hlast := e.any_getLast?
    rw [he, hscan] at hlast
    cases hlast

end Answers

end Spreadsheet
