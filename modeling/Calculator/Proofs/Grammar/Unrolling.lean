import Mathlib
import Calculator.Proofs.Grammar.Effect

/-!
# Unrolling a reading

The rules of the grammar call one another, four times in a row on the same tokens, and their loops
go on wherever the rule before them has stopped. What bounds all this is that every rule takes at
least one token, but `read` has this bound built into its types. Here it is left out: a `Walk`
answers every call with a value and any tokens at all, and `unroll` is one layer of the reading on
plain walks, with each call of a procedure left to the walk.

A reading is its own unrolling, and the calls in it are for fewer tokens, or for as many and a
procedure of a lower rank. This is said without a list of the calls: as long as a walk is right
about the smaller ones, its unrolling is right (`unroll_eq_reading`), so no other call is made. It
follows that nothing is left of a walk that is unrolled often enough (`iterate_unroll`). The limit
on the nesting has no part in it.

The procedures are finer than the rules of a reading, whose requests are listed by `Asks`: a loop, a
call and an enclosure have calls of their own, and what they leave is not known in advance.
-/

namespace Calculator.Grammar

variable {σ ε α : Type}

/-! ### Procedures -/

/-- The procedures that call one another. -/
inductive Procedure (α : Type) where
  /-- Operands joined by the operators of a tier. -/
  | chain (tier : Tier)
  /-- The operators of a tier that follow a value, each with its operand. -/
  | loop (tier : Tier) (left : α)
  /-- An atom, possibly with a power of ten. -/
  | scaled
  /-- A literal, a function with its argument, an expression in parentheses or a negation. -/
  | atom
  /-- The argument of a function, whose name has been passed. -/
  | call (function : Trig)
  /-- An expression and the closing parenthesis behind it. -/
  | enclosed (enclosure : Enclosure)

namespace Procedure

/-- The procedure for the operands of a tier. -/
def operand : Tier → Procedure α
  | .additive => .chain .multiplicative
  | .multiplicative => .chain .power
  | .power => .scaled

/-- The place of a procedure in the order in which tokens are passed on. A loop passes none on. -/
def rank : Procedure α → Nat
  | .loop _ _ => 0
  | .atom => 1
  | .scaled => 2
  | .chain tier => Grammar.rank tier + 2
  | .enclosed _ => 6
  | .call _ => 7

theorem rank_lt (procedure : Procedure α) : procedure.rank < 8 := by
  cases procedure with
  | chain tier => cases tier <;> simp [rank, Grammar.rank]
  | _ => simp [rank]

theorem rank_operand_lt (tier : Tier) :
    (operand tier : Procedure α).rank < (chain tier : Procedure α).rank := by
  cases tier <;> simp [operand, rank, Grammar.rank]

/-- The size of a call: the tokens that are left, and then the rank. -/
def size (procedure : Procedure α) (tokens : List Token) : Nat ×ₗ Nat :=
  toLex (tokens.length, procedure.rank)

section Size

variable {procedure procedure' : Procedure α} {tokens tokens' : List Token}

theorem size_lt_of_shorter (shorter : tokens'.length < tokens.length) :
    procedure'.size tokens' < procedure.size tokens :=
  Prod.Lex.toLex_lt_toLex.mpr (.inl shorter)

theorem size_lt_of_rank (lower : procedure'.rank < procedure.rank) :
    procedure'.size tokens < procedure.size tokens :=
  Prod.Lex.toLex_lt_toLex.mpr (.inr ⟨rfl, lower⟩)

/-- Behind a token, every procedure is smaller. -/
theorem size_lt_cons {token : Token} : procedure'.size tokens < procedure.size (token :: tokens) :=
  size_lt_of_shorter (Nat.lt_succ_self _)

theorem size_operand_lt {tier : Tier} :
    (operand tier : Procedure α).size tokens < (chain tier : Procedure α).size tokens :=
  size_lt_of_rank (rank_operand_lt tier)

theorem size_atom_lt : (atom : Procedure α).size tokens < (scaled : Procedure α).size tokens :=
  size_lt_of_rank (Nat.lt_succ_self 1)

/-- The content of an enclosure is smaller than the enclosure. -/
theorem size_content_lt {enclosure : Enclosure} :
    (chain .additive : Procedure α).size tokens <
      (enclosed enclosure : Procedure α).size tokens :=
  size_lt_of_rank (Nat.lt_succ_self 5)

/-- The argument of a function is smaller than the call. -/
theorem size_argument_lt {function : Trig} :
    (enclosed (.argument function) : Procedure α).size tokens <
      (call function : Procedure α).size tokens :=
  size_lt_of_rank (Nat.lt_succ_self 6)

/-- The lexicographic order as an order of numbers: there are eight ranks. -/
theorem weight_lt_of_size_lt (smaller : procedure'.size tokens' < procedure.size tokens) :
    8 * tokens'.length + procedure'.rank < 8 * tokens.length + procedure.rank := by
  have bounded := procedure'.rank_lt
  rcases Prod.Lex.toLex_lt_toLex.mp smaller with shorter | ⟨same, lower⟩
  · dsimp only at shorter
    omega
  · dsimp only at same lower
    omega

end Size

end Procedure

/-! ### Walks -/

/-- An answer to every call. -/
abbrev Walk (σ ε α : Type) : Type :=
  Procedure α → Nat → List Token → EStateM ε σ (α × List Token)

section Definitions

variable (interp : Interpretation σ ε α) (limit : Option Nat)

/-- **One layer of a reading**, in which the walk answers every call. -/
def unroll (walk : Walk σ ε α) : Walk σ ε α
  | .chain tier, depth, tokens => do
    let (left, rest) ← walk (.operand tier) depth tokens
    walk (.loop tier left) depth rest
  | .loop tier left, depth, tokens =>
    match tokens with
    | [] => return (left, [])
    | token :: tail =>
      match tier.operator? token with
      | none => return (left, token :: tail)
      | some op => do
        let (right, rest) ← walk (.operand tier) depth tail
        let value ← interp.perform (.operation op left right)
        walk (.loop tier value) depth rest
  | .scaled, depth, tokens => do
    match ← walk .atom depth tokens with
    | (mantissa, .exponentMark :: tail) =>
      let (exponent, rest) ← walk .atom depth tail
      let value ← interp.perform (.scaled mantissa exponent)
      return (value, rest)
    | found => return found
  | .atom, depth, tokens =>
    match tokens with
    | .number whole :: .point :: .fraction fraction :: rest => do
      let value ← interp.perform (.literal whole (some fraction))
      return (value, rest)
    | .number _ :: .point :: _ => throw (interp.malformed .missingDigits)
    | .number whole :: rest => do
      let value ← interp.perform (.literal whole none)
      return (value, rest)
    | .function function :: tail => walk (.call function) depth tail
    | .opening :: tail => do
      let (inner, rest) ← walk (.enclosed .parentheses) depth tail
      let value ← interp.perform (.parenthesized inner)
      return (value, rest)
    | .negation :: tail => do
      let deeper ← deepen interp limit depth
      let (operand, rest) ← walk (.chain .multiplicative) deeper tail
      let value ← interp.perform (.negation operand)
      return (value, rest)
    | token :: _ => throw (interp.malformed (.unexpected token))
    | [] => throw (interp.malformed .unexpectedEnd)
  | .call function, depth, tokens => do
    let (argument, rest) ← walk (.enclosed (.argument function)) depth tokens
    let value ← interp.perform (.application function argument)
    return (value, rest)
  | .enclosed enclosure, depth, tokens => do
    let deeper ← deepen interp limit depth
    match ← walk (.chain .additive) deeper tokens with
    | (value, .closing :: tail) => return (value, tail)
    | _ => throw (interp.malformed (.unclosed enclosure))

theorem length_lt_succ (tokens : List Token) : tokens.length < tokens.length + 1 :=
  Nat.lt_succ_self _

/-- What was found, without the bound on what is left. -/
def Parsed.pair {bound : Nat} (found : Parsed α bound) : α × List Token :=
  (found.value, found.rest)

/-- The walk that answers as the reading does. -/
def reading : Walk σ ε α
  | .chain tier, depth, tokens => Parsed.pair <$> chain interp limit tier depth tokens
  | .loop tier left, depth, tokens =>
    Parsed.pair <$> fold interp limit tier depth left tokens (length_lt_succ tokens)
  | .scaled, depth, tokens => Parsed.pair <$> scaled interp limit depth tokens
  | .atom, depth, tokens => Parsed.pair <$> atom interp limit depth tokens
  | .call function, depth, tokens => do
    let argument ← bracketed interp limit (.argument function) depth tokens
    let value ← interp.perform (.application function argument.value)
    return (value, argument.rest)
  | .enclosed enclosure, depth, tokens =>
    Parsed.pair <$> bracketed interp limit enclosure depth tokens

end Definitions

/-! ### The unrolling of a reading -/

section Unrolling

variable {interp : Interpretation σ ε α} {limit : Option Nat}

theorem read_eq_reading (tokens : List Token) :
    read interp limit tokens = reading interp limit (.chain .additive) 0 tokens := by
  rw [read, reading, map_eq_pure_bind]
  rfl

theorem reading_operand (tier : Tier) (depth : Nat) (tokens : List Token) :
    reading interp limit (.operand tier) depth tokens =
      Parsed.pair <$> operand interp limit tier depth tokens := by
  cases tier <;> rw [operand] <;> rfl

/-- Without its bound, what a loop finds does not depend on the bound. -/
theorem pair_fold (tier : Tier) (depth : Nat) (left : α) (tokens : List Token) {bound bound' : Nat}
    (within : tokens.length < bound) (within' : tokens.length < bound') :
    Parsed.pair <$> fold interp limit tier depth left tokens within =
      Parsed.pair <$> fold interp limit tier depth left tokens within' := by
  induction hn : tokens.length using Nat.strongRecOn generalizing left tokens with
  | ind n ih =>
    cases tokens with
    | nil => rw [fold, fold, map_pure, map_pure]; rfl
    | cons token tail =>
      rw [fold, fold]
      cases tier.operator? token with
      | none => rfl
      | some op =>
        simp only [map_bind]
        refine bind_congr fun right => bind_congr fun value => ?_
        exact ih _ (hn ▸ Nat.lt_succ_of_lt right.shorter) _ _ _ _ rfl

variable {walk : Walk σ ε α}

/-- The walk answers as the reading does whenever a call is smaller. -/
def RightBelow (interp : Interpretation σ ε α) (limit : Option Nat) (walk : Walk σ ε α)
    (procedure : Procedure α) (tokens : List Token) : Prop :=
  ∀ procedure' depth' tokens', procedure'.size tokens' < procedure.size tokens →
    walk procedure' depth' tokens' = reading interp limit procedure' depth' tokens'

theorem unroll_chain {tier : Tier} {tokens : List Token}
    (right : RightBelow interp limit walk (.chain tier) tokens) (depth : Nat) :
    unroll interp limit walk (.chain tier) depth tokens =
      reading interp limit (.chain tier) depth tokens := by
  have operand := right _ depth tokens Procedure.size_operand_lt
  rw [unroll, operand, reading_operand, bind_map_left, reading, chain, map_bind]
  refine bind_congr fun first => ?_
  -- That the operand has taken a token makes the loop a smaller call.
  exact (right _ depth _ (Procedure.size_lt_of_shorter first.shorter)).trans (pair_fold ..)

theorem unroll_loop {tier : Tier} {left : α} {tokens : List Token}
    (right : RightBelow interp limit walk (.loop tier left) tokens) (depth : Nat) :
    unroll interp limit walk (.loop tier left) depth tokens =
      reading interp limit (.loop tier left) depth tokens := by
  cases tokens with
  | nil => rw [unroll, reading, fold, map_pure]; rfl
  | cons token tail =>
    rw [unroll, reading, fold]
    cases tier.operator? token with
    | none => rfl
    | some op =>
      have operand := right (.operand tier) depth tail Procedure.size_lt_cons
      dsimp only
      rw [operand, reading_operand, bind_map_left, map_bind]
      refine bind_congr fun operand => ?_
      rw [map_bind]
      refine bind_congr fun value => ?_
      have behind := Nat.lt_succ_of_lt operand.shorter
      exact (right _ depth _ (Procedure.size_lt_of_shorter behind)).trans (pair_fold ..)

theorem unroll_scaled {tokens : List Token}
    (right : RightBelow interp limit walk .scaled tokens) (depth : Nat) :
    unroll interp limit walk .scaled depth tokens =
      reading interp limit .scaled depth tokens := by
  have mantissa := right .atom depth tokens Procedure.size_atom_lt
  rw [unroll, mantissa, reading, reading, bind_map_left, scaled, map_bind]
  refine bind_congr fun ⟨value, rest, shorter⟩ => ?_
  cases rest with
  | nil => rfl
  | cons token tail =>
    cases token with
    | exponentMark =>
      have exponent := right .atom depth tail
        (Procedure.size_lt_of_shorter (Nat.lt_of_succ_lt shorter))
      dsimp only [Parsed.pair]
      rw [exponent, reading, bind_map_left, map_bind]
      refine bind_congr fun exponent => ?_
      rw [map_bind]
      rfl
    | _ => rfl

theorem unroll_call {function : Trig} {tokens : List Token}
    (right : RightBelow interp limit walk (.call function) tokens) (depth : Nat) :
    unroll interp limit walk (.call function) depth tokens =
      reading interp limit (.call function) depth tokens := by
  have argument := right (.enclosed (.argument function)) depth tokens Procedure.size_argument_lt
  rw [unroll, argument, reading, reading, bind_map_left]
  rfl

theorem unroll_enclosed {enclosure : Enclosure} {tokens : List Token}
    (right : RightBelow interp limit walk (.enclosed enclosure) tokens) (depth : Nat) :
    unroll interp limit walk (.enclosed enclosure) depth tokens =
      reading interp limit (.enclosed enclosure) depth tokens := by
  rw [unroll, reading, bracketed, map_bind]
  refine bind_congr fun deeper => ?_
  have content := right (.chain .additive) deeper tokens Procedure.size_content_lt
  rw [content, reading, bind_map_left, map_bind]
  refine bind_congr fun ⟨value, rest, shorter⟩ => ?_
  cases rest with
  | nil => rfl
  | cons token tail => cases token <;> rfl

theorem unroll_atom {tokens : List Token}
    (right : RightBelow interp limit walk .atom tokens) (depth : Nat) :
    unroll interp limit walk .atom depth tokens = reading interp limit .atom depth tokens := by
  have behind (procedure : Procedure α) (depth : Nat) {token : Token} {tail : List Token}
      (same : tokens = token :: tail) :
      walk procedure depth tail = reading interp limit procedure depth tail :=
    right _ depth tail (same ▸ Procedure.size_lt_cons)
  rw [reading]
  unfold unroll
  dsimp only
  split
  -- Literals call for nothing, and neither do the tokens in the last two cases.
  · rw [Grammar.atom, map_bind]
    rfl
  · rw [Grammar.atom]
    · rfl
    · assumption
  · rw [Grammar.atom, map_bind]
    · rfl
    all_goals assumption
  · next function tail =>
    rw [behind (.call function) depth rfl, Grammar.atom, reading, map_bind]
    refine bind_congr fun argument => ?_
    rw [map_bind]
    rfl
  · next tail =>
    rw [behind (.enclosed .parentheses) depth rfl, Grammar.atom, reading, bind_map_left, map_bind]
    refine bind_congr fun inner => ?_
    rw [map_bind]
    rfl
  · next tail =>
    rw [Grammar.atom, map_bind]
    refine bind_congr fun deeper => ?_
    rw [behind (.chain .multiplicative) deeper rfl, reading, bind_map_left, map_bind]
    refine bind_congr fun operand => ?_
    rw [map_bind]
    rfl
  · rw [Grammar.atom]
    · rfl
    all_goals assumption
  · rw [Grammar.atom]
    rfl

/-- **A reading only makes smaller calls.** Its unrolling is right as soon as the walk is right
about these, whatever it answers to all others. -/
theorem unroll_eq_reading {procedure : Procedure α} {tokens : List Token}
    (right : RightBelow interp limit walk procedure tokens) (depth : Nat) :
    unroll interp limit walk procedure depth tokens =
      reading interp limit procedure depth tokens := by
  cases procedure with
  | chain tier => exact unroll_chain right depth
  | loop tier left => exact unroll_loop right depth
  | scaled => exact unroll_scaled right depth
  | atom => exact unroll_atom right depth
  | call function => exact unroll_call right depth
  | enclosed enclosure => exact unroll_enclosed right depth

/-- **Nothing is left of a walk that is unrolled often enough.** The induction is on the number of
layers, which bounds the size of the calls that are left to the walk. -/
theorem iterate_unroll (walk : Walk σ ε α) {layers : Nat} {procedure : Procedure α}
    {tokens : List Token} (enough : 8 * tokens.length + procedure.rank < layers) (depth : Nat) :
    (unroll interp limit)^[layers] walk procedure depth tokens =
      reading interp limit procedure depth tokens := by
  induction layers generalizing procedure depth tokens with
  | zero => exact absurd enough (Nat.not_lt_zero _)
  | succ layers ih =>
    rw [Function.iterate_succ_apply']
    refine unroll_eq_reading (fun procedure' depth' tokens' smaller => ih ?_ depth') depth
    exact Nat.lt_of_lt_of_le (Procedure.weight_lt_of_size_lt smaller) (Nat.le_of_lt_succ enough)

end Unrolling

end Calculator.Grammar
