import Calculator.Grammar.Construct

/-!
# Reading an expression

```text
expression := term (("+" | "-") term)*
term       := power (("*" | "/" | "%") power)*
power      := scaled ("^" scaled)*
scaled     := atom ("E" atom)?
atom       := number ("." fraction)?
            | ("sin(" | "cos(" | "tan(") expression ")"
            | "(" expression ")"
            | neg term
```

The first three rules differ only in the tier of their operators, so they are one rule, `chain`:
an operand and then, from left to right, operators of the tier with an operand each. A minus in
front takes a whole term as its operand, so `-2*3` negates `2*3` and `-2^2` negates `2^2`. No rule
ever goes back: each looks at the next token, or for a literal at the next three, and decides.

Constructs are interpreted in the order in which they are completed, each after its operands, and
a binary operation before anything behind its right operand is looked at. So of two faults the one
that is completed first is reported, be it one of the interpretation or one of the tokens.

Parentheses, functions and negations nest, and a reading may have a limit on the depth. It is not
needed for termination: every rule that succeeds leaves fewer tokens than it was given,
`Parsed.shorter`, and a rule that passes all its tokens on passes them to a tighter rule.
-/

namespace Calculator.Grammar

variable {σ ε α : Type}

/-- What a rule that succeeds found: the value of the construct at the start of its tokens and the
tokens behind it, fewer than `bound`. -/
structure Parsed (α : Type) (bound : Nat) where
  /-- The value of the construct. -/
  value : α
  /-- The tokens behind the construct. -/
  rest : List Token
  shorter : rest.length < bound

/-- The deepest nesting that the calculator follows. -/
def depthLimit : Nat := 128

/-- The place of a tier in the order in which rules pass their tokens on. -/
def rank : Tier → Nat
  | .additive => 3
  | .multiplicative => 2
  | .power => 1

section Rules

variable (interp : Interpretation σ ε α) (limit : Option Nat)

/-- The depth one level further in, if the limit allows it. -/
def deepen (depth : Nat) : EStateM ε σ Nat :=
  match limit with
  | none => pure (depth + 1)
  | some most =>
    if depth < most then pure (depth + 1) else throw (interp.malformed (.tooDeep most))

mutual

/-- Operands joined by the operators of a tier. -/
def chain (tier : Tier) (depth : Nat) (tokens : List Token) :
    EStateM ε σ (Parsed α tokens.length) := do
  let first ← operand tier depth tokens
  fold tier depth first.value first.rest first.shorter
termination_by 10 * tokens.length + 2 * rank tier + 2
decreasing_by
  · omega
  · have := first.shorter
    omega

/-- The operators of a tier that follow a value, each with its operand, applied as they come. -/
def fold (tier : Tier) (depth : Nat) (left : α) (tokens : List Token) {bound : Nat}
    (within : tokens.length < bound) : EStateM ε σ (Parsed α bound) :=
  match tokens with
  | [] => return ⟨left, [], within⟩
  | token :: tail =>
    match tier.operator? token with
    | none => return ⟨left, token :: tail, within⟩
    | some op => do
      let right ← operand tier depth tail
      let value ← interp.perform (.operation op left right.value)
      fold tier depth value right.rest
        (Nat.lt_trans right.shorter (Nat.lt_of_succ_lt within))
termination_by 10 * tokens.length + 9
decreasing_by
  · have : rank tier ≤ 3 := by cases tier <;> decide
    simp only [List.length_cons]
    omega
  · have := right.shorter
    simp only [List.length_cons]
    omega

/-- An operand of a tier: a chain of the next tighter one. -/
def operand (tier : Tier) (depth : Nat) (tokens : List Token) :
    EStateM ε σ (Parsed α tokens.length) :=
  match tier with
  | .additive => chain .multiplicative depth tokens
  | .multiplicative => chain .power depth tokens
  | .power => scaled depth tokens
termination_by 10 * tokens.length + 2 * rank tier + 1
decreasing_by all_goals simp only [rank]; omega

/-- An atom, possibly with a power of ten. -/
def scaled (depth : Nat) (tokens : List Token) : EStateM ε σ (Parsed α tokens.length) := do
  match ← atom depth tokens with
  | ⟨mantissa, .exponentMark :: tail, shorter⟩ =>
    let exponent ← atom depth tail
    let value ← interp.perform (.scaled mantissa exponent.value)
    return ⟨value, exponent.rest, by
      have := exponent.shorter
      simp only [List.length_cons] at shorter
      omega⟩
  | found => return found
termination_by 10 * tokens.length + 2
decreasing_by
  · omega
  · simp only [List.length_cons] at shorter
    omega

/-- A literal, a function with its argument, an expression in parentheses or a negation. -/
def atom (depth : Nat) (tokens : List Token) : EStateM ε σ (Parsed α tokens.length) :=
  match tokens with
  | .number whole :: .point :: .fraction fraction :: rest => do
    let value ← interp.perform (.literal whole (some fraction))
    return ⟨value, rest, by simp only [List.length_cons]; omega⟩
  | .number _ :: .point :: _ => throw (interp.malformed .missingDigits)
  | .number whole :: rest => do
    let value ← interp.perform (.literal whole none)
    return ⟨value, rest, Nat.lt_succ_self _⟩
  | .function function :: tail => do
    let argument ← bracketed (.argument function) depth tail
    let value ← interp.perform (.application function argument.value)
    return ⟨value, argument.rest, Nat.lt_succ_of_lt argument.shorter⟩
  | .opening :: tail => do
    let inner ← bracketed .parentheses depth tail
    let value ← interp.perform (.parenthesized inner.value)
    return ⟨value, inner.rest, Nat.lt_succ_of_lt inner.shorter⟩
  | .negation :: tail => do
    let deeper ← deepen interp limit depth
    let inner ← chain .multiplicative deeper tail
    let value ← interp.perform (.negation inner.value)
    return ⟨value, inner.rest, Nat.lt_succ_of_lt inner.shorter⟩
  | token :: _ => throw (interp.malformed (.unexpected token))
  | [] => throw (interp.malformed .unexpectedEnd)
termination_by 10 * tokens.length + 1
decreasing_by all_goals simp only [List.length_cons, rank]; omega

/-- An expression and the closing parenthesis behind it, the opening one having been passed. -/
def bracketed (enclosure : Enclosure) (depth : Nat) (tokens : List Token) :
    EStateM ε σ (Parsed α tokens.length) := do
  let deeper ← deepen interp limit depth
  match ← chain .additive deeper tokens with
  | ⟨value, .closing :: tail, shorter⟩ => return ⟨value, tail, Nat.lt_of_succ_lt shorter⟩
  | _ => throw (interp.malformed (.unclosed enclosure))
termination_by 10 * tokens.length + 9
decreasing_by simp only [rank]; omega

end

/-- Reads the expression at the start of the tokens. Returns its value and the tokens behind
it. -/
def read (tokens : List Token) : EStateM ε σ (α × List Token) := do
  let found ← chain interp limit .additive 0 tokens
  return (found.value, found.rest)

end Rules

end Calculator.Grammar
