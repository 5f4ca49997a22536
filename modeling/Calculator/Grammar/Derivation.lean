import Calculator.Token

/-!
# Which token lists are expressions

`Derives rule tokens` says that a rule of the grammar can produce exactly these tokens. The rules
are those that a reading follows, but a derivation chooses freely where a reading looks ahead and
commits itself: the tokens of `1 * -2 * 3` have two derivations, for the negation may take `2` or
`2 * 3`.
-/

namespace Calculator.Grammar

/-- A rule of the grammar. -/
inductive Rule where
  /-- Operands joined by the operators of a tier. With the additive tier it is the rule for
  expressions, with the multiplicative one the rule for terms. -/
  | chain (tier : Tier)
  /-- An atom, possibly with a power of ten. -/
  | scaled
  /-- A literal, a function with its argument, an expression in parentheses or a negation. -/
  | atom
  deriving DecidableEq, Repr

/-- The rule for the operands of a tier. -/
def Rule.operand : Tier → Rule
  | .additive => .chain .multiplicative
  | .multiplicative => .chain .power
  | .power => .scaled

/-- A rule produces a list of tokens. -/
inductive Derives : Rule → List Token → Prop where
  /-- A single operand. -/
  | operand {tier : Tier} {tokens : List Token} (first : Derives (.operand tier) tokens) :
      Derives (.chain tier) tokens
  /-- One more operator of the tier with its right operand. -/
  | operator {op : Operator} {left right : List Token} (before : Derives (.chain op.tier) left)
      (last : Derives (.operand op.tier) right) :
      Derives (.chain op.tier) (left ++ .operator op :: right)
  /-- An atom without a power of ten. -/
  | plain {tokens : List Token} (atom : Derives .atom tokens) : Derives .scaled tokens
  /-- An atom with a power of ten. -/
  | scaled {mantissa exponent : List Token} (left : Derives .atom mantissa)
      (right : Derives .atom exponent) :
      Derives .scaled (mantissa ++ .exponentMark :: exponent)
  /-- A literal without a point. -/
  | integer (whole : Float) : Derives .atom [.number whole]
  /-- A literal with a point. -/
  | decimal (whole : Float) (fraction : Fraction) :
      Derives .atom [.number whole, .point, .fraction fraction]
  /-- A function and its argument. -/
  | application (function : Trig) {tokens : List Token}
      (argument : Derives (.chain .additive) tokens) :
      Derives .atom (.function function :: tokens ++ [.closing])
  /-- An expression in parentheses. -/
  | parenthesized {tokens : List Token} (inner : Derives (.chain .additive) tokens) :
      Derives .atom (.opening :: tokens ++ [.closing])
  /-- A minus and a term. -/
  | negation {tokens : List Token} (term : Derives (.chain .multiplicative) tokens) :
      Derives .atom (.negation :: tokens)

end Calculator.Grammar
