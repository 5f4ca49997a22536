import Calculator.Grammar.Construct
import Calculator.Number

/-!
# Expression trees

An expression as a tree, one node for each construct: `builder` is the interpretation that builds
it. On trees, what a reading does step by step is a recursion: `tokens` reads off the tokens
that a tree was built from, `value` computes the value, and `nesting` is the depth that a limit
refers to.
-/

namespace Calculator

open Grammar

/-- An expression, parentheses included. -/
inductive Expression where
  /-- A literal: its whole part and the digits behind its point, if it has one. -/
  | literal (whole : Float) (fraction : Option Fraction)
  /-- A binary operator and its operands. -/
  | operation (op : Operator) (left right : Expression)
  /-- A mantissa and an exponent of ten. -/
  | scaled (mantissa exponent : Expression)
  /-- A function and its argument. -/
  | application (function : Trig) (argument : Expression)
  /-- A minus in front of its operand. -/
  | negation (operand : Expression)
  /-- An expression in parentheses. -/
  | parenthesized (inner : Expression)
  deriving DecidableEq, Repr

namespace Expression

/-- The node of a construct whose operands are trees. -/
def ofConstruct : Construct Expression → Expression
  | .literal whole fraction => .literal whole fraction
  | .operation op left right => .operation op left right
  | .scaled mantissa exponent => .scaled mantissa exponent
  | .application function argument => .application function argument
  | .negation operand => .negation operand
  | .parenthesized inner => .parenthesized inner

/-- The interpretation that builds the tree of an expression. -/
def builder : Interpretation Unit SyntaxError Expression where
  perform construct := return ofConstruct construct
  malformed := id

/-- The tokens of a tree, from left to right. -/
def tokens : Expression → List Token
  | .literal whole none => [.number whole]
  | .literal whole (some fraction) => [.number whole, .point, .fraction fraction]
  | .operation op left right => left.tokens ++ .operator op :: right.tokens
  | .scaled mantissa exponent => mantissa.tokens ++ .exponentMark :: exponent.tokens
  | .application function argument => .function function :: argument.tokens ++ [.closing]
  | .negation operand => .negation :: operand.tokens
  | .parenthesized inner => .opening :: inner.tokens ++ [.closing]

/-- The value of a tree. Operands are computed from left to right, and the first division by zero
is the result. -/
def value : Expression → Except ArithmeticError Number
  | .literal whole fraction => .ok (.literal whole fraction)
  | .operation op left right => do (← left.value).operation op (← right.value)
  | .scaled mantissa exponent => return (← mantissa.value).scaled (← exponent.value)
  | .application function argument => return (← argument.value).application function
  | .negation operand => return (← operand.value).neg
  | .parenthesized inner => inner.value

/-- The greatest number of parentheses, functions and negations inside one another. -/
def nesting : Expression → Nat
  | .literal _ _ => 0
  | .operation _ left right => max left.nesting right.nesting
  | .scaled mantissa exponent => max mantissa.nesting exponent.nesting
  | .application _ argument => argument.nesting + 1
  | .negation operand => operand.nesting + 1
  | .parenthesized inner => inner.nesting + 1

/-- The tree without its parentheses. -/
def ungrouped : Expression → Expression
  | .literal whole fraction => .literal whole fraction
  | .operation op left right => .operation op left.ungrouped right.ungrouped
  | .scaled mantissa exponent => .scaled mantissa.ungrouped exponent.ungrouped
  | .application function argument => .application function argument.ungrouped
  | .negation operand => .negation operand.ungrouped
  | .parenthesized inner => inner.ungrouped

/-- Parentheses decide what belongs together and have no value of their own. -/
theorem value_ungrouped (e : Expression) : e.ungrouped.value = e.value := by
  induction e with
  | literal _ _ => rfl
  | operation _ _ _ left right => simp only [ungrouped, value, left, right]
  | scaled _ _ mantissa exponent => simp only [ungrouped, value, mantissa, exponent]
  | application _ _ argument => simp only [ungrouped, value, argument]
  | negation _ operand => simp only [ungrouped, value, operand]
  | parenthesized _ inner => exact inner

end Expression

end Calculator
