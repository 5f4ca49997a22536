/-!
# Operators, functions and enclosures

The vocabulary that the grammar, the arithmetic and the error messages share. Binary operators
come in three tiers; operators of one tier are applied from left to right, also those of the
`power` tier, and a later tier binds tighter than an earlier one.
-/

namespace Calculator

/-- A tier of binary operators, from the loosest to the tightest. -/
inductive Tier where
  | additive
  | multiplicative
  | power
  deriving DecidableEq, Repr

/-- The grammar rule whose operands an operator of this tier joins. -/
def Tier.ruleName : Tier → String
  | .additive => "expression"
  | .multiplicative => "term"
  | .power => "power"

/-- A binary operator. -/
inductive Operator where
  | add
  | sub
  | mul
  | div
  | mod
  | pow
  deriving DecidableEq, Repr

namespace Operator

/-- The tier that applies an operator. -/
def tier : Operator → Tier
  | .add | .sub => .additive
  | .mul | .div | .mod => .multiplicative
  | .pow => .power

/-- The character an operator is written with. -/
def symbol : Operator → Char
  | .add => '+'
  | .sub => '-'
  | .mul => '*'
  | .div => '/'
  | .mod => '%'
  | .pow => '^'

/-- The text of an operator. -/
def text (op : Operator) : String :=
  op.symbol.toString

end Operator

/-- A trigonometric function. Arguments are in radians. -/
inductive Trig where
  | sin
  | cos
  | tan
  deriving DecidableEq, Repr

namespace Trig

/-- The name a function is called by. -/
def name : Trig → String
  | .sin => "sin"
  | .cos => "cos"
  | .tan => "tan"

/-- The value of a function. -/
def apply : Trig → Float → Float
  | .sin, x => x.sin
  | .cos, x => x.cos
  | .tan, x => x.tan

end Trig

/-- What a closing parenthesis closes. -/
inductive Enclosure where
  /-- A parenthesized expression. -/
  | parentheses
  /-- The argument of a function. -/
  | argument (function : Trig)
  deriving DecidableEq, Repr

/-- How an error message names an enclosure. -/
def Enclosure.description : Enclosure → String
  | .parentheses => "parenthesized expression"
  | .argument function => function.name ++ " argument"

end Calculator
