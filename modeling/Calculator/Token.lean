import Calculator.Binary.Text
import Calculator.Fraction
import Calculator.Operator

/-!
# Tokens

A token is the smallest unit of an expression that the grammar looks at. Two of them are told
apart by what precedes them and not by their spelling: a minus is a `negation` unless an operand
has just ended, and a digit run is a `fraction` directly behind a point and a `number` everywhere
else.
-/

namespace Calculator

/-- A token of an expression. -/
inductive Token where
  /-- A binary operator. -/
  | operator (op : Operator)
  /-- A minus in front of its operand. -/
  | negation
  /-- A decimal point. -/
  | point
  /-- The `E` of a power of ten. -/
  | exponentMark
  /-- The name of a function and the parenthesis that opens its argument. -/
  | function (function : Trig)
  /-- An opening parenthesis. -/
  | opening
  /-- A closing parenthesis. -/
  | closing
  /-- A digit run, as the nearest float. -/
  | number (value : Float)
  /-- A digit run behind a point. -/
  | fraction (value : Fraction)
  deriving DecidableEq, Repr

namespace Token

/-- Whether an operand ends with this token, so that a minus behind it is a subtraction. -/
def endsOperand : Token → Bool
  | .number _ | .fraction _ | .closing => true
  | _ => false

/-- The text of a token. It is the token's spelling, except for a negation. -/
def text : Token → String
  | .operator op => op.text
  | .negation => "neg"
  | .point => "."
  | .exponentMark => "E"
  | .function f => f.name ++ "("
  | .opening => "("
  | .closing => ")"
  | .number value => Binary.write .plain value
  | .fraction value => value.text

/-- The texts of tokens, one blank between them. -/
def textList (tokens : List Token) : String :=
  " ".intercalate (tokens.map text)

end Token

/-- The operator of a token, if it is one of this tier. -/
def Tier.operator? (tier : Tier) : Token → Option Operator
  | .operator op => if op.tier = tier then some op else none
  | _ => none

end Calculator
