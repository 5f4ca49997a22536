import Calculator.Expression
import Calculator.Grammar.Descent

/-!
# Writing a tree with parentheses

A tree without parentheses is written by putting an operand into parentheses where the grammar
would otherwise take it apart, and only there. `withParentheses` adds the parentheses as nodes;
`print` is the tokens of the result.
-/

namespace Calculator.Expression

open Grammar

/-- Puts a tree into parentheses if they are needed. -/
def wrap (needed : Bool) (e : Expression) : Expression :=
  if needed then .parenthesized e else e

/-- The tier of the operator at the top of a tree. -/
def tier? : Expression → Option Tier
  | .operation op _ _ => some op.tier
  | _ => none

/-- Whether a tree is a negation. -/
def isNegation : Expression → Bool
  | .negation _ => true
  | _ => false

/-- Whether a tree is a literal, a function with its argument or in parentheses already, so that
nothing takes it apart. -/
def isClosed : Expression → Bool
  | .literal _ _ | .application _ _ | .parenthesized _ => true
  | _ => false

/-- Whether the left operand of an operator needs parentheses: if it is looser than the operator,
or a negation, which would take the operator along. -/
def leftNeeds (op : Operator) (e : Expression) : Bool :=
  e.isNegation || e.tier?.any fun tier => rank op.tier < rank tier

/-- Whether the right operand of an operator needs parentheses: also if it is of the operator's
own tier. -/
def rightNeeds (op : Operator) (e : Expression) : Bool :=
  e.isNegation || e.tier?.any fun tier => rank op.tier ≤ rank tier

/-- Whether the operand of a minus needs parentheses. A minus takes a whole term. -/
def negationNeeds (e : Expression) : Bool :=
  e.isNegation || e.tier? == some .additive

/-- The tree with the parentheses that it needs. -/
def withParentheses : Expression → Expression
  | .literal whole fraction => .literal whole fraction
  | .operation op left right =>
    .operation op (wrap (leftNeeds op left) left.withParentheses)
      (wrap (rightNeeds op right) right.withParentheses)
  | .scaled mantissa exponent =>
    .scaled (wrap (!mantissa.isClosed) mantissa.withParentheses)
      (wrap (!exponent.isClosed) exponent.withParentheses)
  | .application function argument => .application function argument.withParentheses
  | .negation operand => .negation (wrap (negationNeeds operand) operand.withParentheses)
  | .parenthesized inner => .parenthesized inner.withParentheses

/-- The tokens of a tree, with the parentheses that it needs. -/
def print (e : Expression) : List Token :=
  e.withParentheses.tokens

@[simp] theorem ungrouped_wrap (needed : Bool) (e : Expression) :
    (wrap needed e).ungrouped = e.ungrouped := by
  cases needed <;> rfl

/-- The parentheses added are all that distinguishes the two trees. -/
@[simp] theorem ungrouped_withParentheses (e : Expression) :
    e.withParentheses.ungrouped = e.ungrouped := by
  induction e with
  | literal _ _ => rfl
  | operation _ _ _ left right | scaled _ _ left right =>
    simp only [withParentheses, ungrouped, ungrouped_wrap, left, right]
  | application _ _ inner => simp only [withParentheses, ungrouped, inner]
  | negation _ inner => simp only [withParentheses, ungrouped, ungrouped_wrap, inner]
  | parenthesized _ inner => simp only [withParentheses, ungrouped, inner]

end Calculator.Expression
