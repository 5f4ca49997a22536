import Calculator.Error

/-!
# Constructs and their interpretations

The grammar is read once and for all; what a reading produces is up to an `Interpretation`. For
every construct it recognizes, the reading passes on the values of the operands, and the
interpretation answers with the value of the construct. It may keep a state of type `σ`, which
also outlives a failure, and it may fail with an error of type `ε`.

A `Construct` is a single layer of an expression. With `α := Unit` it is the bare form of a
construct, with a type of trees it is a node.
-/

namespace Calculator.Grammar

/-- A recognized construct whose operands have values in `α`. -/
inductive Construct (α : Type) where
  /-- A literal: its whole part and the digits behind its point, if it has one. -/
  | literal (whole : Float) (fraction : Option Fraction)
  /-- A binary operator and its operands. -/
  | operation (op : Operator) (left right : α)
  /-- A mantissa and an exponent of ten. -/
  | scaled (mantissa exponent : α)
  /-- A function and its argument. -/
  | application (function : Trig) (argument : α)
  /-- A minus in front of its operand. -/
  | negation (operand : α)
  /-- An expression in parentheses. -/
  | parenthesized (inner : α)
  deriving DecidableEq, Repr

namespace Construct

variable {α β γ : Type}

/-- The same construct with other values of the operands. -/
def map (f : α → β) : Construct α → Construct β
  | .literal whole fraction => .literal whole fraction
  | .operation op left right => .operation op (f left) (f right)
  | .scaled mantissa exponent => .scaled (f mantissa) (f exponent)
  | .application function argument => .application function (f argument)
  | .negation operand => .negation (f operand)
  | .parenthesized inner => .parenthesized (f inner)

/-- The construct without the values of its operands. -/
def bare (construct : Construct α) : Construct Unit :=
  construct.map fun _ => ()

/-- The operator of a binary operation. -/
def operator? : Construct α → Option Operator
  | .operation op _ _ => some op
  | _ => none

@[simp] theorem map_map (g : β → γ) (f : α → β) (construct : Construct α) :
    (construct.map f).map g = construct.map (g ∘ f) := by
  cases construct <;> rfl

@[simp] theorem operator?_map (f : α → β) (construct : Construct α) :
    (construct.map f).operator? = construct.operator? := by
  cases construct <;> rfl

end Construct

/-- What becomes of the constructs of an expression. -/
structure Interpretation (σ ε α : Type) where
  /-- The value of a construct, given the values of its operands. -/
  perform : Construct α → EStateM ε σ α
  /-- The error for tokens that do not match the grammar. -/
  malformed : SyntaxError → ε

end Calculator.Grammar
