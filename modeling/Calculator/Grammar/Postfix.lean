import Calculator.Grammar.Construct

/-!
# Postfix form

A reading completes constructs operands first. So the bare constructs of an expression, in the
order of their completion, are its postfix form: a program for a stack of values, on which every
construct replaces its operands by its own value.
-/

namespace Calculator.Grammar

variable {σ ε α : Type}

/-- Takes the operands of a construct off a stack, the last operand first. There is no result if
the stack holds too few values. -/
def Construct.load? : Construct Unit → List α → Option (Construct α × List α)
  | .literal whole fraction, stack => some (.literal whole fraction, stack)
  | .operation op _ _, right :: left :: stack => some (.operation op left right, stack)
  | .scaled _ _, exponent :: mantissa :: stack => some (.scaled mantissa exponent, stack)
  | .application function _, argument :: stack => some (.application function argument, stack)
  | .negation _, operand :: stack => some (.negation operand, stack)
  | .parenthesized _, inner :: stack => some (.parenthesized inner, stack)
  | _, _ => none

theorem Construct.bare_of_load? {construct : Construct Unit} {stack below : List α}
    {loaded : Construct α} (h : construct.load? stack = some (loaded, below)) :
    loaded.bare = construct := by
  unfold Construct.load? at h
  split at h <;> cases h <;> rfl

namespace Postfix

/-- Executes constructs on a stack from the first to the last. The result is `none` if one of
them finds too few values. -/
def exec (interp : Interpretation σ ε α) :
    List (Construct Unit) → List α → EStateM ε σ (Option (List α))
  | [], stack => return some stack
  | construct :: program, stack =>
    match construct.load? stack with
    | none => return none
    | some (loaded, below) => do
      let value ← interp.perform loaded
      exec interp program (value :: below)

end Postfix

end Calculator.Grammar
