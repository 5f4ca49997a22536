import Calculator.Token

/-!
# Errors

A calculation can fail in three phases: while the text is cut into tokens, while the tokens are
matched with the grammar, and while values are computed. Each phase has causes of its own; `Error`
joins them, and `Error.message` is the wording.
-/

namespace Calculator

/-- Why a text has no tokens. -/
inductive LexicalError where
  /-- At this character, so many bytes into the text, no lexeme begins. -/
  | unrecognized (character : Char) (position : Nat)
  deriving DecidableEq, Repr

/-- Why tokens do not form an expression. -/
inductive SyntaxError where
  /-- A parenthesis was opened and not closed. -/
  | unclosed (enclosure : Enclosure)
  /-- A decimal point without digits behind it. -/
  | missingDigits
  /-- A token stands where an operand has to begin. -/
  | unexpected (token : Token)
  /-- The tokens end where an operand has to begin. -/
  | unexpectedEnd
  /-- Parentheses, functions and negations are nested deeper than the limit. -/
  | tooDeep (limit : Nat)
  /-- The expression is over and this token follows. -/
  | trailing (token : Token)
  deriving DecidableEq, Repr

/-- Why a value cannot be computed. -/
inductive ArithmeticError where
  /-- The right operand of a division is zero. -/
  | divisionByZero
  deriving DecidableEq, Repr

/-- The phase that an error belongs to. -/
inductive Phase where
  /-- Cutting text into tokens. -/
  | lexical
  /-- Matching tokens with the grammar. -/
  | syntactic
  /-- Computing values. -/
  | arithmetic
  deriving DecidableEq, Repr

/-- The name of a phase. -/
def Phase.name : Phase → String
  | .lexical => "lex"
  | .syntactic => "parse"
  | .arithmetic => "math"

/-- Why a calculation fails. -/
inductive Error where
  | lexical (cause : LexicalError)
  | syntactic (cause : SyntaxError)
  | arithmetic (cause : ArithmeticError)
  deriving DecidableEq, Repr

/-- The wording of a lexical error. -/
def LexicalError.message : LexicalError → String
  | .unrecognized character position =>
    s!"Unrecognized character '{character}' at position {position}."

/-- The wording of a grammatical error. -/
def SyntaxError.message : SyntaxError → String
  | .unclosed enclosure =>
    "Expected closing parenthesis ')' after " ++ enclosure.description ++ " but none found."
  | .missingDigits => "Expected digits after decimal point."
  | .unexpected token => "Unexpected token: " ++ token.text ++ "."
  | .unexpectedEnd => "Unexpected end of input."
  | .tooDeep limit => s!"Expression is nested more than {limit} levels deep."
  | .trailing token => "Extra tokens after expression, starting at: " ++ token.text ++ "."

/-- The wording of an arithmetical error. -/
def ArithmeticError.message : ArithmeticError → String
  | .divisionByZero => "division by zero"

namespace Error

/-- The phase of an error. -/
def phase : Error → Phase
  | .lexical _ => .lexical
  | .syntactic _ => .syntactic
  | .arithmetic _ => .arithmetic

/-- The wording of an error. -/
def message : Error → String
  | .lexical cause => cause.message
  | .syntactic cause => cause.message
  | .arithmetic cause => cause.message

end Error

end Calculator
