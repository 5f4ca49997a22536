import Calculator.Grammar.Descent
import Calculator.Log
import Calculator.Token.Scan

/-!
# Calculations

Two interpretations of the same grammar: the checker computes nothing, the evaluator computes the
value of every construct. Around them stand the operations of the calculator:

* `check` and `evaluate` take the expression at the start of a list of tokens and return what
  follows it;
* `validate` and `calculate` take a text, which has to be an expression from its beginning to its
  end.

All four report while they run. The reporting forms are in the namespace `Logged`; each plain form
is the result of the reporting one.
-/

namespace Calculator

open Grammar

/-! ### The two interpretations -/

/-- Reports a binary operator whose operands are complete. -/
def reportOperands {ε α : Type} (construct : Construct α) : Logged ε Unit :=
  match construct.operator? with
  | some op => Logged.report (.reduced op)
  | none => return

/-- The interpretation that computes nothing. -/
def checker : Interpretation Log SyntaxError Unit where
  perform construct := reportOperands construct
  malformed := id

/-- The value of a construct whose operands have values. -/
def Number.ofConstruct : Construct Number → Except ArithmeticError Number
  | .literal whole fraction => .ok (literal whole fraction)
  | .operation op left right => left.operation op right
  | .scaled mantissa exponent => .ok (mantissa.scaled exponent)
  | .application function argument => .ok (argument.application function)
  | .negation operand => .ok operand.neg
  | .parenthesized inner => .ok inner

/-- Reports the value of a binary operation. -/
def reportValue {ε : Type} (construct : Construct Number) (result : Number) : Logged ε Unit :=
  match construct with
  | .operation op left right => Logged.report (.computed left op right result.value)
  | _ => return

/-- The interpretation that computes the value of every construct. -/
def evaluator : Interpretation Log Error Number where
  perform construct := do
    reportOperands construct
    match Number.ofConstruct construct with
    | .error cause => throw (.arithmetic cause)
    | .ok result =>
      reportValue construct result
      return result
  malformed := .syntactic

/-! ### The reporting operations -/

namespace Logged

/-- The tokens of a text. -/
def tokenize (source : String) : Logged LexicalError (List Token) := do
  let scan := Token.scan source
  scan.tokens.forM fun found => report (.found found.token found.offset)
  match scan.failure with
  | some failure => throw failure
  | none =>
    report (.tokenized source.utf8ByteSize scan.tokens.length)
    return scan.tokens.map (·.token)

/-- Checks the expression at the start of the tokens and returns what follows it. -/
def check (tokens : List Token) : Logged SyntaxError (List Token) := do
  let ((), rest) ← read checker (some depthLimit) tokens
  report (.checked (tokens.length - rest.length) tokens.length)
  return rest

/-- Evaluates the expression at the start of the tokens, and returns what follows it as well. -/
def evaluate (tokens : List Token) : Logged Error (Number × List Token) := do
  let (number, rest) ← read evaluator (some depthLimit) tokens
  report (.evaluated (tokens.length - rest.length) number)
  return (number, rest)

/-- Fails if anything follows an expression. -/
def finish : List Token → Logged Error Unit
  | [] => return
  | token :: _ => throw (.syntactic (.trailing token))

/-- Checks that a text is an expression, and returns its tokens. -/
def validate (source : String) : Logged Error (List Token) := do
  let tokens ← (tokenize source).mapError .lexical
  let rest ← (check tokens).mapError .syntactic
  finish rest
  return tokens

/-- The value of a text that is an expression. -/
def calculate (source : String) : Logged Error Number := do
  let tokens ← (tokenize source).mapError .lexical
  let (number, rest) ← evaluate tokens
  finish rest
  report (.calculated source number)
  return number

end Logged

/-! ### The operations -/

/-- Checks the expression at the start of the tokens and returns what follows it. -/
def check (tokens : List Token) : Except SyntaxError (List Token) :=
  (Logged.check tokens).result

/-- Evaluates the expression at the start of the tokens, and returns what follows it as well. -/
def evaluate (tokens : List Token) : Except Error (Number × List Token) :=
  (Logged.evaluate tokens).result

/-- Checks that a text is an expression, and returns its tokens. Nothing is computed, so `1/0` is
fine. -/
def validate (source : String) : Except Error (List Token) :=
  (Logged.validate source).result

/-- The value of a text that is an expression. -/
def calculate (source : String) : Except Error Number :=
  (Logged.calculate source).result

end Calculator
