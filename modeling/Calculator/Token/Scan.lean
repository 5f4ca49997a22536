import Calculator.Error
import Calculator.Lexeme
import Calculator.Token

/-!
# From text to tokens

A text is split into lexemes, and the lexemes become tokens one after the other. Which token a
lexeme becomes depends on the token before it and on nothing else, so the labelling carries that
one token along. Every token keeps the offset, in bytes, at which its lexeme begins.

A text that does not consist of lexemes has no tokens: the first place where no lexeme begins is
an error. The tokens before that place are still part of the `Scan`.
-/

namespace Calculator

/-- The token that a lexeme becomes behind another token. Blanks become none. -/
def Lexeme.token? (previous : Option Token) : Lexeme → Option Token
  | .blank _ _ => none
  | .operator .sub =>
    some (if previous.any Token.endsOperand then .operator .sub else .negation)
  | .operator op => some (.operator op)
  | .point => some .point
  | .exponentMark _ => some .exponentMark
  | .function f => some (.function f)
  | .opening => some .opening
  | .closing => some .closing
  | .digits run =>
    some (if previous = some .point then .fraction (.ofRun run) else .number run.toFloat)

namespace Token

/-- A token and the offset of its lexeme. -/
structure Located where
  /-- The token. -/
  token : Token
  /-- The number of bytes in front of it. -/
  offset : Nat
  deriving DecidableEq, Repr

/-- The tokens of lexemes that stand behind a token and begin at an offset. -/
def label (previous : Option Token) (offset : Nat) : List Lexeme → List Located
  | [] => []
  | lexeme :: rest =>
    let next := offset + byteCount lexeme.chars
    match lexeme.token? previous with
    | none => label previous next rest
    | some token => ⟨token, offset⟩ :: label (some token) next rest

/-- What is found in a text: the tokens up to its end or up to the first failure. -/
structure Scan where
  /-- The tokens, in order. -/
  tokens : List Located
  /-- The place where no lexeme begins, if there is one. -/
  failure : Option LexicalError
  deriving DecidableEq, Repr

/-- Finds the tokens of a text. -/
def scan (source : String) : Scan :=
  let (lexemes, rest) := Lexeme.split source.toList
  { tokens := label none 0 lexemes
    failure := rest.head?.map fun c => .unrecognized c (byteCount (lexemes.flatMap Lexeme.chars)) }

end Token

/-- The tokens of a text, if it consists of lexemes. -/
def tokenize (source : String) : Except LexicalError (List Token) :=
  match (Token.scan source).failure with
  | some failure => .error failure
  | none => .ok ((Token.scan source).tokens.map (·.token))

end Calculator
