import Calculator.Number

/-!
# The log

Every stage of a calculation reports what it does. A report is a `Record`: data, of which level,
stage and wording are views. Stages run in `Logged ε`, which keeps the log also when they fail.
-/

namespace Calculator

/-- The stages that report. -/
inductive Stage where
  /-- Cutting text into tokens. -/
  | tokens
  /-- Matching tokens with the grammar. -/
  | grammar
  /-- Computing values. -/
  | arithmetic
  /-- Checking the syntax without computing. -/
  | checking
  /-- A whole calculation. -/
  | calculation
  deriving DecidableEq, Repr

/-- How detailed a report is. -/
inductive Level where
  /-- A summary. -/
  | debug
  /-- A single step. -/
  | trace
  deriving DecidableEq, Repr

/-- A report of one stage. -/
inductive Record where
  /-- A token was found at an offset. -/
  | found (token : Token) (offset : Nat)
  /-- A text of so many bytes has so many tokens. -/
  | tokenized (bytes count : Nat)
  /-- The operands of a binary operator are complete. -/
  | reduced (op : Operator)
  /-- A binary operation has a value. -/
  | computed (left : Number) (op : Operator) (right : Number) (value : Float)
  /-- The expression at the start of the tokens was found to be well formed. -/
  | checked (consumed total : Nat)
  /-- The expression at the start of the tokens has a value. -/
  | evaluated (consumed : Nat) (result : Number)
  /-- A text has a value. -/
  | calculated (source : String) (result : Number)
  deriving DecidableEq, Repr

/-- A text in quotes, as reports show it. The texts of calculations that succeed consist of
lexemes, so of the characters that quoting escapes only blanks can occur in them. -/
def quoted (text : String) : String :=
  let inside := text.toList.flatMap fun c =>
    match c with
    | '\t' => ['\\', 't']
    | '\n' => ['\\', 'n']
    | '\r' => ['\\', 'r']
    | '\x0c' => "\\u\x7bc\x7d".toList
    | c => [c]
  String.ofList ('"' :: inside ++ ['"'])

namespace Record

/-- The stage that makes a report. -/
def stage : Record → Stage
  | .found _ _ | .tokenized _ _ => .tokens
  | .reduced _ => .grammar
  | .computed _ _ _ _ | .evaluated _ _ => .arithmetic
  | .checked _ _ => .checking
  | .calculated _ _ => .calculation

/-- The level of a report. -/
def level : Record → Level
  | .found _ _ | .reduced _ | .computed _ _ _ _ => .trace
  | .tokenized _ _ | .checked _ _ | .evaluated _ _ | .calculated _ _ => .debug

/-- The wording of a report. -/
def message : Record → String
  | .found token offset => s!"token {token.text} at {offset}"
  | .tokenized bytes count => s!"tokenized {bytes} characters into {count} tokens"
  | .reduced op => s!"reduce {op.text} at {op.tier.ruleName} level"
  | .computed left op right value =>
    s!"{left.text} {op.text} {right.text} = {Binary.write .plain value}"
  | .checked consumed total => s!"syntax check consumed {consumed} of {total} tokens"
  | .evaluated consumed result => s!"evaluated {consumed} tokens to {result.text}"
  | .calculated source result => s!"{quoted source} = {result.text}"

end Record

/-- The reports made so far, in order. -/
abbrev Log := Array Record

/-- A stage that reports and may fail. -/
abbrev Logged (ε α : Type) := EStateM ε Log α

namespace Logged

variable {ε α : Type}

/-- Makes a report. -/
def report (record : Record) : Logged ε Unit :=
  modify (·.push record)

/-- The result of a stage that starts with an empty log, and the log at its end. -/
def outcome (stage : Logged ε α) : Except ε α × Log :=
  match stage.run #[] with
  | .ok value log => (.ok value, log)
  | .error cause log => (.error cause, log)

/-- The result of a stage. -/
def result (stage : Logged ε α) : Except ε α :=
  stage.outcome.1

/-- The log of a stage. -/
def log (stage : Logged ε α) : Log :=
  stage.outcome.2

/-- A stage whose errors are seen as errors of another type. -/
def mapError {ε' : Type} (f : ε → ε') (stage : Logged ε α) : Logged ε' α := fun log =>
  match stage.run log with
  | .ok value log => .ok value log
  | .error cause log => .error (f cause) log

end Logged

end Calculator
