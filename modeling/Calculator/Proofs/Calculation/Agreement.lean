import Mathlib
import Calculator.Proofs.Calculation.Outcome
import Calculator.Proofs.Grammar.Replay

/-!
# Checking and evaluating agree

The checker and the evaluator are two interpretations of one reading, and the second one can end
earlier: at a division by zero. That is all that can keep them apart (`lockstep`), on tokens and
so also on texts (`calculate_agrees_validate`).

A division is computed as soon as its right operand is complete, before the tokens behind it are
looked at. So if tokens are malformed and also divide by zero, the evaluator reports the division,
provided that it is complete where the fault of the tokens is met. `DividesByZero` says this about
the record of the reading, and `evaluate_of_malformed` that it is the only exception.
-/

namespace Calculator

open Grammar

/-! ### Lockstep -/

/-- How the two phases can end on the same tokens. Either they end alike, or the evaluator meets a
division by zero. -/
inductive Lockstep :
    Except SyntaxError (List Token) → Except Error (Number × List Token) → Prop where
  /-- Both find an expression, with the same tokens behind it. -/
  | value (number : Number) (rest : List Token) : Lockstep (.ok rest) (.ok (number, rest))
  /-- Both fail for the same cause. -/
  | malformed (cause : SyntaxError) : Lockstep (.error cause) (.error (.syntactic cause))
  /-- The evaluator divides by zero. -/
  | division (checked : Except SyntaxError (List Token)) :
    Lockstep checked (.error (.arithmetic .divisionByZero))

/-- **The two phases run in lockstep** on all tokens. -/
theorem lockstep (tokens : List Token) : Lockstep (check tokens) (evaluate tokens) := by
  rcases reads_or_fails (some depthLimit) (.chain .additive) 0 tokens with
    ⟨e, rest, h⟩ | ⟨done, cause, h⟩
  · rw [check_of_reads h, evaluate_of_reads h]
    cases e.value with
    | error cause => exact .division _
    | ok number => exact .value number rest
  · rw [check_of_fails h, evaluate_of_fails h]
    cases Expression.valueAll done with
    | error cause => exact .division _
    | ok _ => exact .malformed cause

/-- How a text can be cut into tokens, checked and calculated. -/
inductive Agreement :
    Except LexicalError (List Token) → Except Error (List Token) → Except Error Number → Prop where
  /-- The text has no tokens. -/
  | lexical (cause : LexicalError) :
    Agreement (.error cause) (.error (.lexical cause)) (.error (.lexical cause))
  /-- The text is an expression with a value. -/
  | value (tokens : List Token) (number : Number) : Agreement (.ok tokens) (.ok tokens) (.ok number)
  /-- The tokens of the text are malformed. -/
  | malformed (tokens : List Token) (cause : SyntaxError) :
    Agreement (.ok tokens) (.error (.syntactic cause)) (.error (.syntactic cause))
  /-- The text is an expression that divides by zero. -/
  | division (tokens : List Token) :
    Agreement (.ok tokens) (.ok tokens) (.error (.arithmetic .divisionByZero))
  /-- The tokens of the text are malformed behind a division by zero. -/
  | malformedDivision (tokens : List Token) (cause : SyntaxError) :
    Agreement (.ok tokens) (.error (.syntactic cause)) (.error (.arithmetic .divisionByZero))

/-- Tokens behind an expression are an error in both operations, so lockstep of the phases is
agreement of the operations. -/
theorem Lockstep.agreement {checked : Except SyntaxError (List Token)}
    {evaluated : Except Error (Number × List Token)} (h : Lockstep checked evaluated)
    (tokens : List Token) :
    Agreement (.ok tokens)
      (do
        let rest ← checked.mapError .syntactic
        finish rest
        return tokens)
      (do
        let (number, rest) ← evaluated
        finish rest
        return number) := by
  cases h with
  | value number rest =>
    cases rest with
    | nil => exact .value tokens number
    | cons token tail => exact .malformed tokens (.trailing token)
  | malformed cause => exact .malformed tokens cause
  | division checked =>
    cases checked with
    | error cause => exact .malformedDivision tokens cause
    | ok rest =>
      cases rest with
      | nil => exact .division tokens
      | cons token tail => exact .malformedDivision tokens (.trailing token)

theorem agreement (source : String) :
    Agreement (tokenize source) (validate source) (calculate source) := by
  rw [calculate_eq, validate_eq]
  cases tokenize source with
  | error cause => exact .lexical cause
  | ok tokens => exact (lockstep tokens).agreement tokens

namespace Agreement

variable {scanned : Except LexicalError (List Token)} {validated : Except Error (List Token)}
  {calculated : Except Error Number}

theorem lexical_iff (h : Agreement scanned validated calculated) (cause : LexicalError) :
    calculated = .error (.lexical cause) ↔ validated = .error (.lexical cause) := by
  cases h <;> simp

theorem valid_of_value (h : Agreement scanned validated calculated) {number : Number}
    (value : calculated = .ok number) :
    ∃ tokens, scanned = .ok tokens ∧ validated = .ok tokens := by
  cases h with
  | value tokens => exact ⟨tokens, rfl, rfl⟩
  | _ => cases value

theorem malformed_of_malformed (h : Agreement scanned validated calculated) {cause : SyntaxError}
    (malformed : calculated = .error (.syntactic cause)) :
    validated = .error (.syntactic cause) := by
  cases h <;> cases malformed
  rfl

theorem value_or_division (h : Agreement scanned validated calculated) {tokens : List Token}
    (valid : validated = .ok tokens) :
    (∃ number, calculated = .ok number) ∨ calculated = .error (.arithmetic .divisionByZero) := by
  cases h with
  | value _ number => exact .inl ⟨number, rfl⟩
  | division => exact .inr rfl
  | _ => cases valid

theorem not_arithmetic (h : Agreement scanned validated calculated) (cause : ArithmeticError) :
    validated ≠ .error (.arithmetic cause) := by
  cases h <;> exact nofun

end Agreement

/-- On tokens, the two phases leave the same rest. -/
theorem rest_unique {tokens rest rest' : List Token} {number : Number}
    (checked : check tokens = .ok rest) (evaluated : evaluate tokens = .ok (number, rest')) :
    rest' = rest := by
  have alike := lockstep tokens
  rw [checked, evaluated] at alike
  cases alike
  rfl

/-- **Checking and calculating a text agree.**

* The same texts have no tokens, with the same error.
* What can be calculated is valid, and its tokens are those of the text.
* A fault of the tokens that calculating reports is reported by checking as well.
* A valid text has a value or divides by zero.
* Checking never reports an arithmetical error.
* On tokens, the two phases leave the same rest. -/
theorem calculate_agrees_validate (source : String) :
    (∀ cause, calculate source = .error (.lexical cause) ↔
      validate source = .error (.lexical cause)) ∧
    (∀ number, calculate source = .ok number →
      ∃ tokens, tokenize source = .ok tokens ∧ validate source = .ok tokens) ∧
    (∀ cause, calculate source = .error (.syntactic cause) →
      validate source = .error (.syntactic cause)) ∧
    (∀ tokens, validate source = .ok tokens →
      (∃ number, calculate source = .ok number) ∨
        calculate source = .error (.arithmetic .divisionByZero)) ∧
    (∀ cause, validate source ≠ .error (.arithmetic cause)) ∧
    ∀ tokens rest number rest', check tokens = .ok rest → evaluate tokens = .ok (number, rest') →
      rest' = rest := by
  have texts := agreement source
  refine ⟨texts.lexical_iff, ?_, ?_, ?_, texts.not_arithmetic, ?_⟩
  · exact fun number => texts.valid_of_value
  · exact fun cause => texts.malformed_of_malformed
  · exact fun tokens => texts.value_or_division
  · exact fun tokens rest number rest' => rest_unique

/-! ### Two faults at once -/

/-- Some division of a program finds a zero on the top of the stack when the constructs in front of
it have been evaluated. -/
def DividesByZero (program : List (Construct Unit)) : Prop :=
  ∃ before after left right below log, program = before ++ .operation .div () () :: after ∧
    (Postfix.exec evaluator before []).run #[] = .ok (some (right :: left :: below)) log ∧
    (right.value == 0.0) = true

/-- The only construct without a value is a division by zero. -/
theorem ofConstruct_eq_error_iff {construct : Construct Number} {cause : ArithmeticError} :
    Number.ofConstruct construct = .error cause ↔
      ∃ left right, construct = .operation .div left right ∧ (right.value == 0.0) = true := by
  constructor
  · intro fails
    cases construct with
    | operation op left right =>
      cases op with
      | div =>
        by_cases zero : (right.value == 0.0) = true
        · exact ⟨left, right, rfl, zero⟩
        · rw [Number.ofConstruct, Number.operation, Number.combine, if_neg zero] at fails
          cases fails
      | _ => cases fails
    | _ => cases fails
  · rintro ⟨left, right, rfl, zero⟩
    rw [Number.ofConstruct, Number.operation, Number.combine, if_pos zero]
    rfl

/-- The evaluator fails exactly at divisions by zero. -/
theorem evaluator_fails_iff {construct : Construct Number} {e : Error} (log : Log) :
    (∃ log', (evaluator.perform construct).run log = .error e log') ↔
      e = .arithmetic .divisionByZero ∧
        ∃ left right, construct = .operation .div left right ∧ (right.value == 0.0) = true := by
  obtain ⟨log', run⟩ := ends_evaluator_perform construct log
  rw [run]
  constructor
  · rintro ⟨_, fails⟩
    cases value : Number.ofConstruct construct with
    | ok result =>
      rw [value] at fails
      cases fails
    | error cause =>
      rw [value] at fails
      cases fails
      exact ⟨rfl, ofConstruct_eq_error_iff.mp value⟩
  · rintro ⟨rfl, division⟩
    have value : Number.ofConstruct construct = .error .divisionByZero :=
      ofConstruct_eq_error_iff.mpr division
    exact ⟨log', by rw [value]; rfl⟩

/-- A program of which the execution fails divides by zero. -/
theorem dividesByZero_of_error {program : List (Construct Unit)} {e : Error} {log : Log}
    (fails : (Postfix.exec evaluator program []).run #[] = .error e log) :
    e = .arithmetic .divisionByZero ∧ DividesByZero program := by
  obtain ⟨before, construct, after, parts, stack, middle, below, run, load, performed⟩ :=
    (exec_eq_error_iff evaluator).mp fails
  obtain ⟨same, left, right, rfl, zero⟩ := (evaluator_fails_iff middle).mp ⟨log, performed⟩
  refine ⟨same, before, after, left, right, below, middle, parts, ?_, zero⟩
  rw [run]
  -- The operands of a binary operation are on the stack in the reverse order.
  match stack, load with
  | r :: l :: rest, load =>
    cases load
    rfl

/-- A program that divides by zero fails. -/
theorem DividesByZero.error {program : List (Construct Unit)} (h : DividesByZero program) :
    ∃ log, (Postfix.exec evaluator program []).run #[] =
      .error (.arithmetic .divisionByZero) log := by
  obtain ⟨before, after, left, right, below, middle, parts, run, zero⟩ := h
  obtain ⟨log, performed⟩ :=
    (evaluator_fails_iff middle).mpr ⟨rfl, left, right, rfl, zero⟩
  exact ⟨log, (exec_eq_error_iff evaluator).mpr
    ⟨before, .operation .div left right, after, parts, _, middle, below, run, rfl, performed⟩⟩

theorem evaluate_of_error {tokens : List Token} {e : Error} {log : Log}
    (fails : (read evaluator (some depthLimit) tokens).run #[] = .error e log) :
    evaluate tokens = .error e := by
  rw [evaluate, Logged.result, Logged.outcome, Logged.evaluate, EStateM.run_bind, fails]

theorem ending_of_malformed {tokens : List Token} {cause : SyntaxError}
    (malformed : check tokens = .error cause) :
    (record (some depthLimit) tokens).ending = .error (.malformed cause) := by
  obtain ⟨done, fails⟩ := fails_of_check malformed
  rw [record_of_fails fails]

theorem evaluate_of_dividesByZero {tokens : List Token}
    (divides : DividesByZero (record (some depthLimit) tokens).program) :
    evaluate tokens = .error (.arithmetic .divisionByZero) := by
  have determined := determines_read evaluator (some depthLimit) tokens #[]
  obtain ⟨log, fails⟩ := divides.error
  rw [fails] at determined
  exact evaluate_of_error determined

theorem evaluate_of_not_dividesByZero {tokens : List Token} {cause : SyntaxError}
    (malformed : check tokens = .error cause)
    (computes : ¬ DividesByZero (record (some depthLimit) tokens).program) :
    evaluate tokens = .error (.syntactic cause) := by
  have determined := determines_read evaluator (some depthLimit) tokens #[]
  cases run : (Postfix.exec evaluator (record (some depthLimit) tokens).program []).run #[] with
  | error e log => exact absurd (dividesByZero_of_error run).2 computes
  | ok stack log =>
    rw [run] at determined
    cases stack with
    | none => exact determined.elim
    | some stack =>
      simp only [Recording.Determines, ending_of_malformed malformed] at determined
      exact evaluate_of_error determined

/-- **Of two faults the evaluator reports the one it meets first.** On malformed tokens it fails
for the cause that the checker gives, except if one of the divisions in front of the fault is a
division by zero; then, and only then, it reports that. -/
theorem evaluate_of_malformed {tokens : List Token} {cause : SyntaxError}
    (malformed : check tokens = .error cause) :
    (evaluate tokens = .error (.syntactic cause) ↔
      ¬ DividesByZero (record (some depthLimit) tokens).program) ∧
    (evaluate tokens = .error (.arithmetic .divisionByZero) ↔
      DividesByZero (record (some depthLimit) tokens).program) := by
  by_cases divides : DividesByZero (record (some depthLimit) tokens).program
  · rw [evaluate_of_dividesByZero divides]
    simp [divides]
  · rw [evaluate_of_not_dividesByZero malformed divides]
    simp [divides]

/-- A quotient of two literals divides by zero if the second one is zero. -/
theorem dividesByZero_quotient {x y : Float} (zero : (y == 0.0) = true)
    (after : List (Construct Unit)) :
    DividesByZero (.literal x none :: .literal y none :: .operation .div () () :: after) :=
  ⟨[.literal x none, .literal y none], after, .integer x, .integer y, [], #[], rfl, rfl, zero⟩

/-- In `(1/0` the parenthesis is not closed, and the division is complete before that shows. -/
theorem evaluate_of_malformed_unclosed :
    check [.opening, .number 1.0, .operator .div, .number 0.0] =
        .error (.unclosed .parentheses) ∧
      evaluate [.opening, .number 1.0, .operator .div, .number 0.0] =
        .error (.arithmetic .divisionByZero) := by
  have malformed : ∀ x y : Float, check [.opening, .number x, .operator .div, .number y] =
      .error (.unclosed .parentheses) := by
    intro x y
    cbv
  have recorded : ∀ x y : Float,
      (record (some depthLimit) [.opening, .number x, .operator .div, .number y]).program =
        [.literal x none, .literal y none, .operation .div () ()] := by
    intro x y
    cbv
  refine ⟨malformed _ _, (evaluate_of_malformed (malformed _ _)).2.mpr ?_⟩
  rw [recorded]
  exact dividesByZero_quotient (by decide) []

/-- The two phases can fail differently on malformed tokens: behind the sign of `1/0+` an operand
is missing, but the evaluator divides before it looks for one. -/
theorem malformed_behind_division :
    check [.number 1.0, .operator .div, .number 0.0, .operator .add] = .error .unexpectedEnd ∧
      evaluate [.number 1.0, .operator .div, .number 0.0, .operator .add] =
        .error (.arithmetic .divisionByZero) := by
  have malformed : ∀ x y : Float,
      check [.number x, .operator .div, .number y, .operator .add] = .error .unexpectedEnd := by
    intro x y
    cbv
  have recorded : ∀ x y : Float,
      (record (some depthLimit) [.number x, .operator .div, .number y, .operator .add]).program =
        [.literal x none, .literal y none, .operation .div () ()] := by
    intro x y
    cbv
  refine ⟨malformed _ _, evaluate_of_dividesByZero ?_⟩
  rw [recorded]
  exact dividesByZero_quotient (by decide) []

end Calculator
