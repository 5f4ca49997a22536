import Calculator.Proofs.Calculation.Faults
import Calculator.Proofs.Calculation.Tree
import Calculator.Proofs.Token.Echo

/-!
# Calculating tokens that are written again

The tokens of a text can be written again, and what they are found as differs from them in the
number of zeroes of a fraction of nothing but zeroes (`Token.echo`, `Token.settled`). A calculation
does not notice that. The value of a literal does not depend on it (`Fraction.after_settled`), so
all values are the same. A fault that names a token could tell the difference if that token were a
fraction; but a fraction of a text is found where the digits of a literal are looked for, so it is
never the unexpected token and never the trailing one.

Main statement: `calculate_echo`.
-/

namespace Calculator

open Grammar

/-! ### Values -/

theorem valueAll_mapFractions {g : Fraction → Fraction}
    (same : ∀ f whole, (g f).after whole = f.after whole) (done : List Expression) :
    Expression.valueAll (done.map (Expression.mapFractions g)) = Expression.valueAll done := by
  induction done with
  | nil => rfl
  | cons e done ih => simp only [List.map_cons, Expression.valueAll, e.value_mapFractions same, ih]

/-! ### Faults -/

section Text

variable {source : String} {tokens : List Token} (scanned : tokenize source = .ok tokens)
include scanned

/-- The token that is left behind the expression of a text is no fraction. -/
theorem finish_map_settled {e : Expression} {rest : List Token}
    (reads : Reads (some depthLimit) (.rule (.chain .additive)) 0 tokens e rest) :
    finish (rest.map Token.settled) = finish rest := by
  cases rest with
  | nil => rfl
  | cons token tail =>
    -- Behind an expression that was read, the token is a fault of the text.
    have trailing : validate source = .error (.syntactic (.trailing token)) := by
      rw [validate_eq, scanned, mapError_ok_bind, check_of_reads reads]
      rfl
    have other : ∀ value, token ≠ .fraction value := by
      rintro value rfl
      simpa [Token.CanTrail] using canTrail_of_validate trailing
    rw [List.map_cons, Token.settled, Token.mapFraction_of_ne other]
    rfl

/-- The token that is at fault in a text is no fraction. -/
theorem mapFraction_cause {done : List Expression} {cause : SyntaxError}
    (fails : Fails (some depthLimit) (.chain .additive) 0 tokens done cause)
    (g : Fraction → Fraction) : cause.mapFraction g = cause := by
  cases cause with
  | unexpected token =>
    have unexpected := validate_of_fails scanned fails
    have other : ∀ value, token ≠ .fraction value := by
      rintro value rfl
      simpa [Token.CanBeUnexpected] using canBeUnexpected_of_validate unexpected
    rw [SyntaxError.mapFraction, Token.mapFraction_of_ne other]
  | trailing token => exact absurd fails Fails.not_trailing
  | _ => rfl

/-- **What the tokens of a text are written as is calculated like the text.** -/
theorem calculate_of_settled {source' : String}
    (scanned' : tokenize source' = .ok (tokens.map Token.settled)) :
    calculate source' = calculate source := by
  rw [calculate_eq, calculate_eq, scanned, scanned', mapError_ok_bind, mapError_ok_bind]
  rcases reads_or_fails (some depthLimit) (.chain .additive) 0 tokens with
    ⟨e, rest, reads⟩ | ⟨done, cause, fails⟩
  · have settled : Reads (some depthLimit) (.rule (.chain .additive)) 0
        (tokens.map Token.settled) (e.mapFractions Fraction.settled) (rest.map Token.settled) :=
      reads.mapFractions
    rw [evaluate_of_reads reads, evaluate_of_reads settled,
      e.value_mapFractions Fraction.after_settled]
    cases e.value with
    | error cause => rfl
    | ok number =>
      change finish (rest.map Token.settled) >>= _ = finish rest >>= _
      rw [finish_map_settled scanned reads]
  · have settled : Fails (some depthLimit) (.chain .additive) 0 (tokens.map Token.settled)
        (done.map (Expression.mapFractions Fraction.settled)) cause := by
      have replaced := fails.mapFractions (g := Fraction.settled)
      rwa [mapFraction_cause scanned fails] at replaced
    rw [evaluate_of_fails fails, evaluate_of_fails settled,
      valueAll_mapFractions Fraction.after_settled]

end Text

/-- **Tokens that are written again.** If the numbers among the tokens of a text are finite, their
spellings, one blank between them, are found as the same tokens, except that a fraction of zeroes
has one zero then. And they are calculated like the text: the value is the same, or the error. -/
theorem calculate_echo {source : String} {tokens : List Token}
    (scanned : tokenize source = .ok tokens)
    (finite : ∀ x, .number x ∈ tokens → x.isFinite = true) :
    tokenize (Token.echo tokens) = .ok (tokens.map Token.settled) ∧
      calculate (Token.echo tokens) = calculate source := by
  have again := tokenize_echo scanned finite
  exact ⟨again, calculate_of_settled scanned again⟩

/-- The zeroes behind the second point are one zero in `- sin( 7 . 047 ) - 2 . 0 E - 3`, and nothing
else is different from the tokens of `-sin(007.0470)-2.000e-3`. -/
theorem calculate_echo_zeroes :
    let before : List Token := [.negation, .function .sin, .number 7.0, .point, .fraction ⟨47, 1⟩,
      .closing, .operator .sub, .number 2.0, .point]
    let behind : List Token := [.exponentMark, .negation, .number 3.0]
    let tokens := before ++ .fraction ⟨0, 3⟩ :: behind
    tokenize "-sin(007.0470)-2.000e-3" = .ok tokens ∧
      (∀ x, .number x ∈ tokens → x.isFinite = true) ∧
      Token.echo tokens = "- sin( 7 . 047 ) - 2 . 0 E - 3" ∧
      tokenize "- sin( 7 . 047 ) - 2 . 0 E - 3" = .ok (before ++ .fraction ⟨0, 1⟩ :: behind) ∧
      calculate "- sin( 7 . 047 ) - 2 . 0 E - 3" = calculate "-sin(007.0470)-2.000e-3" := by
  intro before behind tokens
  have scanned : tokenize "-sin(007.0470)-2.000e-3" = .ok tokens := by decide +kernel
  have finite : ∀ x, .number x ∈ tokens → x.isFinite = true := by
    have numbers : ∀ x, .number x ∈ tokens → x ∈ [7.0, 2.0, 3.0] := by simp [tokens, before, behind]
    have all : ∀ x ∈ [7.0, 2.0, 3.0], x.isFinite = true := by decide +kernel
    exact fun x member => all x (numbers x member)
  have written : Token.echo tokens = "- sin( 7 . 047 ) - 2 . 0 E - 3" := by decide +kernel
  have settled : tokens.map Token.settled = before ++ .fraction ⟨0, 1⟩ :: behind := by
    decide +kernel
  obtain ⟨found, calculated⟩ := calculate_echo scanned finite
  rw [written] at found calculated
  rw [settled] at found
  exact ⟨scanned, finite, written, found, calculated⟩

end Calculator
