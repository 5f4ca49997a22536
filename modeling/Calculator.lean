import Calculator.Main
import Calculator.Grammar.Derivation
import Calculator.Grammar.Postfix
import Calculator.Grammar.Transcript
import Calculator.Proofs.Binary.Integral
import Calculator.Proofs.Calculation.Agreement
import Calculator.Proofs.Calculation.Composition
import Calculator.Proofs.Expression.Printing
import Calculator.Proofs.Grammar.Acceptance
import Calculator.Proofs.Calculation.Classification
import Calculator.Proofs.Calculation.Integrality
import Calculator.Proofs.Expression.Shape
import Calculator.Proofs.Token.Language
import Calculator.Proofs.Expression.Exponent
import Calculator.Proofs.Calculation.Faults
import Calculator.Proofs.Fraction.Digits
import Calculator.Proofs.Fraction.Position
import Calculator.Proofs.Token.Juxtaposition
import Calculator.Proofs.Binary.Quotient
import Calculator.Proofs.Underflow
import Calculator.Proofs.Binary.Text
import Calculator.Proofs.Fraction.Text
import Calculator.Proofs.Grammar.Substitution
import Calculator.Proofs.Token.Echo
import Calculator.Proofs.Calculation.Echo
import Calculator.Proofs.Grammar.Calls
import Calculator.Proofs.Grammar.Limit
import Calculator.Proofs.Grammar.Prefixes
import Calculator.Proofs.Calculation.Pointed
import Calculator.Proofs.Log.Passes
import Calculator.Proofs.CommandLine.Lines
import Calculator.Proofs.CommandLine.Echo
import Calculator.Proofs.Fraction.Cut
import Calculator.Proofs.Calculation.Guarded
import Calculator.Proofs.Fraction.Stripping
import Calculator.Proofs.Grammar.Tally
