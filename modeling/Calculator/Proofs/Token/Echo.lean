import Calculator.Proofs.Binary.Text
import Calculator.Proofs.Fraction.Text
import Calculator.Proofs.Grammar.Substitution
import Calculator.Proofs.Token.Concatenation

/-!
# The spellings of tokens

The tokens of a text can be written again, each one by its own text with a blank in front of the
next one (`Token.echo`). Nothing of the old text is left except the tokens: numbers are written with
the digits of their floats and fractions with the digits that were kept. Still every token is found
again, because the blanks keep the words apart, and because the labels depend on the tokens and not
on the text between them.

The one difference is a fraction of nothing but zeroes. It is written as one zero, so the number of
its zeroes is lost (`Token.settled`).

Main statement: `tokenize_echo`.
-/

namespace Calculator

namespace Token

/-- What a token is written as: its text, and a minus for a negation. -/
def spelling : Token → String
  | .negation => "-"
  | token => token.text

/-- The spellings of tokens, one blank between them. -/
def echo (tokens : List Token) : String :=
  " ".intercalate (tokens.map spelling)

/-- The token that is found where a token was written. -/
def settled (token : Token) : Token :=
  token.mapFraction Fraction.settled

theorem endsOperand_settled (token : Token) : token.settled.endsOperand = token.endsOperand := by
  cases token <;> rfl

theorem settled_eq_point_iff {token : Token} : token.settled = .point ↔ token = .point :=
  mapFraction_eq_iff nofun

/-- Behind the spelling of a token, the others follow at the end or behind a blank. -/
theorem echo_cons (token : Token) (tokens : List Token) :
    (echo (token :: tokens)).toList = token.spelling.toList ++
      if tokens = [] then [] else ' ' :: (echo tokens).toList := by
  cases tokens with
  | nil => simp [echo, String.intercalate_singleton]
  | cons next rest => simp [echo, String.intercalate_cons_cons, String.toList_append]

end Token

/-! ### One token -/

theorem Fraction.toList_text (f : Fraction) : f.text.toList = f.chars :=
  String.toList_ofList

namespace Lexeme

/-- The spelling of a run of digits is a run of digits. -/
theorem exists_spelling_digits {previous : Option Token} {run : DigitRun} {token : Token}
    (labelled : (digits run).token? previous = some token)
    (finite : ∀ x, token = .number x → x.isFinite = true) :
    ∃ run' : DigitRun, run'.chars = token.spelling.toList ∧
      (digits run').token? previous = some token.settled := by
  by_cases point : previous = some .point
  · simp only [token?, point, if_true, Option.some.injEq] at labelled ⊢
    subst labelled
    obtain ⟨run', written, same⟩ := Fraction.exists_run_chars run
    exact ⟨run', written.trans (Fraction.toList_text _).symm, congrArg Token.fraction same⟩
  · simp only [token?, point, if_false, Option.some.injEq] at labelled ⊢
    subst labelled
    obtain ⟨run', written, same⟩ := Binary.exists_run_write (finite _ rfl)
    exact ⟨run', written, congrArg Token.number same⟩

/-- **The spelling of a token is a lexeme**, and where the token was found, it becomes the token
again. -/
theorem exists_spelling {previous : Option Token} {lexeme : Lexeme} {token : Token}
    (labelled : lexeme.token? previous = some token)
    (finite : ∀ x, token = .number x → x.isFinite = true) :
    ∃ lexeme' : Lexeme, lexeme'.chars = token.spelling.toList ∧
      lexeme'.token? previous = some token.settled := by
  -- All but digits and a small exponent mark are spelled as they were found.
  have again := labelled
  cases lexeme with
  | blank c blank => cases labelled
  | digits run =>
    obtain ⟨run', written, becomes⟩ := exists_spelling_digits labelled finite
    exact ⟨.digits run', written, becomes⟩
  | exponentMark capital =>
    cases labelled
    exact ⟨.exponentMark true, rfl, rfl⟩
  | function f =>
    cases labelled
    exact ⟨.function f, by cases f <;> rfl, rfl⟩
  | operator op =>
    cases op with
    | sub =>
      -- A subtraction and a negation are written alike.
      cases ends : previous.any Token.endsOperand <;>
        simp only [token?, ends, if_true, Bool.false_eq_true, if_false,
          Option.some.injEq] at labelled <;>
        subst labelled <;> exact ⟨.operator .sub, rfl, again⟩
    | _ =>
      cases labelled
      refine ⟨_, ?_, again⟩
      rfl
  | _ =>
    cases labelled
    refine ⟨_, ?_, again⟩
    rfl

/-! ### All tokens -/

/-- The spellings of tokens have the same labels as the lexemes that the tokens came from. -/
theorem spells_echo {lexemes : List Lexeme} {previous previous' : Option Token}
    (operand : previous.any Token.endsOperand = previous'.any Token.endsOperand)
    (point : previous = some .point ↔ previous' = some .point)
    (finite : ∀ x, .number x ∈ tokens previous lexemes → x.isFinite = true) :
    Spells previous' (Token.echo (tokens previous lexemes)).toList
      ((tokens previous lexemes).map Token.settled) := by
  -- What precedes the lexemes is generalized twice, because the last token that was written is the
  -- settled form of the last one that was found.
  induction lexemes generalizing previous previous' with
  | nil => exact .nil previous'
  | cons lexeme rest ih =>
    rw [tokens] at finite ⊢
    cases labelled : lexeme.token? previous with
    | none =>
      rw [labelled] at finite
      exact ih operand point finite
    | some token =>
      rw [labelled] at finite
      obtain ⟨lexeme', written, becomes⟩ := exists_spelling labelled fun x same =>
        finite x (same ▸ List.mem_cons_self)
      rw [token?_congr operand point] at becomes
      have behind : Spells (some token.settled) (Token.echo (tokens (some token) rest)).toList
          ((tokens (some token) rest).map Token.settled) :=
        ih token.endsOperand_settled.symm (by simp [Token.settled_eq_point_iff])
          fun x member => finite x (List.mem_cons_of_mem _ member)
      -- Behind the spelling comes the end or a blank, and neither is a digit.
      dsimp only
      rw [Token.echo_cons, List.map_cons, ← written]
      split
      · next last =>
        rw [last] at behind ⊢
        exact .of_first? (first?_chars_of_head lexeme' (by simp)) becomes behind
      · exact .of_first? (first?_chars_of_head lexeme' (by simp)) becomes (.blank rfl behind)

end Lexeme

/-- **Tokens that are written again are found again**, except that a fraction of zeroes has one zero
then. -/
theorem tokenize_echo {source : String} {tokens : List Token}
    (scanned : tokenize source = .ok tokens)
    (finite : ∀ x, .number x ∈ tokens → x.isFinite = true) :
    tokenize (Token.echo tokens) = .ok (tokens.map Token.settled) := by
  obtain ⟨-, rfl⟩ := tokenize_eq_ok_iff.mp scanned
  exact tokenize_eq_ok_iff.mpr (Lexeme.spells_echo rfl .rfl finite)

example : (tokenize "2.000*-1e3").map Token.echo = .ok "2 . 0 * - 1 E 3" := by decide +kernel

end Calculator
