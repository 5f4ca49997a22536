import Calculator.Proofs.Calculation.Outcome
import Calculator.Proofs.CommandLine.Lines

/-!
# Showing the tokens

If the tokens are to be shown, a line is cut into tokens twice: once to show them, and once more by
the operation that gives the result. Both times the tokens are the same, so the wish adds one line
of text in front of the result and nothing else. A line without tokens fails in either case with
the same error, and only once.

For a single expression this is one equation, `answerLine_tokens`. Runs over several lines put their
outcomes one behind the other, so it holds of them as well.

Main statement: `respond_tokens`.
-/

namespace Calculator.CommandLine

/-! ### One expression -/

/-- The line that shows the tokens of an expression, if it has tokens. -/
def echoLine (source : String) : String :=
  match tokenize source with
  | .ok tokens => " ".intercalate (tokens.map Token.text) ++ "\n"
  | .error _ => ""

/-- The line with the result of an expression, if it has a result. -/
def resultLine (check : Bool) (source : String) : String :=
  match result ⟨false, check⟩ source with
  | .ok text => text ++ "\n"
  | .error _ => ""

/-- Without tokens there is no result. -/
theorem result_of_error (settings : Settings) {source : String} {cause : LexicalError}
    (scanned : tokenize source = .error cause) :
    result settings source = .error (.lexical cause) := by
  rw [result, validate_eq, calculate_eq, scanned]
  split <;> rfl

/-- **Showing the tokens** adds a line to the results, and changes neither the errors nor whether
the expression succeeds. -/
theorem answerLine_tokens (check : Bool) (source : String) :
    answerLine ⟨true, check⟩ source =
      ⟨⟨echoLine source, ""⟩, true⟩ ++ answerLine ⟨false, check⟩ source := by
  have plain : answerLine ⟨false, check⟩ source = .ofResult (result ⟨false, check⟩ source) := rfl
  have same : result ⟨true, check⟩ source = result ⟨false, check⟩ source := rfl
  rw [answerLine, if_pos rfl, plain, same, echoLine]
  cases scanned : tokenize source with
  | ok tokens => rfl
  | error cause =>
    rw [result_of_error ⟨false, check⟩ scanned]
    exact congrArg (Outcome.mk · false) (Output.none_append _).symm

theorem out_answerLine (check : Bool) (source : String) :
    (answerLine ⟨false, check⟩ source).output.out = resultLine check source := by
  have plain : answerLine ⟨false, check⟩ source = .ofResult (result ⟨false, check⟩ source) := rfl
  rw [plain, resultLine]
  cases result ⟨false, check⟩ source <;> rfl

theorem out_answerLine_tokens (check : Bool) (source : String) :
    (answerLine ⟨true, check⟩ source).output.out = echoLine source ++ resultLine check source := by
  rw [answerLine_tokens, Outcome.output_append, Output.out_append, out_answerLine]

theorem err_answerLine_tokens (check : Bool) (source : String) :
    (answerLine ⟨true, check⟩ source).output.err =
      (answerLine ⟨false, check⟩ source).output.err := by
  rw [answerLine_tokens]
  exact String.empty_append ..

theorem succeeded_answerLine_tokens (check : Bool) (source : String) :
    (answerLine ⟨true, check⟩ source).succeeded = (answerLine ⟨false, check⟩ source).succeeded := by
  rw [answerLine_tokens]
  exact Bool.true_and _

/-! ### A run -/

/-- The expressions that are dealt with, in order. -/
def Source.expressions (contents? : String → Option String) (input : String) : Source → List String
  | .expression text => [text]
  | .file path =>
    match contents? path with
    | none => []
    | some contents => (fullLines (Text.lines contents.toList)).map String.ofList
  | .prompt => (fullLines (Text.lines input.toList)).map String.ofList

theorem out_written (settings : Settings) (lines : List (List Char)) :
    (written settings lines).out = String.join ((fullLines lines).map fun line =>
      (answerLine settings (String.ofList line)).output.out) := by
  simp [written, outcomes, Output.concat, Function.comp_def]

theorem err_written_tokens (check : Bool) (lines : List (List Char)) :
    (written ⟨true, check⟩ lines).err = (written ⟨false, check⟩ lines).err := by
  simp [written, outcomes, Output.concat, Function.comp_def, err_answerLine_tokens]

theorem all_outcomes_tokens (check : Bool) (lines : List (List Char)) :
    (outcomes ⟨true, check⟩ lines).all (·.succeeded) =
      (outcomes ⟨false, check⟩ lines).all (·.succeeded) := by
  simp [outcomes, Function.comp_def, succeeded_answerLine_tokens]

section Run

variable (contents? : String → Option String) (input : String)

/-- The results of a run are those of its expressions, in order. -/
theorem out_respond (settings : Settings) (source : Source) :
    ((Request.run settings source).respond contents? input).output.out =
      String.join ((source.expressions contents? input).map fun text =>
        (answerLine settings text).output.out) := by
  cases source with
  | expression text =>
    rw [Request.respond, Source.expressions, List.map_singleton, String.join_cons, String.join_nil]
    exact String.append_empty.symm
  | file path =>
    rw [Source.expressions]
    cases found : contents? path with
    | none =>
      rw [respond_unreadable contents? input settings found]
      rfl
    | some contents =>
      rw [respond_file contents? input settings found, out_written, List.map_map]
      rfl
  | prompt =>
    rw [respond_prompt, out_written, Source.expressions, List.map_map]
    rfl

theorem err_respond_tokens (check : Bool) (source : Source) :
    ((Request.run ⟨true, check⟩ source).respond contents? input).output.err =
      ((Request.run ⟨false, check⟩ source).respond contents? input).output.err := by
  cases source with
  | expression text => exact err_answerLine_tokens check text
  | file path =>
    cases found : contents? path with
    | none => simp only [respond_unreadable contents? input _ found]
    | some contents => simp only [respond_file contents? input _ found, err_written_tokens]
  | prompt => rw [respond_prompt, respond_prompt, err_written_tokens]

theorem code_respond_tokens (check : Bool) (source : Source) :
    ((Request.run ⟨true, check⟩ source).respond contents? input).code =
      ((Request.run ⟨false, check⟩ source).respond contents? input).code := by
  cases source with
  | expression text => exact congrArg exitCode (succeeded_answerLine_tokens check text)
  | file path =>
    cases found : contents? path with
    | none => simp only [respond_unreadable contents? input _ found]
    | some contents => simp only [respond_file contents? input _ found, all_outcomes_tokens]
  | prompt => rw [respond_prompt, respond_prompt]

/-- **Showing the tokens only adds lines.** Two calls deal with the same expressions in the same
way, except that one of them shows the tokens.

* Every expression succeeds in both calls or in none, with the same errors, and one without tokens
  has one error.
* The two calls have the same exit code and the same errors.
* Their results are the results of the expressions, in order, and where the tokens are shown, the
  line with the tokens of each expression that has tokens stands in front of its result, also if
  there is no result. -/
theorem respond_tokens (check : Bool) (source : Source)
    (plainArguments shownArguments : List String)
    (asksPlain : Request.ofArguments plainArguments = .ok (.run ⟨false, check⟩ source))
    (asksShown : Request.ofArguments shownArguments = .ok (.run ⟨true, check⟩ source)) :
    let plain := respond contents? input plainArguments
    let shown := respond contents? input shownArguments
    (∀ text,
      (answerLine ⟨true, check⟩ text).succeeded = (answerLine ⟨false, check⟩ text).succeeded ∧
      (answerLine ⟨true, check⟩ text).output.err = (answerLine ⟨false, check⟩ text).output.err ∧
      ∀ cause, tokenize text = .error cause →
        answerLine ⟨true, check⟩ text = ⟨.error (.lexical cause), false⟩) ∧
    shown.code = plain.code ∧ shown.output.err = plain.output.err ∧
    plain.output.out =
      String.join ((source.expressions contents? input).map (resultLine check)) ∧
    shown.output.out =
      String.join ((source.expressions contents? input).map fun text =>
        echoLine text ++ resultLine check text) := by
  intro plain shown
  have plainEq : plain = (Request.run ⟨false, check⟩ source).respond contents? input := by
    simp only [plain, respond, asksPlain]
  have shownEq : shown = (Request.run ⟨true, check⟩ source).respond contents? input := by
    simp only [shown, respond, asksShown]
  rw [plainEq, shownEq]
  refine ⟨fun text =>
      ⟨succeeded_answerLine_tokens check text, err_answerLine_tokens check text, ?_⟩,
    code_respond_tokens contents? input check source,
    err_respond_tokens contents? input check source, ?_, ?_⟩
  · intro cause scanned
    rw [answerLine, if_pos rfl, scanned]
  · simp only [out_respond, out_answerLine]
  · simp only [out_respond, out_answerLine_tokens]

end Run

/-- The first line has tokens and no result, the second one has neither. -/
theorem respond_tokens_failing :
    let contents? : String → Option String := fun path =>
      if path = "sums.calc" then some "1+\n$" else none
    let plain := respond contents? "" ["-cf", "sums.calc"]
    let shown := respond contents? "" ["-tcf", "sums.calc"]
    shown.output.err = plain.output.err ∧ shown.code = plain.code ∧ plain.output.out = "" ∧
      shown.output.out = "1 +\n" := by
  intro contents? plain shown
  obtain ⟨-, code, err, outPlain, outShown⟩ :=
    respond_tokens contents? "" true (.file "sums.calc") ["-cf", "sums.calc"] ["-tcf", "sums.calc"]
      (by decide +kernel) (by decide +kernel)
  refine ⟨err, code, outPlain.trans ?_, outShown.trans ?_⟩
  · decide +kernel
  · decide +kernel

end Calculator.CommandLine
