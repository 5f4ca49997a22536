import Calculator.Calculation
import Calculator.Proofs.Grammar.Effect

/-!
# Outcomes without the log

The operations of the calculator report while they run, and their plain forms forget the reports.
This module carries the forgetting through the definitions: `stage.Ends result` says that the stage
has this result whatever was reported before it, and it is closed under sequencing. The outcome of
every operation is then an equation between plain results.

* `check_of_reads`, `check_of_fails` — the checker finds what the reading finds.
* `evaluate_of_reads`, `evaluate_of_fails` — the evaluator has the value of the tree, and a failed
  reading first has the values of the trees it completed.
* `validate_eq`, `calculate_eq` — the two operations on texts are the same sequence of phases, with
  `check` in the place of `evaluate`.
-/

namespace Calculator

open Grammar

/-! ### Stages that end with a result -/

namespace Logged

variable {ε ε' α β : Type}

/-- The stage has this result, whatever the log at its start. -/
def Ends (stage : Logged ε α) (result : Except ε α) : Prop :=
  ∀ log, ∃ log', stage.run log =
    match result with
    | .ok value => .ok value log'
    | .error cause => .error cause log'

theorem Ends.result_eq {stage : Logged ε α} {result : Except ε α} (h : stage.Ends result) :
    stage.result = result := by
  obtain ⟨log', run⟩ := h #[]
  cases result <;> simp [Logged.result, Logged.outcome, run]

theorem ends_pure (value : α) : (pure value : Logged ε α).Ends (.ok value) :=
  fun log => ⟨log, rfl⟩

theorem ends_throw (cause : ε) : (throw cause : Logged ε α).Ends (.error cause) :=
  fun log => ⟨log, rfl⟩

theorem ends_report (record : Record) : (report record : Logged ε Unit).Ends (.ok ()) :=
  fun log => ⟨log.push record, rfl⟩

theorem Ends.bind {stage : Logged ε α} {next : α → Logged ε β} {result : Except ε α}
    {results : α → Except ε β} (first : stage.Ends result)
    (second : ∀ value, (next value).Ends (results value)) :
    (stage >>= next).Ends (result >>= results) := by
  intro log
  obtain ⟨middle, run⟩ := first log
  rw [EStateM.run_bind, run]
  cases result with
  | error cause => exact ⟨middle, rfl⟩
  | ok value => exact second value middle

theorem Ends.mapError (f : ε → ε') {stage : Logged ε α} {result : Except ε α}
    (h : stage.Ends result) : (stage.mapError f).Ends (result.mapError f) := by
  intro log
  obtain ⟨log', run⟩ := h log
  refine ⟨log', ?_⟩
  change stage.mapError f log = _
  rw [Logged.mapError, run]
  cases result <;> rfl

theorem ends_reports {γ : Type} (records : List γ) (record : γ → Record) :
    Ends (records.forM fun found => report (record found) : Logged ε Unit) (.ok ()) := by
  induction records with
  | nil => exact ends_pure ()
  | cons found records ih => exact (ends_report (record found)).bind fun _ => ih

end Logged

open Logged

/-- Seeing errors as errors of another type can be done phase by phase. -/
theorem mapError_bind {ε ε' α β : Type} (f : ε → ε') (result : Except ε α) (next : α → Except ε β) :
    (result >>= next).mapError f = result.mapError f >>= fun value => (next value).mapError f := by
  cases result <;> rfl

/-- A phase that has a result passes it on. -/
theorem mapError_ok_bind {ε ε' α β : Type} (f : ε → ε') (value : α) (next : α → Except ε' β) :
    (Except.ok value).mapError f >>= next = next value :=
  rfl

/-! ### The checker -/

theorem ends_checker_perform (construct : Construct Unit) :
    Ends (checker.perform construct) (.ok ()) := by
  cases construct with
  | operation op _ _ => exact ends_report (.reduced op)
  | _ => exact ends_pure ()

/-- The checker goes through every tree. -/
theorem ends_interpret_checker (e : Expression) : Ends (e.interpret checker) (.ok ()) := by
  induction e with
  | literal whole fraction => exact ends_checker_perform _
  | operation _ _ _ left right | scaled _ _ left right =>
    exact left.bind fun _ => right.bind fun _ => ends_checker_perform _
  | application _ _ inner | negation _ inner | parenthesized _ inner =>
    exact inner.bind fun _ => ends_checker_perform _

theorem ends_abandon_checker {β : Type} (cause : SyntaxError) (done : List Expression) :
    Ends (checker.abandon cause done : Logged SyntaxError β) (.error cause) := by
  induction done with
  | nil => exact ends_throw cause
  | cons e done ih => exact (ends_interpret_checker e).bind fun _ => ih

theorem ends_check_of_reads {tokens rest : List Token} {e : Expression}
    (h : Reads (some depthLimit) (.rule (.chain .additive)) 0 tokens e rest) :
    Ends (Logged.check tokens) (.ok rest) := by
  rw [Logged.check, read_of_reads checker h]
  exact ((ends_interpret_checker e).bind fun _ => ends_pure _).bind fun _ =>
    (ends_report _).bind fun _ => ends_pure _

theorem ends_check_of_fails {tokens : List Token} {done : List Expression} {cause : SyntaxError}
    (h : Fails (some depthLimit) (.chain .additive) 0 tokens done cause) :
    Ends (Logged.check tokens) (.error cause) := by
  rw [Logged.check, read_of_fails checker h, Interpretation.abandon_bind]
  exact ends_abandon_checker cause done

/-- The checker finds what the reading finds. -/
theorem check_of_reads {tokens rest : List Token} {e : Expression}
    (h : Reads (some depthLimit) (.rule (.chain .additive)) 0 tokens e rest) :
    check tokens = .ok rest :=
  (ends_check_of_reads h).result_eq

/-- The checker fails with the cause of the reading. -/
theorem check_of_fails {tokens : List Token} {done : List Expression} {cause : SyntaxError}
    (h : Fails (some depthLimit) (.chain .additive) 0 tokens done cause) :
    check tokens = .error cause :=
  (ends_check_of_fails h).result_eq

/-- What the checker takes has been read. -/
theorem reads_of_check {tokens rest : List Token} (h : check tokens = .ok rest) :
    ∃ e, Reads (some depthLimit) (.rule (.chain .additive)) 0 tokens e rest := by
  rcases reads_or_fails (some depthLimit) (.chain .additive) 0 tokens with
    ⟨e, rest', found⟩ | ⟨done, cause, fails⟩
  · rw [check_of_reads found] at h
    cases h
    exact ⟨e, found⟩
  · rw [check_of_fails fails] at h
    cases h

/-- What the checker fails with is the cause of a reading that fails. -/
theorem fails_of_check {tokens : List Token} {cause : SyntaxError}
    (h : check tokens = .error cause) :
    ∃ done, Fails (some depthLimit) (.chain .additive) 0 tokens done cause := by
  rcases reads_or_fails (some depthLimit) (.chain .additive) 0 tokens with
    ⟨e, rest, found⟩ | ⟨done, cause', fails⟩
  · rw [check_of_reads found] at h
    cases h
  · rw [check_of_fails fails] at h
    cases h
    exact ⟨done, fails⟩

theorem ends_check (tokens : List Token) : Ends (Logged.check tokens) (check tokens) := by
  rcases reads_or_fails (some depthLimit) (.chain .additive) 0 tokens with
    ⟨e, rest, h⟩ | ⟨done, cause, h⟩
  · rw [check_of_reads h]
    exact ends_check_of_reads h
  · rw [check_of_fails h]
    exact ends_check_of_fails h

/-! ### The evaluator -/

theorem ends_evaluator_perform (construct : Construct Number) :
    Ends (evaluator.perform construct) ((Number.ofConstruct construct).mapError .arithmetic) := by
  have reported : Ends (reportOperands construct : Logged Error Unit) (.ok ()) := by
    cases construct with
    | operation op _ _ => exact ends_report (.reduced op)
    | _ => exact ends_pure ()
  change Ends (reportOperands construct >>= _) (Except.ok () >>= fun _ => _)
  refine reported.bind fun _ => ?_
  cases Number.ofConstruct construct with
  | error cause => exact ends_throw _
  | ok result =>
    have valued : Ends (reportValue construct result : Logged Error Unit) (.ok ()) := by
      cases construct with
      | operation op left right => exact ends_report (.computed left op right result.value)
      | _ => exact ends_pure ()
    exact valued.bind fun _ => ends_pure result

/-- The evaluator has the value of every tree. -/
theorem ends_interpret_evaluator (e : Expression) :
    Ends (e.interpret evaluator) (e.value.mapError .arithmetic) := by
  induction e with
  | literal whole fraction => exact ends_evaluator_perform (.literal whole fraction)
  | operation op _ _ left right =>
    rw [Expression.value, mapError_bind]
    refine left.bind fun left => ?_
    rw [mapError_bind]
    exact right.bind fun right => ends_evaluator_perform (.operation op left right)
  | scaled _ _ left right =>
    rw [Expression.value, mapError_bind]
    refine left.bind fun mantissa => ?_
    rw [mapError_bind]
    exact right.bind fun exponent => ends_evaluator_perform (.scaled mantissa exponent)
  | application function _ inner =>
    rw [Expression.value, mapError_bind]
    exact inner.bind fun argument => ends_evaluator_perform (.application function argument)
  | negation _ inner =>
    rw [Expression.value, mapError_bind]
    exact inner.bind fun operand => ends_evaluator_perform (.negation operand)
  | parenthesized e inner =>
    -- The value passes through unchanged, which is a last step of its own on the side of the stage.
    have last : e.value.mapError Error.arithmetic =
        e.value.mapError .arithmetic >>= fun value =>
          (Number.ofConstruct (.parenthesized value)).mapError .arithmetic := by
      cases e.value <;> rfl
    rw [Expression.value, last]
    exact inner.bind fun value => ends_evaluator_perform (.parenthesized value)

/-- The values of trees that are not needed any more: the first failure, if there is one. -/
def Expression.valueAll : List Expression → Except ArithmeticError Unit
  | [] => return
  | e :: done => do
    let _ ← e.value
    valueAll done

theorem ends_abandon_evaluator {β : Type} (cause : SyntaxError) (done : List Expression) :
    Ends (evaluator.abandon cause done : Logged Error β)
      ((Expression.valueAll done).mapError .arithmetic >>= fun _ => .error (.syntactic cause)) := by
  induction done with
  | nil => exact ends_throw _
  | cons e done ih =>
    rw [Expression.valueAll, mapError_bind, bind_assoc]
    exact (ends_interpret_evaluator e).bind fun _ => ih

theorem ends_evaluate_of_reads {tokens rest : List Token} {e : Expression}
    (h : Reads (some depthLimit) (.rule (.chain .additive)) 0 tokens e rest) :
    Ends (Logged.evaluate tokens)
      (e.value.mapError .arithmetic >>= fun number => .ok (number, rest)) := by
  rw [Logged.evaluate, read_of_reads evaluator h, bind_assoc]
  simp only [pure_bind]
  refine (ends_interpret_evaluator e).bind fun number => ?_
  exact (ends_report _).bind fun _ => ends_pure _

theorem ends_evaluate_of_fails {tokens : List Token} {done : List Expression} {cause : SyntaxError}
    (h : Fails (some depthLimit) (.chain .additive) 0 tokens done cause) :
    Ends (Logged.evaluate tokens)
      ((Expression.valueAll done).mapError .arithmetic >>= fun _ => .error (.syntactic cause)) := by
  rw [Logged.evaluate, read_of_fails evaluator h, Interpretation.abandon_bind]
  exact ends_abandon_evaluator cause done

/-- The evaluator has the value of the tree that was read. -/
theorem evaluate_of_reads {tokens rest : List Token} {e : Expression}
    (h : Reads (some depthLimit) (.rule (.chain .additive)) 0 tokens e rest) :
    evaluate tokens = e.value.mapError .arithmetic >>= fun number => .ok (number, rest) :=
  (ends_evaluate_of_reads h).result_eq

/-- **Of two faults the first one counts.** A failed reading has the values of the trees that it
completed, and fails with its own cause only if all of them have one. -/
theorem evaluate_of_fails {tokens : List Token} {done : List Expression} {cause : SyntaxError}
    (h : Fails (some depthLimit) (.chain .additive) 0 tokens done cause) :
    evaluate tokens =
      (Expression.valueAll done).mapError .arithmetic >>= fun _ => .error (.syntactic cause) :=
  (ends_evaluate_of_fails h).result_eq

/-- A reading that fails has no value. -/
theorem evaluate_ne_ok_of_fails {tokens : List Token} {done : List Expression}
    {cause : SyntaxError} (h : Fails (some depthLimit) (.chain .additive) 0 tokens done cause)
    {found : Number × List Token} : evaluate tokens ≠ .ok found := by
  rw [evaluate_of_fails h]
  cases Expression.valueAll done <;> exact nofun

/-- What the evaluator takes has been read, and its tree has the value. -/
theorem reads_of_evaluate {tokens rest : List Token} {number : Number}
    (h : evaluate tokens = .ok (number, rest)) :
    ∃ e, Reads (some depthLimit) (.rule (.chain .additive)) 0 tokens e rest ∧
      e.value = .ok number := by
  rcases reads_or_fails (some depthLimit) (.chain .additive) 0 tokens with
    ⟨e, rest', found⟩ | ⟨done, cause, fails⟩
  · rw [evaluate_of_reads found] at h
    cases valued : e.value with
    | error cause =>
      rw [valued] at h
      cases h
    | ok number' =>
      rw [valued] at h
      cases h
      exact ⟨e, found, valued⟩
  · exact absurd h (evaluate_ne_ok_of_fails fails)

theorem ends_evaluate (tokens : List Token) : Ends (Logged.evaluate tokens) (evaluate tokens) := by
  rcases reads_or_fails (some depthLimit) (.chain .additive) 0 tokens with
    ⟨e, rest, h⟩ | ⟨done, cause, h⟩
  · rw [evaluate_of_reads h]
    exact ends_evaluate_of_reads h
  · rw [evaluate_of_fails h]
    exact ends_evaluate_of_fails h

/-! ### The two operations on texts -/

theorem ends_tokenize (source : String) : Ends (Logged.tokenize source) (tokenize source) := by
  change Ends (_ >>= _) (Except.ok () >>= fun _ => tokenize source)
  refine (ends_reports _ _).bind fun _ => ?_
  rw [Calculator.tokenize]
  cases (Token.scan source).failure with
  | some failure => exact ends_throw failure
  | none => exact (ends_report _).bind fun _ => ends_pure _

/-- Fails if anything follows an expression. -/
def finish : List Token → Except Error Unit
  | [] => .ok ()
  | token :: _ => .error (.syntactic (.trailing token))

theorem ends_finish (rest : List Token) : Ends (Logged.finish rest) (finish rest) := by
  cases rest with
  | nil => exact ends_pure ()
  | cons token tail => exact ends_throw _

/-- A text is checked phase by phase. -/
theorem validate_eq (source : String) :
    validate source = (do
      let tokens ← (tokenize source).mapError .lexical
      let rest ← (check tokens).mapError .syntactic
      finish rest
      return tokens) := by
  refine Ends.result_eq ?_
  refine ((ends_tokenize source).mapError Error.lexical).bind fun tokens => ?_
  refine ((ends_check tokens).mapError Error.syntactic).bind fun rest => ?_
  exact (ends_finish rest).bind fun _ => ends_pure tokens

/-- A text is calculated phase by phase. -/
theorem calculate_eq (source : String) :
    calculate source = (do
      let tokens ← (tokenize source).mapError .lexical
      let (number, rest) ← evaluate tokens
      finish rest
      return number) := by
  refine Ends.result_eq ?_
  refine ((ends_tokenize source).mapError Error.lexical).bind fun tokens => ?_
  refine (ends_evaluate tokens).bind fun (number, rest) => ?_
  refine (ends_finish rest).bind fun _ => ?_
  exact (ends_report (.calculated source number)).bind fun _ => ends_pure number

end Calculator
