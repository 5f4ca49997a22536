import Mathlib
import Calculator.Grammar.Postfix
import Calculator.Grammar.Transcript
import Calculator.Proofs.Grammar.Effect

/-!
# One reading, any interpretation

A recorded reading knows nothing of any other interpretation, and yet it says all about them: the
constructs that it lists are a program for a stack of values, and a reading under an interpretation
is the execution of that program, followed by the ending of the recorded reading. So the same
constructs are performed in the same order whatever they are made to mean, up to the first one that
fails.

* `exec_constructs` — the constructs of a tree push the effect of the tree onto the stack, in front
  of any program and on any stack.
* `exec_eq_error_iff` — a program fails at the first of its constructs that fails.
* `record_of_reads`, `record_of_fails` — the record of a reading is the constructs of its trees.
* `FailsBehind.observed` — what an interpretation has performed when a construct fails is the part
  of the program in front of that construct.
* `read_replays_record` — the replay.
-/

namespace Calculator

open Grammar

variable {σ ε α : Type}

/-! ### The program of a tree -/

/-- The bare constructs of a tree in the order of their completion. -/
def Expression.constructs : Expression → List (Construct Unit)
  | .literal whole fraction => [.literal whole fraction]
  | .operation op left right => left.constructs ++ right.constructs ++ [.operation op () ()]
  | .scaled mantissa exponent => mantissa.constructs ++ exponent.constructs ++ [.scaled () ()]
  | .application function argument => argument.constructs ++ [.application function ()]
  | .negation operand => operand.constructs ++ [.negation ()]
  | .parenthesized inner => inner.constructs ++ [.parenthesized ()]

namespace Grammar

section Execution

variable (interp : Interpretation σ ε α)

/-- A construct whose operands are on the stack is performed on them. -/
theorem exec_cons {construct : Construct Unit} {stack below : List α} {loaded : Construct α}
    (load : construct.load? stack = some (loaded, below)) (program : List (Construct Unit)) :
    Postfix.exec interp (construct :: program) stack =
      interp.perform loaded >>= fun value => Postfix.exec interp program (value :: below) := by
  rw [Postfix.exec, load]

/-- **The program of a tree** pushes its value. -/
theorem exec_constructs (e : Expression) (program : List (Construct Unit)) (stack : List α) :
    Postfix.exec interp (e.constructs ++ program) stack =
      e.interpret interp >>= fun value => Postfix.exec interp program (value :: stack) := by
  induction e generalizing program stack with
  | literal whole fraction => exact exec_cons interp rfl program
  | operation op _ _ left right | scaled _ _ left right =>
    rw [Expression.constructs, List.append_assoc, List.append_assoc, left, Expression.interpret,
      bind_assoc]
    refine bind_congr fun first => ?_
    -- The right operand is executed with the value of the left one on the stack.
    rw [right, bind_assoc]
    exact bind_congr fun second => exec_cons interp rfl program
  | application _ _ inner | negation _ inner | parenthesized _ inner =>
    rw [Expression.constructs, List.append_assoc, inner, Expression.interpret, bind_assoc]
    exact bind_congr fun value => exec_cons interp rfl program

/-- A program can be executed in two parts, unless the first one finds the stack too small. -/
theorem exec_append (program program' : List (Construct Unit)) (stack : List α) :
    Postfix.exec interp (program ++ program') stack =
      Postfix.exec interp program stack >>= fun
        | some stack' => Postfix.exec interp program' stack'
        | none => return none := by
  induction program generalizing stack with
  | nil => rfl
  | cons construct program ih =>
    rw [List.cons_append]
    cases load : construct.load? stack with
    | none =>
      rw [Postfix.exec, Postfix.exec, load]
      rfl
    | some found =>
      rw [exec_cons interp load, exec_cons interp load, bind_assoc]
      exact bind_congr fun value => ih (value :: found.2)

/-- Behind a part of a program, a construct finds its operands on the stack and fails. -/
def FailsBehind (stack : List α) (s : σ) (before : List (Construct Unit)) (construct : Construct α)
    (e : ε) (s' : σ) : Prop :=
  ∃ stack' middle below, (Postfix.exec interp before stack).run s = .ok (some stack') middle ∧
    construct.bare.load? stack' = some (construct, below) ∧
    (interp.perform construct).run middle = .error e s'

/-- **A program fails at the first construct that fails.** -/
theorem exec_eq_error_iff {program : List (Construct Unit)} {stack : List α} {s s' : σ} {e : ε} :
    (Postfix.exec interp program stack).run s = .error e s' ↔
      ∃ before construct after, program = before ++ Construct.bare construct :: after ∧
        FailsBehind interp stack s before construct e s' := by
  constructor
  · intro fails
    induction program generalizing stack s with
    | nil => cases fails
    | cons construct program ih =>
      cases load : construct.load? stack with
      | none =>
        -- A stack that is too small is no error of the interpretation.
        rw [Postfix.exec, load] at fails
        cases fails
      | some found =>
        obtain ⟨loaded, below⟩ := found
        have bare := Construct.bare_of_load? load
        rw [exec_cons interp load, EStateM.run_bind] at fails
        cases performed : (interp.perform loaded).run s with
        | error e₁ s₁ =>
          rw [performed] at fails
          cases fails
          refine ⟨[], loaded, program, by rw [bare]; rfl, stack, s, below, rfl, ?_, performed⟩
          rw [bare, load]
        | ok value s₁ =>
          rw [performed] at fails
          obtain ⟨before, failed, after, rfl, stack', middle, below', run, rest⟩ := ih fails
          refine ⟨construct :: before, failed, after, rfl, stack', middle, below', ?_, rest⟩
          rw [exec_cons interp load, EStateM.run_bind, performed]
          exact run
  · rintro ⟨before, construct, after, rfl, stack', middle, below, run, load, performed⟩
    -- What stands behind the construct is never reached.
    rw [exec_append, EStateM.run_bind, run]
    dsimp only
    rw [exec_cons interp load, EStateM.run_bind, performed]

/-- The programs of trees, executed one after the other, go as far as the trees do when they are
abandoned. They end with the stack that is then given up. -/
theorem exec_of_abandon (β : Type) (cause : SyntaxError) (done : List Expression) (stack : List α)
    (s : σ) :
    match (Postfix.exec interp (done.flatMap Expression.constructs) stack).run s with
    | .error e s' => (interp.abandon cause done : EStateM ε σ β).run s = .error e s'
    | .ok (some _) s' =>
      (interp.abandon cause done : EStateM ε σ β).run s = .error (interp.malformed cause) s'
    | .ok none _ => False := by
  induction done generalizing stack s with
  | nil => rfl
  | cons e done ih =>
    rw [List.flatMap_cons, exec_constructs, Interpretation.abandon, EStateM.run_bind,
      EStateM.run_bind]
    -- Both sides begin with the effect of the first tree.
    cases (e.interpret interp).run s with
    | error => rfl
    | ok value middle => exact ih (value :: stack) middle

end Execution

/-! ### The record of a reading -/

/-- The bare constructs of a transcript. -/
def Transcript.program (transcript : Transcript) : List (Construct Unit) :=
  transcript.toList.map Construct.bare

/-- What a recorded reading leaves behind: the constructs it has performed, and the tokens behind
the expression or the reason why there is none. -/
structure Recording where
  program : List (Construct Unit)
  ending : Except Transcript.Halt (List Token)

/-- Records the reading of the expression at the start of the tokens, without a stop. -/
def record (limit : Option Nat) (tokens : List Token) : Recording :=
  match (read (Transcript.recorder none) limit tokens).run #[] with
  | .ok (_, rest) transcript => ⟨transcript.program, .ok rest⟩
  | .error halt transcript => ⟨transcript.program, .error halt⟩

/-- The reading step succeeds and appends a program to every transcript. -/
def Records {α : Type} (step : EStateM Transcript.Halt Transcript α)
    (program : List (Construct Unit)) : Prop :=
  ∀ transcript, ∃ value transcript', step.run transcript = .ok value transcript' ∧
    transcript'.program = transcript.program ++ program

/-- A recorder without a stop never fails. -/
theorem records_perform (construct : Construct Nat) :
    Records ((Transcript.recorder none).perform construct) [construct.bare] := by
  intro transcript
  refine ⟨transcript.size, transcript.push construct, rfl, ?_⟩
  simp [Transcript.program]

theorem Records.bind {α β : Type} {step : EStateM Transcript.Halt Transcript α}
    {next : α → EStateM Transcript.Halt Transcript β} {program program' : List (Construct Unit)}
    (first : Records step program) (second : ∀ value, Records (next value) program') :
    Records (step >>= next) (program ++ program') := by
  intro transcript
  obtain ⟨value, middle, run, appended⟩ := first transcript
  obtain ⟨value', last, run', appended'⟩ := second value middle
  refine ⟨value', last, ?_, ?_⟩
  · rw [EStateM.run_bind, run]
    exact run'
  · rw [appended', appended, List.append_assoc]

/-- Recording a tree appends its constructs. -/
theorem records_interpret (e : Expression) :
    Records (e.interpret (Transcript.recorder none)) e.constructs := by
  induction e with
  | literal whole fraction => exact records_perform (.literal whole fraction)
  | operation op _ _ left right =>
    rw [Expression.constructs, List.append_assoc]
    exact left.bind fun l => right.bind fun r => records_perform (.operation op l r)
  | scaled _ _ left right =>
    rw [Expression.constructs, List.append_assoc]
    exact left.bind fun m => right.bind fun x => records_perform (.scaled m x)
  | application function _ inner =>
    exact inner.bind fun argument => records_perform (.application function argument)
  | negation _ inner => exact inner.bind fun operand => records_perform (.negation operand)
  | parenthesized _ inner => exact inner.bind fun value => records_perform (.parenthesized value)

/-- Recording a reading that fails appends the constructs of the trees it completed. -/
theorem run_abandon_recorder (β : Type) (cause : SyntaxError) (done : List Expression)
    (transcript : Transcript) :
    ∃ transcript', ((Transcript.recorder none).abandon cause done :
          EStateM Transcript.Halt Transcript β).run transcript =
        .error (.malformed cause) transcript' ∧
      transcript'.program = transcript.program ++ done.flatMap Expression.constructs := by
  induction done generalizing transcript with
  | nil => exact ⟨transcript, rfl, by simp⟩
  | cons e done ih =>
    obtain ⟨value, middle, run, appended⟩ := records_interpret e transcript
    obtain ⟨last, run', appended'⟩ := ih middle
    refine ⟨last, ?_, ?_⟩
    · rw [Interpretation.abandon, EStateM.run_bind, run]
      exact run'
    · rw [appended', appended, List.append_assoc, List.flatMap_cons]

theorem record_of_reads {limit : Option Nat} {tokens rest : List Token} {e : Expression}
    (h : Reads limit (.rule (.chain .additive)) 0 tokens e rest) :
    record limit tokens = ⟨e.constructs, .ok rest⟩ := by
  obtain ⟨value, transcript, run, appended⟩ := records_interpret e #[]
  rw [record, read_of_reads _ h, EStateM.run_bind, run]
  exact congrArg (Recording.mk · _) appended

theorem record_of_fails {limit : Option Nat} {tokens : List Token} {done : List Expression}
    {cause : SyntaxError} (h : Fails limit (.chain .additive) 0 tokens done cause) :
    record limit tokens = ⟨done.flatMap Expression.constructs, .error (.malformed cause)⟩ := by
  obtain ⟨transcript, run, appended⟩ := run_abandon_recorder (Nat × List Token) cause done #[]
  rw [record, read_of_fails _ h, run]
  exact congrArg (Recording.mk · _) appended

/-! ### What an interpretation has seen -/

/-- An interpretation together with the constructs it has performed. -/
def Interpretation.observed (interp : Interpretation σ ε α) :
    Interpretation (σ × List (Construct Unit)) ε α where
  perform construct := fun (s, seen) =>
    match (interp.perform construct).run s with
    | .ok value s' => .ok value (s', seen ++ [construct.bare])
    | .error e s' => .error e (s', seen)
  malformed := interp.malformed

/-- Only binary operations can fail. -/
def Interpretation.FailsAtOperations (interp : Interpretation σ ε α) : Prop :=
  ∀ construct s e s', (interp.perform construct).run s = .error e s' → construct.operator?.isSome

theorem run_observed (interp : Interpretation σ ε α) (construct : Construct α) (s : σ)
    (seen : List (Construct Unit)) :
    (interp.observed.perform construct).run (s, seen) =
      match (interp.perform construct).run s with
      | .ok value s' => .ok value (s', seen ++ [construct.bare])
      | .error e s' => .error e (s', seen) := rfl

/-- A program that is executed to its end has been seen. -/
theorem exec_observed (interp : Interpretation σ ε α) {program : List (Construct Unit)}
    {stack stack' : List α} {s s' : σ} (seen : List (Construct Unit))
    (run : (Postfix.exec interp program stack).run s = .ok (some stack') s') :
    (Postfix.exec interp.observed program stack).run (s, seen) =
      .ok (some stack') (s', seen ++ program) := by
  induction program generalizing stack s seen with
  | nil =>
    cases run
    rw [List.append_nil]
    rfl
  | cons construct program ih =>
    cases load : construct.load? stack with
    | none =>
      rw [Postfix.exec, load] at run
      cases run
    | some found =>
      rw [exec_cons interp load, EStateM.run_bind] at run
      rw [exec_cons _ load, EStateM.run_bind, run_observed, Construct.bare_of_load? load]
      cases performed : (interp.perform found.1).run s with
      | error e₁ s₁ =>
        rw [performed] at run
        cases run
      | ok value s₁ =>
        rw [performed] at run
        have whole := ih (seen ++ [construct]) run
        rw [← List.append_cons] at whole
        exact whole

/-- **What has been performed when a construct fails** is the program in front of that construct. -/
theorem FailsBehind.observed {interp : Interpretation σ ε α} {stack : List α} {s s' : σ} {e : ε}
    {before : List (Construct Unit)} {construct : Construct α}
    (h : FailsBehind interp stack s before construct e s') :
    FailsBehind interp.observed stack (s, []) before construct e (s', before) := by
  obtain ⟨stack', middle, below, run, load, performed⟩ := h
  refine ⟨stack', (middle, before), below, exec_observed interp [] run, load, ?_⟩
  rw [run_observed, performed]

/-! ### The replay -/

/-- How a reading has to end when its record has been executed with the given outcome. An error of
the execution is the error of the reading. Otherwise the reading ends as the recorded one did: with
the same rest and the only value on the stack, or with the error for the same cause. -/
def Recording.Determines (recording : Recording) (interp : Interpretation σ ε α)
    (outcome : EStateM.Result ε σ (Option (List α)))
    (reading : EStateM.Result ε σ (α × List Token)) : Prop :=
  match outcome with
  | .ok none _ => False
  | .error e s' => reading = .error e s'
  | .ok (some stack) s' =>
    match recording.ending with
    | .ok rest => ∃ value, stack = [value] ∧ reading = .ok (value, rest) s'
    | .error (.malformed cause) => reading = .error (interp.malformed cause) s'
    | .error (.stopped _) => False

theorem determines_of_reads (interp : Interpretation σ ε α) {limit : Option Nat}
    {tokens rest : List Token} {e : Expression}
    (h : Reads limit (.rule (.chain .additive)) 0 tokens e rest) (s : σ) :
    (record limit tokens).Determines interp
      ((Postfix.exec interp (record limit tokens).program []).run s)
      ((read interp limit tokens).run s) := by
  rw [record_of_reads h, read_of_reads interp h, EStateM.run_bind]
  have pushed := exec_constructs interp e [] []
  rw [List.append_nil] at pushed
  rw [pushed, EStateM.run_bind]
  cases (e.interpret interp).run s with
  | error => exact rfl
  | ok value s' => exact ⟨value, rfl, rfl⟩

theorem determines_of_fails (interp : Interpretation σ ε α) {limit : Option Nat}
    {tokens : List Token} {done : List Expression} {cause : SyntaxError}
    (h : Fails limit (.chain .additive) 0 tokens done cause) (s : σ) :
    (record limit tokens).Determines interp
      ((Postfix.exec interp (record limit tokens).program []).run s)
      ((read interp limit tokens).run s) := by
  rw [record_of_fails h, read_of_fails interp h]
  have abandoned := exec_of_abandon interp (α × List Token) cause done [] s
  revert abandoned
  generalize (Postfix.exec interp (done.flatMap Expression.constructs) []).run s = outcome
  intro abandoned
  match outcome with
  | .ok none _ => exact abandoned
  | .ok (some _) _ => exact abandoned
  | .error _ _ => exact abandoned

theorem determines_read (interp : Interpretation σ ε α) (limit : Option Nat) (tokens : List Token)
    (s : σ) :
    (record limit tokens).Determines interp
      ((Postfix.exec interp (record limit tokens).program []).run s)
      ((read interp limit tokens).run s) := by
  rcases reads_or_fails limit (.chain .additive) 0 tokens with ⟨e, rest, h⟩ | ⟨done, cause, h⟩
  · exact determines_of_reads interp h s
  · exact determines_of_fails interp h s

/-- **A reading replays its record.** Under every interpretation, the constructs of the recorded
reading can be executed on an empty stack, which never is too small for them, and the outcome
determines the reading. If one of the constructs fails, the reading has performed exactly the ones
in front of it; if only binary operations can fail, it is a binary operation. -/
theorem read_replays_record (interp : Interpretation σ ε α) (limit : Option Nat)
    (tokens : List Token) (s : σ) :
    (record limit tokens).Determines interp
        ((Postfix.exec interp (record limit tokens).program []).run s)
        ((read interp limit tokens).run s) ∧
      ∀ e s', (Postfix.exec interp (record limit tokens).program []).run s = .error e s' →
        ∃ before construct after, (record limit tokens).program = before ++ construct :: after ∧
          (interp.FailsAtOperations → construct.operator?.isSome) ∧
          (read interp.observed limit tokens).run (s, []) = .error e (s', before) := by
  refine ⟨determines_read interp limit tokens s, ?_⟩
  intro e s' fails
  obtain ⟨before, construct, after, parts, behind⟩ := (exec_eq_error_iff interp).mp fails
  refine ⟨before, construct.bare, after, parts, ?_, ?_⟩
  · intro only
    obtain ⟨_, middle, _, _, _, performed⟩ := behind
    rw [Construct.bare, Construct.operator?_map]
    exact only construct middle e s' performed
  · have observed := determines_read interp.observed limit tokens (s, [])
    have failed := (exec_eq_error_iff _).mpr ⟨before, construct, after, parts, behind.observed⟩
    rw [failed] at observed
    exact observed

/-- In `x/y+` an operand is missing, and the division in front of the sign has been recorded. -/
example (x y : Float) : record none [.number x, .operator .div, .number y, .operator .add] =
    ⟨[.literal x none, .literal y none, .operation .div () ()],
      .error (.malformed .unexpectedEnd)⟩ := by
  cbv

end Grammar

end Calculator
