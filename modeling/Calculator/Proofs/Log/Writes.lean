import Calculator.Proofs.Calculation.Agreement

/-!
# What a stage writes to the log

A stage reports while it runs, and it never looks at the log. So it adds the same records whatever
has been reported before it, and `stage.Writes result records` says which ones, together with the
result. The relation is closed under sequencing: the records of two stages stand one behind the
other, and a stage that fails is the last one to write.

For a reading the records are those of its program: `exists_writes_read` carries what an
interpretation writes when it executes the recorded constructs over to the reading itself.
-/

namespace Calculator

open Grammar

namespace Logged

variable {ε ε' α β : Type}

/-- The stage has this result and adds these records to every log. -/
def Writes (stage : Logged ε α) (result : Except ε α) (records : List Record) : Prop :=
  ∀ log : Log, stage.run log =
    match result with
    | .ok value => .ok value (log ++ records.toArray)
    | .error cause => .error cause (log ++ records.toArray)

theorem Writes.result_eq {stage : Logged ε α} {result : Except ε α} {records : List Record}
    (h : stage.Writes result records) : stage.result = result := by
  cases result <;> simp [Logged.result, Logged.outcome, h #[]]

theorem Writes.toList_log {stage : Logged ε α} {result : Except ε α} {records : List Record}
    (h : stage.Writes result records) : stage.log.toList = records := by
  cases result <;> simp [Logged.log, Logged.outcome, h #[]]

theorem Writes.settled {stage : Logged ε α} {result : Except ε α} {records : List Record}
    (h : stage.Writes result records) : stage.Writes stage.result records :=
  h.result_eq ▸ h

theorem writes_pure (value : α) : (pure value : Logged ε α).Writes (.ok value) [] := by
  intro log
  simp [EStateM.run_pure]

theorem writes_throw (cause : ε) : (throw cause : Logged ε α).Writes (.error cause) [] := by
  intro log
  change EStateM.Result.error cause log = _
  simp

theorem writes_report (record : Record) :
    (report record : Logged ε Unit).Writes (.ok ()) [record] := by
  intro log
  change EStateM.Result.ok () (log.push record) = _
  simp

theorem Writes.bind {stage : Logged ε α} {next : α → Logged ε β} {value : α}
    {result : Except ε β} {records records' : List Record}
    (first : stage.Writes (.ok value) records) (second : (next value).Writes result records') :
    (stage >>= next).Writes result (records ++ records') := by
  intro log
  rw [EStateM.run_bind, first log]
  dsimp only
  rw [second]
  cases result <;> simp

theorem Writes.bind_silent {stage : Logged ε α} {next : α → Logged ε β} {value : α}
    {result : Except ε β} {records : List Record} (first : stage.Writes (.ok value) records)
    (second : (next value).Writes result []) : (stage >>= next).Writes result records := by
  simpa using first.bind second

/-- What follows a stage that fails writes nothing. -/
theorem Writes.bind_error {stage : Logged ε α} {cause : ε} {records : List Record}
    (first : stage.Writes (.error cause) records) (next : α → Logged ε β) :
    (stage >>= next).Writes (.error cause) records := by
  intro log
  rw [EStateM.run_bind, first log]

theorem Writes.mapError (f : ε → ε') {stage : Logged ε α} {result : Except ε α}
    {records : List Record} (h : stage.Writes result records) :
    (stage.mapError f).Writes (result.mapError f) records := by
  intro log
  change stage.mapError f log = _
  rw [Logged.mapError, h log]
  cases result <;> rfl

theorem writes_reports {γ : Type} (items : List γ) (record : γ → Record) :
    Writes (items.forM fun item => report (record item) : Logged ε Unit) (.ok ())
      (items.map record) := by
  induction items with
  | nil => exact writes_pure ()
  | cons item items ih => exact (writes_report (record item)).bind ih

end Logged

open Logged

/-! ### Readings -/

/-- How a reading can end when its program has been executed with the given outcome: with the same
error, or as the tokens have it. -/
inductive Grammar.Interpretation.Concludes {ε α : Type} (interp : Interpretation Log ε α) :
    Except ε (Option (List α)) → Except ε (α × List Token) → Prop where
  /-- A construct has failed. -/
  | failed (e : ε) : interp.Concludes (.error e) (.error e)
  /-- The tokens begin with an expression. -/
  | found (stack : List α) (value : α) (rest : List Token) :
    interp.Concludes (.ok (some stack)) (.ok (value, rest))
  /-- The tokens do not begin with an expression. -/
  | malformed (stack : List α) (cause : SyntaxError) :
    interp.Concludes (.ok (some stack)) (.error (interp.malformed cause))

/-- **A reading writes what its program writes.** -/
theorem exists_writes_read {ε α : Type} (interp : Interpretation Log ε α) {limit : Option Nat}
    {tokens : List Token} {outcome : Except ε (Option (List α))} {records : List Record}
    (executed : Writes (Postfix.exec interp (record limit tokens).program []) outcome records) :
    ∃ result, interp.Concludes outcome result ∧
      Writes (read interp limit tokens) result records := by
  have determined := fun log => executed log ▸ determines_read interp limit tokens log
  match outcome with
  | .error e => exact ⟨.error e, .failed e, determined⟩
  | .ok none => exact (determined #[]).elim
  | .ok (some stack) =>
    simp only [Recording.Determines] at determined
    cases ending : (record limit tokens).ending with
    | ok rest =>
      rw [ending] at determined
      obtain ⟨value, rfl, -⟩ := determined #[]
      refine ⟨.ok (value, rest), .found _ _ _, fun log => ?_⟩
      obtain ⟨_, same, run⟩ := determined log
      cases same
      exact run
    | error halt =>
      rw [ending] at determined
      cases halt with
      | malformed cause => exact ⟨_, .malformed stack cause, determined⟩
      | stopped _ => exact (determined #[]).elim

end Calculator
