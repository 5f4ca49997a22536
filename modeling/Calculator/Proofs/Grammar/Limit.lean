import Calculator.Proofs.Calculation.Tree
import Calculator.Proofs.Grammar.Calls
import Calculator.Proofs.Grammar.Replay

/-!
# The limit on the nesting

A reading with a limit and one without are the same reading, except that the first one gives up
where the nesting reaches the limit. Nothing else depends on the limit, so where it matters can be
said from the outside:

* Under a wider limit, a reading does the same or has failed at the narrower one (`run_upTo`). The
  two run alike up to the place that is too deep, so an interpretation has been asked about the same
  constructs before.
* A tree is read under a limit if it nests no deeper (`Reads.relocate`), and if it nests deeper, the
  reading fails at the limit (`Reads.fails_of_deep`).
* A failure at the limit needs more tokens that nest than the limit allows levels
  (`Fails.lt_countP_nests`).
* No rule is called at a depth beyond the limit (`Leads.depth_le`).

Main statement: `read_limit`.
-/

namespace Calculator

open Grammar

variable {σ ε α β : Type}

namespace Grammar

/-! ### Computations that may fail instead -/

/-- The first computation does what the second one does, or it fails with the error. -/
def UpTo (error : ε) (step step' : EStateM ε σ β) : Prop :=
  ∀ s, step.run s = step'.run s ∨ ∃ s', step.run s = .error error s'

theorem UpTo.of_eq {error : ε} {step step' : EStateM ε σ β} (h : step = step') :
    UpTo error step step' :=
  fun _ => .inl (by rw [h])

theorem UpTo.bind {γ : Type} {error : ε} {step step' : EStateM ε σ β}
    {next next' : β → EStateM ε σ γ} (first : UpTo error step step')
    (second : ∀ value, UpTo error (next value) (next' value)) :
    UpTo error (step >>= next) (step' >>= next') := by
  intro s
  rw [EStateM.run_bind, EStateM.run_bind]
  rcases first s with same | ⟨s', failed⟩
  · rw [same]
    cases step'.run s with
    | error e s' => exact .inl rfl
    | ok value s' => exact second value s'
  · rw [failed]
    exact .inr ⟨s', rfl⟩

/-- What is abandoned instead of a computation is also abandoned instead of a longer one. -/
theorem UpTo.abandon_bind {γ : Type} {error : ε} {interp : Interpretation σ ε α}
    {cause : SyntaxError} {done : List Expression} {step : EStateM ε σ β} {next : β → EStateM ε σ γ}
    (h : UpTo error (interp.abandon cause done) step) :
    UpTo error (interp.abandon cause done) (step >>= next) := by
  rw [← interp.abandon_bind cause done next]
  exact h.bind fun _ => .of_eq rfl

/-! ### A wider limit -/

section Wider

variable (interp : Interpretation σ ε α) {most : Nat} {limit : Option Nat}

theorem Admits.widen {depth : Nat} (h : Admits (some most) depth)
    (wider : ∀ most', limit = some most' → most ≤ most') : Admits limit depth := by
  intro most' limited
  exact Nat.lt_of_lt_of_le (h most rfl) (wider most' limited)

/-- What is read under a limit is read under every wider one. -/
theorem Reads.widen {goal : Goal} {depth : Nat} {tokens rest : List Token} {e : Expression}
    (h : Reads (some most) goal depth tokens e rest)
    (wider : ∀ most', limit = some most' → most ≤ most') :
    Reads limit goal depth tokens e rest := by
  induction h with
  | first _ ih => exact .first ih
  | next joins _ _ before last => exact .next joins before last
  | chain _ settled ih => exact .chain ih settled
  | plain _ unmarked ih => exact .plain ih unmarked
  | scaled _ _ before last => exact .scaled before last
  | integer whole pointless => exact .integer whole pointless
  | decimal whole fraction => exact .decimal whole fraction
  | enclosed enclosure admitted _ ih => exact .enclosed enclosure (admitted.widen wider) ih
  | negation admitted _ ih => exact .negation (admitted.widen wider) ih

/-- A fault that is not one of the depth is met under every wider limit. -/
theorem Fails.widen {rule : Rule} {depth : Nat} {tokens : List Token} {done : List Expression}
    {cause : SyntaxError} (h : Fails (some most) rule depth tokens done cause)
    (wider : ∀ most', limit = some most' → most ≤ most') (shallow : ∀ n, cause ≠ .tooDeep n) :
    Fails limit rule depth tokens done cause := by
  induction h with
  | first _ ih => exact .first (ih shallow)
  | next joins before _ ih => exact .next joins (before.widen wider) (ih shallow)
  | mantissa _ ih => exact .mantissa (ih shallow)
  | exponent left _ ih => exact .exponent (left.widen wider) (ih shallow)
  | missingDigits whole missing => exact .missingDigits whole missing
  | tooDeep _ _ _ => exact absurd rfl (shallow _)
  | inner enclosure admitted _ ih => exact .inner enclosure (admitted.widen wider) (ih shallow)
  | unclosed enclosure admitted inner unclosed =>
    exact .unclosed enclosure (admitted.widen wider) (inner.widen wider) unclosed
  | negation admitted _ ih => exact .negation (admitted.widen wider) (ih shallow)
  | unexpected strange => exact .unexpected strange
  | unexpectedEnd => exact .unexpectedEnd

/-- **A reading that fails at the limit** has done what it does under a wider one up to the place
that is too deep. -/
theorem Fails.upTo {rule : Rule} {depth n : Nat} {tokens : List Token} {done : List Expression}
    (h : Fails (some most) rule depth tokens done (.tooDeep n))
    (wider : ∀ most', limit = some most' → most ≤ most') :
    UpTo (interp.malformed (.tooDeep most)) (interp.abandon (.tooDeep n) done)
      (run interp limit rule depth tokens) := by
  generalize deep : SyntaxError.tooDeep n = cause at h
  -- The trees in front of the part at fault are the same in both readings. What follows it is not
  -- reached by the first one.
  induction h with
  | first _ ih =>
    rw [run, chain, operand_eq_run]
    exact (ih deep).abandon_bind
  | next joins before _ ih =>
    rw [run, chain_of_begun interp (before.widen wider), Interpretation.abandon]
    refine (UpTo.of_eq rfl).bind fun left => ?_
    rw [fold_operator interp joins]
    exact (ih deep).abandon_bind
  | mantissa _ ih =>
    rw [run_scaled]
    exact (ih deep).abandon_bind
  | exponent left _ ih =>
    rw [run_scaled, run_of_reads interp (left.widen wider), finds, bind_assoc, Interpretation.abandon]
    refine (UpTo.of_eq rfl).bind fun mantissa => ?_
    rw [pure_bind]
    exact (ih deep).abandon_bind
  | tooDeep limited _ _ =>
    cases limited
    exact fun s => .inr ⟨s, rfl⟩
  | inner enclosure admitted _ ih =>
    rw [run, atom_opener, bracketed_of_admits interp (admitted.widen wider)]
    exact (ih deep).abandon_bind.abandon_bind
  | negation admitted _ ih =>
    rw [run_negation interp (admitted.widen wider)]
    exact (ih deep).abandon_bind
  | missingDigits | unclosed | unexpected | unexpectedEnd => cases deep

/-- **The two runs.** Under a limit, a rule does what it does under a wider one, or it fails at the
limit. -/
theorem run_upTo (wider : ∀ most', limit = some most' → most ≤ most') (rule : Rule) (depth : Nat)
    (tokens : List Token) :
    UpTo (interp.malformed (.tooDeep most)) (run interp (some most) rule depth tokens)
      (run interp limit rule depth tokens) := by
  rcases reads_or_fails (some most) rule depth tokens with ⟨e, rest, found⟩ | ⟨done, cause, fails⟩
  · rw [run_of_reads interp found, run_of_reads interp (found.widen wider)]
    exact .of_eq rfl
  · rw [run_of_fails interp fails]
    by_cases deep : ∃ n, cause = .tooDeep n
    · obtain ⟨n, rfl⟩ := deep
      exact fails.upTo interp wider
    · have same := fails.widen wider fun n h => deep ⟨n, h⟩
      exact .of_eq (run_of_fails interp same).symm

theorem read_upTo (wider : ∀ most', limit = some most' → most ≤ most') (tokens : List Token) :
    UpTo (interp.malformed (.tooDeep most)) (read interp (some most) tokens)
      (read interp limit tokens) :=
  (run_upTo interp wider (.chain .additive) 0 tokens).bind fun _ => .of_eq rfl

end Wider

/-! ### Tokens that nest -/

/-- What is left behind an expression and another token has no more tokens that nest. -/
theorem Reads.countP_nests_le {limit : Option Nat} {goal : Goal} {depth : Nat}
    {tokens middle : List Token} {e : Expression} {token : Token}
    (h : Reads limit goal depth tokens e (token :: middle)) :
    middle.countP Token.nests ≤ tokens.countP Token.nests := by
  rw [h.tokens_eq, List.countP_append, List.countP_cons]
  omega

/-- **To reach the limit, it takes more tokens that nest** than there are levels left. -/
theorem Fails.lt_countP_nests {most n : Nat} {rule : Rule} {depth : Nat} {tokens : List Token}
    {done : List Expression} (h : Fails (some most) rule depth tokens done (.tooDeep n)) :
    most < depth + tokens.countP Token.nests := by
  generalize deep : SyntaxError.tooDeep n = cause at h
  -- Each level that has been entered has been opened by one of these tokens.
  induction h with
  | first _ ih | mantissa _ ih => exact ih deep
  | next _ before _ ih | exponent before _ ih =>
    exact Nat.lt_of_lt_of_le (ih deep) (Nat.add_le_add_left before.countP_nests_le _)
  | tooDeep limited reached nests =>
    cases limited
    rw [List.countP_cons_of_pos nests]
    omega
  | inner enclosure _ _ ih =>
    have inside := ih deep
    rw [List.countP_cons_of_pos enclosure.nests_opener]
    omega
  | negation _ _ ih =>
    have inside := ih deep
    rw [List.countP_cons_of_pos rfl]
    omega
  | missingDigits | unclosed | unexpected | unexpectedEnd => cases deep

/-! ### Calls within the limit -/

/-- **One call.** A rule within the limit calls rules within the limit. -/
theorem Asks.depth_le {most : Nat} {request request' : Request}
    (h : Asks (some most) request request') (within : request.depth ≤ most) :
    request'.depth ≤ most := by
  cases h with
  | inner _ admitted | negation admitted => exact admitted most rfl
  | _ => exact within

/-- **All calls.** -/
theorem Leads.depth_le {most : Nat} {request request' : Request}
    (h : Leads (some most) request request') (within : request.depth ≤ most) :
    request'.depth ≤ most := by
  induction h with
  | refl => exact within
  | tail _ asks ih => exact asks.depth_le ih

/-! ### Where an error comes from -/

/-- An error of a reading is one of a construct or the cause that the reading has met. -/
theorem error_of_read (interp : Interpretation σ ε α) {limit : Option Nat} {tokens : List Token}
    {e : ε} {s s' : σ} (h : (read interp limit tokens).run s = .error e s') :
    (∃ construct middle, (interp.perform construct).run middle = .error e s') ∨
      ∃ done cause, Fails limit (.chain .additive) 0 tokens done cause ∧ e = interp.malformed cause := by
  have determined := determines_read interp limit tokens s
  rw [h] at determined
  cases replayed : (Postfix.exec interp (record limit tokens).program []).run s with
  | error e₁ s₁ =>
    rw [replayed] at determined
    cases determined
    obtain ⟨_, construct, _, _, _, middle, _, _, _, performed⟩ :=
      (exec_eq_error_iff interp).mp replayed
    exact .inl ⟨construct, middle, performed⟩
  | ok stack s₁ =>
    rw [replayed] at determined
    cases stack with
    | none => exact determined.elim
    | some stack =>
      -- No construct has failed, so the reading ends as the record does.
      rcases reads_or_fails limit (.chain .additive) 0 tokens with
        ⟨_, _, found⟩ | ⟨done, cause, fails⟩
      · simp only [Recording.Determines, record_of_reads found] at determined
        obtain ⟨_, _, same⟩ := determined
        cases same
      · simp only [Recording.Determines, record_of_fails fails] at determined
        injection determined with same
        exact .inr ⟨done, cause, fails, same⟩

/-! ### The limit of a reading -/

/-- A tree that a reading without a limit has found is read under a limit that it does not exceed. -/
theorem read_of_nesting_le {interp : Interpretation σ ε α} {most : Nat} {tokens rest : List Token}
    {e : Expression} (h : Reads none (.rule (.chain .additive)) 0 tokens e rest)
    (within : e.nesting ≤ most) : read interp (some most) tokens = read interp none tokens := by
  have found := h.relocate (room_some (by omega : ¬ most < 0 + e.nesting))
  rw [read_of_reads interp found, read_of_reads interp h]

/-- If it exceeds the limit, the reading fails there, unless a construct has failed before. -/
theorem read_of_lt_nesting {interp : Interpretation σ ε α} {most : Nat} {tokens rest : List Token}
    {e : Expression} (h : Reads none (.rule (.chain .additive)) 0 tokens e rest)
    (deep : most < e.nesting) {s s' : σ} {value : α}
    (succeeds : (read interp none tokens).run s = .ok (value, rest) s') :
    ∃ s'', (read interp (some most) tokens).run s =
      .error (interp.malformed (.tooDeep most)) s'' := by
  obtain ⟨done, fails⟩ := h.fails_of_deep (Nat.zero_le most) (by omega)
  rcases read_upTo interp (nofun : ∀ most', none = some most' → most ≤ most') tokens s with
    same | failed
  · rw [succeeds, read_of_fails interp fails] at same
    exact absurd same interp.abandon_ne_ok
  · exact failed

/-- With no more tokens that nest than the limit allows levels, there is no fault of the depth. -/
theorem Fails.shallow_of_countP_le {most : Nat} {tokens : List Token} {done : List Expression}
    {cause : SyntaxError} (h : Fails (some most) (.chain .additive) 0 tokens done cause)
    (few : tokens.countP Token.nests ≤ most) (n : Nat) : cause ≠ .tooDeep n := by
  rintro rfl
  have more := h.lt_countP_nests
  omega

theorem read_of_countP_le {interp : Interpretation σ ε α} {most : Nat} {tokens : List Token}
    (few : tokens.countP Token.nests ≤ most) :
    read interp (some most) tokens = read interp none tokens := by
  have wider : ∀ most', none = some most' → most ≤ most' := nofun
  rcases reads_or_fails (some most) (.chain .additive) 0 tokens with
    ⟨e, rest, found⟩ | ⟨done, cause, fails⟩
  · rw [read_of_reads interp found, read_of_reads interp (found.widen wider)]
  · have same := fails.widen wider (fails.shallow_of_countP_le few)
    rw [read_of_fails interp fails, read_of_fails interp same]

end Grammar

/-- **The limit is exact and does no harm.** Under every interpretation, a reading with a limit is
the reading without one, up to this:

* If the reading without a limit succeeds, it has found a tree, and the reading with the limit has
  the same result if the tree nests no deeper than the limit. If it nests deeper, the reading fails
  at the limit.
* If the reading without a limit fails, the reading with the limit fails in the same way, or at the
  limit.
* With no more tokens that nest than the limit allows levels, the two readings are the same, and an
  error is one of a construct or has a cause other than the depth.
* What is not a failure at the limit is the same under every wider limit.
* No rule is called at a depth beyond the limit: all requests are within it, and rules that do what
  a reading does within the limit, and anything beyond it, read the same. -/
theorem read_limit (interp : Interpretation σ ε α) (most : Nat) (tokens : List Token) :
    (∀ s value rest s', (read interp none tokens).run s = .ok (value, rest) s' →
      ∃ e, (read Expression.builder none tokens).run () = .ok (e, rest) () ∧
        (e.nesting ≤ most → (read interp (some most) tokens).run s = .ok (value, rest) s') ∧
        (most < e.nesting → ∃ s'', (read interp (some most) tokens).run s =
          .error (interp.malformed (.tooDeep most)) s'')) ∧
    (∀ s e s', (read interp none tokens).run s = .error e s' →
      (read interp (some most) tokens).run s = .error e s' ∨
        ∃ s'', (read interp (some most) tokens).run s =
          .error (interp.malformed (.tooDeep most)) s'') ∧
    (tokens.countP Token.nests ≤ most →
      read interp (some most) tokens = read interp none tokens ∧
        ∀ s e s', (read interp (some most) tokens).run s = .error e s' →
          (∃ construct middle, (interp.perform construct).run middle = .error e s') ∨
            ∃ cause, (∀ n, cause ≠ .tooDeep n) ∧ e = interp.malformed cause) ∧
    (∀ limit, (∀ most', limit = some most' → most ≤ most') → ∀ s,
      (∀ s', (read interp (some most) tokens).run s ≠
        .error (interp.malformed (.tooDeep most)) s') →
      (read interp limit tokens).run s = (read interp (some most) tokens).run s) ∧
    (∀ request, Leads (some most) ⟨.chain .additive, 0, tokens⟩ request → request.depth ≤ most) ∧
    ∀ rules : Rules σ ε α,
      (∀ rule depth middle, depth ≤ most →
        rules rule depth middle = body interp (some most) rules rule depth middle) →
      readWith rules tokens = read interp (some most) tokens := by
  have unlimited : ∀ most', none = some most' → most ≤ most' := nofun
  refine ⟨?_, ?_, ?_, ?_, ?_, ?_⟩
  · intro s value rest s' succeeds
    obtain ⟨e, found, -⟩ := reads_of_read interp succeeds
    refine ⟨e, read_builder_of_reads found, fun within => ?_, fun deep => ?_⟩
    · rw [read_of_nesting_le found within]
      exact succeeds
    · exact read_of_lt_nesting found deep succeeds
  · intro s e s' fails
    rcases read_upTo interp unlimited tokens s with same | failed
    · exact .inl (same.trans fails)
    · exact .inr failed
  · intro few
    refine ⟨read_of_countP_le few, fun s e s' fails => ?_⟩
    rcases error_of_read interp fails with failed | ⟨done, cause, fault, rfl⟩
    · exact .inl failed
    · exact .inr ⟨cause, fault.shallow_of_countP_le few, rfl⟩
  · intro limit wider s other
    rcases read_upTo interp wider tokens s with same | ⟨s', failed⟩
    · exact same.symm
    · exact absurd failed (other s')
  · intro request leads
    exact leads.depth_le (Nat.zero_le most)
  · intro rules follows
    have same : Answers interp (some most) rules ⟨.chain .additive, 0, tokens⟩ :=
      eq_run_of_body (fun _ _ within asks => asks.depth_le within)
        (fun request within => follows request.rule request.depth request.tokens within)
        (Nat.zero_le most)
    exact congrArg (· >>= _) same

/-- The tree of `--x` has two levels, which are too many for a limit of one and not for one of two. -/
theorem read_limit_minus :
    (read Expression.builder none [.negation, .negation, .number 1.0]).run () =
        .ok (.negation (.negation (.literal 1.0 none)), []) () ∧
      (read Expression.builder (some 1) [.negation, .negation, .number 1.0]).run () =
        .error (.tooDeep 1) () ∧
      (read Expression.builder (some 2) [.negation, .negation, .number 1.0]).run () =
        .ok (.negation (.negation (.literal 1.0 none)), []) () := by
  have found : ∀ x : Float, (read Expression.builder none [.negation, .negation, .number x]).run () =
      .ok (.negation (.negation (.literal x none)), []) () := by
    intro x
    cbv
  refine ⟨found 1.0, ?_, ?_⟩
  · obtain ⟨e, built, -, deep⟩ := (read_limit Expression.builder 1 _).1 () _ _ () (found 1.0)
    rw [found] at built
    cases built
    obtain ⟨_, failed⟩ := deep (by decide)
    exact failed
  · obtain ⟨e, built, within, -⟩ := (read_limit Expression.builder 2 _).1 () _ _ () (found 1.0)
    rw [found] at built
    cases built
    exact within (by decide)

end Calculator
