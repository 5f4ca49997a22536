import Calculator.Proofs.Grammar.Reads

/-!
# What a reading does

An interpretation gives every tree an effect, `Expression.interpret`: the constructs of the tree are
performed, operands first and from left to right. This module says that a reading does nothing else.
It finds its tree as `Reads` and `Fails` describe, and its effect is

* the effect of the tree, if the tokens begin with one (`read_of_reads`);
* the effects of the trees completed so far and then the error of the interpretation, if they do not
  (`read_of_fails`).

Since one of the two holds for all tokens (`reads_or_fails`), these two equations determine every
reading, for all interpretations at once. What follows about readings is derived from them and does
not unfold the rules again.
-/

namespace Calculator

open Grammar

variable {σ ε α β : Type}

/-! ### The effect of a tree -/

/-- Performs the constructs of a tree, operands first and from left to right. -/
def Expression.interpret (interp : Interpretation σ ε α) : Expression → EStateM ε σ α
  | .literal whole fraction => interp.perform (.literal whole fraction)
  | .operation op left right => do
    let left ← left.interpret interp
    let right ← right.interpret interp
    interp.perform (.operation op left right)
  | .scaled mantissa exponent => do
    let mantissa ← mantissa.interpret interp
    let exponent ← exponent.interpret interp
    interp.perform (.scaled mantissa exponent)
  | .application function argument => do
    let argument ← argument.interpret interp
    interp.perform (.application function argument)
  | .negation operand => do
    let operand ← operand.interpret interp
    interp.perform (.negation operand)
  | .parenthesized inner => do
    let inner ← inner.interpret interp
    interp.perform (.parenthesized inner)

/-- Interprets trees that are complete and then fails with the error for a cause. -/
def Grammar.Interpretation.abandon (interp : Interpretation σ ε α) (cause : SyntaxError) :
    List Expression → EStateM ε σ β
  | [] => throw (interp.malformed cause)
  | e :: done => do
    let _ ← e.interpret interp
    interp.abandon cause done

/-- What is abandoned does not go on. -/
@[simp]
theorem Grammar.Interpretation.abandon_bind {γ : Type} (interp : Interpretation σ ε α)
    (cause : SyntaxError) (done : List Expression) (next : β → EStateM ε σ γ) :
    interp.abandon cause done >>= next = interp.abandon cause done := by
  induction done with
  | nil => rfl
  | cons e done ih =>
    -- The effect of the first tree stays; behind it, the rest is abandoned as well.
    rw [abandon, bind_assoc, abandon]
    simp only [ih]

/-- The construct of an enclosure whose content has a value. -/
def Enclosure.construct : Enclosure → α → Construct α
  | .parentheses, inner => .parenthesized inner
  | .argument function, inner => .application function inner

theorem Enclosure.interpret_around (interp : Interpretation σ ε α) (enclosure : Enclosure)
    (e : Expression) :
    (enclosure.around e).interpret interp =
      e.interpret interp >>= fun inner => interp.perform (enclosure.construct inner) := by
  cases enclosure <;> rfl

namespace Grammar

variable (interp : Interpretation σ ε α) (limit : Option Nat)

/-! ### The rules as one function -/

/-- The reading of a rule. -/
def run : Rule → Nat → (tokens : List Token) → EStateM ε σ (Parsed α tokens.length)
  | .chain tier => chain interp limit tier
  | .scaled => scaled interp limit
  | .atom => atom interp limit

theorem operand_eq_run (tier : Tier) (depth : Nat) (tokens : List Token) :
    operand interp limit tier depth tokens = run interp limit (.operand tier) depth tokens := by
  cases tier <;> rw [operand] <;> rfl

variable {limit}

theorem deepen_of_admits {depth : Nat} (admitted : Admits limit depth) :
    deepen interp limit depth = (pure (depth + 1) : EStateM ε σ Nat) := by
  cases limit with
  | none => rfl
  | some most => exact if_pos (admitted most rfl)

theorem deepen_of_reached {depth most : Nat} (reached : most ≤ depth) :
    deepen interp (some most) depth =
      (throw (interp.malformed (.tooDeep most)) : EStateM ε σ Nat) :=
  if_neg (Nat.not_lt.mpr reached)

/-- What is found when a tree is complete. -/
def finds (e : Expression) {bound : Nat} (rest : List Token) (shorter : rest.length < bound) :
    EStateM ε σ (Parsed α bound) := do
  let value ← e.interpret interp
  return ⟨value, rest, shorter⟩

/-! ### The loop -/

theorem fold_of_settled {tier : Tier} {rest : List Token} (settled : Settled tier rest)
    (depth : Nat) (left : α) {bound : Nat} (within : rest.length < bound) :
    fold interp limit tier depth left rest within = pure ⟨left, rest, within⟩ := by
  cases rest with
  | nil => rw [fold]
  | cons token tail =>
    rw [fold, settled token tail rfl]

theorem fold_operator {tier : Tier} {op : Operator} (joins : op.tier = tier) (depth : Nat)
    (left : α) (tail : List Token) {bound : Nat}
    (within : (Token.operator op :: tail).length < bound) :
    fold interp limit tier depth left (.operator op :: tail) within = (do
      let right ← run interp limit (.operand tier) depth tail
      let value ← interp.perform (.operation op left right.value)
      fold interp limit tier depth value right.rest
        (Nat.lt_trans right.shorter (Nat.lt_of_succ_lt within))) := by
  subst joins
  rw [fold, Tier.operator?_operator, operand_eq_run]

/-! ### Atoms and powers of ten -/

theorem run_scaled (depth : Nat) (tokens : List Token) :
    run interp limit .scaled depth tokens = (do
      match ← run interp limit .atom depth tokens with
      | ⟨mantissa, .exponentMark :: tail, shorter⟩ =>
        let exponent ← run interp limit .atom depth tail
        let value ← interp.perform (.scaled mantissa exponent.value)
        return ⟨value, exponent.rest, Nat.lt_trans exponent.shorter (Nat.lt_of_succ_lt shorter)⟩
      | found => return found) := by
  rw [run, scaled]
  rfl

theorem atom_opener (enclosure : Enclosure) (depth : Nat) (tokens : List Token) :
    atom interp limit depth (enclosure.opener :: tokens) = do
      let inner ← bracketed interp limit enclosure depth tokens
      let value ← interp.perform (enclosure.construct inner.value)
      return ⟨value, inner.rest, Nat.lt_succ_of_lt inner.shorter⟩ := by
  cases enclosure <;> rw [Enclosure.opener, atom] <;> rfl

theorem run_negation {depth : Nat} (admitted : Admits limit depth) (tokens : List Token) :
    run interp limit .atom depth (.negation :: tokens) = (do
      let inner ← run interp limit (.chain .multiplicative) (depth + 1) tokens
      let value ← interp.perform (.negation inner.value)
      return ⟨value, inner.rest, Nat.lt_succ_of_lt inner.shorter⟩) := by
  change atom interp limit depth (.negation :: tokens) = _
  rw [atom, deepen_of_admits interp admitted, pure_bind]
  rfl

theorem bracketed_of_admits {enclosure : Enclosure} {depth : Nat} (admitted : Admits limit depth)
    (tokens : List Token) :
    bracketed interp limit enclosure depth tokens = (do
      match ← run interp limit (.chain .additive) (depth + 1) tokens with
      | ⟨value, .closing :: tail, shorter⟩ => return ⟨value, tail, Nat.lt_of_succ_lt shorter⟩
      | _ => throw (interp.malformed (.unclosed enclosure))) := by
  rw [bracketed, deepen_of_admits interp admitted, pure_bind]
  rfl

/-- Content that a closing parenthesis follows. -/
theorem bracketed_closing {enclosure : Enclosure} {depth : Nat} {tokens rest : List Token}
    {e : Expression} (admitted : Admits limit depth)
    (closed : (Token.closing :: rest).length < tokens.length)
    (content : run interp limit (.chain .additive) (depth + 1) tokens = finds interp e _ closed) :
    bracketed interp limit enclosure depth tokens =
      finds interp e rest (Nat.lt_of_succ_lt closed) := by
  rw [bracketed_of_admits interp admitted, content, finds, bind_assoc]
  simp only [pure_bind]
  rfl

/-- Content that something else follows, or nothing. -/
theorem bracketed_unclosed {enclosure : Enclosure} {depth : Nat} {tokens rest : List Token}
    {e : Expression} (admitted : Admits limit depth) (unclosed : ∀ tail, rest ≠ .closing :: tail)
    (shorter : rest.length < tokens.length)
    (content : run interp limit (.chain .additive) (depth + 1) tokens = finds interp e _ shorter) :
    bracketed interp limit enclosure depth tokens =
      interp.abandon (.unclosed enclosure) [e] := by
  rw [bracketed_of_admits interp admitted, content, finds, bind_assoc]
  simp only [pure_bind]
  rw [Interpretation.abandon]
  refine bind_congr fun value => ?_
  split
  · next same =>
    injection same with _ ends
    exact absurd ends (unclosed _)
  · rfl

/-! ### Readings that succeed -/

/-- What a goal that was read amounts to: for a rule, the tree is found; a chain that has begun goes
on with the loop, from the value of the tree. -/
def Realized (limit : Option Nat) (depth : Nat) (tokens : List Token) (e : Expression)
    (rest : List Token) : Goal → Prop
  | .rule rule => ∀ shorter : rest.length < tokens.length,
    run interp limit rule depth tokens = finds interp e rest shorter
  | .begun tier => ∀ shorter : rest.length < tokens.length,
    chain interp limit tier depth tokens =
      e.interpret interp >>= fun left => fold interp limit tier depth left rest shorter

/-- **A goal that was read is realized.** The induction follows the reading, so a chain is taken
apart from its end: what has begun leaves the loop in front of the next operator. -/
theorem realized_of_reads {goal : Goal} {depth : Nat} {tokens rest : List Token} {e : Expression}
    (h : Reads limit goal depth tokens e rest) :
    Realized interp limit depth tokens e rest goal := by
  induction h with
  | first operand ih =>
    -- Behind the first operand the loop begins, and it has done nothing so far.
    intro shorter
    rw [chain, operand_eq_run, ih shorter, finds, bind_assoc]
    simp only [pure_bind]
  | next joins before last ihBefore ihLast =>
    -- One turn of the loop: it finds the operator, reads the operand and performs the operation,
    -- which are the last steps in the effect of the longer tree.
    intro shorter
    rw [ihBefore before.shorter, Expression.interpret, bind_assoc]
    refine bind_congr fun left => ?_
    rw [fold_operator interp joins, ihLast last.shorter, finds, bind_assoc, bind_assoc]
    simp only [pure_bind]
  | chain all settled ih =>
    intro shorter
    rw [run, ih shorter]
    exact bind_congr fun left => fold_of_settled interp settled _ left shorter
  | plain atom unmarked ih =>
    intro shorter
    rw [run_scaled, ih shorter, finds, bind_assoc]
    refine bind_congr fun value => ?_
    rw [pure_bind]
    -- The reading looks for an exponent mark, and there is none.
    split
    · next same =>
      injection same with _ ends
      exact absurd ends (unmarked _)
    · rfl
  | scaled left right ihLeft ihRight =>
    intro shorter
    rw [run_scaled, ihLeft left.shorter, finds, bind_assoc, finds, Expression.interpret, bind_assoc]
    refine bind_congr fun mantissa => ?_
    rw [pure_bind]
    dsimp only
    rw [ihRight right.shorter, finds, bind_assoc, bind_assoc]
    simp only [pure_bind]
  | @integer depth rest whole pointless =>
    intro shorter
    -- The rules for literals with a point are tried first and do not apply.
    rw [run, Grammar.atom]
    · rfl
    · exact fun _ _ => pointless _
    · exact pointless
  | decimal whole fraction =>
    intro shorter
    rw [run, Grammar.atom]
    rfl
  | enclosed enclosure admitted inner ih =>
    intro shorter
    rw [run, atom_opener,
      bracketed_closing interp admitted inner.shorter (ih inner.shorter), finds, finds,
      enclosure.interpret_around, bind_assoc, bind_assoc]
    simp only [pure_bind]
  | negation admitted term ih =>
    intro shorter
    rw [run_negation interp admitted, ih term.shorter, finds, bind_assoc, finds,
      Expression.interpret, bind_assoc]
    simp only [pure_bind]

theorem run_of_reads {rule : Rule} {depth : Nat} {tokens rest : List Token} {e : Expression}
    (h : Reads limit (.rule rule) depth tokens e rest) :
    run interp limit rule depth tokens = finds interp e rest h.shorter :=
  realized_of_reads interp h h.shorter

theorem chain_of_begun {tier : Tier} {depth : Nat} {tokens rest : List Token} {e : Expression}
    (h : Reads limit (.begun tier) depth tokens e rest) :
    chain interp limit tier depth tokens =
      e.interpret interp >>= fun left => fold interp limit tier depth left rest h.shorter :=
  realized_of_reads interp h h.shorter

/-! ### Readings that fail -/

theorem bracketed_of_fails {enclosure : Enclosure} {depth : Nat} {tokens : List Token}
    {done : List Expression} {cause : SyntaxError} (admitted : Admits limit depth)
    (content : run interp limit (.chain .additive) (depth + 1) tokens = interp.abandon cause done) :
    bracketed interp limit enclosure depth tokens = interp.abandon cause done := by
  rw [bracketed_of_admits interp admitted, content, Interpretation.abandon_bind]

theorem atom_of_reached {depth most : Nat} {token : Token} (reached : most ≤ depth)
    (nests : token.nests = true) (tail : List Token) :
    atom interp (some most) depth (token :: tail) = interp.abandon (.tooDeep most) [] := by
  cases token with
  | function _ | opening =>
    rw [atom, bracketed, deepen_of_reached interp reached]
    rfl
  | negation =>
    rw [atom, deepen_of_reached interp reached]
    rfl
  | _ => cases nests

theorem atom_unexpected {token : Token} (strange : token.startsOperand = false) (depth : Nat)
    (tail : List Token) :
    atom interp limit depth (token :: tail) = interp.abandon (.unexpected token) [] := by
  cases token with
  | number _ | function _ | opening | negation => cases strange
  | _ =>
    -- Left to show: none of the rules for other tokens applies.
    rw [atom]
    · rfl
    all_goals simp

/-- A rule that fails abandons the trees it has completed. Where a rule fails because a rule inside
it does, it adds the trees in front of that one and nothing else. -/
theorem run_of_fails {rule : Rule} {depth : Nat} {tokens : List Token} {done : List Expression}
    {cause : SyntaxError} (h : Fails limit rule depth tokens done cause) :
    run interp limit rule depth tokens = interp.abandon cause done := by
  induction h with
  | first operand ih =>
    rw [run, chain, operand_eq_run, ih, Interpretation.abandon_bind]
  | next joins before last ih =>
    rw [run, chain_of_begun interp before, Interpretation.abandon]
    refine bind_congr fun left => ?_
    rw [fold_operator interp joins, ih, Interpretation.abandon_bind]
  | mantissa atom ih => rw [run_scaled, ih, Interpretation.abandon_bind]
  | exponent left right ih =>
    rw [run_scaled, run_of_reads interp left, finds, bind_assoc, Interpretation.abandon]
    refine bind_congr fun mantissa => ?_
    rw [pure_bind]
    dsimp only
    rw [ih, Interpretation.abandon_bind]
  | missingDigits whole missing =>
    rw [run, Grammar.atom]
    · rfl
    · exact missing
  | tooDeep limited reached nests =>
    subst limited
    exact atom_of_reached interp reached nests _
  | inner enclosure admitted inner ih =>
    rw [run, atom_opener, bracketed_of_fails interp admitted ih, Interpretation.abandon_bind]
  | unclosed enclosure admitted inner unclosed =>
    rw [run, atom_opener, bracketed_unclosed interp admitted unclosed inner.shorter
      (run_of_reads interp inner), Interpretation.abandon_bind]
  | negation admitted term ih =>
    rw [run_negation interp admitted, ih, Interpretation.abandon_bind]
  | unexpected strange => exact atom_unexpected interp strange _ _
  | unexpectedEnd =>
    rw [run, Grammar.atom]
    rfl

/-! ### The reading of an expression -/

/-- **A reading that succeeds** has the effect of its tree. -/
theorem read_of_reads {tokens rest : List Token} {e : Expression}
    (h : Reads limit (.rule (.chain .additive)) 0 tokens e rest) :
    read interp limit tokens = (do return (← e.interpret interp, rest)) := by
  change run interp limit (.chain .additive) 0 tokens >>= _ = _
  rw [run_of_reads interp h, finds, bind_assoc]
  simp only [pure_bind]

/-- **A reading that fails** has the effects of the trees it completed, and fails with its cause. -/
theorem read_of_fails {tokens : List Token} {done : List Expression} {cause : SyntaxError}
    (h : Fails limit (.chain .additive) 0 tokens done cause) :
    read interp limit tokens = interp.abandon cause done := by
  change run interp limit (.chain .additive) 0 tokens >>= _ = _
  rw [run_of_fails interp h, Interpretation.abandon_bind]

/-- What is abandoned has no value. -/
theorem Interpretation.abandon_ne_ok {cause : SyntaxError} {done : List Expression} {value : β}
    {s s' : σ} : (interp.abandon cause done).run s ≠ .ok value s' := by
  induction done generalizing s with
  | nil => exact nofun
  | cons e done ih =>
    rw [abandon, EStateM.run_bind]
    cases (e.interpret interp).run s with
    | error => exact nofun
    | ok value middle => exact ih

/-- **A reading with a value has found a tree**, and the value is that of the tree. -/
theorem reads_of_read {tokens rest : List Token} {value : α} {s s' : σ}
    (h : (read interp limit tokens).run s = .ok (value, rest) s') :
    ∃ e, Reads limit (.rule (.chain .additive)) 0 tokens e rest ∧
      (e.interpret interp).run s = .ok value s' := by
  rcases reads_or_fails limit (.chain .additive) 0 tokens with ⟨e, rest', found⟩ | ⟨_, _, fails⟩
  · rw [read_of_reads interp found, EStateM.run_bind] at h
    cases performed : (e.interpret interp).run s with
    | error cause middle =>
      rw [performed] at h
      cases h
    | ok result middle =>
      rw [performed] at h
      cases h
      exact ⟨e, found, performed⟩
  · rw [read_of_fails interp fails] at h
    exact absurd h interp.abandon_ne_ok

end Grammar

end Calculator
