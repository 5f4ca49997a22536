import Calculator.Proofs.Grammar.Effect
import Calculator.Proofs.Grammar.Relocation
import Calculator.Proofs.Grammar.Requests

/-!
# The calls of the rules

`Asks` lists the requests that a rule makes. This module ties the list to the reading itself. `body`
unfolds a reading once: it is what each rule does, with the rules that it calls left open, so any
family of `Rules` can be put in their place. If these answer the listed requests as the reading
does, the unfolded rule is the reading again (`body_eq_run`): there are no other calls.

Every call is for fewer tokens, or for the same tokens and a tighter rule (`Asks.smaller`). So rules
that do what `body` says are the reading, and they have to do so only for the requests that the
reading can lead to (`eq_run_of_body`).
-/

namespace Calculator.Grammar

variable {σ ε α : Type}

/-! ### What is left behind a construct -/

theorem length_lt_integer (whole : Float) (rest : List Token) :
    rest.length < (Token.number whole :: rest).length :=
  Nat.lt_succ_self _

theorem length_lt_decimal (whole : Float) (fraction : Fraction) (rest : List Token) :
    rest.length < (Token.number whole :: .point :: .fraction fraction :: rest).length := by
  simp only [List.length_cons]
  omega

theorem length_lt_of_cons {token : Token} {tail tokens : List Token}
    (shorter : (token :: tail).length < tokens.length) : tail.length < tokens.length :=
  Nat.lt_of_succ_lt shorter

theorem Parsed.length_lt {tokens : List Token} (found : Parsed α tokens.length) :
    found.rest.length < tokens.length :=
  found.shorter

theorem Parsed.length_lt_succ {tail : List Token} (found : Parsed α tail.length) :
    found.rest.length < tail.length + 1 :=
  Nat.lt_succ_of_lt found.shorter

theorem Parsed.length_lt_of_cons {token : Token} {tail tokens : List Token}
    (found : Parsed α tail.length) (shorter : (token :: tail).length < tokens.length) :
    found.rest.length < tokens.length :=
  Nat.lt_trans found.shorter (Nat.lt_of_succ_lt shorter)

/-! ### Rules left open -/

/-- An answer to every request. -/
abbrev Rules (σ ε α : Type) : Type :=
  Rule → Nat → (tokens : List Token) → EStateM ε σ (Parsed α tokens.length)

section Unfolded

variable (interp : Interpretation σ ε α) (limit : Option Nat) (rules : Rules σ ε α)

/-- The loop of a chain. -/
def foldWith (tier : Tier) (depth : Nat) (left : α) (tokens : List Token) {bound : Nat}
    (within : tokens.length < bound) : EStateM ε σ (Parsed α bound) :=
  match tokens with
  | [] => return ⟨left, [], within⟩
  | token :: tail =>
    match tier.operator? token with
    | none => return ⟨left, token :: tail, within⟩
    | some op => do
      let right ← rules (.operand tier) depth tail
      let value ← interp.perform (.operation op left right.value)
      foldWith tier depth value right.rest
        (Nat.lt_trans right.shorter (Nat.lt_of_succ_lt within))
termination_by tokens.length
decreasing_by
  have := right.shorter
  simp only [List.length_cons]
  omega

/-- An expression and the closing parenthesis behind it. -/
def bracketedWith (enclosure : Enclosure) (depth : Nat) (tokens : List Token) :
    EStateM ε σ (Parsed α tokens.length) := do
  let deeper ← deepen interp limit depth
  match ← rules (.chain .additive) deeper tokens with
  | ⟨value, .closing :: tail, shorter⟩ => return ⟨value, tail, length_lt_of_cons shorter⟩
  | _ => throw (interp.malformed (.unclosed enclosure))

/-- A literal, a function with its argument, an expression in parentheses or a negation. -/
def atomWith (depth : Nat) (tokens : List Token) : EStateM ε σ (Parsed α tokens.length) :=
  match tokens with
  | .number whole :: .point :: .fraction fraction :: rest => do
    let value ← interp.perform (.literal whole (some fraction))
    return ⟨value, rest, length_lt_decimal whole fraction rest⟩
  | .number _ :: .point :: _ => throw (interp.malformed .missingDigits)
  | .number whole :: rest => do
    let value ← interp.perform (.literal whole none)
    return ⟨value, rest, length_lt_integer whole rest⟩
  | .function function :: tail => do
    let argument ← bracketedWith interp limit rules (.argument function) depth tail
    let value ← interp.perform (.application function argument.value)
    return ⟨value, argument.rest, argument.length_lt_succ⟩
  | .opening :: tail => do
    let inner ← bracketedWith interp limit rules .parentheses depth tail
    let value ← interp.perform (.parenthesized inner.value)
    return ⟨value, inner.rest, inner.length_lt_succ⟩
  | .negation :: tail => do
    let deeper ← deepen interp limit depth
    let inner ← rules (.chain .multiplicative) deeper tail
    let value ← interp.perform (.negation inner.value)
    return ⟨value, inner.rest, inner.length_lt_succ⟩
  | token :: _ => throw (interp.malformed (.unexpected token))
  | [] => throw (interp.malformed .unexpectedEnd)

/-- **A reading unfolded once**: what each rule does, with the rules that it calls left open. -/
def body : Rules σ ε α
  | .chain tier, depth, tokens => do
    let first ← rules (.operand tier) depth tokens
    foldWith interp rules tier depth first.value first.rest first.length_lt
  | .scaled, depth, tokens => do
    match ← rules .atom depth tokens with
    | ⟨mantissa, .exponentMark :: tail, shorter⟩ =>
      let exponent ← rules .atom depth tail
      let value ← interp.perform (.scaled mantissa exponent.value)
      return ⟨value, exponent.rest, exponent.length_lt_of_cons shorter⟩
    | found => return found
  | .atom, depth, tokens => atomWith interp limit rules depth tokens

/-- The reading of the expression at the start of the tokens, by other rules. -/
def readWith (tokens : List Token) : EStateM ε σ (α × List Token) := do
  let found ← rules (.chain .additive) 0 tokens
  return (found.value, found.rest)

/-- The rules answer a request as the reading does. -/
def Answers (request : Request) : Prop :=
  rules request.rule request.depth request.tokens =
    run interp limit request.rule request.depth request.tokens

end Unfolded

/-! ### The listed requests are all -/

section Calls

variable {interp : Interpretation σ ε α} {limit : Option Nat} {rules : Rules σ ε α}

/-- What follows a reading only has to be known for what is read. -/
theorem run_bind_congr {rule : Rule} {depth : Nat} {tokens : List Token} {β : Type}
    {next next' : Parsed α tokens.length → EStateM ε σ β}
    (same : ∀ e rest (found : Reads limit (.rule rule) depth tokens e rest) value,
      next ⟨value, rest, found.shorter⟩ = next' ⟨value, rest, found.shorter⟩) :
    run interp limit rule depth tokens >>= next = run interp limit rule depth tokens >>= next' := by
  rcases reads_or_fails limit rule depth tokens with ⟨e, rest, found⟩ | ⟨done, cause, fails⟩
  · rw [run_of_reads interp found, finds, bind_assoc, bind_assoc]
    simp only [pure_bind]
    exact bind_congr (same e rest found)
  · rw [run_of_fails interp fails, Interpretation.abandon_bind, Interpretation.abandon_bind]

/-- The loop does not call anything else, from any value of what a chain has begun with. -/
theorem foldWith_eq_fold {tier : Tier} {depth : Nat} {tokens : List Token}
    (asked : ∀ request, Asks limit ⟨.chain tier, depth, tokens⟩ request →
      Answers interp limit rules request)
    {left : Expression} {rest : List Token} (begun : Reads limit (.begun tier) depth tokens left rest)
    (value : α) {bound : Nat} (within : rest.length < bound) :
    foldWith interp rules tier depth value rest within =
      fold interp limit tier depth value rest within := by
  induction hn : rest.length using Nat.strongRecOn generalizing left rest value with
  | ind n ih =>
    cases rest with
    | nil => rw [foldWith, fold]
    | cons token tail =>
      rw [foldWith, fold]
      cases joined : tier.operator? token with
      | none => rfl
      | some op =>
        obtain ⟨rfl, joins⟩ := Tier.operator?_eq_some joined
        have operand : Answers interp limit rules ⟨.operand tier, depth, tail⟩ :=
          asked _ (.next joins begun)
        dsimp only
        rw [operand_eq_run, show rules (.operand tier) depth tail = _ from operand]
        -- The loop goes on behind the operand, with a chain that has begun with one more.
        refine run_bind_congr fun right behind found r => bind_congr fun v => ?_
        exact ih _ (hn ▸ Nat.lt_succ_of_lt found.shorter) (.next joins begun found) v _ rfl

theorem body_chain {tier : Tier} {depth : Nat} {tokens : List Token}
    (asked : ∀ request, Asks limit ⟨.chain tier, depth, tokens⟩ request →
      Answers interp limit rules request) :
    body interp limit rules (.chain tier) depth tokens =
      run interp limit (.chain tier) depth tokens := by
  have operand : Answers interp limit rules ⟨.operand tier, depth, tokens⟩ := asked _ .first
  rw [body, run, chain, operand_eq_run, show rules (.operand tier) depth tokens = _ from operand]
  exact run_bind_congr fun e rest found value => foldWith_eq_fold asked (.first found) value _

theorem body_scaled {depth : Nat} {tokens : List Token}
    (asked : ∀ request, Asks limit ⟨.scaled, depth, tokens⟩ request →
      Answers interp limit rules request) :
    body interp limit rules .scaled depth tokens = run interp limit .scaled depth tokens := by
  have mantissa : Answers interp limit rules ⟨.atom, depth, tokens⟩ := asked _ .mantissa
  rw [body, run_scaled, show rules .atom depth tokens = _ from mantissa]
  refine run_bind_congr fun e rest found value => ?_
  cases rest with
  | nil => rfl
  | cons token tail =>
    cases token with
    | exponentMark =>
      -- Only behind a mark there is a second call.
      have exponent : Answers interp limit rules ⟨.atom, depth, tail⟩ := asked _ (.exponent found)
      dsimp only
      rw [show rules .atom depth tail = _ from exponent]
    | _ => rfl

theorem bracketedWith_eq_bracketed (enclosure : Enclosure) {depth : Nat} {tokens : List Token}
    (asked : ∀ request, Asks limit ⟨.atom, depth, enclosure.opener :: tokens⟩ request →
      Answers interp limit rules request) :
    bracketedWith interp limit rules enclosure depth tokens =
      bracketed interp limit enclosure depth tokens := by
  rcases admits_or_reached limit depth with admitted | ⟨most, rfl, reached⟩
  · have inner : Answers interp limit rules ⟨.chain .additive, depth + 1, tokens⟩ :=
      asked _ (.inner enclosure admitted)
    rw [bracketedWith, deepen_of_admits interp admitted, pure_bind,
      bracketed_of_admits interp admitted]
    exact congrArg (· >>= _) inner
  · -- At the limit nothing is called at all.
    rw [bracketedWith, bracketed, deepen_of_reached interp reached]
    rfl

theorem body_atom {depth : Nat} {tokens : List Token}
    (asked : ∀ request, Asks limit ⟨.atom, depth, tokens⟩ request →
      Answers interp limit rules request) :
    body interp limit rules .atom depth tokens = run interp limit .atom depth tokens := by
  change atomWith interp limit rules depth tokens = atom interp limit depth tokens
  unfold atomWith
  split
  -- Literals and tokens that begin no operand: nothing is called.
  · rw [Grammar.atom]
  · rw [Grammar.atom]
    assumption
  · rw [Grammar.atom] <;> assumption
  · next function tail =>
    rw [Grammar.atom, bracketedWith_eq_bracketed (.argument function) asked]
  · rw [Grammar.atom, bracketedWith_eq_bracketed .parentheses asked]
  · next tail =>
    rcases admits_or_reached limit depth with admitted | ⟨most, rfl, reached⟩
    · have operand : Answers interp limit rules ⟨.chain .multiplicative, depth + 1, tail⟩ :=
        asked _ (.negation admitted)
      rw [Grammar.atom, deepen_of_admits interp admitted, pure_bind, pure_bind]
      exact congrArg (· >>= _) operand
    · rw [Grammar.atom, deepen_of_reached interp reached]
      rfl
  · rw [Grammar.atom] <;> assumption
  · rw [Grammar.atom]

/-- **The listed requests are all calls.** A rule does what the reading does if the rules that it
calls answer these requests as the reading does, whatever they do otherwise. -/
theorem body_eq_run {request : Request}
    (asked : ∀ request', Asks limit request request' → Answers interp limit rules request') :
    body interp limit rules request.rule request.depth request.tokens =
      run interp limit request.rule request.depth request.tokens := by
  obtain ⟨rule, depth, tokens⟩ := request
  cases rule with
  | chain tier => exact body_chain asked
  | scaled => exact body_scaled asked
  | atom => exact body_atom asked

end Calls

/-! ### Calls end -/

/-- The size of a request: the tokens count first, and then how loose the rule is. -/
def Request.size (request : Request) : Nat :=
  8 * request.tokens.length + (Goal.rule request.rule).height

theorem Goal.height_lt (goal : Goal) : goal.height < 8 :=
  Nat.lt_succ_of_le goal.height_le_loosest

/-- **A rule calls for less**: for fewer tokens, or for the same ones and a tighter rule. -/
theorem Asks.smaller {limit : Option Nat} {request request' : Request}
    (h : Asks limit request request') : request'.size < request.size := by
  -- What is called for has a tighter rule or comes behind a token, which counts more than any rule.
  have bounded := (Goal.rule request'.rule).height_lt
  unfold Request.size
  cases h with
  | @first tier _ _ =>
    have operand := Goal.height_operand tier
    have begun : (Goal.begun tier).height < (Goal.rule (.chain tier)).height := Nat.lt_succ_self _
    dsimp only
    omega
  | next _ before =>
    have shorter := before.shorter
    rw [List.length_cons] at shorter
    dsimp only at bounded ⊢
    omega
  | mantissa => exact Nat.lt_succ_self _
  | exponent left =>
    have shorter := left.shorter
    rw [List.length_cons] at shorter
    dsimp only at bounded ⊢
    omega
  | inner _ _ | negation _ =>
    dsimp only at bounded ⊢
    rw [List.length_cons]
    omega

/-- **Rules that do what a reading does are the reading.** They have to do it only for requests that
the calls do not lead out of. -/
theorem eq_run_of_body {interp : Interpretation σ ε α} {limit : Option Nat} {rules : Rules σ ε α}
    {Within : Request → Prop}
    (closed : ∀ request request', Within request → Asks limit request request' → Within request')
    (follows : ∀ request, Within request → rules request.rule request.depth request.tokens =
      body interp limit rules request.rule request.depth request.tokens)
    {request : Request} (within : Within request) : Answers interp limit rules request := by
  induction hn : request.size using Nat.strongRecOn generalizing request with
  | ind n ih =>
    rw [Answers, follows request within]
    refine body_eq_run fun request' asks => ?_
    exact ih _ (hn ▸ asks.smaller) (closed request request' within asks) rfl

end Calculator.Grammar
