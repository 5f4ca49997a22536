import Calculator.Expression
import Calculator.Grammar.Derivation
import Calculator.Grammar.Descent

/-!
# What a reading finds

A reading is a function of its interpretation, its limit and its tokens, and it mixes two things:
where a construct begins and ends, which the tokens alone decide, and what becomes of it, which the
interpretation decides. This module describes the first one on its own, by two relations that
mention no interpretation:

* `Reads limit goal depth tokens e rest` — the tokens begin with the expression `e`, and `rest`
  follows it;
* `Fails limit rule depth tokens done cause` — the tokens do not begin with what the rule asks for.
  The cause is met when the trees of `done` are complete, and nothing else is.

`Fails` keeps the trees of `done` because an interpretation is asked about every construct as soon
as it is complete, so also about those in front of a fault.

Unlike `Derives`, both relations commit themselves as a reading does: a chain goes on as long as an
operator of its tier follows, and a mantissa takes the exponent mark behind it. So they have one
rule for each decision of a reading, and the side conditions of the rules exclude one another.

Main statements:

* `Reads.tokens_eq` — the tokens of the tree and the rest make up the tokens that were read;
* `Reads.derives` — the tokens of the tree are derived by the rule;
* `Reads.settled` — what follows a chain is no operator that the chain could have taken;
* `reads_or_fails` — for all tokens, one of the two relations holds.
-/

namespace Calculator

/-! ### Enclosures -/

/-- The token that opens an enclosure. -/
def Enclosure.opener : Enclosure → Token
  | .parentheses => .opening
  | .argument function => .function function

/-- The tree of an enclosure around another tree. -/
def Enclosure.around : Enclosure → Expression → Expression
  | .parentheses, inner => .parenthesized inner
  | .argument function, inner => .application function inner

/-- Whether a token opens a level of nesting. -/
def Token.nests : Token → Bool
  | .function _ | .opening | .negation => true
  | _ => false

/-- Whether an operand can begin with a token. -/
def Token.startsOperand : Token → Bool
  | .number _ => true
  | token => token.nests

theorem Enclosure.nests_opener (enclosure : Enclosure) : enclosure.opener.nests = true := by
  cases enclosure <;> rfl

theorem Enclosure.tokens_around (enclosure : Enclosure) (e : Expression) :
    (enclosure.around e).tokens = enclosure.opener :: e.tokens ++ [.closing] := by
  cases enclosure <;> rfl

/-- Every expression has a token. -/
theorem Expression.tokens_ne_nil (e : Expression) : e.tokens ≠ [] := by
  cases e with
  | literal _ fraction => cases fraction <;> simp [tokens]
  | _ => simp [tokens]

/-- A tier joins its operands with the operators of that tier and with no other token. -/
theorem Tier.operator?_eq_some {tier : Tier} {token : Token} {op : Operator}
    (h : tier.operator? token = some op) : token = .operator op ∧ op.tier = tier := by
  cases token with
  | operator op' =>
    simp only [operator?, Option.ite_none_right_eq_some, Option.some.injEq] at h
    obtain ⟨same, rfl⟩ := h
    exact ⟨rfl, same⟩
  | _ => simp [operator?] at h

@[simp] theorem Tier.operator?_operator (op : Operator) :
    op.tier.operator? (.operator op) = some op :=
  if_pos rfl

namespace Grammar

/-! ### The two relations -/

/-- Whether a limit lets a construct open at a depth. -/
def Admits (limit : Option Nat) (depth : Nat) : Prop :=
  ∀ most, limit = some most → depth < most

/-- What is read: all that a rule takes, or a chain from its first operand up to one of its later
ones, more of which may follow. -/
inductive Goal where
  | rule (rule : Rule)
  | begun (tier : Tier)

/-- No operator of the tier follows. -/
def Settled (tier : Tier) (rest : List Token) : Prop :=
  ∀ token tail, rest = token :: tail → tier.operator? token = none

theorem Settled.tier_ne {tier : Tier} {op : Operator} {rest : List Token}
    (h : Settled tier (.operator op :: rest)) : op.tier ≠ tier := by
  rintro rfl
  have none := h _ rest rfl
  rw [Tier.operator?_operator] at none
  cases none

/-- The tokens begin with an expression of the goal, and the last argument follows it. -/
inductive Reads (limit : Option Nat) :
    Goal → Nat → List Token → Expression → List Token → Prop where
  /-- A chain begins with an operand. -/
  | first {tier : Tier} {depth : Nat} {tokens rest : List Token} {e : Expression}
      (operand : Reads limit (.rule (.operand tier)) depth tokens e rest) :
      Reads limit (.begun tier) depth tokens e rest
  /-- A chain goes on with an operator of the tier and an operand. -/
  | next {tier : Tier} {op : Operator} {depth : Nat} {tokens middle rest : List Token}
      {left right : Expression} (joins : op.tier = tier)
      (before : Reads limit (.begun tier) depth tokens left (.operator op :: middle))
      (last : Reads limit (.rule (.operand tier)) depth middle right rest) :
      Reads limit (.begun tier) depth tokens (.operation op left right) rest
  /-- A chain ends where no operator of the tier follows. -/
  | chain {tier : Tier} {depth : Nat} {tokens rest : List Token} {e : Expression}
      (all : Reads limit (.begun tier) depth tokens e rest) (settled : Settled tier rest) :
      Reads limit (.rule (.chain tier)) depth tokens e rest
  /-- An atom without an exponent mark behind it. -/
  | plain {depth : Nat} {tokens rest : List Token} {e : Expression}
      (atom : Reads limit (.rule .atom) depth tokens e rest)
      (unmarked : ∀ tail, rest ≠ .exponentMark :: tail) :
      Reads limit (.rule .scaled) depth tokens e rest
  /-- An atom with an exponent mark and another atom behind it. -/
  | scaled {depth : Nat} {tokens middle rest : List Token} {mantissa exponent : Expression}
      (left : Reads limit (.rule .atom) depth tokens mantissa (.exponentMark :: middle))
      (right : Reads limit (.rule .atom) depth middle exponent rest) :
      Reads limit (.rule .scaled) depth tokens (.scaled mantissa exponent) rest
  /-- A literal without a point. -/
  | integer {depth : Nat} {rest : List Token} (whole : Float)
      (pointless : ∀ tail, rest ≠ .point :: tail) :
      Reads limit (.rule .atom) depth (.number whole :: rest) (.literal whole none) rest
  /-- A literal with a point. -/
  | decimal {depth : Nat} {rest : List Token} (whole : Float) (fraction : Fraction) :
      Reads limit (.rule .atom) depth (.number whole :: .point :: .fraction fraction :: rest)
        (.literal whole (some fraction)) rest
  /-- An expression in an enclosure. -/
  | enclosed {depth : Nat} {tokens rest : List Token} {e : Expression} (enclosure : Enclosure)
      (admitted : Admits limit depth)
      (inner : Reads limit (.rule (.chain .additive)) (depth + 1) tokens e (.closing :: rest)) :
      Reads limit (.rule .atom) depth (enclosure.opener :: tokens) (enclosure.around e) rest
  /-- A minus and a term. -/
  | negation {depth : Nat} {tokens rest : List Token} {e : Expression}
      (admitted : Admits limit depth)
      (term : Reads limit (.rule (.chain .multiplicative)) (depth + 1) tokens e rest) :
      Reads limit (.rule .atom) depth (.negation :: tokens) (.negation e) rest

/-- The tokens do not begin with what the rule asks for. The cause is met when the given trees are
complete. -/
inductive Fails (limit : Option Nat) :
    Rule → Nat → List Token → List Expression → SyntaxError → Prop where
  /-- The first operand of a chain is at fault. -/
  | first {tier : Tier} {depth : Nat} {tokens : List Token} {done : List Expression}
      {cause : SyntaxError} (operand : Fails limit (.operand tier) depth tokens done cause) :
      Fails limit (.chain tier) depth tokens done cause
  /-- A later operand of a chain is at fault. -/
  | next {tier : Tier} {op : Operator} {depth : Nat} {tokens middle : List Token}
      {left : Expression} {done : List Expression} {cause : SyntaxError} (joins : op.tier = tier)
      (before : Reads limit (.begun tier) depth tokens left (.operator op :: middle))
      (last : Fails limit (.operand tier) depth middle done cause) :
      Fails limit (.chain tier) depth tokens (left :: done) cause
  /-- An atom is at fault. -/
  | mantissa {depth : Nat} {tokens : List Token} {done : List Expression} {cause : SyntaxError}
      (atom : Fails limit .atom depth tokens done cause) :
      Fails limit .scaled depth tokens done cause
  /-- The atom behind an exponent mark is at fault. -/
  | exponent {depth : Nat} {tokens middle : List Token} {mantissa : Expression}
      {done : List Expression} {cause : SyntaxError}
      (left : Reads limit (.rule .atom) depth tokens mantissa (.exponentMark :: middle))
      (right : Fails limit .atom depth middle done cause) :
      Fails limit .scaled depth tokens (mantissa :: done) cause
  /-- No fraction follows the point of a literal. -/
  | missingDigits {depth : Nat} {rest : List Token} (whole : Float)
      (missing : ∀ fraction tail, rest ≠ .fraction fraction :: tail) :
      Fails limit .atom depth (.number whole :: .point :: rest) [] .missingDigits
  /-- The limit does not admit one more level. -/
  | tooDeep {depth most : Nat} {token : Token} {tail : List Token} (limited : limit = some most)
      (reached : most ≤ depth) (nests : token.nests = true) :
      Fails limit .atom depth (token :: tail) [] (.tooDeep most)
  /-- The content of an enclosure is at fault. -/
  | inner {depth : Nat} {tokens : List Token} {done : List Expression} {cause : SyntaxError}
      (enclosure : Enclosure) (admitted : Admits limit depth)
      (inner : Fails limit (.chain .additive) (depth + 1) tokens done cause) :
      Fails limit .atom depth (enclosure.opener :: tokens) done cause
  /-- An enclosure is not closed where its content ends. -/
  | unclosed {depth : Nat} {tokens rest : List Token} {e : Expression} (enclosure : Enclosure)
      (admitted : Admits limit depth)
      (inner : Reads limit (.rule (.chain .additive)) (depth + 1) tokens e rest)
      (unclosed : ∀ tail, rest ≠ .closing :: tail) :
      Fails limit .atom depth (enclosure.opener :: tokens) [e] (.unclosed enclosure)
  /-- The operand of a minus is at fault. -/
  | negation {depth : Nat} {tokens : List Token} {done : List Expression} {cause : SyntaxError}
      (admitted : Admits limit depth)
      (term : Fails limit (.chain .multiplicative) (depth + 1) tokens done cause) :
      Fails limit .atom depth (.negation :: tokens) done cause
  /-- No operand begins with the token. -/
  | unexpected {depth : Nat} {token : Token} {tail : List Token}
      (strange : token.startsOperand = false) :
      Fails limit .atom depth (token :: tail) [] (.unexpected token)
  /-- The tokens end where an operand has to begin. -/
  | unexpectedEnd {depth : Nat} : Fails limit .atom depth [] [] .unexpectedEnd

variable {limit : Option Nat}

/-! ### What was read -/

/-- **Nothing is lost.** The tokens of the tree and the rest make up the tokens that were read. -/
theorem Reads.tokens_eq {goal : Goal} {depth : Nat} {tokens rest : List Token} {e : Expression}
    (h : Reads limit goal depth tokens e rest) : tokens = e.tokens ++ rest := by
  induction h with
  | first _ ih | chain _ _ ih | plain _ _ ih => exact ih
  | next _ _ _ before last | scaled _ _ before last =>
    rw [before, last]
    simp [Expression.tokens]
  | integer _ _ | decimal _ _ => rfl
  | enclosed enclosure _ _ inner =>
    rw [inner, enclosure.tokens_around]
    simp
  | negation _ _ term =>
    rw [term]
    rfl

/-- What is read to the end of the tokens has these tokens. -/
theorem Reads.eq_tokens {goal : Goal} {depth : Nat} {tokens : List Token} {e : Expression}
    (h : Reads limit goal depth tokens e []) : tokens = e.tokens := by
  rw [h.tokens_eq, List.append_nil]

/-- A reading leaves fewer tokens than it was given. -/
theorem Reads.shorter {goal : Goal} {depth : Nat} {tokens rest : List Token} {e : Expression}
    (h : Reads limit goal depth tokens e rest) : rest.length < tokens.length := by
  have nonempty := List.length_pos_iff.mpr e.tokens_ne_nil
  rw [h.tokens_eq, List.length_append]
  omega

/-- What a goal derives: a chain that may go on is a chain. -/
def Goal.derivable : Goal → Rule
  | .rule whole => whole
  | .begun tier => .chain tier

/-- **Soundness of the tree.** What was read can be derived. -/
theorem Reads.derives {goal : Goal} {depth : Nat} {tokens rest : List Token} {e : Expression}
    (h : Reads limit goal depth tokens e rest) : Derives goal.derivable e.tokens := by
  induction h with
  | first _ ih => exact .operand ih
  | next joins _ _ before last =>
    subst joins
    exact .operator before last
  | chain _ _ ih => exact ih
  | plain _ _ ih => exact .plain ih
  | scaled _ _ left right => exact .scaled left right
  | integer whole _ => exact .integer whole
  | decimal whole fraction => exact .decimal whole fraction
  | enclosed enclosure _ _ inner =>
    cases enclosure with
    | parentheses => exact .parenthesized inner
    | argument function => exact .application function inner
  | negation _ _ term => exact .negation term

/-- The tiers whose operators a goal takes whenever they follow. -/
def Goal.Settles : Goal → Tier → Prop
  | .rule (.chain tier), tier' => rank tier' ≤ rank tier
  | .begun tier, tier' => rank tier' < rank tier
  | _, _ => False

/-- An expression takes all operators that follow. -/
theorem Goal.settles_expression (tier : Tier) : (Goal.rule (.chain .additive)).Settles tier := by
  cases tier <;> simp [Settles, rank]

theorem Goal.Settles.operand {tier tier' : Tier} (h : (Goal.begun tier).Settles tier') :
    (Goal.rule (.operand tier)).Settles tier' := by
  revert h
  -- The tiers tighter than a tier are the tier below it and those tighter than that one.
  cases tier <;> cases tier' <;> simp [Settles, Rule.operand, rank]

theorem rank_injective {tier tier' : Tier} (h : rank tier = rank tier') : tier = tier' := by
  revert h
  cases tier <;> cases tier' <;> decide

/-- **A chain is maximal.** No operator of its tier or of a tighter one follows it. -/
theorem Reads.settled {goal : Goal} {depth : Nat} {tokens rest : List Token} {e : Expression}
    (h : Reads limit goal depth tokens e rest) {tier : Tier} (settles : goal.Settles tier) :
    Settled tier rest := by
  induction h with
  | first _ ih => exact ih settles.operand
  | next _ _ _ _ last => exact last settles.operand
  | chain _ settled ih =>
    -- Its own tier is the reason why the chain has ended; the tighter ones its last operand took.
    rcases Nat.lt_or_eq_of_le settles with tighter | same
    · exact ih tighter
    · rw [rank_injective same]
      exact settled
  | _ => exact settles.elim

/-! ### One of the two relations holds -/

/-- A rule has read an expression, or it has failed. -/
def Decided (limit : Option Nat) (rule : Rule) (depth : Nat) (tokens : List Token) : Prop :=
  (∃ e rest, Reads limit (.rule rule) depth tokens e rest) ∨
    ∃ done cause, Fails limit rule depth tokens done cause

/-- All lists of fewer tokens are decided, for all rules and depths. -/
def DecidedBelow (limit : Option Nat) (bound : Nat) : Prop :=
  ∀ rule depth (tokens : List Token), tokens.length < bound → Decided limit rule depth tokens

/-- A limit admits a depth or has been reached. -/
theorem admits_or_reached (limit : Option Nat) (depth : Nat) :
    Admits limit depth ∨ ∃ most, limit = some most ∧ most ≤ depth := by
  cases limit with
  | none => exact .inl fun _ h => nomatch h
  | some most =>
    rcases Nat.lt_or_ge depth most with admitted | reached
    · left
      intro _ h
      cases h
      exact admitted
    · exact .inr ⟨most, rfl, reached⟩

section Totality

variable {tokens : List Token}

theorem decided_enclosed (enclosure : Enclosure) (depth : Nat)
    (content : Decided limit (.chain .additive) (depth + 1) tokens) :
    Decided limit .atom depth (enclosure.opener :: tokens) := by
  rcases admits_or_reached limit depth with admitted | ⟨most, limited, reached⟩
  -- One level further in, the content decides, and then the token behind it.
  · rcases content with ⟨e, rest, inner⟩ | ⟨done, cause, inner⟩
    · by_cases closed : ∃ tail, rest = .closing :: tail
      · obtain ⟨tail, rfl⟩ := closed
        exact .inl ⟨_, _, .enclosed enclosure admitted inner⟩
      · exact .inr ⟨_, _, .unclosed enclosure admitted inner fun tail h => closed ⟨tail, h⟩⟩
    · exact .inr ⟨_, _, .inner enclosure admitted inner⟩
  · exact .inr ⟨_, _, .tooDeep limited reached enclosure.nests_opener⟩

theorem decided_negation (depth : Nat)
    (operand : Decided limit (.chain .multiplicative) (depth + 1) tokens) :
    Decided limit .atom depth (.negation :: tokens) := by
  rcases admits_or_reached limit depth with admitted | ⟨most, limited, reached⟩
  · rcases operand with ⟨e, rest, term⟩ | ⟨done, cause, term⟩
    · exact .inl ⟨_, _, .negation admitted term⟩
    · exact .inr ⟨_, _, .negation admitted term⟩
  · exact .inr ⟨_, _, .tooDeep limited reached rfl⟩

theorem decided_literal (depth : Nat) (whole : Float) (tail : List Token) :
    Decided limit .atom depth (.number whole :: tail) := by
  -- The three tokens that a literal looks at, one after the other.
  by_cases pointed : ∃ rest, tail = .point :: rest
  · obtain ⟨rest, rfl⟩ := pointed
    by_cases digits : ∃ fraction behind, rest = .fraction fraction :: behind
    · obtain ⟨fraction, behind, rfl⟩ := digits
      exact .inl ⟨_, _, .decimal whole fraction⟩
    · refine .inr ⟨_, _, .missingDigits whole ?_⟩
      exact fun fraction behind h => digits ⟨fraction, behind, h⟩
  · exact .inl ⟨_, _, .integer whole fun rest h => pointed ⟨rest, h⟩⟩

/-- An atom is decided if the expressions inside it are, which have fewer tokens. -/
theorem decided_atom (depth : Nat) (shorter : DecidedBelow limit tokens.length) :
    Decided limit .atom depth tokens := by
  cases tokens with
  | nil => exact .inr ⟨_, _, .unexpectedEnd⟩
  | cons token tail =>
    have inside := fun rule depth => shorter rule depth tail (Nat.lt_succ_self _)
    cases token with
    | number whole => exact decided_literal depth whole tail
    | function function => exact decided_enclosed (.argument function) depth (inside _ _)
    | opening => exact decided_enclosed .parentheses depth (inside _ _)
    | negation => exact decided_negation depth (inside _ _)
    | _ => exact .inr ⟨_, _, .unexpected rfl⟩

theorem decided_scaled (depth : Nat) (atom : Decided limit .atom depth tokens)
    (shorter : DecidedBelow limit tokens.length) : Decided limit .scaled depth tokens := by
  rcases atom with ⟨e, rest, atom⟩ | ⟨done, cause, atom⟩
  · by_cases marked : ∃ middle, rest = .exponentMark :: middle
    · obtain ⟨middle, rfl⟩ := marked
      have fewer : middle.length < tokens.length := Nat.lt_of_succ_lt atom.shorter
      rcases shorter .atom depth middle fewer with ⟨x, rest, exponent⟩ | ⟨done, cause, exponent⟩
      · exact .inl ⟨_, _, .scaled atom exponent⟩
      · exact .inr ⟨_, _, .exponent atom exponent⟩
    · exact .inl ⟨_, _, .plain atom fun middle h => marked ⟨middle, h⟩⟩
  · exact .inr ⟨_, _, .mantissa atom⟩

/-- A chain that has begun is decided, by induction on the tokens that it has left. -/
theorem decided_begun (tier : Tier) (depth : Nat) (shorter : DecidedBelow limit tokens.length)
    (left : Expression) (rest : List Token)
    (begun : Reads limit (.begun tier) depth tokens left rest) :
    Decided limit (.chain tier) depth tokens := by
  induction hn : rest.length using Nat.strongRecOn generalizing left rest with
  | ind n ih =>
    by_cases goesOn : ∃ op middle, rest = .operator op :: middle ∧ op.tier = tier
    -- The chain has to go on, and its next operand is decided because it is shorter.
    · obtain ⟨op, middle, rfl, joins⟩ := goesOn
      have fewer : middle.length < tokens.length := Nat.lt_of_succ_lt begun.shorter
      rcases shorter (.operand tier) depth middle fewer with
        ⟨right, behind, operand⟩ | ⟨done, cause, operand⟩
      · have less : behind.length < n := hn ▸ Nat.lt_succ_of_lt operand.shorter
        exact ih _ less _ behind (.next joins begun operand) rfl
      · exact .inr ⟨_, _, .next joins begun operand⟩
    -- The chain ends here, where no operator of the tier follows.
    · refine .inl ⟨_, _, .chain begun ?_⟩
      intro token tail h
      rw [Option.eq_none_iff_forall_ne_some]
      intro op joins
      obtain ⟨rfl, same⟩ := Tier.operator?_eq_some joins
      exact goesOn ⟨op, tail, h, same⟩

theorem decided_chain (tier : Tier) (depth : Nat)
    (operand : Decided limit (.operand tier) depth tokens)
    (shorter : DecidedBelow limit tokens.length) : Decided limit (.chain tier) depth tokens := by
  rcases operand with ⟨e, rest, operand⟩ | ⟨done, cause, operand⟩
  · exact decided_begun tier depth shorter e rest (.first operand)
  · exact .inr ⟨_, _, .first operand⟩

end Totality

/-- **A reading decides.** For all tokens, either an expression is read or there is a cause of
failure. The induction is on the number of tokens; on the same tokens, a rule follows from the
tighter one. -/
theorem reads_or_fails (limit : Option Nat) (rule : Rule) (depth : Nat) (tokens : List Token) :
    Decided limit rule depth tokens := by
  induction hn : tokens.length using Nat.strongRecOn generalizing rule depth tokens with
  | ind n ih =>
    have shorter : DecidedBelow limit tokens.length :=
      fun rule depth middle fewer => ih _ (hn ▸ fewer) rule depth middle rfl
    -- On these tokens each rule rests on the one below it, down to the atom, which takes a token.
    have atom := decided_atom depth shorter
    have scaled := decided_scaled depth atom shorter
    have power := decided_chain .power depth scaled shorter
    have term := decided_chain .multiplicative depth power shorter
    cases rule with
    | atom => exact atom
    | scaled => exact scaled
    | chain tier =>
      cases tier with
      | power => exact power
      | multiplicative => exact term
      | additive => exact decided_chain .additive depth term shorter

end Grammar

end Calculator
