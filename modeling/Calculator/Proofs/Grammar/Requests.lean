import Mathlib.Logic.Relation
import Calculator.Proofs.Grammar.Reads

/-!
# Where a reading looks

To read what it is asked for, a rule asks other rules for the parts, each of them for the tokens that
are left at that point. `Asks` lists these requests, one for every call that a rule makes, and one
request `Leads` to another through any number of them. A request may be made on the way to a fault,
so it need not belong to any tree.

There are three kinds of places at which a reading looks at a token (`Looks`): where a request is
made, where one has been answered, and behind the point of a literal. What stands in front of a place
depends on its kind (`Looks.behind`). For requests this is an invariant: a rule passes its own tokens
on, or the last one that it has passed is an operator, an exponent mark, an opening token or a minus
(`Asks.begins`, `Leads.begins`). In front of what follows an answer stands the last token of an
expression (`Expression.endsOperand_last`).

A reading fails at such a place, because it does not find what it looks for: `Fails.meets`.
-/

namespace Calculator

open Grammar

/-- Whether an operand has to follow a token. -/
def Token.expectsOperand : Token → Bool
  | .operator _ | .negation | .exponentMark | .function _ | .opening => true
  | _ => false

/-- No operand ends where an operand has to follow. -/
theorem Token.any_endsOperand {previous : Option Token}
    (h : previous.all expectsOperand = true) : previous.any endsOperand = false := by
  cases previous with
  | none => rfl
  | some token =>
    cases token with
    | number _ | fraction _ | closing => cases h
    | _ => rfl

theorem any_getLast?_append {α : Type} {p : α → Bool} {last : List α}
    (h : last.getLast?.any p = true) (before : List α) :
    (before ++ last).getLast?.any p = true := by
  rw [List.getLast?_append]
  cases last? : last.getLast? <;> rw [last?] at h
  · cases h
  · exact h

/-- The last token of an expression ends an operand. -/
theorem Expression.endsOperand_last (e : Expression) :
    e.tokens.getLast?.any Token.endsOperand = true := by
  -- Where a node ends with an operand, its last token is that of the operand.
  induction e with
  | literal _ fraction => cases fraction <;> rfl
  | operation _ _ _ _ last | scaled _ _ _ last =>
    rw [tokens, List.append_cons]
    exact any_getLast?_append last _
  | application _ _ _ | parenthesized _ _ =>
    rw [tokens, List.getLast?_concat]
    rfl
  | negation _ last => exact any_getLast?_append last [.negation]

namespace Grammar

/-! ### Requests -/

/-- What is asked for: a rule, at a depth, and the tokens that are left. -/
structure Request where
  rule : Rule
  depth : Nat
  tokens : List Token

/-- To answer the first request, a reading asks for the second one. -/
inductive Asks (limit : Option Nat) : Request → Request → Prop where
  /-- A chain asks for its first operand. -/
  | first {tier : Tier} {depth : Nat} {tokens : List Token} :
      Asks limit ⟨.chain tier, depth, tokens⟩ ⟨.operand tier, depth, tokens⟩
  /-- Behind an operator of its tier, a chain asks for the next operand. -/
  | next {tier : Tier} {op : Operator} {depth : Nat} {tokens middle : List Token}
      {left : Expression} (joins : op.tier = tier)
      (before : Reads limit (.begun tier) depth tokens left (.operator op :: middle)) :
      Asks limit ⟨.chain tier, depth, tokens⟩ ⟨.operand tier, depth, middle⟩
  /-- A power of ten asks for its mantissa. -/
  | mantissa {depth : Nat} {tokens : List Token} :
      Asks limit ⟨.scaled, depth, tokens⟩ ⟨.atom, depth, tokens⟩
  /-- Behind the exponent mark, a power of ten asks for its exponent. -/
  | exponent {depth : Nat} {tokens middle : List Token} {mantissa : Expression}
      (left : Reads limit (.rule .atom) depth tokens mantissa (.exponentMark :: middle)) :
      Asks limit ⟨.scaled, depth, tokens⟩ ⟨.atom, depth, middle⟩
  /-- An enclosure asks for its content. -/
  | inner {depth : Nat} {tokens : List Token} (enclosure : Enclosure)
      (admitted : Admits limit depth) :
      Asks limit ⟨.atom, depth, enclosure.opener :: tokens⟩ ⟨.chain .additive, depth + 1, tokens⟩
  /-- A minus asks for a term. -/
  | negation {depth : Nat} {tokens : List Token} (admitted : Admits limit depth) :
      Asks limit ⟨.atom, depth, .negation :: tokens⟩ ⟨.chain .multiplicative, depth + 1, tokens⟩

variable {limit : Option Nat}

/-- **One request.** It is for the same tokens, or the last token that was passed expects an
operand. -/
theorem Asks.begins {request request' : Request} (h : Asks limit request request') :
    request'.tokens = request.tokens ∨
      ∃ passed token, request.tokens = passed ++ token :: request'.tokens ∧
        token.expectsOperand = true := by
  cases h with
  | first | mantissa => exact .inl rfl
  | next _ before => exact .inr ⟨_, _, before.tokens_eq, rfl⟩
  | exponent left => exact .inr ⟨_, _, left.tokens_eq, rfl⟩
  | inner enclosure _ => exact .inr ⟨[], _, rfl, by cases enclosure <;> rfl⟩
  | negation _ => exact .inr ⟨[], _, rfl, rfl⟩

/-- A request that is made, directly or through others, to answer the first one. -/
def Leads (limit : Option Nat) : Request → Request → Prop :=
  Relation.ReflTransGen (Asks limit)

/-- **All requests.** What has been passed in front of a request ends with a token that expects an
operand, if anything has been passed. -/
theorem Leads.begins {request request' : Request} (h : Leads limit request request') :
    ∃ passed, request.tokens = passed ++ request'.tokens ∧
      passed.getLast?.all Token.expectsOperand = true := by
  induction h with
  | refl => exact ⟨[], rfl, rfl⟩
  | tail _ asks ih =>
    obtain ⟨passed, split, expects⟩ := ih
    -- If the last request has passed tokens of its own, the last one of these counts.
    rcases asks.begins with same | ⟨passed', token, split', expects'⟩
    · exact ⟨passed, by rw [split, same], expects⟩
    · refine ⟨passed ++ passed' ++ [token], by simp [split, split'], ?_⟩
      rw [List.getLast?_concat]
      exact expects'

/-! ### Places -/

/-- What a reading looks for: an operand, the digits behind the point of a literal, or what may
follow an operand. -/
inductive Wanted where
  | operand
  | digits
  | continuation

/-- What stands in front of a place where something is looked for. -/
def Wanted.Behind : Wanted → Option Token → Prop
  | .operand, previous => previous.all Token.expectsOperand = true
  | .digits, previous => previous = some .point
  | .continuation, previous => previous.any Token.endsOperand = true

/-- To answer a request, a reading looks for something at the start of the tokens that are left. -/
inductive Looks (limit : Option Nat) (request : Request) : Wanted → List Token → Prop where
  /-- Every request begins with an operand. -/
  | operand {request' : Request} (leads : Leads limit request request') :
      Looks limit request .operand request'.tokens
  /-- Behind its point, a literal has digits. -/
  | digits {depth : Nat} {whole : Float} {rest : List Token}
      (leads : Leads limit request ⟨.atom, depth, .number whole :: .point :: rest⟩) :
      Looks limit request .digits rest
  /-- Where a request has been answered, an operand has ended. -/
  | continuation {request' : Request} {e : Expression} {rest : List Token}
      (leads : Leads limit request request')
      (answered : Reads limit (.rule request'.rule) request'.depth request'.tokens e rest) :
      Looks limit request .continuation rest

/-- **What stands in front of a place** is known from what is looked for there. -/
theorem Looks.behind {request : Request} {wanted : Wanted} {rest : List Token}
    (h : Looks limit request wanted rest) :
    ∃ passed, request.tokens = passed ++ rest ∧ wanted.Behind passed.getLast? := by
  cases h with
  | operand leads => exact leads.begins
  | @digits _ whole _ leads =>
    obtain ⟨passed, split, -⟩ := leads.begins
    refine ⟨passed ++ [.number whole] ++ [.point], by simp [split], ?_⟩
    rw [List.getLast?_concat]
    rfl
  | @continuation request' e _ leads answered =>
    obtain ⟨passed, split, -⟩ := leads.begins
    refine ⟨passed ++ e.tokens, by rw [split, answered.tokens_eq, List.append_assoc], ?_⟩
    exact any_getLast?_append e.endsOperand_last passed

/-- The places of a request are places of the request that asks for it. -/
theorem Looks.head {request request' : Request} {wanted : Wanted} {rest : List Token}
    (h : Looks limit request' wanted rest) (asks : Asks limit request request') :
    Looks limit request wanted rest := by
  cases h with
  | operand leads => exact .operand (leads.head asks)
  | digits leads => exact .digits (leads.head asks)
  | continuation leads answered => exact .continuation (leads.head asks) answered

/-- The causes that are met at a place, by what is looked for and what is there instead. -/
def Wanted.Misses : Wanted → SyntaxError → List Token → Prop
  | .operand, .unexpected token, rest => token.startsOperand = false ∧ ∃ tail, rest = token :: tail
  | .operand, .unexpectedEnd, rest => rest = []
  | .operand, .tooDeep _, rest => ∃ token tail, token.nests = true ∧ rest = token :: tail
  | .digits, .missingDigits, rest => ∀ fraction tail, rest ≠ .fraction fraction :: tail
  | .continuation, .unclosed _, rest => ∀ tail, rest ≠ .closing :: tail
  | _, _, _ => False

/-- A cause is met at a place of a request. -/
def Meets (limit : Option Nat) (request : Request) (cause : SyntaxError) : Prop :=
  ∃ wanted rest, Looks limit request wanted rest ∧ wanted.Misses cause rest

theorem Meets.head {request request' : Request} {cause : SyntaxError}
    (h : Meets limit request' cause) (asks : Asks limit request request') :
    Meets limit request cause := by
  obtain ⟨wanted, rest, looks, misses⟩ := h
  exact ⟨wanted, rest, looks.head asks, misses⟩

/-- **Every fault is met at a place of the reading.** -/
theorem Fails.meets {rule : Rule} {depth : Nat} {tokens : List Token} {done : List Expression}
    {cause : SyntaxError} (h : Fails limit rule depth tokens done cause) :
    Meets limit ⟨rule, depth, tokens⟩ cause := by
  -- The fault of a rule is the fault of a request that it makes, down to an atom with a fault of its
  -- own.
  induction h with
  | first _ ih => exact ih.head .first
  | next joins before _ ih => exact ih.head (.next joins before)
  | mantissa _ ih => exact ih.head .mantissa
  | exponent left _ ih => exact ih.head (.exponent left)
  | inner enclosure admitted _ ih => exact ih.head (.inner enclosure admitted)
  | negation admitted _ ih => exact ih.head (.negation admitted)
  | missingDigits whole missing => exact ⟨_, _, .digits .refl, missing⟩
  | tooDeep _ _ nests => exact ⟨_, _, .operand .refl, _, _, nests, rfl⟩
  | unclosed enclosure admitted inner unclosed =>
    -- The content has been read, and its end is a place of the request for it.
    exact ⟨_, _, .continuation (.single (.inner enclosure admitted)) inner, unclosed⟩
  | unexpected strange => exact ⟨_, _, .operand .refl, strange, _, rfl⟩
  | unexpectedEnd => exact ⟨_, _, .operand .refl, rfl⟩

/-- An unexpected token stands where an operand is looked for, and no operand begins with it. -/
theorem Fails.looks_unexpected {rule : Rule} {depth : Nat} {tokens : List Token}
    {done : List Expression} {token : Token}
    (h : Fails limit rule depth tokens done (.unexpected token)) :
    token.startsOperand = false ∧
      ∃ tail, Looks limit ⟨rule, depth, tokens⟩ .operand (token :: tail) := by
  obtain ⟨wanted, rest, looks, misses⟩ := h.meets
  cases wanted with
  | operand =>
    obtain ⟨strange, tail, rfl⟩ := misses
    exact ⟨strange, tail, looks⟩
  | digits | continuation => exact misses.elim

/-- Where an operand is missing at the end, one is looked for. -/
theorem Fails.looks_unexpectedEnd {rule : Rule} {depth : Nat} {tokens : List Token}
    {done : List Expression} (h : Fails limit rule depth tokens done .unexpectedEnd) :
    Looks limit ⟨rule, depth, tokens⟩ .operand [] := by
  obtain ⟨wanted, rest, looks, misses⟩ := h.meets
  cases wanted with
  | operand =>
    rw [← show rest = [] from misses]
    exact looks
  | digits | continuation => exact misses.elim

/-- What follows an expression is no fault of its reading. -/
theorem Fails.not_trailing {rule : Rule} {depth : Nat} {tokens : List Token}
    {done : List Expression} {token : Token} :
    ¬ Fails limit rule depth tokens done (.trailing token) := by
  intro h
  obtain ⟨wanted, _, _, misses⟩ := h.meets
  cases wanted <;> exact misses.elim

end Grammar

end Calculator
