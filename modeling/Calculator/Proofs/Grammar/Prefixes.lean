import Calculator.Proofs.Grammar.Acceptance
import Calculator.Proofs.Grammar.Relocation
import Calculator.Proofs.Grammar.Requests

/-!
# What the front of the tokens decides

A reading goes from left to right and never back, so what it has done at some place depends on the
tokens in front of that place and, where an expression may end there, on whether the next token
goes on with it. Everything behind can be exchanged:

* An expression that has been read is read again by itself and in front of all tokens that do not go
  on with it (`read_local`).
* A request is made again whatever tokens are left for it (`Leads.exists_passed`), and it fails as
  soon as no operand begins with the first of them (`Fails.of_atom`, `Leads.fails`).

Conversely, what a reading has passed on the way to a request is the beginning of an expression. The
requests on that way are its open constructs, and each of them is completed by what completes the
last one, an enclosure with its closing parenthesis as well (`Asks.completable`). None of this opens
a level that was not admitted before. So the checker blames the first token that no expression can
have at its place (`check_blames_earliest`).
-/

namespace Calculator

open Grammar

variable {σ ε α : Type}

namespace Grammar

variable {limit : Option Nat}

/-! ### Other tokens behind an expression -/

/-- What has been read is read again in front of other tokens, with the same value. -/
theorem read_followedBy {interp : Interpretation σ ε α} {tokens rest rest' : List Token}
    {e : Expression} {value : α} {s s' : σ}
    (h : Reads limit (.rule (.chain .additive)) 0 tokens e rest)
    (performed : (e.interpret interp).run s = .ok value s') (replaces : Replaces rest rest') :
    (read interp limit (e.tokens ++ rest')).run s = .ok (value, rest') s' := by
  rw [read_of_reads interp (h.followedBy replaces), EStateM.run_bind, performed]
  rfl

/-! ### Other tokens for a request -/

/-- **One request.** What was passed in front of it is passed whatever tokens are left. -/
theorem Asks.exists_passed {request request' : Request} (h : Asks limit request request') :
    ∃ passed, request.tokens = passed ++ request'.tokens ∧ ∀ tokens,
      Asks limit { request with tokens := passed ++ tokens } { request' with tokens } := by
  cases h with
  | first => exact ⟨[], rfl, fun _ => .first⟩
  | mantissa => exact ⟨[], rfl, fun _ => .mantissa⟩
  | @next _ op _ _ _ left joins before =>
    refine ⟨left.tokens ++ [Token.operator op], by simp [before.tokens_eq], fun tokens => ?_⟩
    have before := before.followedBy (replaces_cons _ _ tokens)
    rw [List.append_cons] at before
    exact .next joins before
  | @exponent _ _ _ mantissa left =>
    refine ⟨mantissa.tokens ++ [Token.exponentMark], by simp [left.tokens_eq], fun tokens => ?_⟩
    have left := left.followedBy (replaces_cons _ _ tokens)
    rw [List.append_cons] at left
    exact .exponent left
  | inner enclosure admitted => exact ⟨[enclosure.opener], rfl, fun _ => .inner enclosure admitted⟩
  | negation admitted => exact ⟨[.negation], rfl, fun _ => .negation admitted⟩

/-- **All requests.** What was passed in front of the last one is passed whatever tokens are left. -/
theorem Leads.exists_passed {request request' : Request} (h : Leads limit request request') :
    ∃ passed, request.tokens = passed ++ request'.tokens ∧ ∀ tokens,
      Leads limit { request with tokens := passed ++ tokens } { request' with tokens } := by
  induction h with
  | refl => exact ⟨[], rfl, fun _ => .refl⟩
  | tail _ asks ih =>
    obtain ⟨passed, split, leads⟩ := ih
    obtain ⟨passed', split', asks⟩ := asks.exists_passed
    refine ⟨passed ++ passed', by rw [split, split', List.append_assoc], fun tokens => ?_⟩
    rw [List.append_assoc]
    exact .tail (leads _) (asks tokens)

/-! ### A request that fails -/

/-- A rule passes its tokens on to the tighter ones, and fails as an atom fails on them. -/
theorem Fails.of_atom {depth : Nat} {tokens : List Token} {done : List Expression}
    {cause : SyntaxError} (h : Fails limit .atom depth tokens done cause) (rule : Rule) :
    Fails limit rule depth tokens done cause := by
  have looser : (Goal.rule .atom).height ≤ (Goal.rule rule).height := Nat.zero_le _
  refine Goal.climb (motive := fun goal => Fails limit goal.derivable depth tokens done cause)
    looser h ?_ ?_ ?_
  · exact .mantissa
  · exact fun _ => .first
  · exact fun _ => id

/-- A fault of a request is a fault of the one that asks for it. -/
theorem Asks.fails {request request' : Request} (h : Asks limit request request')
    {done : List Expression} {cause : SyntaxError}
    (fails : Fails limit request'.rule request'.depth request'.tokens done cause) :
    ∃ done', Fails limit request.rule request.depth request.tokens done' cause := by
  cases h with
  | first => exact ⟨_, .first fails⟩
  | next joins before => exact ⟨_, .next joins before fails⟩
  | mantissa => exact ⟨_, .mantissa fails⟩
  | exponent left => exact ⟨_, .exponent left fails⟩
  | inner enclosure admitted => exact ⟨_, .inner enclosure admitted fails⟩
  | negation admitted => exact ⟨_, .negation admitted fails⟩

theorem Leads.fails {request request' : Request} (h : Leads limit request request')
    {done : List Expression} {cause : SyntaxError}
    (fails : Fails limit request'.rule request'.depth request'.tokens done cause) :
    ∃ done', Fails limit request.rule request.depth request.tokens done' cause := by
  induction h generalizing done with
  | refl => exact ⟨done, fails⟩
  | tail _ asks ih =>
    obtain ⟨_, above⟩ := asks.fails fails
    exact ih above

/-! ### A request that is completed -/

/-- The tokens of a request begin an expression of its rule: with some more tokens behind them, one
is read that ends there. -/
def Completable (limit : Option Nat) (request : Request) : Prop :=
  ∃ more, ∀ rest, (Goal.rule (.chain .additive)).EndsAt rest →
    ∃ e, Reads limit (.rule request.rule) request.depth (request.tokens ++ more ++ rest) e rest

/-- Where no tokens are left, a number completes what is asked for. -/
theorem completable_nil (rule : Rule) (depth : Nat) : Completable limit ⟨rule, depth, []⟩ := by
  refine ⟨[.number 0.0], fun rest ends => ⟨.literal 0.0 none, ?_⟩⟩
  have number : Reads limit (.rule .atom) depth (.number 0.0 :: rest) _ rest :=
    .integer 0.0 ends.pointless
  exact number.loosen (Nat.zero_le _) (ends.tighten (Goal.height_le_loosest _))

/-- **What completes a request** completes the one that asks for it, with a closing parenthesis
behind it if that one is an enclosure. -/
theorem Asks.completable {request request' : Request} (h : Asks limit request request')
    (completable : Completable limit request') : Completable limit request := by
  obtain ⟨more, completes⟩ := completable
  cases h with
  | first =>
    refine ⟨more, fun rest ends => ?_⟩
    obtain ⟨e, operand⟩ := completes rest ends
    exact ⟨e, .chain (.first operand) (ends.settled _ (Goal.settles_expression _))⟩
  | next joins before =>
    refine ⟨more, fun rest ends => ?_⟩
    obtain ⟨right, last⟩ := completes rest ends
    have begun := Reads.next joins (before.followedBy (replaces_cons _ _ _)) last
    have both := begun.chain (ends.settled _ (Goal.settles_expression _))
    rw [before.tokens_eq]
    exact ⟨_, by simpa using both⟩
  | mantissa =>
    refine ⟨more, fun rest ends => ?_⟩
    obtain ⟨e, atom⟩ := completes rest ends
    exact ⟨e, .plain atom (ends.unmarked (by simp))⟩
  | exponent left =>
    refine ⟨more, fun rest ends => ?_⟩
    obtain ⟨exponent, right⟩ := completes rest ends
    have both := Reads.scaled (left.followedBy (replaces_cons _ _ _)) right
    rw [left.tokens_eq]
    exact ⟨_, by simpa using both⟩
  | inner enclosure admitted =>
    -- In front of its parenthesis the content ends, whatever follows the enclosure.
    refine ⟨more ++ [Token.closing], fun rest _ => ?_⟩
    obtain ⟨e, inner⟩ := completes (.closing :: rest) (Goal.endsAt_of_not_extends _ rfl rest)
    have around := Reads.enclosed enclosure admitted inner
    exact ⟨_, by simpa using around⟩
  | negation admitted =>
    refine ⟨more, fun rest ends => ?_⟩
    obtain ⟨e, term⟩ := completes rest ends
    exact ⟨_, .negation admitted term⟩

theorem Leads.completable {request request' : Request} (h : Leads limit request request')
    (completable : Completable limit request') : Completable limit request := by
  induction h with
  | refl => exact completable
  | tail _ asks ih => exact ih (asks.completable completable)

/-- A place where an operand is looked for is that of a request. -/
theorem Looks.exists_request {request : Request} {rest : List Token}
    (h : Looks limit request .operand rest) :
    ∃ request', Leads limit request request' ∧ request'.tokens = rest := by
  cases h with
  | operand leads => exact ⟨_, leads, rfl⟩

/-- Tokens at the end of which an operand is looked for are the beginning of an expression. -/
theorem Looks.completable {request : Request} (h : Looks limit request .operand []) :
    Completable limit request := by
  obtain ⟨⟨rule, depth, _⟩, leads, rfl⟩ := h.exists_request
  exact leads.completable (completable_nil rule depth)

/-- The tokens in front of a place where an operand is looked for lead to such a place whatever
follows them. -/
theorem Looks.exists_passed {request : Request} {rest : List Token}
    (h : Looks limit request .operand rest) :
    ∃ passed, request.tokens = passed ++ rest ∧
      ∀ tokens, Looks limit { request with tokens := passed ++ tokens } .operand tokens := by
  obtain ⟨request', leads, rfl⟩ := h.exists_request
  obtain ⟨passed, split, leads⟩ := leads.exists_passed
  exact ⟨passed, split, fun tokens => .operand (leads tokens)⟩

/-- A token that no operand begins with is at fault wherever an operand is looked for. -/
theorem Looks.fails {request : Request} {token : Token} {tail : List Token}
    (h : Looks limit request .operand (token :: tail)) (strange : token.startsOperand = false) :
    ∃ done, Fails limit request.rule request.depth request.tokens done (.unexpected token) := by
  obtain ⟨⟨rule, depth, _⟩, leads, rfl⟩ := h.exists_request
  exact leads.fails (Fails.of_atom (.unexpected strange) rule)

end Grammar

/-! ### What a reading depends on -/

/-- **A reading is local.** What it takes from the front of the tokens is not empty and no operator
follows it. By itself it is read with the same value, and also in front of all other tokens, unless
they begin with an operator, an exponent mark or a point. -/
theorem read_local (interp : Interpretation σ ε α) (limit : Option Nat) {tokens rest : List Token}
    {value : α} {s s' : σ} (h : (read interp limit tokens).run s = .ok (value, rest) s') :
    ∃ taken, taken ≠ [] ∧ tokens = taken ++ rest ∧ (∀ op tail, rest ≠ .operator op :: tail) ∧
      (read interp limit taken).run s = .ok (value, []) s' ∧
      ∀ rest', (∀ token, rest'.head? = some token → token.extendsOperand = false) →
        (read interp limit (taken ++ rest')).run s = .ok (value, rest') s' := by
  obtain ⟨e, found, performed⟩ := reads_of_read interp h
  refine ⟨e.tokens, e.tokens_ne_nil, found.tokens_eq, ?_, ?_, ?_⟩
  · rintro op tail rfl
    exact (found.settled_all op.tier).tier_ne rfl
  · have alone := read_followedBy found performed (nofun : Replaces rest [])
    rwa [List.append_nil] at alone
  · intro rest' ends
    exact read_followedBy found performed fun token same => .inr (ends token same)

/-- In `1+2)`, what is read in front of the parenthesis is read in front of another number as well. -/
theorem read_local_closing :
    (read Expression.builder none [.number 1.0, .operator .add, .number 2.0, .closing]).run () =
        .ok (.operation .add (.literal 1.0 none) (.literal 2.0 none), [.closing]) () ∧
      (read Expression.builder none [.number 1.0, .operator .add, .number 2.0]).run () =
        .ok (.operation .add (.literal 1.0 none) (.literal 2.0 none), []) () ∧
      (read Expression.builder none
          [.number 1.0, .operator .add, .number 2.0, .number 3.0, .operator .mul]).run () =
        .ok (.operation .add (.literal 1.0 none) (.literal 2.0 none),
          [.number 3.0, .operator .mul]) () := by
  generalize (1.0 : Float) = x, (2.0 : Float) = y, (3.0 : Float) = z
  have found : (read Expression.builder none
      [.number x, .operator .add, .number y, .closing]).run () =
        .ok (.operation .add (.literal x none) (.literal y none), [.closing]) () := by
    cbv
  obtain ⟨taken, -, split, -, alone, moved⟩ := read_local Expression.builder none found
  let front : List Token := [.number x, .operator .add, .number y]
  have split : front ++ [Token.closing] = taken ++ [Token.closing] := split
  obtain rfl : front = taken := List.append_cancel_right split
  refine ⟨found, alone, moved [.number z, .operator .mul] ?_⟩
  intro token same
  cases same
  rfl

/-! ### What the checker blames -/

/-- What can be completed is accepted with the completion. -/
theorem check_of_completable {tokens : List Token}
    (h : Completable (some depthLimit) ⟨.chain .additive, 0, tokens⟩) :
    ∃ more, check (tokens ++ more) = .ok [] := by
  obtain ⟨more, completes⟩ := h
  obtain ⟨e, found⟩ := completes [] (Goal.endsAt_nil _)
  rw [List.append_nil] at found
  exact ⟨more, check_of_reads found⟩

/-- **The checker fails at the first token that it can fail at.**

* If a token is unexpected, the tokens in front of it are the beginning of an expression, and with
  this token behind them they fail in the same way whatever follows.
* If an operand is missing at the end, the tokens are the beginning of an expression.
* If tokens are left, those in front of them are an expression, and with the first token that is left
  they are none, whatever follows: the checker takes the same tokens again. -/
theorem check_blames_earliest (tokens : List Token) :
    (∀ token, check tokens = .error (.unexpected token) →
      ∃ before after, tokens = before ++ token :: after ∧
        (∀ after', check (before ++ token :: after') = .error (.unexpected token)) ∧
        ∃ more, check (before ++ more) = .ok []) ∧
    (check tokens = .error .unexpectedEnd → ∃ more, check (tokens ++ more) = .ok []) ∧
    ∀ token after, check tokens = .ok (token :: after) →
      ∃ taken, tokens = taken ++ token :: after ∧ check taken = .ok [] ∧
        ∀ after', check (taken ++ token :: after') = .ok (token :: after') ∧
          ¬ Derives (.chain .additive) (taken ++ token :: after') := by
  refine ⟨?_, ?_, ?_⟩
  · intro token failed
    obtain ⟨_, fails⟩ := fails_of_check failed
    obtain ⟨strange, after, looks⟩ := fails.looks_unexpected
    obtain ⟨before, split, looks⟩ := looks.exists_passed
    refine ⟨before, after, split, fun after' => ?_, ?_⟩
    · obtain ⟨_, fails⟩ := (looks (token :: after')).fails strange
      exact check_of_fails fails
    · have completable := (looks []).completable
      rw [List.append_nil] at completable
      exact check_of_completable completable
  · intro failed
    obtain ⟨_, fails⟩ := fails_of_check failed
    exact check_of_completable fails.looks_unexpectedEnd.completable
  · intro token after taken
    obtain ⟨e, found⟩ := reads_of_check taken
    have alone := found.followedBy (nofun : Replaces (token :: after) [])
    rw [List.append_nil] at alone
    refine ⟨e.tokens, found.tokens_eq, check_of_reads alone, fun after' => ?_⟩
    have moved := found.followedBy (replaces_cons token after after')
    refine ⟨check_of_reads moved, fun derives => ?_⟩
    -- Of an expression nothing would be left.
    cases (moved.keepsFitting rfl (fits_expression derives)).eq_final moved.settled_all

/-- In `(1+)` the closing parenthesis is unexpected, and `(1+` is the beginning of an expression. In
`1 2` the second number is left over. -/
theorem check_blames_earliest_closing :
    check [.opening, .number 1.0, .operator .add, .closing] = .error (.unexpected .closing) ∧
      check [.opening, .number 1.0, .operator .add, .closing, .number 2.0] =
        .error (.unexpected .closing) ∧
      check [.opening, .number 1.0, .operator .add] = .error .unexpectedEnd ∧
      (∃ more, check (.opening :: .number 1.0 :: .operator .add :: more) = .ok []) ∧
      check [.number 1.0, .number 2.0] = .ok [.number 2.0] ∧
      ¬ Derives (.chain .additive) [.number 1.0, .number 2.0, .closing] := by
  generalize (1.0 : Float) = x, (2.0 : Float) = y
  have unexpected : check [.opening, .number x, .operator .add, .closing] =
      .error (.unexpected .closing) := by
    cbv
  have missing : check [.opening, .number x, .operator .add] = .error .unexpectedEnd := by
    cbv
  have left : check [.number x, .number y] = .ok [.number y] := by
    cbv
  obtain ⟨before, after, split, fails, -⟩ := (check_blames_earliest _).1 _ unexpected
  -- There is one closing parenthesis in these tokens.
  obtain rfl : before = [.opening, .number x, .operator .add] := by
    rcases before with _ | ⟨_, _ | ⟨_, _ | ⟨_, _ | ⟨_, _⟩⟩⟩⟩ <;> simp_all
  obtain ⟨taken, whole, -, behind⟩ := (check_blames_earliest _).2.2 _ _ left
  have whole : [Token.number x] ++ [Token.number y] = taken ++ [Token.number y] := whole
  obtain rfl := List.append_cancel_right whole
  exact ⟨unexpected, fails [.number y], missing, (check_blames_earliest _).2.1 missing, left,
    (behind [.closing]).2⟩

end Calculator
