import Mathlib
import Calculator.Proofs.Calculation.Outcome

/-!
# A reading accepts what can be derived

`Derives` is ambiguous: a negation may end behind its operand or go on with the operators of a
term, and it may itself be the mantissa of a power of ten. A reading chooses once and for all: it
lets every negation go on as long as possible. This could go wrong in one way only. An atom takes at
most one exponent mark, and the mark that an inner atom takes is not there for an outer one.

So the state of a greedy reading inside an enclosure is a list of *slots*, one for every atom around
the current place, innermost first: a slot is free if the atom may still take an exponent mark and
taken if it has none left. A minus opens a slot, an exponent mark closes the innermost slots that
are taken and takes the next one, an operator of a term frees the innermost slot, and an additive
operator starts again with one free slot. `Fits` is this description of the accepted tokens.

The argument has three parts:

* `Fits.mono` — more slots, or free ones instead of taken ones, do no harm. This is what makes
  greediness right: to end a negation early only closes a slot.
* `fits_of_derives` — what can be derived fits, whatever negations the derivation ends early.
* `Reads.keepsFitting`, `Fails.cause_of_fits` — what a reading leaves of fitting tokens fits, and
  its only possible fault is the limit.

`check_accepts_derivable` puts them together, with `Reads.derives` for the other direction.
-/

namespace Calculator.Grammar

/-! ### Slots -/

/-- Whether an atom may still take an exponent mark. -/
inductive Slot where
  | free
  | taken

/-- One slot can do all that another one can. -/
def Slot.Covers (slot wider : Slot) : Prop :=
  slot = .free → wider = .free

/-- Slots of which some may be missing and some may be taken where the others are free. -/
abbrev Covered (slots wider : List Slot) : Prop :=
  List.SublistForall₂ Slot.Covers slots wider

theorem Covered.refl (slots : List Slot) : Covered slots slots := by
  induction slots with
  | nil => exact .nil
  | cons slot slots ih => exact .cons id ih

theorem Covered.cons_self {slots wider : List Slot} (slot : Slot) (h : Covered slots wider) :
    Covered (slot :: slots) (slot :: wider) :=
  .cons id h

theorem Covered.of_cons {slot : Slot} {slots wider : List Slot}
    (h : Covered (slot :: slots) wider) : Covered slots wider := by
  generalize hs : slot :: slots = all at h
  induction h with
  | nil => cases hs
  | cons _ below _ =>
    cases hs
    exact .cons_right below
  | cons_right _ ih => exact .cons_right (ih hs)

/-- Slots that cover one slot have one in front. -/
theorem Covered.exists_cons {slot : Slot} {slots wider : List Slot}
    (h : Covered (slot :: slots) wider) :
    ∃ front more, wider = front :: more ∧ Covered slots more := by
  cases h with
  | cons _ below => exact ⟨_, _, rfl, below⟩
  | cons_right below => exact ⟨_, _, rfl, Covered.of_cons below⟩

/-! ### Tokens that fit -/

/-- A place between tokens: in front of an operand or behind one. -/
inductive Place where
  | operand
  | operator

/-- `Fits final place slots tokens`: from this place on and with these slots, the tokens complete an
expression, and `final` is left. The expression ends with the tokens or at a closing parenthesis
that is not its own. -/
inductive Fits : List Token → Place → List Slot → List Token → Prop where
  /-- A literal without a point. -/
  | integer {final rest : List Token} {slots : List Slot} (whole : Float)
      (behind : Fits final .operator slots rest) :
      Fits final .operand slots (.number whole :: rest)
  /-- A literal with a point. -/
  | decimal {final rest : List Token} {slots : List Slot} (whole : Float) (fraction : Fraction)
      (behind : Fits final .operator slots rest) :
      Fits final .operand slots (.number whole :: .point :: .fraction fraction :: rest)
  /-- An enclosure has slots of its own. -/
  | enclosed {final tokens rest : List Token} {slots : List Slot} (enclosure : Enclosure)
      (inner : Fits (.closing :: rest) .operand [.free] tokens)
      (behind : Fits final .operator slots rest) :
      Fits final .operand slots (enclosure.opener :: tokens)
  /-- A minus opens a slot. -/
  | negation {final rest : List Token} {slots : List Slot}
      (behind : Fits final .operand (.free :: slots) rest) :
      Fits final .operand slots (.negation :: rest)
  /-- An exponent mark belongs to no slot that is taken. -/
  | leave {final rest : List Token} {slots : List Slot}
      (behind : Fits final .operator slots (.exponentMark :: rest)) :
      Fits final .operator (.taken :: slots) (.exponentMark :: rest)
  /-- An exponent mark takes a free slot. -/
  | exponent {final rest : List Token} {slots : List Slot}
      (behind : Fits final .operand (.taken :: slots) rest) :
      Fits final .operator (.free :: slots) (.exponentMark :: rest)
  /-- An operator of a term frees the innermost slot. -/
  | tight {final rest : List Token} {slot : Slot} {slots : List Slot} {op : Operator}
      (tight : op.tier ≠ .additive) (behind : Fits final .operand (.free :: slots) rest) :
      Fits final .operator (slot :: slots) (.operator op :: rest)
  /-- An additive operator starts again. -/
  | additive {final rest : List Token} {slots : List Slot} {op : Operator}
      (loose : op.tier = .additive) (behind : Fits final .operand [.free] rest) :
      Fits final .operator slots (.operator op :: rest)
  /-- The expression ends with the tokens. -/
  | finish {slots : List Slot} : Fits [] .operator slots []
  /-- The expression ends at a closing parenthesis. -/
  | closing {slots : List Slot} {rest : List Token} :
      Fits (.closing :: rest) .operator slots (.closing :: rest)

/-- The innermost free slot takes an exponent mark, wherever it is. -/
theorem fits_exponent {final rest : List Token} {slots wider : List Slot}
    (behind : ∀ more, Covered (.taken :: slots) more → Fits final .operand more rest)
    (covered : Covered (.free :: slots) wider) :
    Fits final .operator wider (.exponentMark :: rest) := by
  -- Slots that are taken are left until a free one is in front. There is one, to cover the free
  -- slot, and what is behind it still covers the other slots.
  induction wider with
  | nil => cases covered
  | cons slot wider ih =>
    cases slot with
    | free =>
      obtain ⟨_, _, same, below⟩ := covered.exists_cons
      cases same
      exact .exponent (behind _ (below.cons_self .taken))
    | taken =>
      cases covered with
      | cons both _ => cases both rfl
      | cons_right below => exact .leave (ih below)

/-- **More slots do no harm.** -/
theorem Fits.mono {final tokens : List Token} {place : Place} {slots wider : List Slot}
    (h : Fits final place slots tokens) (covered : Covered slots wider) :
    Fits final place wider tokens := by
  induction h generalizing wider with
  | integer whole _ ih => exact .integer whole (ih covered)
  | decimal whole fraction _ ih => exact .decimal whole fraction (ih covered)
  | enclosed enclosure inner _ _ ih => exact .enclosed enclosure inner (ih covered)
  | negation _ ih => exact .negation (ih (covered.cons_self .free))
  | leave _ ih =>
    -- The slot that is left here may be missing among the others, or have become free.
    exact ih covered.of_cons
  | exponent _ ih => exact fits_exponent (fun more => ih) covered
  | tight tight _ ih =>
    obtain ⟨slot, more, rfl, below⟩ := covered.exists_cons
    exact .tight tight (ih (below.cons_self .free))
  | additive loose behind _ =>
    -- All slots are given up here, the additional ones too.
    exact .additive loose behind
  | finish => exact .finish
  | closing => exact .closing

/-! ### What can be derived fits -/

/-- What the tokens of a rule do to the tokens behind them. The tokens of an atom leave the slots
as they are; behind all other rules the innermost slot may have been taken. -/
def Extends : Rule → List Token → Prop
  | .atom, tokens => ∀ final slots rest,
    Fits final .operator slots rest → Fits final .operand slots (tokens ++ rest)
  | .chain .additive, tokens => ∀ final rest,
    Fits final .operator [.taken] rest → Fits final .operand [.free] (tokens ++ rest)
  | _, tokens => ∀ final slots rest, Fits final .operator (.taken :: slots) rest →
    Fits final .operand (.free :: slots) (tokens ++ rest)

/-- The operand of a tier, followed by what the chain of the tier is followed by. -/
theorem Extends.chain {tier : Tier} {tokens : List Token} (h : Extends (.operand tier) tokens) :
    Extends (.chain tier) tokens := by
  cases tier with
  | additive => exact fun final rest => h final [] rest
  | multiplicative | power => exact h

/-- **What can be derived fits.** The tokens behind a construct are a parameter, so that each part
of a derivation is followed by the rest of it. -/
theorem fits_of_derives {rule : Rule} {tokens : List Token} (h : Derives rule tokens) :
    Extends rule tokens := by
  induction h with
  | operand _ ih => exact ih.chain
  | @operator op left right _ _ before last =>
    have last := last.chain
    -- The operator restores what the left side may have taken, each kind in its own way.
    rcases hop : op.tier with _ | _ | _ <;> rw [hop] at before last
    · intro final rest behind
      rw [List.append_assoc]
      exact before _ _ (.additive hop (last _ _ behind))
    all_goals
      intro final slots rest behind
      rw [List.append_assoc]
      refine before _ _ _ (.tight ?_ (last _ _ _ behind))
      rw [hop]
      simp
  | plain _ ih =>
    intro final slots rest behind
    -- The free slot is not used: taking it does no harm to the tokens behind.
    exact ih _ _ _ (behind.mono (.cons nofun (Covered.refl _)))
  | scaled _ _ left right =>
    intro final slots rest behind
    rw [List.append_assoc]
    exact left _ _ _ (.exponent (right _ _ _ behind))
  | integer whole => exact fun final slots rest behind => .integer whole behind
  | decimal whole fraction => exact fun final slots rest behind => .decimal whole fraction behind
  | application function _ argument =>
    intro final slots rest behind
    rw [List.append_assoc]
    exact .enclosed (.argument function) (argument _ _ .closing) behind
  | parenthesized _ inner =>
    intro final slots rest behind
    rw [List.append_assoc]
    exact .enclosed .parentheses (inner _ _ .closing) behind
  | negation _ term =>
    intro final slots rest behind
    -- The derivation ends the negation here. A reading need not: that only adds the slot of the
    -- negation to those that the tokens behind it are known to fit.
    exact .negation (term _ _ _ (behind.mono (.cons_right (Covered.refl _))))

/-! ### A reading of tokens that fit -/

/-- The slots with which a rule begins. -/
def Goal.Opens : Goal → List Slot → Prop
  | .rule .atom, _ => True
  | .rule (.chain .additive), slots | .begun .additive, slots => slots = [.free]
  | _, slots => ∃ outer, slots = .free :: outer

/-- The slots with which a rule ends: all but an atom may have taken the innermost one. -/
def Goal.leaves : Goal → List Slot → List Slot
  | .rule .atom, slots => slots
  | _, slots => .taken :: slots.tail

theorem Goal.Opens.operand {tier : Tier} {slots : List Slot} (h : (Goal.begun tier).Opens slots) :
    (Goal.rule (.operand tier)).Opens slots := by
  cases tier with
  | additive => exact ⟨[], h⟩
  | multiplicative | power => exact h

theorem Goal.Opens.begun {tier : Tier} {slots : List Slot}
    (h : (Goal.rule (.chain tier)).Opens slots) : (Goal.begun tier).Opens slots := by
  cases tier <;> exact h

theorem Goal.leaves_operand (tier : Tier) (slots : List Slot) :
    (Goal.rule (.operand tier)).leaves slots = (Goal.begun tier).leaves slots := by
  cases tier <;> rfl

/-- Behind an operator of a chain, the next operand has the slots that the chain began with. -/
theorem Fits.next {tier : Tier} {op : Operator} {final middle : List Token} {slots : List Slot}
    (joins : op.tier = tier) (opens : (Goal.begun tier).Opens slots)
    (behind : Fits final .operator ((Goal.begun tier).leaves slots) (.operator op :: middle)) :
    Fits final .operand slots middle := by
  cases tier with
  | additive =>
    rw [show slots = [.free] from opens]
    cases behind with
    | tight tight _ => exact absurd joins tight
    | additive _ behind => exact behind
  | multiplicative | power =>
    obtain ⟨outer, rfl⟩ := opens
    cases behind with
    | tight _ behind => exact behind
    | additive loose _ => cases joins.symm.trans loose

/-- A slot that is taken can be closed, unless an operator of a term follows. -/
theorem Fits.close {final tokens : List Token} {slots : List Slot}
    (h : Fits final .operator (.taken :: slots) tokens) (term : Settled .multiplicative tokens)
    (power : Settled .power tokens) : Fits final .operator slots tokens := by
  cases h with
  | leave behind => exact behind
  | @tight _ _ _ _ op tight _ =>
    cases tier : op.tier with
    | additive => exact absurd tier tight
    | multiplicative => exact absurd tier term.tier_ne
    | power => exact absurd tier power.tier_ne
  | additive loose behind => exact .additive loose behind
  | finish => exact .finish
  | closing => exact .closing

/-- Behind an expression that is maximal, nothing fits but the end. -/
theorem Fits.eq_final {final tokens : List Token} (h : Fits final .operator [.taken] tokens)
    (settled : ∀ tier, Settled tier tokens) : final = tokens := by
  cases h with
  | leave behind => cases behind
  | tight _ _ | additive _ _ => exact absurd rfl (settled _).tier_ne
  | finish | closing => rfl

/-- What an operand that fits begins with. -/
theorem Fits.operand_cases {final tokens : List Token} {slots : List Slot}
    (h : Fits final .operand slots tokens) :
    match tokens with
    | .number _ :: rest =>
      Fits final .operator slots rest ∨ ∃ fraction behind,
        rest = .point :: .fraction fraction :: behind ∧ Fits final .operator slots behind
    | .negation :: rest => Fits final .operand (.free :: slots) rest
    | .function _ :: rest | .opening :: rest =>
      ∃ behind, Fits (.closing :: behind) .operand [.free] rest ∧ Fits final .operator slots behind
    | _ => False := by
  cases h with
  | integer _ behind => exact .inl behind
  | decimal _ fraction behind => exact .inr ⟨fraction, _, rfl, behind⟩
  | enclosed enclosure inner behind => cases enclosure <;> exact ⟨_, inner, behind⟩
  | negation behind => exact behind

theorem Fits.inside {final tokens : List Token} {slots : List Slot} {enclosure : Enclosure}
    (h : Fits final .operand slots (enclosure.opener :: tokens)) :
    ∃ rest, Fits (.closing :: rest) .operand [.free] tokens ∧ Fits final .operator slots rest := by
  cases enclosure <;> exact h.operand_cases

variable {limit : Option Nat}

theorem Reads.settled_all {depth : Nat} {tokens rest : List Token} {e : Expression}
    (h : Reads limit (.rule (.chain .additive)) depth tokens e rest) (tier : Tier) :
    Settled tier rest :=
  h.settled (Goal.settles_expression tier)

/-- **A reading keeps tokens fitting.** Each rule uses up no more slots than it has been given. -/
theorem Reads.keepsFitting {goal : Goal} {depth : Nat} {tokens rest final : List Token}
    {e : Expression} {slots : List Slot} (h : Reads limit goal depth tokens e rest)
    (opens : goal.Opens slots) (fits : Fits final .operand slots tokens) :
    Fits final .operator (goal.leaves slots) rest := by
  induction h generalizing final slots with
  | first _ ih =>
    have := ih opens.operand fits
    rwa [Goal.leaves_operand] at this
  | next joins _ _ before last =>
    have := last opens.operand ((before opens fits).next joins opens)
    rwa [Goal.leaves_operand] at this
  | chain _ _ ih => exact ih opens.begun fits
  | plain _ unmarked ih =>
    obtain ⟨outer, rfl⟩ := opens
    -- Without an exponent mark, it makes no difference that the slot is still free.
    cases ih trivial fits with
    | exponent _ => exact absurd rfl (unmarked _)
    | tight tight behind => exact .tight tight behind
    | additive loose behind => exact .additive loose behind
    | finish => exact .finish
    | closing => exact .closing
  | scaled _ _ left right =>
    obtain ⟨outer, rfl⟩ := opens
    cases left trivial fits with
    | exponent behind => exact right trivial behind
  | integer _ pointless =>
    rcases fits.operand_cases with behind | ⟨_, _, same, _⟩
    · exact behind
    · exact absurd same (pointless _)
  | decimal _ _ =>
    rcases fits.operand_cases with behind | ⟨_, _, same, behind⟩
    · cases behind
    · cases same
      exact behind
  | enclosed enclosure _ _ ih =>
    -- The reading stops at a closing parenthesis, and the only one that fits there is its own.
    obtain ⟨after, inner, behind⟩ := fits.inside
    cases ih rfl inner with
    | closing => exact behind
  | negation _ term ih =>
    -- The term is maximal, so the slot of the negation is of no use to what follows.
    exact (ih ⟨slots, rfl⟩ fits.operand_cases).close
      (term.settled (by simp [Goal.Settles])) (term.settled (by simp [Goal.Settles, rank]))

/-- **The only fault of tokens that fit** is that they nest too deep. -/
theorem Fails.cause_of_fits {rule : Rule} {depth : Nat} {tokens final : List Token}
    {done : List Expression} {cause : SyntaxError} {slots : List Slot}
    (h : Fails limit rule depth tokens done cause) (opens : (Goal.rule rule).Opens slots)
    (fits : Fits final .operand slots tokens) :
    ∃ most, limit = some most ∧ cause = .tooDeep most := by
  induction h generalizing final slots with
  | first _ ih => exact ih opens.begun.operand fits
  | next joins before _ ih =>
    have opens := opens.begun
    exact ih opens.operand ((before.keepsFitting opens fits).next joins opens)
  | mantissa _ ih => exact ih trivial fits
  | exponent left _ ih =>
    obtain ⟨outer, rfl⟩ := opens
    -- The mark behind the mantissa takes the slot that the mantissa has left free.
    cases left.keepsFitting trivial fits with
    | exponent behind => exact ih trivial behind
  | missingDigits _ missing =>
    rcases fits.operand_cases with behind | ⟨_, _, same, _⟩
    · cases behind
    · cases same
      exact absurd rfl (missing _ _)
  | tooDeep limited _ _ => exact ⟨_, limited, rfl⟩
  | inner enclosure _ _ ih =>
    obtain ⟨after, inner, _⟩ := fits.inside
    exact ih rfl inner
  | unclosed enclosure _ content unclosed =>
    obtain ⟨after, inner, _⟩ := fits.inside
    -- Where the content ends, nothing fits but the closing parenthesis.
    have ended := (content.keepsFitting rfl inner).eq_final content.settled_all
    exact absurd ended.symm (unclosed _)
  | negation _ _ ih => exact ih ⟨slots, rfl⟩ fits.operand_cases
  | @unexpected _ token _ strange =>
    cases token with
    | number _ | function _ | opening | negation => cases strange
    | _ => exact fits.operand_cases.elim
  | unexpectedEnd => cases fits

/-- An expression fits from its first token to its last. -/
theorem fits_expression {tokens : List Token} (h : Derives (.chain .additive) tokens) :
    Fits [] .operand [.free] tokens := by
  have extended := fits_of_derives h [] [] .finish
  rwa [List.append_nil] at extended

end Calculator.Grammar

namespace Calculator

open Grammar

/-! ### The language of the checker -/

/-- **The checker accepts what can be derived.** What it takes from the front of the tokens can be
derived; and if all of the tokens can be derived in any way, it takes all of them, unless they nest
deeper than the limit. -/
theorem check_accepts_derivable (tokens : List Token) :
    (∀ rest, check tokens = .ok rest →
      ∃ taken, tokens = taken ++ rest ∧ Derives (.chain .additive) taken) ∧
    (Derives (.chain .additive) tokens →
      check tokens = .ok [] ∨ check tokens = .error (.tooDeep depthLimit)) := by
  rcases reads_or_fails (some depthLimit) (.chain .additive) 0 tokens with
    ⟨e, rest, h⟩ | ⟨done, cause, h⟩
  · rw [check_of_reads h]
    constructor
    · intro rest' same
      cases same
      exact ⟨e.tokens, h.tokens_eq, h.derives⟩
    · intro derives
      left
      rw [(h.keepsFitting rfl (fits_expression derives)).eq_final h.settled_all]
  · rw [check_of_fails h]
    constructor
    · intro rest same
      cases same
    · intro derives
      obtain ⟨most, limited, rfl⟩ := h.cause_of_fits rfl (fits_expression derives)
      cases limited
      exact .inr rfl

/-- In `-1E2E3` the negation takes the first exponent mark and is the mantissa of the second one.
In `1E2E3` without the minus, the second one is left over. -/
theorem check_accepts_derivable_marks :
    Derives (.chain .additive) [.negation, .number 1.0, .exponentMark, .number 2.0, .exponentMark,
        .number 3.0] ∧
      check [.negation, .number 1.0, .exponentMark, .number 2.0, .exponentMark, .number 3.0] =
        .ok [] ∧
      ∃ taken, [.number 1.0, .exponentMark, .number 2.0, .exponentMark, .number 3.0] =
          taken ++ [.exponentMark, .number 3.0] ∧
        Derives (.chain .additive) taken := by
  have derives : Derives (.chain .additive) [.negation, .number 1.0, .exponentMark, .number 2.0,
      .exponentMark, .number 3.0] := by
    have inner : Derives .scaled [.number 1.0, .exponentMark, .number 2.0] :=
      (Derives.scaled (.integer 1.0) (.integer 2.0) :)
    have outer : Derives .scaled [.negation, .number 1.0, .exponentMark, .number 2.0,
        .exponentMark, .number 3.0] :=
      (Derives.scaled (.negation (.operand (.operand inner))) (.integer 3.0) :)
    exact .operand (.operand (.operand outer))
  have admitted : ∀ x y z : Float, check [.negation, .number x, .exponentMark, .number y,
      .exponentMark, .number z] ≠ .error (.tooDeep depthLimit) := by
    intro x y z
    cbv
    intro same
    cases same
  have leftOver : ∀ x y z : Float, check [.number x, .exponentMark, .number y, .exponentMark,
      .number z] = .ok [.exponentMark, .number z] := by
    intro x y z
    cbv
  refine ⟨derives, ?_, (check_accepts_derivable _).1 _ (leftOver _ _ _)⟩
  exact ((check_accepts_derivable _).2 derives).resolve_right (admitted _ _ _)

end Calculator
