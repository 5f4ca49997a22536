import Calculator.Proofs.Expression.Printing

/-!
# Exponents with a minus

A power of ten binds tighter than every operator: of `1E3*(2)` the mantissa and the exponent belong
together, and the product is around them. A minus in the exponent changes this. It is an atom, so an
exponent can begin with it, but behind it stands a whole term, so `1E-3*(2)` has the exponent
`-(3*(2))`, in the same way as `-3*(2)` is the negation of a product. The operators of the term
that competes for what follows the exponent are three rules further out, and the minus comes first.

Parentheses around the mantissa and the exponent make the power of ten an operand of the operator.

* `readsBack_negative` — a power of ten with a negative exponent takes what a term takes;
* `read_negative_exponent` — how the operator behind the exponent is read, with a minus, with a
  minus in parentheses and without a minus.
-/

namespace Calculator

open Grammar

namespace Grammar

/-! ### Reading back -/

/-- What ends an expression is a token that no expression goes on with. -/
theorem Goal.EndsAt.replaces {rest : List Token}
    (h : (Goal.rule (.chain .additive)).EndsAt rest) : Replaces [] rest := by
  intro token head
  obtain ⟨tail, rfl⟩ := List.head?_eq_some_iff.mp head
  right
  cases token with
  | operator op =>
    have settled := h.settled op.tier (Goal.settles_expression op.tier)
    exact absurd rfl settled.tier_ne
  | point => exact absurd rfl (h.pointless tail)
  | exponentMark =>
    have noAtom : Goal.rule (.chain .additive) ≠ .rule .atom := by simp
    exact absurd rfl (h.unmarked noAtom tail)
  | _ => rfl

/-- What is read up to the end of the tokens is read back in front of other tokens. -/
theorem Reads.readsBack {limit : Option Nat} {depth : Nat} {tokens : List Token} {e : Expression}
    (h : Reads limit (.rule (.chain .additive)) depth tokens e []) :
    ReadsBack (.rule (.chain .additive)) e := by
  intro rest ends
  exact (h.followedBy ends.replaces).relocate (room_none 0 e.nesting)

/-- **A negative exponent takes what a term takes.** So a power of ten with such an exponent is read
back as a term and not as an operand of one. -/
theorem readsBack_negative {mantissa term : Expression} (hm : ReadsBack (.rule .atom) mantissa)
    (ht : ReadsBack (.rule (.chain .multiplicative)) term) :
    ReadsBack (.rule (.chain .multiplicative)) (.scaled mantissa (.negation term)) := by
  intro rest ends
  have left := hm (.exponentMark :: .negation :: (term.tokens ++ rest))
    (Goal.atom_endsAt (by decide) _)
  have inside := (ht rest ends).relocate (room_none 1 term.nesting)
  -- The exponent is read by the tightest rule, but what is behind its minus is not.
  have exponent := Reads.negation (admits_none 0) inside
  have whole := (Reads.scaled left exponent).loosen (Nat.le_of_lt (by decide)) ends
  simpa [Expression.tokens] using whole

/-- A power of ten can begin every chain. -/
theorem Goal.height_scaled_le_begun (tier : Tier) :
    (Goal.rule .scaled).height ≤ (Goal.begun tier).height := by
  cases tier <;> decide

/-- A tree that is read back is read from its tokens, if the limit leaves room for it. -/
theorem ReadsBack.read_eq {σ ε α : Type} {goal : Goal} {e : Expression} (h : ReadsBack goal e)
    (interp : Interpretation σ ε α) {limit : Option Nat} (room : Room limit 0 e.nesting)
    {tokens : List Token} (same : e.tokens = tokens) :
    read interp limit tokens = (do return (← e.interpret interp, [])) := by
  have whole := h.loosen goal.height_le_loosest [] (Goal.endsAt_nil _)
  rw [List.append_nil, same] at whole
  exact read_of_reads interp (whole.relocate room)

end Grammar

/-! ### The operator behind an exponent -/

/-- An operation of a term is read back as a term. -/
theorem readsBack_term {op : Operator} (tight : op.tier ≠ .additive) {left right : Expression}
    (hl : ReadsBack (.begun op.tier) left) (hr : ReadsBack (.rule (.operand op.tier)) right) :
    ReadsBack (.rule (.chain .multiplicative)) (.operation op left right) := by
  refine (readsBack_operation hl hr).loosen ?_
  cases tier : op.tier with
  | additive => exact absurd tier tight
  | multiplicative | power => decide

/-- **How an operator behind an exponent is read.** Behind a power of ten of two literals stand an
operator of a term and, in parentheses, an expression with two levels of nesting to spare. Then
under every interpretation,

* if the exponent has a minus, the operation is in the exponent and the minus negates it;
* if the exponent has a minus and the power of ten is in parentheses, it is the left operand;
* if the exponent has no minus, the power of ten is the left operand, too. -/
theorem read_negative_exponent {x : List Token} {e : Expression}
    (accepted : (read Expression.builder (some depthLimit) x).run () = .ok (e, []) ())
    (shallow : e.nesting + 2 ≤ depthLimit) {op : Operator} (tight : op.tier ≠ .additive)
    (wholeM wholeK : Float) (fractionM fractionK : Option Fraction) {σ ε α : Type}
    (interp : Interpretation σ ε α) :
    let m : Expression := .literal wholeM fractionM
    let k : Expression := .literal wholeK fractionK
    let operand : List Token := .operator op :: .opening :: (x ++ [.closing])
    read interp (some depthLimit)
        (m.tokens ++ .exponentMark :: .negation :: (k.tokens ++ operand)) =
      (do return (← (Expression.scaled m
        (.negation (.operation op k (.parenthesized e)))).interpret interp, [])) ∧
    read interp (some depthLimit)
        (.opening :: (m.tokens ++ .exponentMark :: .negation :: (k.tokens ++ .closing :: operand))) =
      (do return (← (Expression.operation op (.parenthesized (.scaled m (.negation k)))
        (.parenthesized e)).interpret interp, [])) ∧
    read interp (some depthLimit) (m.tokens ++ .exponentMark :: (k.tokens ++ operand)) =
      (do return (← (Expression.operation op (.scaled m k)
        (.parenthesized e)).interpret interp, [])) := by
  intro m k operand
  have found := reads_of_read_builder accepted
  have same : x = e.tokens := by rw [found.tokens_eq, List.append_nil]
  -- Both literals and the parentheses are atoms, which can stand in every position.
  have hm : ReadsBack (.rule .atom) m := readsBack_literal wholeM fractionM
  have hk : ReadsBack (.rule .atom) k := readsBack_literal wholeK fractionK
  have hx : ReadsBack (.rule .atom) (.parenthesized e) := found.readsBack.around .parentheses
  have right : ReadsBack (.rule (.operand op.tier)) (.parenthesized e) := hx.loosen (Nat.zero_le _)
  have room : ∀ tree : Expression, tree.nesting ≤ e.nesting + 2 →
      Room (some depthLimit) 0 tree.nesting := fun _ levels => room_some (by omega)
  refine ⟨?_, ?_, ?_⟩
  · -- The operation is a term, so the minus of the exponent takes it.
    have product := readsBack_term tight (hk.loosen (Nat.zero_le _)) right
    refine (readsBack_negative hm product).read_eq interp (room _ ?_) ?_
    · simp [Expression.nesting, m, k]
    · simp [Expression.tokens, operand, same]
  · -- Inside the parentheses nothing follows the exponent, so its term is the literal alone.
    have power := readsBack_negative hm (hk.loosen (Nat.zero_le _))
    have left := (power.around .parentheses).loosen (Nat.zero_le (Goal.begun op.tier).height)
    refine (readsBack_operation left right).read_eq interp (room _ ?_) ?_
    · simp [Expression.nesting, m, k, Enclosure.around]
    · simp [Expression.tokens, operand, same, Enclosure.around]
  · -- Without a minus, the exponent ends in front of the operator.
    have left := (readsBack_scaled hm hk).loosen (Goal.height_scaled_le_begun op.tier)
    refine (readsBack_operation left right).read_eq interp (room _ ?_) ?_
    · simp [Expression.nesting, m, k]
    · simp [Expression.tokens, operand, same]

/-- In `1.5E-3/(2+5)` the quotient is in the exponent. In `(1.5E-3)/(2+5)` it is not. -/
theorem read_negative_exponent_quotient :
    let m : Expression := .literal 1.0 (some ⟨5, 0⟩)
    let k : Expression := .literal 3.0 none
    let e : Expression := .operation .add (.literal 2.0 none) (.literal 5.0 none)
    let x : List Token := [.number 2.0, .operator .add, .number 5.0]
    let operand : List Token := .operator .div :: .opening :: (x ++ [.closing])
    (read Expression.builder (some depthLimit) x).run () = .ok (e, []) () ∧
      e.nesting + 2 ≤ depthLimit ∧ Operator.div.tier ≠ .additive ∧
      (read Expression.builder (some depthLimit)
          (m.tokens ++ .exponentMark :: .negation :: (k.tokens ++ operand))).run () =
        .ok (.scaled m (.negation (.operation .div k (.parenthesized e))), []) () ∧
      (read Expression.builder (some depthLimit) (.opening ::
          (m.tokens ++ .exponentMark :: .negation :: (k.tokens ++ .closing :: operand)))).run () =
        .ok (.operation .div (.parenthesized (.scaled m (.negation k))) (.parenthesized e), [])
          () := by
  intro m k e x operand
  have accepted : ∀ a b : Float, (read Expression.builder (some depthLimit)
      [.number a, .operator .add, .number b]).run () =
      .ok (.operation .add (.literal a none) (.literal b none), []) () := by
    intro a b
    cbv
  have shallow : e.nesting + 2 ≤ depthLimit := by decide
  have tight : Operator.div.tier ≠ .additive := by decide
  obtain ⟨inside, outside, -⟩ := read_negative_exponent (accepted 2.0 5.0) shallow tight 1.0 3.0
    (some ⟨5, 0⟩) none Expression.builder
  refine ⟨accepted 2.0 5.0, shallow, tight, ?_, ?_⟩
  · refine (congrArg (·.run ()) inside).trans ?_
    rw [Expression.interpret_builder]
    rfl
  · refine (congrArg (·.run ()) outside).trans ?_
    rw [Expression.interpret_builder]
    rfl

/-- **A negative exponent does not bind tighter than a factor behind it.** `1E-3*(2)` is not the
product of `1E-3` and `(2)`, and parentheses around `1E-3` make a difference even if they are
disregarded afterwards. -/
theorem factor_behind_negative_exponent :
    check [.number 2.0] = .ok [] ∧ (Expression.literal 2.0 none).nesting + 2 ≤ depthLimit ∧
      (read Expression.builder (some depthLimit) [.number 1.0, .exponentMark, .negation,
          .number 3.0, .operator .mul, .opening, .number 2.0, .closing]).run () ≠
        .ok (.operation .mul (.scaled (.literal 1.0 none) (.negation (.literal 3.0 none)))
          (.parenthesized (.literal 2.0 none)), []) () ∧
      ∃ plain grouped,
        (read Expression.builder (some depthLimit) [.number 1.0, .exponentMark, .negation,
          .number 3.0, .operator .mul, .opening, .number 2.0, .closing]).run () =
            .ok (plain, []) () ∧
        (read Expression.builder (some depthLimit) [.opening, .number 1.0, .exponentMark,
          .negation, .number 3.0, .closing, .operator .mul, .opening, .number 2.0,
          .closing]).run () = .ok (grouped, []) () ∧
        plain.ungrouped ≠ grouped.ungrouped := by
  have accepted : ∀ z : Float, check [.number z] = .ok [] := by
    intro z
    cbv
  have plain : ∀ x y z : Float, (read Expression.builder (some depthLimit) [.number x,
      .exponentMark, .negation, .number y, .operator .mul, .opening, .number z, .closing]).run () =
      .ok (.scaled (.literal x none) (.negation (.operation .mul (.literal y none)
        (.parenthesized (.literal z none)))), []) () := by
    intro x y z
    cbv
  have grouped : ∀ x y z : Float, (read Expression.builder (some depthLimit) [.opening, .number x,
      .exponentMark, .negation, .number y, .closing, .operator .mul, .opening, .number z,
      .closing]).run () =
      .ok (.operation .mul (.parenthesized (.scaled (.literal x none)
        (.negation (.literal y none)))) (.parenthesized (.literal z none)), []) () := by
    intro x y z
    cbv
  refine ⟨accepted _, by decide, ?_, _, _, plain _ _ _, grouped _ _ _, ?_⟩
  · rw [plain]
    intro same
    cases same
  · -- One tree is a power of ten, the other one a product.
    simp [Expression.ungrouped]

end Calculator
