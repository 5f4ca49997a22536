import Calculator.Proofs.Expression.Printing

/-!
# The shape of a tree that was read

A tree that was read is one that the grammar allows, and it is the tree of the tokens: put one
behind the other, its tokens and the tokens that were left are the tokens that were read. Both hold
of the goals of a reading one by one, since each of them knows which nodes it can find
(`Goal.Finds`).

That a reading is greedy shows in a third property, which is not one of the tree alone. A minus in
front takes a whole term, so behind a negation, wherever it stands in the tree, no operator follows
that a term could have gone on with (`Reads.settled_of_negation`). To say what follows a node,
`Expression.placed` lists the nodes of a tree together with the tokens behind each of them.

Main statement: `read_shape`.
-/

namespace Calculator

open Grammar

namespace Expression

/-! ### Nodes and what follows them -/

/-- The nodes of a tree, each with all tokens behind it, if `rest` is behind the tree. -/
def placed : Expression → List Token → List (Expression × List Token)
  | e@(.literal _ _), rest => [(e, rest)]
  | e@(.operation op left right), rest =>
    (e, rest) :: (left.placed (.operator op :: (right.tokens ++ rest)) ++ right.placed rest)
  | e@(.scaled mantissa exponent), rest =>
    (e, rest) ::
      (mantissa.placed (.exponentMark :: (exponent.tokens ++ rest)) ++ exponent.placed rest)
  | e@(.application _ argument), rest => (e, rest) :: argument.placed (.closing :: rest)
  | e@(.negation operand), rest => (e, rest) :: operand.placed rest
  | e@(.parenthesized inner), rest => (e, rest) :: inner.placed (.closing :: rest)

/-- Every node has a place. -/
theorem map_fst_placed (e : Expression) (rest : List Token) :
    (e.placed rest).map Prod.fst = e.parts := by
  induction e generalizing rest with
  | literal _ _ => rfl
  | operation _ _ _ left right | scaled _ _ left right =>
    rw [placed, parts, List.map_cons, List.map_append, left, right]
  | application _ _ inner | negation _ inner | parenthesized _ inner =>
    rw [placed, parts, List.map_cons, inner]

/-- **A node stands in front of what is behind it.** -/
theorem suffix_of_placed {e node : Expression} {rest behind : List Token}
    (h : (node, behind) ∈ e.placed rest) : node.tokens ++ behind <:+ e.tokens ++ rest := by
  -- The node is the whole tree, or it is in an operand, which has tokens of the tree in front of it.
  induction e generalizing rest with
  | literal _ _ =>
    cases List.mem_singleton.mp h
    exact List.suffix_rfl
  | operation _ _ _ left right | scaled _ _ left right =>
    rw [placed, List.mem_cons, List.mem_append] at h
    rw [tokens, List.append_assoc, List.cons_append]
    rcases h with same | inLeft | inRight
    · cases same
      rw [tokens, List.append_assoc, List.cons_append]
    · exact left inLeft
    · exact (right inRight).trans ((List.suffix_cons _ _).trans (List.suffix_append _ _))
  | application _ _ inner | negation _ inner | parenthesized _ inner =>
    rcases List.mem_cons.mp h with same | inside
    · cases same
      exact List.suffix_rfl
    · refine (inner inside).trans ?_
      simp [tokens]

/-! ### What the grammar allows -/

/-- Whether a tree can be the mantissa or the exponent of a power of ten: a literal, a function with
its argument, an expression in parentheses or a negation. -/
def isAtom (e : Expression) : Bool :=
  e.isClosed || e.isNegation

/-- What the grammar asks of the operands of a node. An operand with an operator at its top may be
of the operator's own tier or a tighter one on the left, and of a tighter one on the right. The two
parts of a power of ten are atoms. The operand of a negation has no additive operator at its top. -/
def Allowed : Expression → Prop
  | .operation op left right =>
    (∀ tier, left.tier? = some tier → rank tier ≤ rank op.tier) ∧
      ∀ tier, right.tier? = some tier → rank tier < rank op.tier
  | .scaled mantissa exponent => mantissa.isAtom = true ∧ exponent.isAtom = true
  | .negation operand => operand.tier? ≠ some .additive
  | _ => True

theorem isNegation_iff {e : Expression} : e.isNegation = true ↔ ∃ operand, e = .negation operand := by
  cases e <;> simp [isNegation]

theorem tier?_of_isAtom {e : Expression} (h : e.isAtom = true) : e.tier? = none := by
  cases e with
  | operation _ _ _ => cases h
  | _ => rfl

end Expression

namespace Grammar

/-! ### What a goal finds -/

/-- The nodes that a goal can find at the top of a tree. -/
def Goal.Finds : Goal → Expression → Prop
  | .rule .atom, e => e.isAtom = true
  | .rule .scaled, e => e.tier? = none
  | .rule (.chain tier), e | .begun tier, e => ∀ tier', e.tier? = some tier' → rank tier' ≤ rank tier

/-- An operand of a tier is of a tighter tier. -/
theorem Goal.Finds.operand {tier : Tier} {e : Expression}
    (h : (Goal.rule (.operand tier)).Finds e) (tier' : Tier) (top : e.tier? = some tier') :
    rank tier' < rank tier := by
  cases tier with
  | additive | multiplicative => exact Nat.lt_succ_of_le (h tier' top)
  | power =>
    rw [show e.tier? = none from h] at top
    cases top

variable {limit : Option Nat}

theorem Reads.finds {goal : Goal} {depth : Nat} {tokens rest : List Token} {e : Expression}
    (h : Reads limit goal depth tokens e rest) : goal.Finds e := by
  induction h with
  | first _ ih => exact fun tier' top => Nat.le_of_lt (ih.operand tier' top)
  | next joins _ _ _ _ =>
    -- A chain that has gone on has an operator of its own tier at the top.
    intro tier' top
    cases top
    rw [joins]
  | chain _ _ ih => exact ih
  | plain _ _ ih => exact Expression.tier?_of_isAtom ih
  | enclosed enclosure _ _ _ => cases enclosure <;> rfl
  | scaled _ _ _ _ | integer _ _ | decimal _ _ | negation _ _ _ => rfl

/-- **All nodes of a tree that was read are allowed.** -/
theorem Reads.allowed {goal : Goal} {depth : Nat} {tokens rest : List Token} {e : Expression}
    (h : Reads limit goal depth tokens e rest) : ∀ node ∈ e.parts, node.Allowed := by
  induction h with
  | first _ ih | chain _ _ ih | plain _ _ ih => exact ih
  | next joins before last ihBefore ihLast =>
    -- The left operand is the chain so far and the right one an operand, so it is of a tighter tier.
    subst joins
    rw [Expression.parts, List.forall_mem_cons, List.forall_mem_append]
    exact ⟨⟨before.finds, last.finds.operand⟩, ihBefore, ihLast⟩
  | scaled left right ihLeft ihRight =>
    rw [Expression.parts, List.forall_mem_cons, List.forall_mem_append]
    exact ⟨⟨left.finds, right.finds⟩, ihLeft, ihRight⟩
  | integer _ _ | decimal _ _ =>
    rw [Expression.parts, List.forall_mem_singleton]
    trivial
  | enclosed enclosure _ _ ih =>
    cases enclosure <;> exact List.forall_mem_cons.mpr ⟨trivial, ih⟩
  | negation _ term ih =>
    -- A term has no additive operator at its top.
    refine List.forall_mem_cons.mpr ⟨?_, ih⟩
    intro additive
    exact absurd (term.finds _ additive) (by decide)

/-- **A negation goes on as long as possible.** Behind a negation in a tree that was read, no
operator of a term follows. -/
theorem Reads.settled_of_negation {goal : Goal} {depth : Nat} {tokens rest : List Token}
    {e : Expression} (h : Reads limit goal depth tokens e rest) {operand : Expression}
    {behind : List Token} (placed : (.negation operand, behind) ∈ e.placed rest) :
    Settled .multiplicative behind ∧ Settled .power behind := by
  -- Each part of a reading leaves exactly the tokens that are behind its tree, so only the case of
  -- the negation itself has something to show: its term has ended there.
  induction h with
  | first _ ih | chain _ _ ih | plain _ _ ih => exact ih placed
  | next _ _ last ihBefore ihLast | scaled _ last ihBefore ihLast =>
    rw [Expression.placed, List.mem_cons, List.mem_append] at placed
    rcases placed with same | inLeft | inRight
    · cases same
    · rw [← last.tokens_eq] at inLeft
      exact ihBefore inLeft
    · exact ihLast inRight
  | integer _ _ | decimal _ _ =>
    cases List.mem_singleton.mp placed
  | enclosed enclosure _ _ ih =>
    cases enclosure <;>
      rcases List.mem_cons.mp placed with same | inside
    · cases same
    · exact ih inside
    · cases same
    · exact ih inside
  | negation _ term ih =>
    rcases List.mem_cons.mp placed with same | inside
    · cases same
      exact ⟨term.settled (Nat.le_refl _), term.settled (Nat.le_of_lt (by decide))⟩
    · exact ih inside

end Grammar

/-! ### The tree of a reading -/

/-- **The shape of what is read.** If a reading finds an expression, under whatever interpretation,
it has a tree, which is the one that is built, and

* the tokens of the tree and the rest are the tokens that were read;
* all nodes of the tree are allowed by the grammar;
* each node has its place among the tokens, and no negation is followed by an operator of a term,
  neither inside the tree nor at its end. -/
theorem read_shape {σ ε α : Type} (interp : Interpretation σ ε α) {limit : Option Nat}
    {tokens rest : List Token} {value : α} {s s' : σ}
    (h : (read interp limit tokens).run s = .ok (value, rest) s') :
    ∃ e, (read Expression.builder limit tokens).run () = .ok (e, rest) () ∧
      e.tokens ++ rest = tokens ∧
      (∀ node ∈ e.parts, node.Allowed) ∧
      (e.placed rest).map Prod.fst = e.parts ∧
      ∀ node behind, (node, behind) ∈ e.placed rest →
        node.tokens ++ behind <:+ tokens ∧
          (node.isNegation = true →
            ∀ op tail, behind = .operator op :: tail → op.tier = .additive) := by
  obtain ⟨e, found, -⟩ := reads_of_read interp h
  refine ⟨e, read_builder_of_reads found, found.tokens_eq.symm, found.allowed,
    e.map_fst_placed rest, ?_⟩
  intro node behind placed
  refine ⟨found.tokens_eq ▸ Expression.suffix_of_placed placed, ?_⟩
  rintro negation op tail rfl
  obtain ⟨operand, rfl⟩ := Expression.isNegation_iff.mp negation
  -- Of the three tiers, only the additive one is left for an operator behind a negation.
  obtain ⟨term, power⟩ := found.settled_of_negation placed
  cases tier : op.tier with
  | additive => rfl
  | multiplicative => exact absurd tier term.tier_ne
  | power => exact absurd tier power.tier_ne

/-- In `2*-3^4+5)` the minus takes the power and ends in front of the sum, and the parenthesis that
closes nothing is left. -/
theorem read_shape_minus :
    let e : Expression := .operation .add
      (.operation .mul (.literal 2.0 none)
        (.negation (.operation .pow (.literal 3.0 none) (.literal 4.0 none))))
      (.literal 5.0 none)
    let tokens : List Token := [.number 2.0, .operator .mul, .negation, .number 3.0,
      .operator .pow, .number 4.0, .operator .add, .number 5.0, .closing]
    (read Expression.builder (some depthLimit) tokens).run () = .ok (e, [.closing]) () ∧
      e.tokens ++ [.closing] = tokens ∧
      (∀ node ∈ e.parts, node.Allowed) ∧
      (e.placed [.closing]).map Prod.fst = e.parts ∧
      ∀ node behind, (node, behind) ∈ e.placed [.closing] →
        node.tokens ++ behind <:+ tokens ∧
          (node.isNegation = true →
            ∀ op tail, behind = .operator op :: tail → op.tier = .additive) := by
  intro e tokens
  have found : ∀ a b c d : Float, (read Expression.builder (some depthLimit)
      [.number a, .operator .mul, .negation, .number b, .operator .pow, .number c, .operator .add,
        .number d, .closing]).run () =
      .ok (.operation .add (.operation .mul (.literal a none)
        (.negation (.operation .pow (.literal b none) (.literal c none)))) (.literal d none),
        [.closing]) () := by
    intro a b c d
    cbv
  obtain ⟨e', same, shape⟩ := read_shape Expression.builder (found 2.0 3.0 4.0 5.0)
  rw [found] at same
  cases same
  exact ⟨found _ _ _ _, shape⟩

end Calculator
