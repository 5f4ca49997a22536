import Calculator.Proofs.Grammar.Reads

/-!
# Readings in another place

What is read at the start of some tokens is also read elsewhere: a reading looks at the depth only
where something nests, and at the tokens behind its expression only to see that they do not belong
to it. So a reading can be moved

* to another depth and under another limit, if there is still room for the levels of its tree
  (`Reads.relocate`); if there is not, the reading fails at the limit (`Reads.fails_of_deep`);
* in front of other tokens, if these begin as the old ones did, or with a token that no expression
  goes on with (`Reads.followedBy`);
* to a looser rule, if that rule also ends where the tighter one does (`Reads.loosen`).
-/

namespace Calculator

/-- Whether an expression can go on with a token behind an operand. -/
def Token.extendsOperand : Token → Bool
  | .operator _ | .point | .exponentMark => true
  | _ => false

/-- An enclosure is one more level of nesting. -/
theorem Enclosure.nesting_around (enclosure : Enclosure) (e : Expression) :
    (enclosure.around e).nesting = e.nesting + 1 := by
  cases enclosure <;> rfl

theorem Tier.operator?_of_not_extends {token : Token} (h : token.extendsOperand = false)
    (tier : Tier) : tier.operator? token = none := by
  cases token with
  | operator _ => cases h
  | _ => rfl

namespace Grammar

variable {limit limit' : Option Nat}

/-! ### Another depth -/

/-- At a depth, a limit leaves room for so many levels of nesting. -/
def Room (limit : Option Nat) (depth levels : Nat) : Prop :=
  ∀ most, limit = some most → depth + levels ≤ most

theorem room_none (depth levels : Nat) : Room none depth levels :=
  fun _ h => nomatch h

theorem admits_none (depth : Nat) : Admits none depth :=
  fun _ h => nomatch h

theorem room_some {depth levels most : Nat} (h : ¬ most < depth + levels) :
    Room (some most) depth levels := by
  intro _ limited
  cases limited
  exact Nat.not_lt.mp h

theorem admits_some {depth most : Nat} (h : depth < most) : Admits (some most) depth := by
  intro _ limited
  cases limited
  exact h

theorem Room.mono {depth levels levels' : Nat} (h : Room limit depth levels)
    (fewer : levels' ≤ levels) : Room limit depth levels' := by
  intro most limited
  have := h most limited
  omega

/-- With room for one level and more, the level is admitted. -/
theorem Room.admits {depth levels : Nat} (h : Room limit depth (levels + 1)) :
    Admits limit depth := by
  intro most limited
  have := h most limited
  omega

/-- One level further in, there is room for one level less. -/
theorem Room.deeper {depth levels : Nat} (h : Room limit depth (levels + 1)) :
    Room limit (depth + 1) levels := by
  intro most limited
  have := h most limited
  omega

/-- **A reading can be moved to another depth**, and under another limit. -/
theorem Reads.relocate {goal : Goal} {depth depth' : Nat} {tokens rest : List Token}
    {e : Expression} (h : Reads limit goal depth tokens e rest)
    (room : Room limit' depth' e.nesting) : Reads limit' goal depth' tokens e rest := by
  -- The depth is generalized: it grows where the reading nests. The room for two operands is that
  -- of the deeper one, so there is room for each.
  induction h generalizing depth' with
  | first _ ih => exact .first (ih room)
  | next joins _ _ before last =>
    have left := before (room.mono (Nat.le_max_left _ _))
    have right := last (room.mono (Nat.le_max_right _ _))
    exact .next joins left right
  | chain _ settled ih => exact .chain (ih room) settled
  | plain _ unmarked ih => exact .plain (ih room) unmarked
  | scaled _ _ before last =>
    have mantissa := before (room.mono (Nat.le_max_left _ _))
    have exponent := last (room.mono (Nat.le_max_right _ _))
    exact .scaled mantissa exponent
  | integer whole pointless => exact .integer whole pointless
  | decimal whole fraction => exact .decimal whole fraction
  | enclosed enclosure _ _ ih =>
    rw [enclosure.nesting_around] at room
    exact .enclosed enclosure room.admits (ih room.deeper)
  | negation _ _ ih => exact .negation room.admits (ih room.deeper)

/-- **Without room for its levels, a tree is not read.** The reading goes on up to the first place
that is too deep, and that is its fault. -/
theorem Reads.fails_of_deep {goal : Goal} {depth depth' most : Nat} {tokens rest : List Token}
    {e : Expression} (h : Reads limit goal depth tokens e rest) (start : depth' ≤ most)
    (deep : most < depth' + e.nesting) :
    ∃ done, Fails (some most) goal.derivable depth' tokens done (.tooDeep most) := by
  induction h generalizing depth' with
  | first _ ih =>
    obtain ⟨done, fails⟩ := ih start deep
    exact ⟨done, .first fails⟩
  | @next tier op _ _ _ _ left right joins before _ ihBefore ihLast =>
    by_cases first : most < depth' + left.nesting
    · exact ihBefore start first
    · -- The left operand is read, so what is too deep is in the right one.
      have second : most < depth' + right.nesting := by
        rw [Expression.nesting] at deep
        omega
      obtain ⟨done, fails⟩ := ihLast start second
      exact ⟨_, .next joins (before.relocate (room_some first)) fails⟩
  | chain _ _ ih => exact ih start deep
  | plain _ _ ih =>
    obtain ⟨done, fails⟩ := ih start deep
    exact ⟨done, .mantissa fails⟩
  | @scaled _ _ _ _ mantissa exponent before _ ihBefore ihLast =>
    by_cases first : most < depth' + mantissa.nesting
    · obtain ⟨done, fails⟩ := ihBefore start first
      exact ⟨done, .mantissa fails⟩
    · have second : most < depth' + exponent.nesting := by
        rw [Expression.nesting] at deep
        omega
      obtain ⟨done, fails⟩ := ihLast start second
      exact ⟨_, .exponent (before.relocate (room_some first)) fails⟩
  | integer _ _ | decimal _ _ => exact absurd start (Nat.not_le.mpr deep)
  | enclosed enclosure _ _ ih =>
    rw [enclosure.nesting_around] at deep
    -- Either the opening token is too deep itself, or it is admitted and something inside is.
    rcases Nat.eq_or_lt_of_le start with reached | admitted
    · exact ⟨[], .tooDeep rfl (Nat.le_of_eq reached.symm) enclosure.nests_opener⟩
    · obtain ⟨done, fails⟩ := ih admitted (by omega)
      exact ⟨done, .inner enclosure (admits_some admitted) fails⟩
  | negation _ _ ih =>
    rw [Expression.nesting] at deep
    rcases Nat.eq_or_lt_of_le start with reached | admitted
    · exact ⟨[], .tooDeep rfl (Nat.le_of_eq reached.symm) rfl⟩
    · obtain ⟨done, fails⟩ := ih admitted (by omega)
      exact ⟨done, .negation (admits_some admitted) fails⟩

/-! ### Other tokens behind -/

/-- Tokens that can stand behind an expression in the place of others: they begin with the same
token, or with one that no expression goes on with, or there are none. -/
def Replaces (rest rest' : List Token) : Prop :=
  ∀ token, rest'.head? = some token → rest.head? = some token ∨ token.extendsOperand = false

theorem replaces_cons (token : Token) (tail tail' : List Token) :
    Replaces (token :: tail) (token :: tail') :=
  fun _ h => .inl h

theorem replaces_of_not_extends {token : Token} {tail : List Token}
    (h : token.extendsOperand = false) (rest : List Token) : Replaces rest (token :: tail) := by
  intro token' same
  cases same
  exact .inr h

namespace Replaces

variable {rest rest' : List Token}

/-- What the old tokens do not begin with, the new ones do not begin with either. -/
theorem ne_cons (h : Replaces rest rest') {token : Token} (extending : token.extendsOperand = true)
    (ne : ∀ tail, rest ≠ token :: tail) (tail : List Token) : rest' ≠ token :: tail := by
  rintro rfl
  rcases h token rfl with same | ends
  · obtain ⟨tail', rfl⟩ := List.head?_eq_some_iff.mp same
    exact ne tail' rfl
  · rw [extending] at ends
    cases ends

theorem settled (h : Replaces rest rest') {tier : Tier} (settled : Settled tier rest) :
    Settled tier rest' := by
  rintro token tail rfl
  rcases h token rfl with same | ends
  · obtain ⟨tail', rfl⟩ := List.head?_eq_some_iff.mp same
    exact settled token tail' rfl
  · exact Tier.operator?_of_not_extends ends tier

end Replaces

/-- **A reading can be moved in front of other tokens.** Inside the expression nothing changes:
there, every part is followed by the same token as before. -/
theorem Reads.followedBy {goal : Goal} {depth : Nat} {tokens rest rest' : List Token}
    {e : Expression} (h : Reads limit goal depth tokens e rest) (replaces : Replaces rest rest') :
    Reads limit goal depth (e.tokens ++ rest') e rest' := by
  induction h generalizing rest' with
  | first _ ih => exact .first (ih replaces)
  | @next tier op _ _ _ _ left right joins _ _ before last =>
    -- The left operand is still followed by the operator.
    have left := before (replaces_cons (.operator op) _ (right.tokens ++ rest'))
    have both := Reads.next joins left (last replaces)
    rwa [← List.cons_append, ← List.append_assoc] at both
  | chain _ settled ih => exact .chain (ih replaces) (replaces.settled settled)
  | plain _ unmarked ih => exact .plain (ih replaces) (replaces.ne_cons rfl unmarked)
  | @scaled _ _ _ _ mantissa exponent _ _ before last =>
    have left := before (replaces_cons .exponentMark _ (exponent.tokens ++ rest'))
    have both := Reads.scaled left (last replaces)
    rwa [← List.cons_append, ← List.append_assoc] at both
  | integer whole pointless => exact .integer whole (replaces.ne_cons rfl pointless)
  | decimal whole fraction => exact .decimal whole fraction
  | enclosed enclosure admitted _ ih =>
    have inner := ih (replaces_cons .closing _ rest')
    have around := Reads.enclosed enclosure admitted inner
    rwa [List.append_cons, ← List.cons_append, ← List.cons_append,
      ← enclosure.tokens_around] at around
  | negation admitted _ ih => exact .negation admitted (ih replaces)

/-! ### A looser rule -/

/-- The place of a goal in the order from the tightest to the loosest. A chain of which more may
follow is just below the whole chain. -/
def Goal.height : Goal → Nat
  | .rule .atom => 0
  | .rule .scaled => 1
  | .begun tier => 2 * rank tier
  | .rule (.chain tier) => 2 * rank tier + 1

theorem Goal.height_injective {goal goal' : Goal} (h : goal.height = goal'.height) :
    goal = goal' := by
  rcases goal with ((_ | _ | _) | _ | _) | (_ | _ | _) <;>
    rcases goal' with ((_ | _ | _) | _ | _) | (_ | _ | _) <;>
    first | rfl | simp [height, rank] at h

theorem Goal.height_operand (tier : Tier) :
    (Goal.rule (.operand tier)).height + 1 = (Goal.begun tier).height := by
  cases tier <;> rfl

theorem Goal.height_le_loosest (goal : Goal) :
    goal.height ≤ (Goal.rule (.chain .additive)).height := by
  rcases goal with ((_ | _ | _) | _ | _) | (_ | _ | _) <;> decide

/-- **Induction from a goal up to a looser one**, by way of the goals that pass their tokens on to
one another. -/
theorem Goal.climb {motive : Goal → Prop} {goal goal' : Goal}
    (looser : goal.height ≤ goal'.height)
    (start : motive goal) (scaled : motive (.rule .atom) → motive (.rule .scaled))
    (begun : ∀ tier, motive (.rule (.operand tier)) → motive (.begun tier))
    (chain : ∀ tier, motive (.begun tier) → motive (.rule (.chain tier))) : motive goal' := by
  -- By the height of the looser goal: below it, each goal but the tightest has one that passes its
  -- tokens on to it.
  induction hn : goal'.height using Nat.strongRecOn generalizing goal' with
  | ind n ih =>
    rcases Nat.eq_or_lt_of_le looser with same | lower
    · rw [← height_injective same]
      exact start
    · cases goal' with
      | begun tier =>
        have below := height_operand tier
        exact begun tier (ih _ (by omega) (by omega) rfl)
      | rule rule =>
        cases rule with
        | chain tier =>
          exact chain tier (ih _ (hn ▸ Nat.lt_succ_self _) (Nat.le_of_lt_succ lower) rfl)
        | scaled => exact scaled (ih 0 (hn ▸ Nat.one_pos) (Nat.le_of_lt_succ lower) rfl)
        | atom => cases lower

/-- A goal ends in front of some tokens: they do not begin with a token that it would take. -/
structure Goal.EndsAt (goal : Goal) (rest : List Token) : Prop where
  /-- No literal goes on. -/
  pointless : ∀ tail, rest ≠ .point :: tail
  /-- No mantissa goes on. -/
  unmarked : goal ≠ .rule .atom → ∀ tail, rest ≠ .exponentMark :: tail
  /-- No chain goes on. -/
  settled : ∀ tier, goal.Settles tier → Settled tier rest

/-- Every goal ends in front of a token that no expression goes on with. -/
theorem Goal.endsAt_of_not_extends (goal : Goal) {token : Token}
    (h : token.extendsOperand = false) (tail : List Token) : goal.EndsAt (token :: tail) where
  pointless := by
    rintro _ same
    cases same
    cases h
  unmarked := by
    rintro _ _ same
    cases same
    cases h
  settled := by
    rintro tier _ _ _ same
    cases same
    exact Tier.operator?_of_not_extends h tier

theorem Goal.endsAt_nil (goal : Goal) : goal.EndsAt [] where
  pointless := nofun
  unmarked := nofun
  settled := nofun

/-- A chain that has begun ends in front of an operator of its own tier: that one is not taken
yet. -/
theorem Goal.begun_endsAt_operator (op : Operator) (tail : List Token) :
    (Goal.begun op.tier).EndsAt (.operator op :: tail) where
  pointless := nofun
  unmarked := nofun
  settled := by
    intro tier tighter _ _ same
    cases same
    -- A tier that took the operator would be the operator's own, and that is not tighter.
    refine if_neg fun joins => ?_
    rw [joins] at tighter
    exact Nat.lt_irrefl _ tighter

/-- An atom ends in front of an operator and in front of an exponent mark. -/
theorem Goal.atom_endsAt {token : Token} (h : token ≠ .point) (tail : List Token) :
    (Goal.rule .atom).EndsAt (token :: tail) where
  pointless := by
    rintro _ same
    cases same
    exact h rfl
  unmarked ne := absurd rfl ne
  settled := nofun

/-- The tiers whose operators the operand of a chain takes are those of the chain itself that are
tighter. -/
theorem Goal.settles_operand_iff (tier tier' : Tier) :
    (Goal.rule (.operand tier)).Settles tier' ↔ (Goal.begun tier).Settles tier' := by
  cases tier <;> cases tier' <;> simp [Settles, Rule.operand, rank]

theorem Goal.EndsAt.operand {tier : Tier} {rest : List Token} (h : (Goal.begun tier).EndsAt rest) :
    (Goal.rule (.operand tier)).EndsAt rest where
  pointless := h.pointless
  unmarked _ := h.unmarked nofun
  settled tier' settles := h.settled tier' ((settles_operand_iff tier tier').mp settles)

theorem Goal.EndsAt.begun {tier : Tier} {rest : List Token}
    (h : (Goal.rule (.chain tier)).EndsAt rest) : (Goal.begun tier).EndsAt rest where
  pointless := h.pointless
  unmarked _ := h.unmarked nofun
  settled tier' settles := h.settled tier' (Nat.le_of_lt settles)

theorem Goal.EndsAt.atom {goal : Goal} {rest : List Token} (h : goal.EndsAt rest) :
    (Goal.rule .atom).EndsAt rest where
  pointless := h.pointless
  unmarked ne := absurd rfl ne
  settled := nofun

/-- What ends a looser goal ends a tighter one. -/
theorem Goal.EndsAt.tighten {goal goal' : Goal} {rest : List Token} (h : goal'.EndsAt rest)
    (tighter : goal.height ≤ goal'.height) : goal.EndsAt rest := by
  revert h
  refine Goal.climb (motive := fun g => g.EndsAt rest → goal.EndsAt rest) tighter id ?_ ?_ ?_
  · exact fun below ends => below ends.atom
  · exact fun tier below ends => below ends.operand
  · exact fun tier below ends => below ends.begun

/-- **A reading can be moved to a looser rule**: the rules between the two pass the tokens on, since
none of them finds anything behind the expression that it would take. -/
theorem Reads.loosen {goal goal' : Goal} {depth : Nat} {tokens rest : List Token} {e : Expression}
    (h : Reads limit goal depth tokens e rest) (looser : goal.height ≤ goal'.height)
    (ends : goal'.EndsAt rest) : Reads limit goal' depth tokens e rest := by
  revert ends
  refine Goal.climb (motive := fun g => g.EndsAt rest → Reads limit g depth tokens e rest) looser
    (fun _ => h) ?_ ?_ ?_
  · intro below ends
    exact .plain (below ends.atom) (ends.unmarked nofun)
  · intro tier below ends
    exact .first (below ends.operand)
  · intro tier below ends
    exact .chain (below ends.begun) (ends.settled tier (Nat.le_refl _))

end Grammar

end Calculator
