import Calculator.Error
import Calculator.Proofs.Grammar.Reads

/-!
# Other fractions in the same places

A reading sees that a token is a fraction and does not look at the fraction itself. So if every
fraction is replaced by another one, what is read is the same tree with the other fractions in it,
and what fails does so at the same place (`Reads.mapFractions`, `Fails.mapFractions`). If the other
fractions also have the same values, so has the tree (`Expression.value_mapFractions`).
-/

namespace Calculator

section Replaced

variable (g : Fraction → Fraction)

/-- A token with its fraction replaced, if it is one. -/
def Token.mapFraction : Token → Token
  | .fraction value => .fraction (g value)
  | token => token

/-- A tree with all its fractions replaced. -/
def Expression.mapFractions : Expression → Expression
  | .literal whole fraction => .literal whole (fraction.map g)
  | .operation op left right => .operation op left.mapFractions right.mapFractions
  | .scaled mantissa exponent => .scaled mantissa.mapFractions exponent.mapFractions
  | .application function argument => .application function argument.mapFractions
  | .negation operand => .negation operand.mapFractions
  | .parenthesized inner => .parenthesized inner.mapFractions

/-- A cause of failure with the fraction that it names replaced. -/
def SyntaxError.mapFraction : SyntaxError → SyntaxError
  | .unexpected token => .unexpected (token.mapFraction g)
  | .trailing token => .trailing (token.mapFraction g)
  | cause => cause

variable {g}

/-! ### Tokens -/

/-- All other tokens stay what they are, and no token becomes one of them. -/
theorem Token.mapFraction_eq_iff {token other : Token} (h : ∀ value, other ≠ .fraction value) :
    token.mapFraction g = other ↔ token = other := by
  cases token with
  | fraction value => exact iff_of_false (fun same => h _ same.symm) fun same => h _ same.symm
  | _ => rfl

theorem Token.mapFraction_of_ne {token : Token} (h : ∀ value, token ≠ .fraction value) :
    token.mapFraction g = token :=
  (mapFraction_eq_iff h).mpr rfl

@[simp] theorem Token.nests_mapFraction (token : Token) :
    (token.mapFraction g).nests = token.nests := by
  cases token <;> rfl

@[simp] theorem Token.startsOperand_mapFraction (token : Token) :
    (token.mapFraction g).startsOperand = token.startsOperand := by
  cases token <;> rfl

@[simp] theorem Tier.operator?_mapFraction (tier : Tier) (token : Token) :
    tier.operator? (token.mapFraction g) = tier.operator? token := by
  cases token <;> rfl

@[simp] theorem Enclosure.mapFraction_opener (enclosure : Enclosure) :
    enclosure.opener.mapFraction g = enclosure.opener := by
  cases enclosure <;> rfl

theorem Enclosure.mapFractions_around (enclosure : Enclosure) (e : Expression) :
    (enclosure.around e).mapFractions g = enclosure.around (e.mapFractions g) := by
  cases enclosure <;> rfl

/-- What does not follow does not follow after the replacement either. -/
theorem map_ne_cons {rest : List Token} {token : Token} (h : ∀ value, token ≠ .fraction value)
    (absent : ∀ tail, rest ≠ token :: tail) :
    ∀ tail, rest.map (Token.mapFraction g) ≠ token :: tail := by
  intro tail same
  obtain ⟨first, behind, rfl, becomes, -⟩ := List.map_eq_cons_iff.mp same
  obtain rfl := (Token.mapFraction_eq_iff h).mp becomes
  exact absent behind rfl

/-! ### Readings -/

namespace Grammar

variable {limit : Option Nat}

theorem Settled.mapFraction {tier : Tier} {rest : List Token} (h : Settled tier rest) :
    Settled tier (rest.map (Token.mapFraction g)) := by
  intro token tail same
  obtain ⟨first, behind, rfl, rfl, -⟩ := List.map_eq_cons_iff.mp same
  rw [Tier.operator?_mapFraction]
  exact h first behind rfl

/-- **The same tree is read**, with the other fractions in it. -/
theorem Reads.mapFractions {goal : Goal} {depth : Nat} {tokens rest : List Token} {e : Expression}
    (h : Reads limit goal depth tokens e rest) :
    Reads limit goal depth (tokens.map (Token.mapFraction g)) (e.mapFractions g)
      (rest.map (Token.mapFraction g)) := by
  induction h with
  | first _ ih => exact .first ih
  | next joins _ _ before last => exact .next joins before last
  | chain _ settled ih => exact .chain ih settled.mapFraction
  | plain _ unmarked ih => exact .plain ih (map_ne_cons nofun unmarked)
  | scaled _ _ before last => exact .scaled before last
  | integer whole pointless => exact .integer whole (map_ne_cons nofun pointless)
  | decimal whole fraction => exact .decimal whole (g fraction)
  | enclosed enclosure admitted _ ih =>
    rw [List.map_cons, enclosure.mapFraction_opener, enclosure.mapFractions_around]
    exact .enclosed enclosure admitted ih
  | negation admitted _ ih => exact .negation admitted ih

/-- **The same fault is met**, behind the same trees with the other fractions in them. -/
theorem Fails.mapFractions {rule : Rule} {depth : Nat} {tokens : List Token}
    {done : List Expression} {cause : SyntaxError} (h : Fails limit rule depth tokens done cause) :
    Fails limit rule depth (tokens.map (Token.mapFraction g))
      (done.map (Expression.mapFractions g)) (cause.mapFraction g) := by
  induction h with
  | first _ ih => exact .first ih
  | next joins before _ ih => exact .next joins before.mapFractions ih
  | mantissa _ ih => exact .mantissa ih
  | exponent left _ ih => exact .exponent left.mapFractions ih
  | missingDigits whole missing =>
    refine .missingDigits whole fun fraction tail same => ?_
    obtain ⟨first, behind, rfl, becomes, -⟩ := List.map_eq_cons_iff.mp same
    -- Only a fraction becomes a fraction.
    cases first with
    | fraction value => exact missing value behind rfl
    | _ => cases becomes
  | tooDeep limited reached nests =>
    exact .tooDeep limited reached (by rwa [Token.nests_mapFraction])
  | inner enclosure admitted _ ih =>
    rw [List.map_cons, enclosure.mapFraction_opener]
    exact .inner enclosure admitted ih
  | unclosed enclosure admitted inner unclosed =>
    rw [List.map_cons, enclosure.mapFraction_opener]
    exact .unclosed enclosure admitted inner.mapFractions (map_ne_cons nofun unclosed)
  | negation admitted _ ih => exact .negation admitted ih
  | unexpected strange => exact .unexpected (by rwa [Token.startsOperand_mapFraction])
  | unexpectedEnd => exact .unexpectedEnd

end Grammar

/-! ### Values -/

/-- Fractions with the same values make trees with the same value. -/
theorem Expression.value_mapFractions (same : ∀ f whole, (g f).after whole = f.after whole)
    (e : Expression) : (e.mapFractions g).value = e.value := by
  induction e with
  | literal whole fraction =>
    cases fraction with
    | none => rfl
    | some f =>
      have number : Number.literal whole (some (g f)) = .literal whole (some f) :=
        congrArg Number.decimal (same f whole)
      exact congrArg Except.ok number
  | operation _ _ _ left right => simp only [mapFractions, value, left, right]
  | scaled _ _ mantissa exponent => simp only [mapFractions, value, mantissa, exponent]
  | application _ _ argument => simp only [mapFractions, value, argument]
  | negation _ operand => simp only [mapFractions, value, operand]
  | parenthesized _ inner => exact inner

end Replaced

end Calculator
