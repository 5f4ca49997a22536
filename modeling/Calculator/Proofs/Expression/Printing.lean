import Calculator.Expression.Printer
import Calculator.Proofs.Calculation.Tree
import Calculator.Proofs.Grammar.Relocation

/-!
# A tree is read back from its tokens

`Expression.print` writes a tree with as few parentheses as the tiers of its operators ask for. This
module shows that they are enough: the tokens are read to their end, and what is read is the tree.

Every tree has a goal of its own, `Expression.goal`, the tightest one that reads it: an operation is
a chain of its tier that may go on, and a negation takes what a term takes. A position where an
operand stands has a goal, too, and an operand has parentheses exactly if its own goal is looser
than the goal of the position (`height_le_of_leftNeeds` and its siblings). So each operand can be
moved to its position by `Reads.loosen`, and the only question is whether the position's goal ends
behind it, which one token decides.

Main statements:

* `readsBack_withParentheses` — a tree with its parentheses is read back by its own goal, in front
  of all tokens that end the goal;
* `value_eq_error_iff` — a tree has no value exactly if it contains a division by zero;
* `print_reads_back` — the tokens of a tree are read as the tree and have its value.
-/

namespace Calculator

open Grammar

namespace Grammar

/-! ### Reading back -/

/-- In front of all tokens that end the goal, the tokens of the tree are read as the tree. -/
def ReadsBack (goal : Goal) (e : Expression) : Prop :=
  ∀ rest, goal.EndsAt rest → Reads none goal 0 (e.tokens ++ rest) e rest

variable {goal goal' : Goal} {e : Expression}

theorem ReadsBack.loosen (h : ReadsBack goal e) (looser : goal.height ≤ goal'.height) :
    ReadsBack goal' e := by
  intro rest ends
  exact (h rest (ends.tighten looser)).loosen looser ends

/-- In an enclosure, every tree that is read back is an atom. -/
theorem ReadsBack.around (enclosure : Enclosure) (h : ReadsBack goal e) :
    ReadsBack (.rule .atom) (enclosure.around e) := by
  intro rest _
  -- Inside, the closing parenthesis ends every goal, so the loosest one reads the tree.
  have inner := h.loosen goal.height_le_loosest (.closing :: rest)
    (Goal.endsAt_of_not_extends _ rfl rest)
  have deeper := inner.relocate (room_none 1 e.nesting)
  have whole := Reads.enclosed enclosure (admits_none 0) deeper
  rw [enclosure.tokens_around]
  simpa using whole

theorem readsBack_literal (whole : Float) (fraction : Option Fraction) :
    ReadsBack (.rule .atom) (.literal whole fraction) := by
  intro rest ends
  cases fraction with
  | none => exact .integer whole ends.pointless
  | some fraction => exact .decimal whole fraction

theorem readsBack_operation {op : Operator} {left right : Expression}
    (hl : ReadsBack (.begun op.tier) left) (hr : ReadsBack (.rule (.operand op.tier)) right) :
    ReadsBack (.begun op.tier) (.operation op left right) := by
  intro rest ends
  -- The chain has begun and stops in front of the operator, which joins the right operand to it.
  have before := hl _ (Goal.begun_endsAt_operator op (right.tokens ++ rest))
  have whole := Reads.next rfl before (hr rest ends.operand)
  simpa [Expression.tokens] using whole

theorem readsBack_scaled {mantissa exponent : Expression} (hm : ReadsBack (.rule .atom) mantissa)
    (hx : ReadsBack (.rule .atom) exponent) :
    ReadsBack (.rule .scaled) (.scaled mantissa exponent) := by
  intro rest ends
  have left := hm (.exponentMark :: (exponent.tokens ++ rest)) (Goal.atom_endsAt (by decide) _)
  have whole := Reads.scaled left (hx rest ends.atom)
  simpa [Expression.tokens] using whole

/-- A negation is an atom, but it takes whatever a term takes. -/
theorem readsBack_negation (h : ReadsBack (.rule (.chain .multiplicative)) e) :
    ReadsBack (.rule (.chain .multiplicative)) (.negation e) := by
  intro rest ends
  -- The term takes all that the goal allows, so behind the minus nothing is left to take.
  have term := (h rest ends).relocate (room_none 1 e.nesting)
  have negation := Reads.negation (admits_none 0) term
  exact negation.loosen (Nat.zero_le _) ends

end Grammar

namespace Expression

/-! ### The goal of a tree -/

/-- The tightest goal that reads a tree. -/
def goal : Expression → Goal
  | .operation op _ _ => .begun op.tier
  | .scaled _ _ => .rule .scaled
  | .negation _ => .rule (.chain .multiplicative)
  | .literal _ _ | .application _ _ | .parenthesized _ => .rule .atom

theorem rank_pos (tier : Tier) : 0 < rank tier := by
  cases tier <;> decide

/-- A left operand without parentheses is at most as loose as the chain that it begins. -/
theorem height_le_of_leftNeeds {op : Operator} {e : Expression} (h : leftNeeds op e = false) :
    e.goal.height ≤ (Goal.begun op.tier).height := by
  have pos := rank_pos op.tier
  cases e with
  | operation op' _ _ =>
    simp only [leftNeeds, isNegation, tier?, Option.any_some, Bool.false_or,
      decide_eq_false_iff_not, Nat.not_lt] at h
    exact Nat.mul_le_mul_left 2 h
  | negation _ => cases h
  | _ =>
    simp only [goal, Goal.height]
    omega

/-- A right operand without parentheses is tighter than the chain that it joins. -/
theorem height_le_of_rightNeeds {op : Operator} {e : Expression} (h : rightNeeds op e = false) :
    e.goal.height ≤ (Goal.rule (.operand op.tier)).height := by
  have pos := rank_pos op.tier
  have below := Goal.height_operand op.tier
  simp only [Goal.height] at below
  cases e with
  | operation op' _ _ =>
    simp only [rightNeeds, isNegation, tier?, Option.any_some, Bool.false_or,
      decide_eq_false_iff_not, Nat.not_le] at h
    simp only [goal, Goal.height]
    omega
  | negation _ => cases h
  | _ =>
    simp only [goal, Goal.height]
    omega

theorem height_le_of_isClosed {e : Expression} (h : (!e.isClosed) = false) :
    e.goal.height ≤ (Goal.rule .atom).height := by
  cases e with
  | operation _ _ _ | scaled _ _ | negation _ => cases h
  | _ => exact Nat.le_refl _

/-- The operand of a minus without parentheses is a term. -/
theorem height_le_of_negationNeeds {e : Expression} (h : negationNeeds e = false) :
    e.goal.height ≤ (Goal.rule (.chain .multiplicative)).height := by
  cases e with
  | operation op _ _ =>
    have tight : op.tier ≠ .additive := by
      simpa [negationNeeds, isNegation, tier?] using h
    simp only [goal, Goal.height]
    cases tier : op.tier with
    | additive => exact absurd tier tight
    | multiplicative | power => decide
  | negation _ => cases h
  | _ =>
    simp only [goal, Goal.height]
    omega

/-- An operand can stand in a position if it has parentheses or is tight enough for it. -/
theorem readsBack_wrap {goal goal' : Goal} {e : Expression} {needed : Bool}
    (h : ReadsBack goal e) (tight : needed = false → goal.height ≤ goal'.height) :
    ReadsBack goal' (wrap needed e) := by
  cases needed with
  | true => exact (h.around .parentheses).loosen (Nat.zero_le _)
  | false => exact h.loosen (tight rfl)

/-- **A tree with its parentheses is read back**, by its own goal. -/
theorem readsBack_withParentheses (e : Expression) : ReadsBack e.goal e.withParentheses := by
  induction e with
  | literal whole fraction => exact readsBack_literal whole fraction
  | operation op _ _ left right =>
    exact readsBack_operation (readsBack_wrap left height_le_of_leftNeeds)
      (readsBack_wrap right height_le_of_rightNeeds)
  | scaled _ _ mantissa exponent =>
    exact readsBack_scaled (readsBack_wrap mantissa height_le_of_isClosed)
      (readsBack_wrap exponent height_le_of_isClosed)
  | application function _ argument => exact argument.around (.argument function)
  | negation _ operand =>
    exact readsBack_negation (readsBack_wrap operand height_le_of_negationNeeds)
  | parenthesized _ inner => exact inner.around .parentheses

/-- The tokens of a tree are read as the tree with its parentheses, under every limit that allows
their nesting. -/
theorem reads_print {limit : Option Nat} {e : Expression}
    (room : Room limit 0 e.withParentheses.nesting) :
    Reads limit (.rule (.chain .additive)) 0 e.print e.withParentheses [] := by
  have whole := (readsBack_withParentheses e).loosen e.goal.height_le_loosest [] (Goal.endsAt_nil _)
  rw [List.append_nil] at whole
  exact whole.relocate room

/-! ### Trees without a value -/

/-- A tree and all trees inside it. -/
def parts : Expression → List Expression
  | e@(.literal _ _) => [e]
  | e@(.operation _ left right) => e :: (left.parts ++ right.parts)
  | e@(.scaled mantissa exponent) => e :: (mantissa.parts ++ exponent.parts)
  | e@(.application _ argument) => e :: argument.parts
  | e@(.negation operand) => e :: operand.parts
  | e@(.parenthesized inner) => e :: inner.parts

/-- Some division in the tree has a right operand of which the value is zero. -/
def HasZeroDivisor (e : Expression) : Prop :=
  ∃ left right number, .operation .div left right ∈ e.parts ∧ right.value = .ok number ∧
    (number.value == 0.0) = true

theorem hasZeroDivisor_operation {op : Operator} {left right : Expression} :
    (operation op left right).HasZeroDivisor ↔ left.HasZeroDivisor ∨ right.HasZeroDivisor ∨
      op = .div ∧ ∃ number, right.value = .ok number ∧ (number.value == 0.0) = true := by
  constructor
  · rintro ⟨l, r, number, member, zero⟩
    rw [parts, List.mem_cons, List.mem_append] at member
    -- The division is the node itself, or it is in one of the operands.
    rcases member with same | inLeft | inRight
    · cases same
      exact .inr (.inr ⟨rfl, number, zero⟩)
    · exact .inl ⟨l, r, number, inLeft, zero⟩
    · exact .inr (.inl ⟨l, r, number, inRight, zero⟩)
  · rintro (⟨l, r, number, inLeft, zero⟩ | ⟨l, r, number, inRight, zero⟩ | ⟨rfl, number, zero⟩)
    · exact ⟨l, r, number, List.mem_cons_of_mem _ (List.mem_append_left _ inLeft), zero⟩
    · exact ⟨l, r, number, List.mem_cons_of_mem _ (List.mem_append_right _ inRight), zero⟩
    · exact ⟨left, right, number, List.mem_cons_self, zero⟩

theorem hasZeroDivisor_scaled {mantissa exponent : Expression} :
    (scaled mantissa exponent).HasZeroDivisor ↔
      mantissa.HasZeroDivisor ∨ exponent.HasZeroDivisor := by
  simp only [HasZeroDivisor, parts, List.mem_cons, List.mem_append, reduceCtorEq, false_or,
    or_and_right, exists_or]

theorem hasZeroDivisor_application {function : Trig} {argument : Expression} :
    (application function argument).HasZeroDivisor ↔ argument.HasZeroDivisor := by
  simp only [HasZeroDivisor, parts, List.mem_cons, reduceCtorEq, false_or]

theorem hasZeroDivisor_negation {operand : Expression} :
    (negation operand).HasZeroDivisor ↔ operand.HasZeroDivisor := by
  simp only [HasZeroDivisor, parts, List.mem_cons, reduceCtorEq, false_or]

theorem hasZeroDivisor_parenthesized {inner : Expression} :
    (parenthesized inner).HasZeroDivisor ↔ inner.HasZeroDivisor := by
  simp only [HasZeroDivisor, parts, List.mem_cons, reduceCtorEq, false_or]

/-- Of two steps the first one fails, or the second one does with the value of the first. -/
theorem bind_eq_error_iff {ε α β : Type} {result : Except ε α} {next : α → Except ε β} {cause : ε} :
    result >>= next = .error cause ↔
      result = .error cause ∨ ∃ value, result = .ok value ∧ next value = .error cause := by
  cases result with
  | error cause' =>
    change Except.error cause' = .error cause ↔ _
    simp
  | ok value =>
    change next value = .error cause ↔ _
    simp

/-- An operation whose operands have values fails exactly if it divides by zero. -/
theorem operation_eq_error_iff {op : Operator} {left right : Number} {cause : ArithmeticError} :
    left.operation op right = .error cause ↔ op = .div ∧ (right.value == 0.0) = true := by
  change Number.ofConstruct (.operation op left right) = .error cause ↔ _
  rw [ofConstruct_eq_error_iff]
  constructor
  · rintro ⟨_, _, same, zero⟩
    cases same
    exact ⟨rfl, zero⟩
  · rintro ⟨rfl, zero⟩
    exact ⟨left, right, rfl, zero⟩

/-- **A tree has no value exactly if it divides by zero** somewhere. -/
theorem value_eq_error_iff (e : Expression) :
    e.value = .error .divisionByZero ↔ e.HasZeroDivisor := by
  induction e with
  | literal _ _ => simp [value, HasZeroDivisor, parts]
  | operation op left right ihLeft ihRight =>
    rw [value, hasZeroDivisor_operation, bind_eq_error_iff, ← ihLeft, ← ihRight]
    -- What stands right of a failure has not been computed, but it makes no difference: the tree
    -- fails either way, and there is only one cause.
    cases left.value with
    | error cause => cases cause; simp
    | ok l =>
      simp only [reduceCtorEq, false_or, Except.ok.injEq, exists_eq_left', bind_eq_error_iff,
        operation_eq_error_iff]
      tauto
  | scaled mantissa exponent ihMantissa ihExponent =>
    rw [value, hasZeroDivisor_scaled, bind_eq_error_iff, ← ihMantissa, ← ihExponent]
    cases mantissa.value with
    | error cause => cases cause; simp
    | ok m => simp [bind_eq_error_iff, pure, Except.pure]
  | application function argument ih =>
    rw [value, hasZeroDivisor_application, bind_eq_error_iff, ← ih]
    simp [pure, Except.pure]
  | negation operand ih =>
    rw [value, hasZeroDivisor_negation, bind_eq_error_iff, ← ih]
    simp [pure, Except.pure]
  | parenthesized inner ih =>
    rw [value, hasZeroDivisor_parenthesized, ih]

/-! ### The round trip -/

theorem value_withParentheses (e : Expression) : e.withParentheses.value = e.value := by
  rw [← value_ungrouped, ungrouped_withParentheses, value_ungrouped]

/-- **A tree is read back from its tokens.** For every tree without parentheses of its own, if its
tokens do not nest too deep:

* they are read to their end, as the tree with the parentheses that it needs;
* they have the value of the tree;
* they have none exactly if some division of the tree has a right operand that is zero. -/
theorem print_reads_back (e : Expression) (plain : e.ungrouped = e)
    (shallow : e.withParentheses.nesting ≤ depthLimit) :
    (∃ tree, (read builder (some depthLimit) e.print).run () = .ok (tree, []) () ∧
      tree.ungrouped = e) ∧
    evaluate e.print = (e.value.mapError .arithmetic).map (fun number => (number, [])) ∧
    (evaluate e.print = .error (.arithmetic .divisionByZero) ↔ e.HasZeroDivisor) := by
  have room : Room (some depthLimit) 0 e.withParentheses.nesting := room_some (by omega)
  have reading := reads_print room
  have evaluated : evaluate e.print =
      (e.value.mapError .arithmetic).map (fun number => (number, [])) := by
    -- What is read has the parentheses that were written, but these have no value.
    rw [evaluate_of_reads reading, value_withParentheses]
    cases e.value <;> rfl
  refine ⟨⟨e.withParentheses, read_builder_of_reads reading, ?_⟩, evaluated, ?_⟩
  · rw [ungrouped_withParentheses, plain]
  · rw [evaluated, ← value_eq_error_iff]
    cases e.value with
    | error cause => cases cause; simp [Except.mapError, Except.map]
    | ok number => simp [Except.mapError, Except.map]

/-- The operand of the outer minus is a term and needs no parentheses, the inner minus would take
the factor behind it and needs them. -/
theorem print_reads_back_minus :
    let e : Expression := .negation (.operation .mul (.negation (.literal 2.0 none))
      (.operation .pow (.literal 3.0 none) (.literal 0.0 none)))
    e.print = [.negation, .opening, .negation, .number 2.0, .closing, .operator .mul, .number 3.0,
        .operator .pow, .number 0.0] ∧
      e.ungrouped = e ∧ e.withParentheses.nesting ≤ depthLimit ∧
      (∃ tree, (read builder (some depthLimit) e.print).run () = .ok (tree, []) () ∧
        tree.ungrouped = e) ∧
      evaluate e.print = (e.value.mapError .arithmetic).map (fun number => (number, [])) ∧
      (evaluate e.print = .error (.arithmetic .divisionByZero) ↔ e.HasZeroDivisor) := by
  intro e
  have shallow : e.withParentheses.nesting ≤ depthLimit := by decide
  exact ⟨rfl, rfl, shallow, print_reads_back e rfl shallow⟩

end Expression

end Calculator
