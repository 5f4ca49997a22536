import Calculator.Proofs.Calculation.Classification
import Calculator.Proofs.Calculation.Tree
import Calculator.Proofs.Grammar.Relocation

/-!
# Integers written as decimals

A literal without a point is an integer, the same literal with a point and a fraction of zero is a
decimal, and both have the same value. Whether a division rounds down depends on the classes of its
operands, and it is the only construct whose value depends on them. So in tokens without a division,
any of the integers can be given a point: `Token.Pointed` relates the tokens before and after.

* The tokens are read alike, and the trees differ in these literals only (`Reads.pointed`); a reading
  that fails does so with the same cause (`Fails.pointed`).
* Without a division, both trees have a value. It is the same one, and a value that is still an
  integer has been one before (`Expression.Pointed.exists_value`).

Main statement: `evaluate_pointed`.
-/

namespace Calculator

open Grammar

/-! ### The two writings -/

/-- The second list is the first one with a point and a fraction of zero behind some of its numbers,
none of which has had a point. -/
inductive Token.Pointed : List Token → List Token → Prop where
  | nil : Pointed [] []
  /-- A token stays as it is. -/
  | keep (token : Token) {rest rest' : List Token} (behind : Pointed rest rest') :
      Pointed (token :: rest) (token :: rest')
  /-- A number without a point is given one. -/
  | point (whole : Float) (zeros : UInt32) {rest rest' : List Token}
      (pointless : ∀ tail, rest ≠ .point :: tail) (behind : Pointed rest rest') :
      Pointed (.number whole :: rest) (.number whole :: .point :: .fraction ⟨0, zeros⟩ :: rest')

/-- The second tree is the first one with a fraction of zero in some of its literals, none of which
has had a fraction. -/
inductive Expression.Pointed : Expression → Expression → Prop where
  | literal (whole : Float) (fraction : Option Fraction) :
      Pointed (.literal whole fraction) (.literal whole fraction)
  | point (whole : Float) (zeros : UInt32) :
      Pointed (.literal whole none) (.literal whole (some ⟨0, zeros⟩))
  | operation (op : Operator) {left left' right right' : Expression} (first : Pointed left left')
      (second : Pointed right right') :
      Pointed (.operation op left right) (.operation op left' right')
  | scaled {mantissa mantissa' exponent exponent' : Expression} (first : Pointed mantissa mantissa')
      (second : Pointed exponent exponent') :
      Pointed (.scaled mantissa exponent) (.scaled mantissa' exponent')
  | application (function : Trig) {argument argument' : Expression}
      (inner : Pointed argument argument') :
      Pointed (.application function argument) (.application function argument')
  | negation {operand operand' : Expression} (inner : Pointed operand operand') :
      Pointed (.negation operand) (.negation operand')
  | parenthesized {e e' : Expression} (inner : Pointed e e') :
      Pointed (.parenthesized e) (.parenthesized e')

theorem Enclosure.pointed_around (enclosure : Enclosure) {e e' : Expression} (h : e.Pointed e') :
    (enclosure.around e).Pointed (enclosure.around e') := by
  cases enclosure with
  | parentheses => exact .parenthesized h
  | argument function => exact .application function h

theorem Enclosure.opener_ne_number (enclosure : Enclosure) (whole : Float) :
    enclosure.opener ≠ .number whole := by
  cases enclosure <;> exact nofun

namespace Token.Pointed

variable {tokens tokens' : List Token}

/-- Both writings begin with the same token. -/
theorem head?_eq (h : Pointed tokens tokens') : tokens'.head? = tokens.head? := by
  cases h <;> rfl

theorem replaces (h : Pointed tokens tokens') : Replaces tokens tokens' :=
  fun _ same => .inl (h.head?_eq ▸ same)

theorem ne_cons (h : Pointed tokens tokens') {token : Token}
    (ne : ∀ tail, tokens ≠ token :: tail) (tail : List Token) : tokens' ≠ token :: tail := by
  rintro rfl
  obtain ⟨tail', rfl⟩ := List.head?_eq_some_iff.mp h.head?_eq.symm
  exact ne tail' rfl

/-- Only a number is given a point, all other tokens stay as they are. -/
theorem kept {token : Token} (h : Pointed (token :: tokens) tokens')
    (other : ∀ whole, token ≠ .number whole) :
    ∃ rest', tokens' = token :: rest' ∧ Pointed tokens rest' := by
  cases h with
  | keep _ behind => exact ⟨_, rfl, behind⟩
  | point whole _ _ _ => exact absurd rfl (other whole)

end Token.Pointed

/-! ### Readings -/

namespace Grammar

variable {limit : Option Nat}

/-- The tokens of a tree that was read are among those that it was read from. -/
theorem Reads.not_mem_tokens {goal : Goal} {depth : Nat}
    {tokens rest : List Token} {e : Expression} (h : Reads limit goal depth tokens e rest)
    {token : Token} (absent : token ∉ tokens) : token ∉ e.tokens := by
  rw [h.tokens_eq] at absent
  exact fun member => absent (List.mem_append_left _ member)

/-- **Both writings are read alike**, with trees and with tokens behind them that differ in the same
way. -/
theorem Reads.pointed {goal : Goal} {depth : Nat} {tokens tokens' rest : List Token}
    {e : Expression} (h : Reads limit goal depth tokens e rest) (both : Token.Pointed tokens tokens') :
    ∃ e' rest', Reads limit goal depth tokens' e' rest' ∧ e.Pointed e' ∧
      Token.Pointed rest rest' := by
  -- What follows a part begins with the same token in both writings, and only a number is given a
  -- point. So each part ends at the same place.
  induction h generalizing tokens' with
  | first _ ih =>
    obtain ⟨e', rest', found, trees, behind⟩ := ih both
    exact ⟨e', rest', .first found, trees, behind⟩
  | @next _ op _ _ _ _ _ _ joins _ _ before last =>
    obtain ⟨left', _, first, lefts, middle⟩ := before both
    obtain ⟨_, rfl, behind⟩ := middle.kept nofun
    obtain ⟨right', rest', second, rights, behind⟩ := last behind
    exact ⟨_, rest', .next joins first second, .operation op lefts rights, behind⟩
  | chain _ settled ih =>
    obtain ⟨e', rest', found, trees, behind⟩ := ih both
    exact ⟨e', rest', .chain found (behind.replaces.settled settled), trees, behind⟩
  | plain _ unmarked ih =>
    obtain ⟨e', rest', found, trees, behind⟩ := ih both
    exact ⟨e', rest', .plain found (behind.ne_cons unmarked), trees, behind⟩
  | scaled _ _ before last =>
    obtain ⟨mantissa', _, first, lefts, middle⟩ := before both
    obtain ⟨_, rfl, behind⟩ := middle.kept nofun
    obtain ⟨exponent', rest', second, rights, behind⟩ := last behind
    exact ⟨_, rest', .scaled first second, .scaled lefts rights, behind⟩
  | integer whole pointless =>
    cases both with
    | keep _ behind =>
      exact ⟨_, _, .integer whole (behind.ne_cons pointless), .literal whole none, behind⟩
    | point _ zeros _ behind => exact ⟨_, _, .decimal whole ⟨0, zeros⟩, .point whole zeros, behind⟩
  | decimal whole fraction =>
    cases both with
    | keep _ points =>
      obtain ⟨_, rfl, fractions⟩ := points.kept nofun
      obtain ⟨_, rfl, behind⟩ := fractions.kept nofun
      exact ⟨_, _, .decimal whole fraction, .literal whole (some fraction), behind⟩
    | point _ _ pointless _ => exact absurd rfl (pointless _)
  | enclosed enclosure admitted _ ih =>
    obtain ⟨_, rfl, inside⟩ := both.kept enclosure.opener_ne_number
    obtain ⟨e', _, found, trees, closings⟩ := ih inside
    obtain ⟨_, rfl, behind⟩ := closings.kept nofun
    exact ⟨_, _, .enclosed enclosure admitted found, enclosure.pointed_around trees, behind⟩
  | negation admitted _ ih =>
    obtain ⟨_, rfl, behind⟩ := both.kept nofun
    obtain ⟨e', rest', found, trees, behind⟩ := ih behind
    exact ⟨_, rest', .negation admitted found, .negation trees, behind⟩

/-- **Both writings fail alike.** -/
theorem Fails.pointed {rule : Rule} {depth : Nat} {tokens tokens' : List Token}
    {done : List Expression} {cause : SyntaxError} (h : Fails limit rule depth tokens done cause)
    (both : Token.Pointed tokens tokens') :
    ∃ done', Fails limit rule depth tokens' done' cause := by
  induction h generalizing tokens' with
  | first _ ih =>
    obtain ⟨_, fails⟩ := ih both
    exact ⟨_, .first fails⟩
  | next joins before _ ih =>
    obtain ⟨_, _, found, -, middle⟩ := before.pointed both
    obtain ⟨_, rfl, behind⟩ := middle.kept nofun
    obtain ⟨_, fails⟩ := ih behind
    exact ⟨_, .next joins found fails⟩
  | mantissa _ ih =>
    obtain ⟨_, fails⟩ := ih both
    exact ⟨_, .mantissa fails⟩
  | exponent left _ ih =>
    obtain ⟨_, _, found, -, middle⟩ := left.pointed both
    obtain ⟨_, rfl, behind⟩ := middle.kept nofun
    obtain ⟨_, fails⟩ := ih behind
    exact ⟨_, .exponent found fails⟩
  | missingDigits whole missing =>
    cases both with
    | keep _ points =>
      obtain ⟨_, rfl, behind⟩ := points.kept nofun
      exact ⟨_, .missingDigits whole fun fraction => behind.ne_cons (missing fraction)⟩
    | point _ _ pointless _ => exact absurd rfl (pointless _)
  | tooDeep limited reached nests =>
    cases both with
    | keep token _ => exact ⟨_, .tooDeep limited reached nests⟩
    | point => cases nests
  | inner enclosure admitted _ ih =>
    obtain ⟨_, rfl, inside⟩ := both.kept enclosure.opener_ne_number
    obtain ⟨_, fails⟩ := ih inside
    exact ⟨_, .inner enclosure admitted fails⟩
  | unclosed enclosure admitted inner unclosed =>
    obtain ⟨_, rfl, inside⟩ := both.kept enclosure.opener_ne_number
    obtain ⟨_, _, found, -, behind⟩ := inner.pointed inside
    exact ⟨_, .unclosed enclosure admitted found (behind.ne_cons unclosed)⟩
  | negation admitted _ ih =>
    obtain ⟨_, rfl, behind⟩ := both.kept nofun
    obtain ⟨_, fails⟩ := ih behind
    exact ⟨_, .negation admitted fails⟩
  | unexpected strange =>
    cases both with
    | keep token _ => exact ⟨_, .unexpected strange⟩
    | point => cases strange
  | unexpectedEnd =>
    cases both
    exact ⟨_, .unexpectedEnd⟩

end Grammar

/-! ### Values -/

/-- The second number has the value of the first one, and it is an integer only if that one is. -/
structure Number.Lowers (n n' : Number) : Prop where
  value : n'.value = n.value
  isInteger : n'.isInteger = true → n.isInteger = true

namespace Number

theorem Lowers.refl (n : Number) : n.Lowers n :=
  ⟨rfl, id⟩

/-- Apart from a division, an operation always has a value, for which the class does not matter. -/
theorem exists_combine {op : Operator} (undivided : op ≠ .div) (left right : Float) :
    ∃ value, ∀ integers, combine op integers left right = .ok value := by
  cases op with
  | div => exact absurd rfl undivided
  | _ => exact ⟨_, fun _ => rfl⟩

theorem Lowers.operation {op : Operator} (undivided : op ≠ .div) {x x' y y' : Number}
    (first : x.Lowers x') (second : y.Lowers y') :
    ∃ n n', x.operation op y = .ok n ∧ x'.operation op y' = .ok n' ∧ n.Lowers n' := by
  obtain ⟨value, combined⟩ := exists_combine undivided x.value y.value
  refine ⟨⟨value, x.isInteger && y.isInteger⟩, ⟨value, x'.isInteger && y'.isInteger⟩, ?_, ?_, rfl, ?_⟩
  · rw [Number.operation, combined]
    rfl
  · rw [Number.operation, first.value, second.value, combined]
    rfl
  · simp only [Bool.and_eq_true]
    exact And.imp first.isInteger second.isInteger

/-- A power of ten has its class from its value. -/
theorem Lowers.scaled_eq {x x' y y' : Number} (first : x.Lowers x') (second : y.Lowers y') :
    x'.scaled y' = x.scaled y := by
  simp only [scaled, first.value, second.value]

end Number

/-- **Without a division, the value is the same**, and the class can only become that of a
decimal. -/
theorem Expression.Pointed.exists_value {e e' : Expression} (h : e.Pointed e')
    (undivided : .operator .div ∉ e.tokens) :
    ∃ n n', e.value = .ok n ∧ e'.value = .ok n' ∧ n.Lowers n' := by
  induction h with
  | literal whole fraction => exact ⟨_, _, rfl, rfl, .refl _⟩
  | point whole zeros =>
    have same : (⟨0, zeros⟩ : Fraction).after whole = whole := if_pos rfl
    exact ⟨_, _, rfl, rfl, same, fun _ => rfl⟩
  | operation op _ _ first second =>
    simp only [tokens, List.mem_append, List.mem_cons, not_or] at undivided
    obtain ⟨left, other, right⟩ := undivided
    obtain ⟨x, x', hx, hx', lefts⟩ := first left
    obtain ⟨y, y', hy, hy', rights⟩ := second right
    have ne : op ≠ .div := by
      rintro rfl
      exact other rfl
    obtain ⟨n, n', performed, performed', lowers⟩ := lefts.operation ne rights
    exact ⟨n, n', value_operation_iff.mpr ⟨x, hx, y, hy, performed⟩,
      value_operation_iff.mpr ⟨x', hx', y', hy', performed'⟩, lowers⟩
  | scaled _ _ first second =>
    simp only [tokens, List.mem_append, List.mem_cons, not_or] at undivided
    obtain ⟨left, -, right⟩ := undivided
    obtain ⟨x, x', hx, hx', lefts⟩ := first left
    obtain ⟨y, y', hy, hy', rights⟩ := second right
    exact ⟨_, _, value_scaled_iff.mpr ⟨x, hx, y, hy, rfl⟩,
      value_scaled_iff.mpr ⟨x', hx', y', hy', lefts.scaled_eq rights⟩, .refl _⟩
  | application function _ inner =>
    simp only [tokens, List.cons_append, List.mem_cons, List.mem_append, not_or] at undivided
    obtain ⟨x, x', hx, hx', lowers⟩ := inner undivided.2.1
    exact ⟨_, _, value_application_iff.mpr ⟨x, hx, rfl⟩, value_application_iff.mpr ⟨x', hx', rfl⟩,
      congrArg function.apply lowers.value, id⟩
  | negation _ inner =>
    obtain ⟨x, x', hx, hx', lowers⟩ := inner (List.not_mem_of_not_mem_cons undivided)
    exact ⟨_, _, value_negation_iff.mpr ⟨x, hx, rfl⟩, value_negation_iff.mpr ⟨x', hx', rfl⟩,
      congrArg (- ·) lowers.value, lowers.isInteger⟩
  | parenthesized _ inner =>
    simp only [tokens, List.cons_append, List.mem_cons, List.mem_append, not_or] at undivided
    exact inner undivided.2.1

/-! ### Evaluation -/

/-- **Classes matter for divisions only.** If some integers of an expression without a division are
written as decimals, with a fraction of zero, then it has a value exactly if it had one before. The
value is the same, and it is an integer only if it was one before. -/
theorem evaluate_pointed {tokens tokens' : List Token} (h : Token.Pointed tokens tokens')
    (undivided : .operator .div ∉ tokens) :
    (∀ n, evaluate tokens = .ok (n, []) →
      ∃ n', evaluate tokens' = .ok (n', []) ∧ n'.value = n.value ∧
        (n'.isInteger = true → n.isInteger = true)) ∧
    ∀ n', evaluate tokens' = .ok (n', []) → ∃ n, evaluate tokens = .ok (n, []) := by
  constructor
  · intro n evaluated
    obtain ⟨e, found, valued⟩ := reads_of_evaluate evaluated
    obtain ⟨e', _, found', trees, _ | _⟩ := found.pointed h
    obtain ⟨_, n', same, valued', lowers⟩ := trees.exists_value (found.not_mem_tokens undivided)
    rw [valued] at same
    cases same
    refine ⟨n', ?_, lowers.value, lowers.isInteger⟩
    rw [evaluate_of_reads found', valued']
    rfl
  · intro n' evaluated
    rcases reads_or_fails (some depthLimit) (.chain .additive) 0 tokens with
      ⟨e, rest, found⟩ | ⟨done, cause, fails⟩
    · obtain ⟨e', rest', found', trees, behind⟩ := found.pointed h
      obtain ⟨n, _, valued, valued', -⟩ := trees.exists_value (found.not_mem_tokens undivided)
      rw [evaluate_of_reads found', valued'] at evaluated
      cases evaluated
      cases behind
      refine ⟨n, ?_⟩
      rw [evaluate_of_reads found, valued]
      rfl
    · obtain ⟨_, fails⟩ := fails.pointed h
      exact absurd evaluated (evaluate_ne_ok_of_fails fails)

/-- With a point behind its first number, `1+2` has the same value. -/
theorem evaluate_pointed_sum :
    evaluate [.number 1.0, .operator .add, .number 2.0] = .ok (⟨1.0 + 2.0, true⟩, []) ∧
      ∃ n, evaluate [.number 1.0, .point, .fraction ⟨0, 0⟩, .operator .add, .number 2.0] =
          .ok (n, []) ∧ n.value = 1.0 + 2.0 := by
  generalize (1.0 : Float) = x, (2.0 : Float) = y
  have built : (read Expression.builder (some depthLimit)
      [.number x, .operator .add, .number y]).run () =
        .ok (.operation .add (.literal x none) (.literal y none), []) () := by
    cbv
  have evaluated : evaluate [.number x, .operator .add, .number y] = .ok (⟨x + y, true⟩, []) :=
    evaluate_of_reads (reads_of_read_builder built)
  have pointed : Token.Pointed [.number x, .operator .add, .number y]
      [.number x, .point, .fraction ⟨0, 0⟩, .operator .add, .number y] :=
    .point x 0 (by simp) (.keep _ (.keep _ .nil))
  obtain ⟨n, evaluated', same, -⟩ := (evaluate_pointed pointed (by simp)).1 _ evaluated
  exact ⟨evaluated, n, evaluated', same⟩

end Calculator
