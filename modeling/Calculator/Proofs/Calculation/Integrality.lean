import Calculator.Proofs.Binary.Overflow
import Calculator.Proofs.Calculation.Classification
import Calculator.Proofs.Calculation.Composition

/-!
# Integers that are not whole

The class of a number says how the number came about, not what its value is. This module says where
the value of an integer can stop being whole.

Most operations on whole integers have a whole value, quotients among them, because these are
rounded down. The exceptions are few (`Expression.Departs`): a run of digits, a sum, a difference or
a product can be too large, a remainder by zero is not a number, and of a power nothing is known. If
the value of a text is an integer and not whole, one of them is in the text, outside of all powers
of ten. What is inside a power of ten has no part in it, because the class of such a power is read
off its value.

In particular an infinite integer can be traced back to a node whose operands are not infinite
(`Expression.Overflows`), and an integer with a fractional part to a power that has one.

Main statement: `integral_of_isInteger`.
-/

namespace Calculator

open Grammar

/-! ### Literals -/

/-- A lexeme that becomes a number is a run of digits. -/
theorem Lexeme.eq_toFloat_of_number {previous : Option Token} {lexeme : Lexeme} {x : Float}
    (labelled : lexeme.token? previous = some (.number x)) : ∃ run : DigitRun, x = run.toFloat := by
  cases lexeme with
  | digits run =>
    refine ⟨run, ?_⟩
    -- Behind a point, the digits are a fraction and not a number.
    simp only [token?, Option.some.injEq] at labelled
    split at labelled
    · cases labelled
    · cases labelled
      rfl
  | operator op =>
    cases op with
    | sub =>
      simp only [token?, Option.some.injEq] at labelled
      split at labelled <;> cases labelled
    | _ => cases labelled
  | _ => cases labelled

theorem Lexeme.exists_run_of_mem_tokens {previous : Option Token} {lexemes : List Lexeme}
    {x : Float} (member : .number x ∈ tokens previous lexemes) :
    ∃ run : DigitRun, x = run.toFloat := by
  induction lexemes generalizing previous with
  | nil => cases member
  | cons lexeme rest ih =>
    rw [tokens] at member
    cases labelled : lexeme.token? previous with
    | none =>
      rw [labelled] at member
      exact ih member
    | some token =>
      rw [labelled] at member
      rcases List.mem_cons.mp member with same | later
      · rw [← same] at labelled
        exact eq_toFloat_of_number labelled
      · exact ih later

/-- **The numbers among the tokens of a text are runs of digits.** -/
theorem exists_run_of_tokenize {source : String} {tokens : List Token} {x : Float}
    (scanned : tokenize source = .ok tokens) (member : .number x ∈ tokens) :
    ∃ run : DigitRun, x = run.toFloat := by
  obtain ⟨-, rfl⟩ := tokenize_eq_ok_iff.mp scanned
  exact Lexeme.exists_run_of_mem_tokens member

/-- The value of a run of digits is whole unless the run is too long. -/
theorem DigitRun.isWhole_or_isInf (run : DigitRun) :
    Binary.isWhole run.toFloat = true ∨ run.toFloat.isInf = true :=
  Binary.isWhole_or_isInf_ofNat run.value

/-! ### Operations -/

/-- How the value of an operation on whole integers can fail to be whole. -/
def Operator.Departs (op : Operator) (right value : Float) : Prop :=
  match op with
  | .add | .sub | .mul => value.isInf = true
  | .div => False
  | .mod => (right == 0.0) = true ∧ value.isNaN = true
  | .pow => Binary.isWhole value = false

namespace Number

theorem eq_integer {number : Number} (integer : number.isInteger = true) :
    number = .integer number.value := by
  obtain ⟨value, isInteger⟩ := number
  cases integer
  rfl

/-- The quotient of integers is rounded down. -/
theorem eq_floor_of_combine {x y z : Float} (h : combine .div true x y = .ok z) :
    (y == 0.0) = false ∧ z = Binary.floor (x / y) := by
  rw [combine] at h
  split at h
  · cases h
  · next nonzero =>
    cases h
    exact ⟨Bool.eq_false_iff.mpr nonzero, rfl⟩

/-- **Operations on whole integers.** -/
theorem departs_of_combine {op : Operator} {x y z : Float} (h : combine op true x y = .ok z)
    (hx : Binary.isWhole x = true) (hy : Binary.isWhole y = true)
    (fails : Binary.isWhole z = false) : op.Departs y z := by
  rw [← Bool.not_eq_true] at fails
  cases op with
  | add =>
    cases h
    exact (Binary.isWhole_or_isInf_add hx hy).resolve_left fails
  | sub =>
    cases h
    exact (Binary.isWhole_or_isInf_sub hx hy).resolve_left fails
  | mul =>
    cases h
    exact (Binary.isWhole_or_isInf_mul hx hy).resolve_left fails
  | div =>
    obtain ⟨nonzero, rfl⟩ := eq_floor_of_combine h
    exact fails (Binary.isWhole_floor_div hx hy nonzero)
  | mod =>
    cases h
    by_cases zero : (y == 0.0) = true
    · exact ⟨zero, Binary.isNaN_remainder_of_zero x zero⟩
    · exact absurd (Binary.isWhole_remainder hx hy (Bool.eq_false_iff.mpr zero)) fails
  | pow => exact Bool.eq_false_iff.mpr fails

/-- A remainder is never infinite. -/
theorem ne_mod_of_combine {op : Operator} {x y z : Float} (h : combine op true x y = .ok z)
    (infinite : z.isInf = true) : op ≠ .mod := by
  rintro rfl
  cases h
  rw [Binary.isInf_remainder] at infinite
  cases infinite

/-- Only a power of integers without a fractional part can have one. -/
theorem eq_pow_of_combine {op : Operator} {x y z : Float} (h : combine op true x y = .ok z)
    (hx : Binary.Integral x) (hy : Binary.Integral y) (fails : ¬ Binary.Integral z) :
    op = .pow := by
  cases op with
  | add =>
    cases h
    exact absurd (hx.add hy) fails
  | sub =>
    cases h
    exact absurd (hx.sub hy) fails
  | mul =>
    cases h
    exact absurd (hx.mul hy) fails
  | div =>
    obtain ⟨-, rfl⟩ := eq_floor_of_combine h
    exact absurd (Binary.integral_floor _) fails
  | mod =>
    cases h
    exact absurd (hx.remainder hy) fails
  | pow => rfl

end Number

/-! ### Where a property of integers begins -/

namespace Expression

/-- A property of integers begins at a literal that has it, and at an operation that has it although
its operands do not. -/
inductive Begins (P : Float → Prop) : Expression → Prop where
  | literal {whole : Float} (has : P whole) : Begins P (.literal whole none)
  | operation {op : Operator} {left right : Expression} {x y z : Float}
      (leftValue : left.value = .ok (.integer x)) (rightValue : right.value = .ok (.integer y))
      (value : (operation op left right).value = .ok (.integer z))
      (hx : ¬ P x) (hy : ¬ P y) (hz : P z) : Begins P (.operation op left right)

/-- **A property of integers begins somewhere outside of all powers of ten**, if opposite numbers do
not differ in it and no whole number has it. -/
theorem exists_begins {P : Float → Prop} (opposite : ∀ x, P (-x) → P x)
    (noWhole : ∀ x, Binary.isWhole x = true → ¬ P x) {e : Expression} {number : Number}
    (h : e.value = .ok number) (integer : number.isInteger = true) (has : P number.value) :
    ∃ node ∈ e.outerNodes, node.Begins P := by
  induction e generalizing number with
  | literal whole fraction =>
    cases h
    cases fraction with
    | none => exact ⟨_, List.mem_cons_self, .literal has⟩
    | some fraction =>
      -- A decimal literal is no integer.
      cases integer
  | operation op left right ihLeft ihRight =>
    obtain ⟨l, leftValue, r, rightValue, result⟩ := value_operation_iff.mp h
    -- The result is an integer only if both operands are.
    have both := integer
    rw [Number.isInteger_of_operation result, Bool.and_eq_true] at both
    by_cases hl : P l.value
    · obtain ⟨node, member, begins⟩ := ihLeft leftValue both.1 hl
      exact ⟨node, List.mem_cons_of_mem _ (List.mem_append_left _ member), begins⟩
    · by_cases hr : P r.value
      · obtain ⟨node, member, begins⟩ := ihRight rightValue both.2 hr
        exact ⟨node, List.mem_cons_of_mem _ (List.mem_append_right _ member), begins⟩
      · rw [Number.eq_integer integer] at h
        rw [Number.eq_integer both.1] at leftValue
        rw [Number.eq_integer both.2] at rightValue
        exact ⟨_, List.mem_cons_self, .operation leftValue rightValue h hl hr has⟩
  | scaled mantissa exponent =>
    -- The class of a power of ten is read off its value.
    obtain ⟨x, -, y, -, rfl⟩ := value_scaled_iff.mp h
    exact absurd has (noWhole _ integer)
  | application function argument =>
    -- The value of a function is no integer.
    obtain ⟨x, -, rfl⟩ := value_application_iff.mp h
    cases integer
  | negation operand ih =>
    obtain ⟨x, operandValue, rfl⟩ := value_negation_iff.mp h
    obtain ⟨node, member, begins⟩ := ih operandValue integer (opposite _ has)
    exact ⟨node, List.mem_cons_of_mem _ member, begins⟩
  | parenthesized inner ih =>
    obtain ⟨node, member, begins⟩ := ih h integer has
    exact ⟨node, List.mem_cons_of_mem _ member, begins⟩

/-- The literals outside of all powers of ten are among the tokens. -/
theorem number_mem_tokens {e : Expression} {whole : Float}
    (member : .literal whole none ∈ e.outerNodes) : .number whole ∈ e.tokens := by
  induction e with
  | literal whole' fraction =>
    cases List.mem_singleton.mp member
    exact List.mem_cons_self
  | operation op left right ihLeft ihRight =>
    simp only [outerNodes, List.mem_cons, List.mem_append, reduceCtorEq, false_or] at member
    rcases member with inside | inside
    · exact List.mem_append_left _ (ihLeft inside)
    · exact List.mem_append_right _ (List.mem_cons_of_mem _ (ihRight inside))
  | scaled mantissa exponent => cases List.mem_singleton.mp member
  | application function argument ih | parenthesized inner ih =>
    simp only [outerNodes, List.mem_cons, reduceCtorEq, false_or] at member
    exact List.mem_append_left _ (List.mem_cons_of_mem _ (ih member))
  | negation operand ih =>
    simp only [outerNodes, List.mem_cons, reduceCtorEq, false_or] at member
    exact List.mem_cons_of_mem _ (ih member)

/-! ### Three such properties -/

/-- The value that an operation computes from the values of its operands. -/
theorem combine_of_value {op : Operator} {left right : Expression} {x y z : Float}
    (leftValue : left.value = .ok (.integer x)) (rightValue : right.value = .ok (.integer y))
    (value : (operation op left right).value = .ok (.integer z)) :
    Number.combine op true x y = .ok z := by
  obtain ⟨l, leftValue', r, rightValue', result⟩ := value_operation_iff.mp value
  cases leftValue.symm.trans leftValue'
  cases rightValue.symm.trans rightValue'
  have mapped : (Number.combine op true x y).map (Number.mk · true) = .ok (.integer z) := result
  cases combined : Number.combine op true x y with
  | error cause =>
    rw [combined] at mapped
    cases mapped
  | ok value =>
    rw [combined] at mapped
    cases mapped
    rfl

/-- A literal that is too large, or an operation on whole integers whose value is not whole. -/
def Departs : Expression → Prop
  | .literal whole none => whole.isInf = true
  | .operation op left right => ∃ x y z, left.value = .ok (.integer x) ∧
      right.value = .ok (.integer y) ∧ (operation op left right).value = .ok (.integer z) ∧
      Binary.isWhole x = true ∧ Binary.isWhole y = true ∧ op.Departs y z
  | _ => False

/-- A literal that is too large, or an operation on integers that is infinite although its operands
are not. It is no remainder. -/
def Overflows : Expression → Prop
  | .literal whole none => whole.isInf = true
  | .operation op left right => op ≠ .mod ∧ ∃ x y z, left.value = .ok (.integer x) ∧
      right.value = .ok (.integer y) ∧ (operation op left right).value = .ok (.integer z) ∧
      x.isInf = false ∧ y.isInf = false ∧ z.isInf = true
  | _ => False

theorem Begins.departs {node : Expression} (h : node.Begins (Binary.isWhole · = false))
    (runs : ∀ whole, node = .literal whole none → ∃ run : DigitRun, whole = run.toFloat) :
    node.Departs := by
  cases h with
  | literal fails =>
    obtain ⟨run, rfl⟩ := runs _ rfl
    refine run.isWhole_or_isInf.resolve_left ?_
    rw [fails]
    exact Bool.noConfusion
  | operation leftValue rightValue value hx hy fails =>
    rw [Bool.not_eq_false] at hx hy
    have combined := combine_of_value leftValue rightValue value
    exact ⟨_, _, _, leftValue, rightValue, value, hx, hy,
      Number.departs_of_combine combined hx hy fails⟩

theorem Begins.overflows {node : Expression} (h : node.Begins (·.isInf = true)) :
    node.Overflows := by
  cases h with
  | literal infinite => exact infinite
  | operation leftValue rightValue value hx hy infinite =>
    rw [Bool.not_eq_true] at hx hy
    have combined := combine_of_value leftValue rightValue value
    exact ⟨Number.ne_mod_of_combine combined infinite, _, _, _, leftValue, rightValue, value, hx,
      hy, infinite⟩

theorem Begins.exists_power {node : Expression} (h : node.Begins (¬ Binary.Integral ·))
    (runs : ∀ whole, node = .literal whole none → ∃ run : DigitRun, whole = run.toFloat) :
    ∃ left right z, node = .operation .pow left right ∧ node.value = .ok (.integer z) ∧
      ¬ Binary.Integral z := by
  cases h with
  | literal fails =>
    obtain ⟨run, rfl⟩ := runs _ rfl
    exact absurd (Binary.integral_ofNat run.value) fails
  | operation leftValue rightValue value hx hy fails =>
    rw [not_not] at hx hy
    have combined := combine_of_value leftValue rightValue value
    obtain rfl := Number.eq_pow_of_combine combined hx hy fails
    exact ⟨_, _, _, rfl, value, fails⟩

end Expression

/-! ### Texts -/

/-- The literals of a text are runs of digits. -/
theorem exists_run_of_mem_outerNodes {source : String} {e : Expression}
    (parsed : parse source = .ok e) {node : Expression} (member : node ∈ e.outerNodes)
    (whole : Float) (same : node = .literal whole none) :
    ∃ run : DigitRun, whole = run.toFloat := by
  obtain ⟨scanned, -⟩ := parse_eq_ok_iff.mp parsed
  exact exists_run_of_tokenize scanned (Expression.number_mem_tokens (same ▸ member))

/-- **Where integers stop being whole.** If the value of a text is an integer, what is outside of
all powers of ten in the text tells how far it is from a whole number:

* If the value is not whole, there is a literal that is too large, a sum, a difference or a product
  of whole numbers that is too large, a remainder of whole numbers by zero, or a power of whole
  numbers that is not whole.
* If it is infinite, there is a literal that is too large, or an operation other than a remainder
  that is infinite although its operands are not.
* If it is finite and has a fractional part, there is a power that is finite and has one. -/
theorem integral_of_isInteger {source : String} {number : Number}
    (calculated : calculate source = .ok number) (integer : number.isInteger = true) :
    ∃ e, parse source = .ok e ∧
      (Binary.isWhole number.value = true ∨ ∃ node ∈ e.outerNodes, node.Departs) ∧
      (number.value.isInf = true → ∃ node ∈ e.outerNodes, node.Overflows) ∧
      (number.value.isFinite = true → Binary.isWhole number.value = false →
        ∃ left right result, .operation .pow left right ∈ e.outerNodes ∧
          (Expression.operation .pow left right).value = .ok result ∧
          result.value.isFinite = true ∧ Binary.isWhole result.value = false) := by
  obtain ⟨e, parsed, value⟩ := parse_of_calculate calculated
  refine ⟨e, parsed, ?_, ?_, ?_⟩
  · by_cases whole : Binary.isWhole number.value = true
    · exact .inl whole
    · obtain ⟨node, member, begins⟩ := Expression.exists_begins
        (P := (Binary.isWhole · = false)) (fun x => (Binary.isWhole_neg x).symm.trans)
        (fun x h => Bool.not_eq_false _ ▸ h) value integer (Bool.eq_false_iff.mpr whole)
      exact .inr ⟨node, member, begins.departs (exists_run_of_mem_outerNodes parsed member)⟩
  · intro infinite
    obtain ⟨node, member, begins⟩ := Expression.exists_begins
      (P := (·.isInf = true)) (fun x => (Binary.isInf_neg x).symm.trans)
      (fun x h => Bool.eq_false_iff.mp (Binary.isInf_of_isWhole h)) value integer infinite
    exact ⟨node, member, begins.overflows⟩
  · intro finite fractional
    have fails : ¬ Binary.Integral number.value := by
      rw [Binary.integral_iff, finite, fractional]
      simp
    obtain ⟨node, member, begins⟩ := Expression.exists_begins
      (P := (¬ Binary.Integral ·)) (fun x => mt Binary.Integral.neg)
      (fun x h => not_not.mpr (Binary.integral_of_isWhole h)) value integer fails
    obtain ⟨left, right, z, rfl, result, hz⟩ :=
      begins.exists_power (exists_run_of_mem_outerNodes parsed member)
    rw [Binary.integral_iff, not_or, Bool.not_eq_false, Bool.not_eq_true] at hz
    exact ⟨left, right, .integer z, member, result, hz⟩

/-- The remainder `5%0` is an integer that is not whole, and the remainder is where that begins. -/
theorem integral_of_isInteger_remainder :
    calculate "5%0" = .ok (.integer (0.0 / 0.0)) ∧
      parse "5%0" = .ok (.operation .mod (.literal 5.0 none) (.literal 0.0 none)) ∧
      ∃ node ∈ (Expression.operation .mod (.literal 5.0 none) (.literal 0.0 none)).outerNodes,
        node.Departs := by
  have calculated : calculate "5%0" = .ok (.integer (0.0 / 0.0)) := by decide +kernel
  have parsed : parse "5%0" = .ok (.operation .mod (.literal 5.0 none) (.literal 0.0 none)) := by
    decide +kernel
  obtain ⟨e, parsed', departs, -⟩ := integral_of_isInteger calculated rfl
  cases parsed.symm.trans parsed'
  refine ⟨calculated, parsed, departs.resolve_left ?_⟩
  decide +kernel

/-! ### Integers that are not whole -/

/-- **A run of digits that is beyond the range of floats** is an integer, and it is infinite. -/
theorem calculate_of_large {run : DigitRun} (large : 1024 ≤ run.value.log2) :
    ∃ number, calculate (String.ofList run.chars) = .ok number ∧ number.isInteger = true ∧
      Binary.Exact.ofFloat number.value = .infinite false := by
  refine ⟨_, calculate_digits run, rfl, ?_⟩
  exact Binary.ofFloat_ofNat_of_large large

/-- **Integers that are not whole.** A one with 309 zeroes is an integer, and its value is infinite.
So is `2^-1`, and it has the value of the power, which has a fractional part if it is one half. -/
theorem integers_not_whole :
    (∃ number, calculate (String.ofList ('1' :: List.replicate 309 '0')) = .ok number ∧
      number.isInteger = true ∧ number.value.isNaN = false ∧
      Binary.isWhole number.value = false) ∧
    ∃ number, calculate "2^-1" = .ok number ∧
      number.isInteger = true ∧ number.value = Float.pow 2.0 (-1.0) ∧
      (Float.pow 2.0 (-1.0) = 0.5 →
        number.value.isNaN = false ∧ Binary.isWhole number.value = false) := by
  constructor
  · have digits : ∀ c ∈ '1' :: List.replicate 309 '0', c.isDigit = true := by
      intro c member
      rcases List.mem_cons.mp member with rfl | zero
      · rfl
      · rw [List.eq_of_mem_replicate zero]
        rfl
    have bits : 1024 ≤ (Nat.ofDigitChars 10 ('1' :: List.replicate 309 '0') 0).log2 := by
      decide +kernel
    let run : DigitRun := ⟨'1' :: List.replicate 309 '0', List.cons_ne_nil _ _, digits⟩
    have large : 1024 ≤ run.value.log2 := bits
    obtain ⟨number, calculated, integer, infinite⟩ := calculate_of_large large
    refine ⟨number, calculated, integer, ?_, ?_⟩
    · rw [← Bool.not_eq_true, Binary.isNaN_iff, infinite]
      exact Binary.Exact.noConfusion
    · rw [Binary.isWhole, infinite]
  · have parsed : parse "2^-1" =
        .ok (.operation .pow (.literal 2.0 none) (.negation (.literal 1.0 none))) := by
      decide +kernel
    refine ⟨.integer (Float.pow 2.0 (-1.0)), ?_, rfl, rfl, ?_⟩
    · rw [calculate_of_parse parsed]
      rfl
    · intro half
      rw [Number.value_integer, half]
      decide +kernel

end Calculator
