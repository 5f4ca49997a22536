import Calculator.Proofs.Binary.Integral
import Calculator.Proofs.Calculation.Tree
import Calculator.Proofs.Expression.Printing
import Calculator.Proofs.Token.Concatenation

/-!
# Which results are integers

The class of a number is handed on from operands to results, with two exceptions: the value of a
function is a decimal whatever its argument is, and a power of ten has the class of its value. So
the class of a text's value is settled by the nodes of its tree that are not inside a power of ten,
`Expression.outerNodes`: it is an integer unless one of them makes it a decimal
(`Expression.isInteger_iff`).

Without powers of ten, all nodes of the tree are outer nodes, and what makes a decimal shows in the
text. Decimal literals, powers of ten and calls of functions each have a token of their own, and
that token has a lexeme with characters of its own (`Mark.chars`). So the nodes of each of these
three kinds can be told from the tokens (`Expression.exists_mark_iff`) and the tokens from the
characters (`tokenize_mark`).
-/

namespace Calculator

open Grammar

/-! ### Tokens and characters -/

namespace Lexeme

/-- The characters of a text are those of its lexemes. -/
theorem mem_chars_iff {chars : List Char} (whole : (split chars).2 = []) (c : Char) :
    c ∈ chars ↔ ∃ lexeme ∈ (split chars).1, c ∈ lexeme.chars := by
  conv_lhs => rw [← flatMap_chars_split chars, whole, List.append_nil]
  exact List.mem_flatMap

/-- A lexeme of a text is a part of the text. -/
theorem chars_infix {chars : List Char} (whole : (split chars).2 = []) {lexeme : Lexeme}
    (member : lexeme ∈ (split chars).1) : lexeme.chars <:+: chars := by
  obtain ⟨before, after, parts⟩ := List.append_of_mem member
  have text := flatMap_chars_split chars
  rw [whole, parts, List.flatMap_append, List.flatMap_cons, List.append_nil] at text
  exact ⟨before.flatMap Lexeme.chars, after.flatMap Lexeme.chars, by rw [← text, List.append_assoc]⟩

end Lexeme

/-- The constructs that a text shows by single characters. -/
inductive Mark where
  /-- A decimal literal, by its point. -/
  | point
  /-- A power of ten, by its exponent mark. -/
  | exponent
  /-- A call of a function, by its name. -/
  | call
  deriving DecidableEq

/-- Characters that are in the lexemes of a mark and in no other lexemes. -/
def Mark.chars : Mark → List Char
  | .point => ['.']
  | .exponent => ['E', 'e']
  | .call => ['i', 'c', 't']

/-- The mark that a token is. -/
def Token.mark? : Token → Option Mark
  | .point => some .point
  | .exponentMark => some .exponent
  | .function _ => some .call
  | _ => none

theorem Mark.not_isDigit {mark : Mark} {c : Char} (h : c ∈ mark.chars) : c.isDigit = false := by
  have none : ∀ d ∈ mark.chars, d.isDigit = false := by cases mark <;> simp [chars]
  exact none c h

theorem Mark.not_isBlank {mark : Mark} {c : Char} (h : c ∈ mark.chars) : isBlank c = false := by
  have none : ∀ d ∈ mark.chars, isBlank d = false := by cases mark <;> simp [chars, isBlank]
  exact none c h

theorem Mark.not_in_blank (mark : Mark) {c : Char} (blank : isBlank c = true) :
    ¬ ∃ d ∈ (Lexeme.blank c blank).chars, d ∈ mark.chars := by
  rintro ⟨d, inside, marked⟩
  obtain rfl : d = c := List.mem_singleton.mp inside
  rw [not_isBlank marked] at blank
  cases blank

theorem Mark.not_in_digits (mark : Mark) (run : DigitRun) :
    ¬ ∃ c ∈ (Lexeme.digits run).chars, c ∈ mark.chars := by
  rintro ⟨c, inside, marked⟩
  have digit := run.isDigit c inside
  rw [not_isDigit marked] at digit
  cases digit

theorem Mark.not_in_operator (mark : Mark) (op : Operator) :
    ¬ ∃ c ∈ (Lexeme.operator op).chars, c ∈ mark.chars := by
  cases op <;> cases mark <;> simp [chars, Lexeme.chars, Operator.symbol]

/-- A lexeme becomes a mark if it has one of the characters, whatever is in front of it. -/
theorem Lexeme.token?_mark (previous : Option Token) (lexeme : Lexeme) (mark : Mark) :
    (∃ token, lexeme.token? previous = some token ∧ token.mark? = some mark) ↔
      ∃ c ∈ lexeme.chars, c ∈ mark.chars := by
  cases lexeme with
  | blank c blank => exact iff_of_false (by simp [token?]) (mark.not_in_blank blank)
  | digits run =>
    refine iff_of_false ?_ (mark.not_in_digits run)
    -- A run of digits is a number or a fraction.
    simp only [token?]
    split <;> simp [Token.mark?]
  | operator op =>
    refine iff_of_false ?_ (mark.not_in_operator op)
    -- A minus is an operator or a negation.
    cases op with
    | sub =>
      simp only [token?]
      split <;> simp [Token.mark?]
    | _ => simp [token?, Token.mark?]
  -- All other lexemes have fixed characters and become one token each.
  | function f =>
    cases f <;> cases mark <;> simp [token?, Token.mark?, chars, Mark.chars, Trig.name]
  | exponentMark capital =>
    cases capital <;> cases mark <;> simp [token?, Token.mark?, chars, Mark.chars]
  | point | opening | closing =>
    cases mark <;> simp [token?, Token.mark?, chars, Mark.chars]

/-- The letters of a call are only in the names of functions. -/
theorem Lexeme.eq_function_of_letter {lexeme : Lexeme}
    (h : ∃ c ∈ lexeme.chars, c ∈ Mark.call.chars) : ∃ f, lexeme = .function f := by
  cases lexeme with
  | function f => exact ⟨f, rfl⟩
  | blank c blank => exact absurd h (Mark.call.not_in_blank blank)
  | digits run => exact absurd h (Mark.call.not_in_digits run)
  | operator op => exact absurd h (Mark.call.not_in_operator op)
  | exponentMark capital => cases capital <;> simp [chars, Mark.chars] at h
  | point | opening | closing => simp [chars, Mark.chars] at h

theorem Lexeme.exists_mark_iff (mark : Mark) (previous : Option Token) (lexemes : List Lexeme) :
    (∃ token ∈ tokens previous lexemes, token.mark? = some mark) ↔
      ∃ lexeme ∈ lexemes, ∃ c ∈ lexeme.chars, c ∈ mark.chars := by
  induction lexemes generalizing previous with
  | nil => simp [tokens]
  | cons lexeme rest ih =>
    have here := token?_mark previous lexeme mark
    rw [tokens, List.exists_mem_cons_iff, ← here]
    cases found : lexeme.token? previous with
    | none => simpa using ih previous
    | some token => simpa using or_congr_right (ih (some token))

/-- **A text has a mark among its tokens** if it has one of the mark's characters. -/
theorem tokenize_mark {source : String} {tokens : List Token}
    (scanned : tokenize source = .ok tokens) (mark : Mark) :
    (∃ token ∈ tokens, token.mark? = some mark) ↔ ∃ c ∈ source.toList, c ∈ mark.chars := by
  obtain ⟨whole, rfl⟩ := tokenize_eq_ok_iff.mp scanned
  rw [Lexeme.exists_mark_iff]
  constructor
  · rintro ⟨lexeme, member, c, inside, marked⟩
    exact ⟨c, (Lexeme.mem_chars_iff whole c).mpr ⟨lexeme, member, inside⟩, marked⟩
  · rintro ⟨c, inside, marked⟩
    obtain ⟨lexeme, member, inside⟩ := (Lexeme.mem_chars_iff whole c).mp inside
    exact ⟨lexeme, member, c, inside, marked⟩

/-- A text with a call among its tokens has the name of a function and a parenthesis in it. -/
theorem exists_name_infix_iff {source : String} {tokens : List Token}
    (scanned : tokenize source = .ok tokens) :
    (∃ f : Trig, (f.name ++ "(").toList <:+: source.toList) ↔
      ∃ token ∈ tokens, token.mark? = some .call := by
  rw [tokenize_mark scanned]
  constructor
  · rintro ⟨f, inside⟩
    have letter : ∃ c ∈ (f.name ++ "(").toList, c ∈ Mark.call.chars := by
      cases f <;> simp [Trig.name, Mark.chars]
    obtain ⟨c, member, marked⟩ := letter
    exact ⟨c, inside.subset member, marked⟩
  · rintro ⟨c, inside, marked⟩
    obtain ⟨whole, -⟩ := tokenize_eq_ok_iff.mp scanned
    obtain ⟨lexeme, member, inside⟩ := (Lexeme.mem_chars_iff whole c).mp inside
    obtain ⟨f, rfl⟩ := Lexeme.eq_function_of_letter ⟨c, inside, marked⟩
    refine ⟨f, ?_⟩
    have name : (f.name ++ "(").toList = (Lexeme.function f).chars := by
      rw [String.toList_append]
      rfl
    rw [name]
    exact Lexeme.chars_infix whole member

/-- A binary operation that has a value is an integer if both operands are. -/
theorem Number.isInteger_of_operation {op : Operator} {left right number : Number}
    (h : left.operation op right = .ok number) :
    number.isInteger = (left.isInteger && right.isInteger) := by
  unfold Number.operation at h
  dsimp only at h
  cases combined : combine op (left.isInteger && right.isInteger) left.value right.value with
  | error cause =>
    rw [combined] at h
    cases h
  | ok value =>
    rw [combined] at h
    cases h
    rfl

/-! ### Tokens and nodes -/

namespace Expression

/-- The mark that a node shows in the text. -/
def mark? : Expression → Option Mark
  | .literal _ (some _) => some .point
  | .scaled _ _ => some .exponent
  | .application _ _ => some .call
  | _ => none

/-- Two operands have a mark among their tokens or the token between them is one. -/
theorem exists_mark_between_iff (left right : List Token) (token : Token) (mark : Mark) :
    (∃ t ∈ left ++ token :: right, t.mark? = some mark) ↔ token.mark? = some mark ∨
      (∃ t ∈ left, t.mark? = some mark) ∨ ∃ t ∈ right, t.mark? = some mark := by
  simp only [List.mem_append, List.exists_mem_cons_iff, or_and_right, exists_or]
  exact or_left_comm

/-- The closing parenthesis of an enclosure is no mark. -/
theorem exists_mark_around_iff (enclosure : Enclosure) (inner : List Token) (mark : Mark) :
    (∃ t ∈ enclosure.opener :: inner ++ [.closing], t.mark? = some mark) ↔
      enclosure.opener.mark? = some mark ∨ ∃ t ∈ inner, t.mark? = some mark := by
  have closing : Token.closing.mark? ≠ some mark := (Option.some_ne_none mark).symm
  simp [closing]

/-- **A tree has a mark among its tokens** if one of its nodes shows it. -/
theorem exists_mark_iff (e : Expression) (mark : Mark) :
    (∃ token ∈ e.tokens, token.mark? = some mark) ↔ ∃ part ∈ e.parts, part.mark? = some mark := by
  -- Of the tokens that belong to no operand, one is the mark that the node shows.
  induction e with
  | literal whole fraction =>
    cases fraction <;> simp [tokens, parts, mark?, Token.mark?]
  | operation op left right ihLeft ihRight =>
    have own : (Token.operator op).mark? = (operation op left right).mark? := rfl
    rw [tokens, exists_mark_between_iff, ihLeft, ihRight, own]
    simp only [parts, List.exists_mem_cons_iff, List.mem_append, or_and_right, exists_or]
  | scaled mantissa exponent ihMantissa ihExponent =>
    have own : Token.exponentMark.mark? = (scaled mantissa exponent).mark? := rfl
    rw [tokens, exists_mark_between_iff, ihMantissa, ihExponent, own]
    simp only [parts, List.exists_mem_cons_iff, List.mem_append, or_and_right, exists_or]
  | application function argument ih =>
    have own : (Token.function function).mark? = (application function argument).mark? := rfl
    have around := exists_mark_around_iff (.argument function) argument.tokens mark
    rw [ih] at around
    rw [parts, List.exists_mem_cons_iff, ← own]
    exact around
  | negation operand ih =>
    have own : Token.negation.mark? = (negation operand).mark? := rfl
    rw [tokens, parts, List.exists_mem_cons_iff, List.exists_mem_cons_iff, ih, own]
  | parenthesized inner ih =>
    have own : Token.opening.mark? = (parenthesized inner).mark? := rfl
    have around := exists_mark_around_iff .parentheses inner.tokens mark
    rw [ih] at around
    rw [parts, List.exists_mem_cons_iff, ← own]
    exact around

/-- The nodes of a tree that is cut at its outermost powers of ten. These are among the nodes, and
what is inside them is not. -/
def outerNodes : Expression → List Expression
  | e@(.literal _ _) => [e]
  | e@(.operation _ left right) => e :: (left.outerNodes ++ right.outerNodes)
  | e@(.scaled _ _) => [e]
  | e@(.application _ argument) => e :: argument.outerNodes
  | e@(.negation operand) => e :: operand.outerNodes
  | e@(.parenthesized inner) => e :: inner.outerNodes

/-- Without powers of ten, nothing is cut. -/
theorem outerNodes_eq_parts {e : Expression} (h : ∀ part ∈ e.parts, part.mark? ≠ some .exponent) :
    e.outerNodes = e.parts := by
  induction e with
  | literal _ _ => rfl
  | operation op left right ihLeft ihRight =>
    rw [parts, List.forall_mem_cons, List.forall_mem_append] at h
    rw [outerNodes, parts, ihLeft h.2.1, ihRight h.2.2]
  | scaled _ _ => exact absurd rfl (h _ List.mem_cons_self)
  | application _ _ ih | negation _ ih | parenthesized _ ih =>
    rw [parts, List.forall_mem_cons] at h
    rw [outerNodes, parts, ih h.2]

/-! ### Classes -/

/-- Whether the value of a node is an integer if the values of its operands are. -/
def KeepsClass : Expression → Prop
  | .literal _ fraction => fraction = none
  | .application _ _ => False
  | .scaled mantissa exponent => ∃ x y, mantissa.value = .ok x ∧ exponent.value = .ok y ∧
      (x.value * Float.pow 10.0 y.value).isFinite = true ∧
      Binary.floor (x.value * Float.pow 10.0 y.value) = x.value * Float.pow 10.0 y.value
  | _ => True

/-- Two steps have a value if the first one has and the second one has with that value. -/
theorem bind_eq_ok_iff {ε α β : Type} {result : Except ε α} {next : α → Except ε β} {value : β} :
    result >>= next = .ok value ↔ ∃ x, result = .ok x ∧ next x = .ok value := by
  cases result with
  | error cause =>
    change Except.error cause = .ok value ↔ _
    simp
  | ok x =>
    change next x = .ok value ↔ _
    simp

/-- An operation has a value if both operands have one and the operation on these has one. -/
theorem value_operation_iff {op : Operator} {left right : Expression} {number : Number} :
    (operation op left right).value = .ok number ↔
      ∃ x, left.value = .ok x ∧ ∃ y, right.value = .ok y ∧ x.operation op y = .ok number := by
  simp only [value, bind_eq_ok_iff]

theorem value_scaled_iff {mantissa exponent : Expression} {number : Number} :
    (scaled mantissa exponent).value = .ok number ↔
      ∃ x, mantissa.value = .ok x ∧ ∃ y, exponent.value = .ok y ∧ x.scaled y = number := by
  simp only [value, bind_eq_ok_iff, pure, Except.pure, Except.ok.injEq]

theorem value_application_iff {function : Trig} {argument : Expression} {number : Number} :
    (application function argument).value = .ok number ↔
      ∃ x, argument.value = .ok x ∧ x.application function = number := by
  simp only [value, bind_eq_ok_iff, pure, Except.pure, Except.ok.injEq]

theorem value_negation_iff {operand : Expression} {number : Number} :
    (negation operand).value = .ok number ↔ ∃ x, operand.value = .ok x ∧ x.neg = number := by
  simp only [value, bind_eq_ok_iff, pure, Except.pure, Except.ok.injEq]

/-- **The class of a tree's value** is that of an integer unless an outer node makes it a
decimal. -/
theorem isInteger_iff {e : Expression} {number : Number} (h : e.value = .ok number) :
    number.isInteger = true ↔ ∀ node ∈ e.outerNodes, node.KeepsClass := by
  induction e generalizing number with
  | literal whole fraction =>
    cases h
    cases fraction <;> simp [outerNodes, KeepsClass, Number.literal]
  | operation op left right ihLeft ihRight =>
    obtain ⟨l, leftValue, r, rightValue, h⟩ := value_operation_iff.mp h
    rw [Number.isInteger_of_operation h, Bool.and_eq_true, ihLeft leftValue, ihRight rightValue,
      outerNodes, List.forall_mem_cons, List.forall_mem_append]
    exact ⟨fun parts => ⟨trivial, parts⟩, fun parts => parts.2⟩
  | scaled mantissa exponent =>
    obtain ⟨x, mantissaValue, y, exponentValue, rfl⟩ := value_scaled_iff.mp h
    -- The operands are not among the outer nodes: only the value of the power decides.
    rw [outerNodes, List.forall_mem_singleton, KeepsClass]
    simp only [mantissaValue, exponentValue, Except.ok.injEq, exists_and_left, exists_eq_left']
    exact Binary.isWhole_iff
  | application function argument =>
    obtain ⟨x, -, rfl⟩ := value_application_iff.mp h
    rw [outerNodes, List.forall_mem_cons]
    exact iff_of_false Bool.false_ne_true fun parts => parts.1
  | negation operand ih =>
    obtain ⟨x, operandValue, rfl⟩ := value_negation_iff.mp h
    rw [outerNodes, List.forall_mem_cons]
    exact (ih operandValue).trans ⟨fun parts => ⟨trivial, parts⟩, fun parts => parts.2⟩
  | parenthesized inner ih =>
    rw [outerNodes, List.forall_mem_cons]
    exact (ih h).trans ⟨fun parts => ⟨trivial, parts⟩, fun parts => parts.2⟩

/-- A node that is no power of ten keeps the class unless it shows a mark. -/
theorem keepsClass_iff {e : Expression} (unscaled : e.mark? ≠ some .exponent) :
    e.KeepsClass ↔ e.mark? ≠ some .point ∧ e.mark? ≠ some .call := by
  cases e with
  | literal whole fraction => cases fraction <;> simp [KeepsClass, mark?]
  | scaled _ _ => exact absurd rfl unscaled
  | application _ _ => simp [KeepsClass, mark?]
  | operation _ _ _ | negation _ | parenthesized _ => simp [KeepsClass, mark?]

/-- **Without powers of ten**, the value is an integer if no node is a decimal literal or a call. -/
theorem isInteger_iff_of_unscaled {e : Expression} {number : Number} (h : e.value = .ok number)
    (unscaled : ∀ part ∈ e.parts, part.mark? ≠ some .exponent) :
    number.isInteger = true ↔ (¬ ∃ part ∈ e.parts, part.mark? = some .point) ∧
      ¬ ∃ part ∈ e.parts, part.mark? = some .call := by
  rw [isInteger_iff h, outerNodes_eq_parts unscaled]
  constructor
  · intro keeps
    have unmarked : ∀ part ∈ e.parts, part.mark? ≠ some .point ∧ part.mark? ≠ some .call :=
      fun part member => (keepsClass_iff (unscaled part member)).mp (keeps part member)
    refine ⟨?_, ?_⟩
    · rintro ⟨part, member, shown⟩
      exact (unmarked part member).1 shown
    · rintro ⟨part, member, shown⟩
      exact (unmarked part member).2 shown
  · rintro ⟨noPoint, noCall⟩ part member
    rw [keepsClass_iff (unscaled part member)]
    exact ⟨fun shown => noPoint ⟨part, member, shown⟩, fun shown => noCall ⟨part, member, shown⟩⟩

/-- The nodes that do not keep the class, one kind after the other. -/
theorem forall_keepsClass_iff (nodes : List Expression) :
    (∀ node ∈ nodes, node.KeepsClass) ↔
      (∀ whole fraction, .literal whole (some fraction) ∉ nodes) ∧
      (∀ f argument, .application f argument ∉ nodes) ∧
      ∀ mantissa exponent, .scaled mantissa exponent ∈ nodes →
        (scaled mantissa exponent).KeepsClass := by
  constructor
  · intro keeps
    refine ⟨?_, ?_, ?_⟩
    · intro whole fraction member
      cases keeps _ member
    · intro f argument member
      exact keeps _ member
    · intro mantissa exponent member
      exact keeps _ member
  · rintro ⟨noDecimal, noCall, whole⟩ node member
    cases node with
    | literal value fraction =>
      cases fraction with
      | none => rfl
      | some fraction => exact absurd member (noDecimal value fraction)
    | application f argument => exact noCall f argument member
    | scaled mantissa exponent => exact whole mantissa exponent member
    | operation _ _ _ | negation _ | parenthesized _ => trivial

end Expression

/-! ### Texts -/

/-- A text shows a mark if a node of its tree does. -/
theorem exists_part_mark_iff {source : String} {e : Expression} (parsed : parse source = .ok e)
    (mark : Mark) :
    (∃ part ∈ e.parts, part.mark? = some mark) ↔ ∃ c ∈ source.toList, c ∈ mark.chars := by
  obtain ⟨scanned, -⟩ := parse_eq_ok_iff.mp parsed
  rw [← e.exists_mark_iff, tokenize_mark scanned]

/-- **Which results are integers.** If the text has no exponent mark, its value is an integer if
there is no point in it and no call of a function. In general it is one if, in the tree of the text,
what is not inside a power of ten has no decimal literal and no call of a function, and all its
powers of ten are finite and equal to their floor. The operands of these only matter through their
values. -/
theorem calculate_isInteger_iff {source : String} {number : Number}
    (calculated : calculate source = .ok number) :
    ('E' ∉ source.toList → 'e' ∉ source.toList →
      (number.isInteger = true ↔ '.' ∉ source.toList ∧
        ∀ f : Trig, ¬ (f.name ++ "(").toList <:+: source.toList)) ∧
    ∃ e, parse source = .ok e ∧
      (number.isInteger = true ↔
        (∀ whole fraction, .literal whole (some fraction) ∉ e.outerNodes) ∧
        (∀ f argument, .application f argument ∉ e.outerNodes) ∧
        ∀ mantissa exponent, .scaled mantissa exponent ∈ e.outerNodes →
          ∃ x y, mantissa.value = .ok x ∧ exponent.value = .ok y ∧
            (x.value * Float.pow 10.0 y.value).isFinite = true ∧
            Binary.floor (x.value * Float.pow 10.0 y.value) =
              x.value * Float.pow 10.0 y.value) := by
  obtain ⟨e, parsed, value⟩ := parse_of_calculate calculated
  obtain ⟨scanned, -⟩ := parse_eq_ok_iff.mp parsed
  refine ⟨?_, e, parsed, ?_⟩
  · intro capital small
    -- Both spellings of the exponent mark are missing, so no node is a power of ten.
    have unmarked : ¬ ∃ c ∈ source.toList, c ∈ Mark.exponent.chars := by
      rintro ⟨c, inside, marked⟩
      rcases List.mem_pair.mp marked with rfl | rfl
      · exact capital inside
      · exact small inside
    rw [← exists_part_mark_iff parsed] at unmarked
    have unscaled : ∀ part ∈ e.parts, part.mark? ≠ some .exponent := fun part member shown =>
      unmarked ⟨part, member, shown⟩
    have point : (∃ part ∈ e.parts, part.mark? = some .point) ↔ '.' ∈ source.toList := by
      rw [exists_part_mark_iff parsed]
      simp [Mark.chars]
    have call : (∃ part ∈ e.parts, part.mark? = some .call) ↔
        ∃ f : Trig, (f.name ++ "(").toList <:+: source.toList := by
      rw [exists_name_infix_iff scanned, e.exists_mark_iff]
    rw [Expression.isInteger_iff_of_unscaled value unscaled, point, call, not_exists]
  · rw [Expression.isInteger_iff value]
    exact Expression.forall_keepsClass_iff e.outerNodes

/-- The quotient `7/2` is rounded down, so it is an integer, and its text has no point and no
call. -/
theorem calculate_isInteger_iff_quotient :
    calculate "7/2" = .ok (.integer 3.0) ∧ '.' ∉ "7/2".toList ∧
      ∀ f : Trig, ¬ (f.name ++ "(").toList <:+: "7/2".toList := by
  have calculated : calculate "7/2" = .ok (.integer 3.0) := by decide +kernel
  have capital : 'E' ∉ "7/2".toList := by decide
  have small : 'e' ∉ "7/2".toList := by decide
  exact ⟨calculated, ((calculate_isInteger_iff calculated).1 capital small).mp rfl⟩

end Calculator
