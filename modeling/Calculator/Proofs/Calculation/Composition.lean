import Calculator.Proofs.Grammar.Limit
import Calculator.Proofs.Grammar.Relocation
import Calculator.Proofs.Token.Concatenation

/-!
# Texts put together

A text that is an expression can be put into an enclosure, and enclosed texts can be joined by an
operator or an exponent mark, or have a minus in front. The tree of the result is put together from
the trees of the texts in the same way, so its value is the operation on their values. In all three
phases this is a matter of context:

* enclosed, a text keeps its tokens (`Spells.enclosed`);
* behind the opening token the same tree is read, one level deeper and in front of a closing
  parenthesis (`reads_enclosed`);
* the value of a tree depends on nothing around it.

The only thing that the context can spoil is the depth: an enclosure takes one level of those that
the limit allows, and a minus takes another one. So a minus in front of an enclosed text is
malformed if the text alone has one level less than the limit (`validate_minus_of_deep`).
Calculating it fails as well, though not always for this reason: the text can divide by zero in
front of the place that is too deep (`calculate_minus_of_deep`).
-/

namespace Calculator

open Grammar

/-! ### Reading enclosed texts -/

/-- The tree of a text is read in an enclosure, at every depth that leaves room for it. -/
theorem reads_enclosed {limit : Option Nat} {depth : Nat} {source : String} {e : Expression}
    (parsed : parse source = .ok e) (enclosure : Enclosure)
    (room : Room limit depth (e.nesting + 1)) (rest : List Token) :
    Reads limit (.rule .atom) depth (enclosure.opener :: (e.tokens ++ .closing :: rest))
      (enclosure.around e) rest := by
  obtain ⟨-, whole⟩ := parse_eq_ok_iff.mp parsed
  -- Alone, the text is read at the start and up to its end: it is moved in front of the closing
  -- parenthesis first and one level deeper then.
  have closed : Reads (some depthLimit) (.rule (.chain .additive)) 0
      (e.tokens ++ .closing :: rest) e (.closing :: rest) :=
    whole.followedBy (replaces_of_not_extends rfl [])
  exact .enclosed enclosure room.admits (closed.relocate room.deeper)

/-- At the start there is room for everything that the limit allows. -/
theorem room_of_lt {levels : Nat} (shallow : levels < depthLimit) :
    Room (some depthLimit) 0 (levels + 1) :=
  room_some (by omega)

theorem parse_of_spells {source : String} {tokens : List Token} {e : Expression} {goal : Goal}
    (spelled : Spells none source.toList tokens)
    (h : Reads (some depthLimit) goal 0 tokens e []) : parse source = .ok e := by
  have whole := h.loosen goal.height_le_loosest (Goal.endsAt_nil _)
  obtain rfl := h.eq_tokens
  exact parse_eq_ok_iff.mpr ⟨tokenize_eq_ok_iff.mpr spelled, whole⟩

/-! ### Literals -/

/-- **The value of a run of digits** is the float that is nearest to the number it writes. -/
theorem calculate_digits (run : DigitRun) :
    calculate (String.ofList run.chars) = .ok (.integer run.toFloat) := by
  have spelled : Spells none (String.ofList run.chars).toList [.number run.toFloat] := by
    rw [String.toList_ofList]
    exact .of_first? (Lexeme.first?_run run) rfl (.nil _)
  have pointless : ∀ tail : List Token, [] ≠ .point :: tail := fun tail =>
    (List.cons_ne_nil .point tail).symm
  have parsed := parse_of_spells spelled (.integer run.toFloat pointless)
  rw [calculate_of_parse parsed]
  rfl

/-- **The value of two runs of digits with a point between them.** The second one is the
fraction. -/
theorem calculate_decimal (whole behind : DigitRun) {f : Fraction}
    (read : Fraction.ofChars? behind.chars = some f) :
    calculate (String.ofList (whole.chars ++ '.' :: behind.chars)) =
      .ok (.decimal (f.after whole.toFloat)) := by
  obtain rfl : .ofRun behind = f := Option.some_inj.mp ((Fraction.ofChars?_chars _).symm.trans read)
  have spelled : Spells none (String.ofList (whole.chars ++ '.' :: behind.chars)).toList
      [.number whole.toFloat, .point, .fraction (.ofRun behind)] := by
    rw [String.toList_ofList]
    have digits : Spells (some .point) behind.chars [.fraction (.ofRun behind)] :=
      .of_first? (Lexeme.first?_run behind) rfl (.nil _)
    have pointed : Spells (some (.number whole.toFloat)) ('.' :: behind.chars)
        [.point, .fraction (.ofRun behind)] := .cons .point nofun rfl digits
    exact .of_first? (Lexeme.first?_chars_of_head (.digits whole) (by simp)) rfl pointed
  rw [calculate_of_parse (parse_of_spells spelled (.decimal whole.toFloat (.ofRun behind)))]
  rfl

example : calculate "007.50" = .ok (.decimal 7.5) := by decide +kernel

/-! ### The trees of texts put together -/

section

variable {a b : String} {ea eb : Expression}

/-- **A text in an enclosure.** -/
theorem parse_enclosed (enclosure : Enclosure) (parsed : parse a = .ok ea)
    (shallow : ea.nesting < depthLimit) :
    parse (enclosure.opener.text ++ a ++ ")") = .ok (enclosure.around ea) := by
  obtain ⟨scanned, -⟩ := parse_eq_ok_iff.mp parsed
  have pieces := Spells.enclosed none enclosure scanned (.nil (some .closing))
  have spelled : Spells none (enclosure.opener.text ++ a ++ ")").toList
      (enclosure.opener :: (ea.tokens ++ [.closing])) := by
    simpa [String.toList_append] using pieces
  exact parse_of_spells spelled (reads_enclosed parsed enclosure (room_of_lt shallow) [])

/-- The tokens of two texts in parentheses with a lexeme between them. -/
theorem spells_joined (joint : Lexeme) {token : Token} {ta tb : List Token}
    (noDigits : ∀ run, joint ≠ .digits run) (labelled : joint.token? (some .closing) = some token)
    (scannedA : tokenize a = .ok ta) (scannedB : tokenize b = .ok tb) :
    Spells none ("(" ++ a ++ ")" ++ String.ofList joint.chars ++ "(" ++ b ++ ")").toList
      (.opening :: (ta ++ .closing :: token :: .opening :: (tb ++ [.closing]))) := by
  have right := Spells.enclosed (some token) .parentheses scannedB (.nil (some .closing))
  have left := Spells.enclosed none .parentheses scannedA (right.cons joint noDigits labelled)
  simpa [Enclosure.opener, Token.text, String.toList_append] using left

/-- **Two texts in parentheses with an operator between them.** -/
theorem parse_operation (op : Operator) (parsedA : parse a = .ok ea) (parsedB : parse b = .ok eb)
    (shallowA : ea.nesting < depthLimit) (shallowB : eb.nesting < depthLimit) :
    parse ("(" ++ a ++ ")" ++ op.text ++ "(" ++ b ++ ")") =
      .ok (.operation op (.parenthesized ea) (.parenthesized eb)) := by
  obtain ⟨scannedA, -⟩ := parse_eq_ok_iff.mp parsedA
  obtain ⟨scannedB, -⟩ := parse_eq_ok_iff.mp parsedB
  have labelled : (Lexeme.operator op).token? (some .closing) = some (.operator op) := by
    cases op <;> rfl
  have spelled := spells_joined (.operator op) nofun labelled scannedA scannedB
  have left := reads_enclosed parsedA .parentheses (room_of_lt shallowA)
    (.operator op :: .opening :: (eb.tokens ++ [.closing]))
  have right := reads_enclosed parsedB .parentheses (room_of_lt shallowB) []
  -- Both operands are atoms, which every tier takes as operands.
  have whole := Reads.next rfl
    (left.loosen (Nat.zero_le _) (Goal.begun_endsAt_operator op _))
    (right.loosen (Nat.zero_le _) (Goal.endsAt_nil (.rule (.operand op.tier))))
  exact parse_of_spells spelled whole

/-- **Two texts in parentheses with an exponent mark between them.** -/
theorem parse_scaled (parsedA : parse a = .ok ea) (parsedB : parse b = .ok eb)
    (shallowA : ea.nesting < depthLimit) (shallowB : eb.nesting < depthLimit) :
    parse ("(" ++ a ++ ")" ++ "E" ++ "(" ++ b ++ ")") =
      .ok (.scaled (.parenthesized ea) (.parenthesized eb)) := by
  obtain ⟨scannedA, -⟩ := parse_eq_ok_iff.mp parsedA
  obtain ⟨scannedB, -⟩ := parse_eq_ok_iff.mp parsedB
  have spelled := spells_joined (.exponentMark true) nofun rfl scannedA scannedB
  have left := reads_enclosed parsedA .parentheses (room_of_lt shallowA)
    (.exponentMark :: .opening :: (eb.tokens ++ [.closing]))
  have right := reads_enclosed parsedB .parentheses (room_of_lt shallowB) []
  exact parse_of_spells spelled (Reads.scaled left right)

/-- The tokens of a minus and a text in parentheses. -/
theorem spells_minus {ta : List Token} (scanned : tokenize a = .ok ta) :
    Spells none ("-(" ++ a ++ ")").toList (.negation :: .opening :: (ta ++ [.closing])) := by
  have operand := Spells.enclosed (some .negation) .parentheses scanned (.nil (some .closing))
  have whole : Spells none _ _ := operand.cons (.operator .sub) nofun rfl
  simpa [Enclosure.opener, Token.text, Lexeme.chars, Operator.symbol, String.toList_append]
    using whole

/-- A minus and a text in parentheses, where there is room for two more levels. -/
theorem reads_minus (parsed : parse a = .ok ea) {limit : Option Nat}
    (room : Room limit 0 (ea.nesting + 2)) :
    Reads limit (.rule .atom) 0 (.negation :: .opening :: (ea.tokens ++ [.closing]))
      (.negation (.parenthesized ea)) [] := by
  have operand := reads_enclosed parsed .parentheses room.deeper []
  have term := operand.loosen (Nat.zero_le _) (Goal.endsAt_nil (.rule (.chain .multiplicative)))
  exact .negation room.admits term

/-- **A minus in front of a text in parentheses** takes up another level. -/
theorem parse_minus (parsed : parse a = .ok ea) (shallow : ea.nesting + 1 < depthLimit) :
    parse ("-(" ++ a ++ ")") = .ok (.negation (.parenthesized ea)) := by
  obtain ⟨scanned, -⟩ := parse_eq_ok_iff.mp parsed
  exact parse_of_spells (spells_minus scanned) (reads_minus parsed (room_of_lt shallow))

/-! ### A minus without room for it -/

/-- Without a limit, the text is an expression in any case. -/
theorem reads_minus_unlimited (parsed : parse a = .ok ea) :
    Reads none (.rule (.chain .additive)) 0 (.negation :: .opening :: (ea.tokens ++ [.closing]))
      (.negation (.parenthesized ea)) [] :=
  (reads_minus parsed (room_none 0 _)).loosen (Nat.zero_le _) (Goal.endsAt_nil _)

theorem fails_minus_of_deep (parsed : parse a = .ok ea) (deep : depthLimit ≤ ea.nesting + 1) :
    ∃ done, Fails (some depthLimit) (.chain .additive) 0
      (.negation :: .opening :: (ea.tokens ++ [.closing])) done (.tooDeep depthLimit) := by
  refine (reads_minus_unlimited parsed).fails_of_deep (Nat.zero_le depthLimit) ?_
  simp only [Expression.nesting]
  omega

/-- Without room for a minus, the text is malformed. -/
theorem validate_minus_of_deep (parsed : parse a = .ok ea) (deep : depthLimit ≤ ea.nesting + 1) :
    validate ("-(" ++ a ++ ")") = .error (.syntactic (.tooDeep depthLimit)) := by
  obtain ⟨scanned, -⟩ := parse_eq_ok_iff.mp parsed
  obtain ⟨done, fails⟩ := fails_minus_of_deep parsed deep
  exact validate_of_fails (tokenize_eq_ok_iff.mpr (spells_minus scanned)) fails

/-- An error of the evaluator is the result of the calculation. -/
theorem calculate_of_evaluate_error {source : String} {tokens : List Token} {e : Error}
    (scanned : tokenize source = .ok tokens) (evaluated : evaluate tokens = .error e) :
    calculate source = .error e := by
  rw [calculate_eq, scanned, mapError_ok_bind, evaluated]
  rfl

/-- What is computed in front of the place that is too deep is computed in the text alone as well.
So a division by zero that comes first is one of the text alone. -/
theorem divides_of_minus (parsed : parse a = .ok ea) (deep : depthLimit ≤ ea.nesting + 1)
    (divides : evaluate (.negation :: .opening :: (ea.tokens ++ [.closing])) =
      .error (.arithmetic .divisionByZero)) :
    ea.value = .error .divisionByZero := by
  have wider : ∀ most', none = some most' → depthLimit ≤ most' := nofun
  obtain ⟨done, fails⟩ := fails_minus_of_deep parsed deep
  rcases read_upTo evaluator wider (.negation :: .opening :: (ea.tokens ++ [.closing])) #[] with
    same | ⟨log, failed⟩
  · -- The limit has not been reached, and without it the whole tree is evaluated.
    rw [read_of_fails evaluator fails, read_of_reads evaluator (reads_minus_unlimited parsed),
      EStateM.run_bind] at same
    obtain ⟨log, run⟩ := ends_interpret_evaluator (.negation (.parenthesized ea)) #[]
    rw [run] at same
    cases value : ea.value with
    | ok number =>
      rw [Expression.value, Expression.value, value] at same
      exact absurd same evaluator.abandon_ne_ok
    | error cause =>
      cases cause
      rfl
  · rw [evaluate_of_error failed] at divides
    cases divides

/-- **Calculating a minus without room for it** fails at the limit, unless a division by zero comes
first. -/
theorem calculate_minus_of_deep (parsed : parse a = .ok ea) (deep : depthLimit ≤ ea.nesting + 1) :
    (DividesByZero (record (some depthLimit)
        (.negation :: .opening :: (ea.tokens ++ [.closing]))).program →
      calculate a = .error (.arithmetic .divisionByZero) ∧
        calculate ("-(" ++ a ++ ")") = .error (.arithmetic .divisionByZero)) ∧
    (¬ DividesByZero (record (some depthLimit)
        (.negation :: .opening :: (ea.tokens ++ [.closing]))).program →
      calculate ("-(" ++ a ++ ")") = .error (.syntactic (.tooDeep depthLimit))) := by
  obtain ⟨scanned, -⟩ := parse_eq_ok_iff.mp parsed
  obtain ⟨done, fails⟩ := fails_minus_of_deep parsed deep
  have scanned' := tokenize_eq_ok_iff.mpr (spells_minus scanned)
  -- The check fails at the limit. What the evaluation reports depends on what it has computed there.
  constructor
  · intro divides
    have evaluated := evaluate_of_dividesByZero divides
    rw [calculate_of_parse parsed, divides_of_minus parsed deep evaluated]
    exact ⟨rfl, calculate_of_evaluate_error scanned' evaluated⟩
  · intro computes
    have evaluated := evaluate_of_not_dividesByZero (check_of_fails fails) computes
    exact calculate_of_evaluate_error scanned' evaluated

end

/-! ### The values of texts put together -/

theorem nesting_of_parse {source : String} {e : Expression} (parsed : parse source = .ok e) :
    nesting source = e.nesting := by
  rw [nesting, parsed]

/-- The value of one operand is passed on, or its failure is. -/
theorem mapError_map {ε ε' α β : Type} (f : ε → ε') (g : α → β) (result : Except ε α) :
    (result >>= fun value => pure (g value)).mapError f = (result.mapError f).map g := by
  cases result <;> rfl

/-- The values of two operands are passed on, or the first failure is. -/
theorem mapError_bind₂ {ε ε' α β γ : Type} (f : ε → ε') (left : Except ε α) (right : Except ε β)
    (next : α → β → Except ε γ) :
    (left >>= fun x => right >>= next x).mapError f =
      (do
        let x ← left.mapError f
        let y ← right.mapError f
        (next x y).mapError f) := by
  cases left with
  | error _ => rfl
  | ok _ => cases right <;> rfl

/-- If one of two operands divides by zero, nothing else can be reported. -/
theorem bind₂_of_error {α β γ : Type} {left : Except ArithmeticError α}
    {right : Except ArithmeticError β} (next : α → β → Except Error γ)
    (h : left.mapError Error.arithmetic = .error (.arithmetic .divisionByZero) ∨
      right.mapError Error.arithmetic = .error (.arithmetic .divisionByZero)) :
    (do
      let x ← left.mapError Error.arithmetic
      let y ← right.mapError Error.arithmetic
      next x y) = .error (.arithmetic .divisionByZero) := by
  cases left with
  | error cause =>
    cases cause
    rfl
  | ok x =>
    rcases h with h | h
    · cases h
    · rw [h]
      rfl

/-- **The value of texts put together is the operation on their values.** Two texts that are
expressions, with at least one level of nesting to spare each, can be

* put into parentheses, which changes nothing, or into the argument of a function;
* joined in parentheses by an operator or an exponent mark: the result is the operation on the two
  values, and a division by zero if one of the operands is;
* negated in parentheses, if there is another level to spare, for a minus takes up one, too.

If there is no other level to spare, the negated text is malformed: validating it fails at the
limit, and so does calculating it, unless a division by zero is complete in front of the place that
is too deep; then the result is that, and the text alone divides by zero as well.

The class of the value is part of it. -/
theorem calculate_composed {a b : String} {ta tb : List Token} (validA : validate a = .ok ta)
    (validB : validate b = .ok tb) (shallowA : nesting a < depthLimit)
    (shallowB : nesting b < depthLimit) :
    calculate ("(" ++ a ++ ")") = calculate a ∧
    (∀ op : Operator, calculate ("(" ++ a ++ ")" ++ op.text ++ "(" ++ b ++ ")") = do
      let x ← calculate a
      let y ← calculate b
      (x.operation op y).mapError .arithmetic) ∧
    (calculate ("(" ++ a ++ ")" ++ "E" ++ "(" ++ b ++ ")") = do
      let x ← calculate a
      let y ← calculate b
      return x.scaled y) ∧
    (calculate a = .error (.arithmetic .divisionByZero) ∨
        calculate b = .error (.arithmetic .divisionByZero) →
      (∀ op : Operator, calculate ("(" ++ a ++ ")" ++ op.text ++ "(" ++ b ++ ")") =
        .error (.arithmetic .divisionByZero)) ∧
      calculate ("(" ++ a ++ ")" ++ "E" ++ "(" ++ b ++ ")") =
        .error (.arithmetic .divisionByZero)) ∧
    (∀ f : Trig, calculate (f.name ++ "(" ++ a ++ ")") =
      (calculate a).map (Number.application f)) ∧
    (nesting a + 1 < depthLimit →
      calculate ("-(" ++ a ++ ")") = (calculate a).map Number.neg) ∧
    (nesting a + 1 = depthLimit →
      validate ("-(" ++ a ++ ")") = .error (.syntactic (.tooDeep depthLimit)) ∧
      (DividesByZero (record (some depthLimit)
          (.negation :: .opening :: (ta ++ [.closing]))).program →
        calculate a = .error (.arithmetic .divisionByZero) ∧
          calculate ("-(" ++ a ++ ")") = .error (.arithmetic .divisionByZero)) ∧
      (¬ DividesByZero (record (some depthLimit)
          (.negation :: .opening :: (ta ++ [.closing]))).program →
        calculate ("-(" ++ a ++ ")") = .error (.syntactic (.tooDeep depthLimit)))) := by
  obtain ⟨ea, parsedA, rfl⟩ := validate_eq_ok_iff.mp validA
  obtain ⟨eb, parsedB, -⟩ := validate_eq_ok_iff.mp validB
  have deepest := calculate_minus_of_deep parsedA
  rw [nesting_of_parse parsedA] at shallowA ⊢
  rw [nesting_of_parse parsedB] at shallowB
  rw [calculate_of_parse parsedA] at deepest ⊢
  rw [calculate_of_parse parsedB]
  -- The two values are now values of trees, and so is each result.
  have joined : ∀ op : Operator, calculate ("(" ++ a ++ ")" ++ op.text ++ "(" ++ b ++ ")") =
      (do
        let x ← ea.value.mapError .arithmetic
        let y ← eb.value.mapError .arithmetic
        (x.operation op y).mapError .arithmetic) := by
    intro op
    rw [calculate_of_parse (parse_operation op parsedA parsedB shallowA shallowB)]
    exact mapError_bind₂ _ _ _ _
  have scaled : calculate ("(" ++ a ++ ")" ++ "E" ++ "(" ++ b ++ ")") =
      (do
        let x ← ea.value.mapError .arithmetic
        let y ← eb.value.mapError .arithmetic
        return x.scaled y) := by
    rw [calculate_of_parse (parse_scaled parsedA parsedB shallowA shallowB)]
    exact mapError_bind₂ _ _ _ _
  refine ⟨?_, joined, scaled, ?_, ?_, ?_, ?_⟩
  · have parsed : parse ("(" ++ a ++ ")") = .ok (.parenthesized ea) :=
      parse_enclosed .parentheses parsedA shallowA
    rw [calculate_of_parse parsed]
    rfl
  · intro divides
    constructor
    · intro op
      rw [joined op]
      exact bind₂_of_error _ divides
    · rw [scaled]
      exact bind₂_of_error _ divides
  · intro f
    have parsed : parse (f.name ++ "(" ++ a ++ ")") = .ok (.application f ea) :=
      parse_enclosed (.argument f) parsedA shallowA
    rw [calculate_of_parse parsed]
    exact mapError_map _ _ _
  · intro shallow
    rw [calculate_of_parse (parse_minus parsedA shallow)]
    exact mapError_map _ _ _
  · intro atLimit
    have deep := Nat.le_of_eq atLimit.symm
    exact ⟨validate_minus_of_deep parsedA deep, deepest deep⟩

/-- `(-7%3)-(2)` is the difference of `-7%3`, which negates a remainder, and `2`. -/
theorem calculate_composed_difference :
    nesting "-7%3" < depthLimit ∧ nesting "2" < depthLimit ∧
      calculate "(-7%3)" = .ok (.integer (-1.0)) ∧
      calculate "(-7%3)-(2)" = .ok (.integer (-3.0)) ∧
      calculate "-(-7%3)" = .ok (.integer 1.0) := by
  have validA : validate "-7%3" =
      .ok [.negation, .number 7.0, .operator .mod, .number 3.0] := by decide +kernel
  have validB : validate "2" = .ok [.number 2.0] := by decide +kernel
  have shallowA : nesting "-7%3" + 1 < depthLimit := by decide +kernel
  have shallowB : nesting "2" < depthLimit := by decide +kernel
  obtain ⟨enclosed, joined, -, -, -, negated, -⟩ :=
    calculate_composed validA validB (Nat.lt_of_succ_lt shallowA) shallowB
  refine ⟨Nat.lt_of_succ_lt shallowA, shallowB, ?_, ?_, ?_⟩
  · exact enclosed.trans (by decide +kernel)
  · exact (joined .sub).trans (by decide +kernel)
  · exact (negated shallowA).trans (by decide +kernel)

/-! ### Many parentheses -/

/-- A text in as many parentheses. -/
def parenthesized (levels : Nat) (source : String) : String :=
  String.ofList (List.replicate levels '(' ++ source.toList ++ List.replicate levels ')')

theorem parenthesized_succ (levels : Nat) (source : String) :
    parenthesized (levels + 1) source = "(" ++ parenthesized levels source ++ ")" := by
  have closings : List.replicate (levels + 1) ')' = List.replicate levels ')' ++ [')'] :=
    List.replicate_succ'
  rw [parenthesized, closings, List.replicate_succ, ← String.toList_inj]
  simp [parenthesized, String.toList_append]

/-- Up to the limit, parentheses around a text add to its nesting and to nothing else. -/
theorem parse_parenthesized {source : String} {e : Expression} (parsed : parse source = .ok e)
    (levels : Nat) (shallow : e.nesting + levels ≤ depthLimit) :
    ∃ inner, parse (parenthesized levels source) = .ok inner ∧
      inner.nesting = e.nesting + levels ∧ inner.value = e.value := by
  induction levels with
  | zero =>
    refine ⟨e, ?_, rfl, rfl⟩
    simpa [parenthesized] using parsed
  | succ levels ih =>
    obtain ⟨inner, again, levels', value⟩ := ih (by omega)
    refine ⟨.parenthesized inner, ?_, ?_, value⟩
    · rw [parenthesized_succ]
      exact parse_enclosed .parentheses again (by omega)
    · rw [Expression.nesting, levels', Nat.add_assoc]

/-- **A minus in front of parentheses takes up a second level.** In 127 parentheses, `1` leaves room
for another pair, but not for a minus in front of that. -/
theorem minus_of_parentheses :
    (∃ tokens, validate (parenthesized 127 "1") = .ok tokens) ∧
      nesting (parenthesized 127 "1") < depthLimit ∧
      calculate (parenthesized 127 "1") = .ok (.integer 1.0) ∧
      calculate ("-(" ++ parenthesized 127 "1" ++ ")") ≠
        (calculate (parenthesized 127 "1")).map Number.neg := by
  have one : parse "1" = .ok (.literal 1.0 none) := by decide +kernel
  obtain ⟨e, parsed, levels, value⟩ :=
    parse_parenthesized one 127 (Nat.le_of_lt (by decide))
  have calculated : calculate (parenthesized 127 "1") = .ok (.integer 1.0) := by
    rw [calculate_of_parse parsed, value]
    rfl
  refine ⟨⟨e.tokens, validate_eq_ok_iff.mpr ⟨e, parsed, rfl⟩⟩, ?_, calculated, ?_⟩
  · rw [nesting_of_parse parsed, levels]
    decide
  · intro same
    -- With a value the text would be valid, but it is too deep.
    rw [calculated] at same
    obtain ⟨tokens, -, valid⟩ := (agreement _).valid_of_value same
    rw [validate_minus_of_deep parsed (by rw [levels]; decide)] at valid
    cases valid

end Calculator
