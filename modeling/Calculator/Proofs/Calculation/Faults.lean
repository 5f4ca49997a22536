import Calculator.Proofs.Calculation.Tree
import Calculator.Proofs.Grammar.Prefixes
import Calculator.Proofs.Token.Concatenation

/-!
# The faults that a text can have

Not every fault of tokens is a fault of the tokens of a text. A minus is labelled by the token in
front of it, and a reading looks for something by its position in the grammar. Labels and places fit
together as follows. Where an operand has ended, and only there, a minus is a subtraction. Where an
operand is looked for, it is a negation; and so it is behind the point of a literal, where digits
are looked for (`negation_behind_point`). A fraction is only found where digits are looked for. This
is the meeting of two descriptions of what stands in front of a place, one by the label of the token
(`Token.LabelledBehind`) and one by what is looked for (`Wanted.Behind`).

So of the tokens with which no operand begins, a subtraction and a fraction are never reported as
unexpected, and a negation and a fraction are never reported as trailing: `faults_of_text`. A
negation behind a point is not reported itself. There it is the digits that are missing.
-/

namespace Calculator

open Grammar

/-! ### Faults and places -/

/-- A text whose tokens are malformed has tokens. Either reading them fails, or an expression is
read and a token is left. -/
theorem fault_of_validate {source : String} {cause : SyntaxError}
    (h : validate source = .error (.syntactic cause)) :
    ∃ tokens, tokenize source = .ok tokens ∧
      ((∃ done, Fails (some depthLimit) (.chain .additive) 0 tokens done cause) ∨
        ∃ e token tail, cause = .trailing token ∧
          Reads (some depthLimit) (.rule (.chain .additive)) 0 tokens e (token :: tail)) := by
  rw [validate_eq] at h
  cases scanned : tokenize source with
  | error _ =>
    rw [scanned] at h
    cases h
  | ok tokens =>
    rw [scanned] at h
    change (check tokens).mapError Error.syntactic >>= _ = _ at h
    refine ⟨tokens, rfl, ?_⟩
    cases checked : check tokens with
    | error cause' =>
      rw [checked] at h
      cases h
      exact .inl (fails_of_check checked)
    | ok rest =>
      rw [checked] at h
      obtain ⟨e, reads⟩ := reads_of_check checked
      cases rest with
      | nil => cases h
      | cons token tail =>
        cases h
        exact .inr ⟨e, token, tail, rfl, reads⟩

/-! ### Labels and places -/

/-- How a token is labelled where something is looked for: it is a subtraction only behind an
operand, a negation only where an operand or the digits behind a point are looked for, a fraction
only where digits are looked for and a number only elsewhere. -/
structure Grammar.Wanted.SuitedBy (wanted : Wanted) (token : Token) : Prop where
  subtraction : token = .operator .sub → wanted = .continuation
  negation : token = .negation → wanted = .operand ∨ wanted = .digits
  fraction : ∀ value, token = .fraction value → wanted = .digits
  number : ∀ value, token = .number value → wanted ≠ .digits

/-- **Labels fit places**, because both depend on what is in front of the token. -/
theorem Grammar.Wanted.Behind.suitedBy {wanted : Wanted} {previous : Option Token} {token : Token}
    (behind : wanted.Behind previous) (labelled : token.LabelledBehind previous) :
    wanted.SuitedBy token := by
  cases wanted with
  | operand =>
    -- The token in front expects an operand, so it neither ends one nor is it a point.
    refine ⟨?_, fun _ => .inl rfl, ?_, nofun⟩
    · rintro rfl
      exact absurd labelled (Bool.eq_false_iff.mp (Token.any_endsOperand behind))
    · rintro value rfl
      cases labelled
      cases behind
  | digits =>
    cases behind
    refine ⟨?_, fun _ => .inr rfl, fun _ _ => rfl, ?_⟩
    · rintro rfl
      cases labelled
    · rintro value rfl
      exact absurd rfl labelled
  | continuation =>
    -- The token in front ends an operand, so it is no point.
    refine ⟨fun _ => rfl, ?_, ?_, nofun⟩
    · rintro rfl
      exact absurd behind (Bool.eq_false_iff.mp labelled)
    · rintro value rfl
      cases labelled
      cases behind

/-- Wherever a reading looks at a token of a text, the token is labelled for what is looked for. -/
theorem Grammar.Looks.suitedBy {limit : Option Nat} {source : String} {request : Request}
    {wanted : Wanted} {token : Token} {tail : List Token}
    (looks : Looks limit request wanted (token :: tail))
    (scanned : tokenize source = .ok request.tokens) : wanted.SuitedBy token := by
  obtain ⟨passed, split, behind⟩ := looks.behind
  rw [split] at scanned
  exact behind.suitedBy (labelledBehind_of_tokenize scanned)

/-- Where digits are looked for and there is no fraction, the reading fails for that. -/
theorem Grammar.Looks.fails_digits {limit : Option Nat} {request : Request} {rest : List Token}
    (looks : Looks limit request .digits rest)
    (missing : ∀ fraction tail, rest ≠ .fraction fraction :: tail) :
    ∃ done, Fails limit request.rule request.depth request.tokens done .missingDigits := by
  cases looks with
  | digits leads => exact leads.fails (.missingDigits _ missing)

/-- A negation behind a point makes the text malformed, and so do all other tokens except a
fraction. -/
theorem missingDigits_of_looks {source : String} {tokens rest : List Token}
    (scanned : tokenize source = .ok tokens)
    (looks : Looks (some depthLimit) ⟨.chain .additive, 0, tokens⟩ .digits rest)
    (missing : ∀ fraction tail, rest ≠ .fraction fraction :: tail) :
    validate source = .error (.syntactic .missingDigits) := by
  obtain ⟨done, fails⟩ := looks.fails_digits missing
  exact validate_of_fails scanned fails

/-! ### Unexpected and trailing tokens -/

/-- The tokens that can be unexpected in a text: those with which no operand begins, except a
subtraction and a fraction. -/
def Token.CanBeUnexpected (token : Token) : Prop :=
  token ∈ [.operator .add, .operator .mul, .operator .div, .operator .mod, .operator .pow, .point,
    .exponentMark, .closing]

/-- The tokens that can follow an expression in a text and make it malformed: all except the
operators, a negation and a fraction. -/
def Token.CanTrail (token : Token) : Prop :=
  (∃ value, token = .number value) ∨ (∃ f, token = .function f) ∨
    token ∈ [.point, .exponentMark, .opening, .closing]

theorem canBeUnexpected_of_validate {source : String} {token : Token}
    (h : validate source = .error (.syntactic (.unexpected token))) : token.CanBeUnexpected := by
  obtain ⟨tokens, scanned, ⟨done, fails⟩ | ⟨_, _, _, other, _⟩⟩ := fault_of_validate h
  · obtain ⟨strange, tail, looks⟩ := fails.looks_unexpected
    have suited := looks.suitedBy scanned
    -- An operand begins with some of the tokens, and the labels of two others do not suit the
    -- place.
    cases token with
    | number _ | function _ | opening | negation => cases strange
    | fraction value => exact nomatch suited.fraction value rfl
    | operator op =>
      cases op with
      | sub => exact nomatch suited.subtraction rfl
      | _ => simp [Token.CanBeUnexpected]
    | _ => simp [Token.CanBeUnexpected]
  · cases other

theorem canTrail_of_validate {source : String} {token : Token}
    (h : validate source = .error (.syntactic (.trailing token))) : token.CanTrail := by
  obtain ⟨tokens, scanned, ⟨done, fails⟩ | ⟨e, _, tail, same, reads⟩⟩ := fault_of_validate h
  · exact absurd fails Fails.not_trailing
  · cases same
    have looks : Looks (some depthLimit) ⟨.chain .additive, 0, tokens⟩ .continuation
      (token :: tail) := .continuation .refl reads
    have suited := looks.suitedBy scanned
    -- The expression would have gone on with an operator; a negation and a fraction do not suit the
    -- place.
    cases token with
    | number value => exact .inl ⟨value, rfl⟩
    | function f => exact .inr (.inl ⟨f, rfl⟩)
    | operator op => exact absurd rfl (reads.settled_all op.tier).tier_ne
    | negation => exact (suited.negation rfl).elim nofun nofun
    | fraction value => exact nomatch suited.fraction value rfl
    | _ => exact .inr (.inr (by simp))

/-- **The faults of a text.**

* In both operations, a minus, a fraction and a token with which an operand begins are never
  unexpected.
* An operator, a negation and a fraction never follow an expression.
* The reason is how the tokens are labelled wherever a reading looks: a minus is a subtraction where
  an operand has ended, and a negation where an operand or the digits behind a point are looked for;
  a fraction stands only behind a point.
* Behind a point, a negation is no operand. It makes the text malformed, because digits are missing.
-/
theorem faults_of_text (source : String) :
    (∀ token, validate source = .error (.syntactic (.unexpected token)) ∨
      calculate source = .error (.syntactic (.unexpected token)) → token.CanBeUnexpected) ∧
    (∀ token, validate source = .error (.syntactic (.trailing token)) ∨
      calculate source = .error (.syntactic (.trailing token)) → token.CanTrail) ∧
    (∀ tokens, tokenize source = .ok tokens → ∀ wanted token tail,
      Looks (some depthLimit) ⟨.chain .additive, 0, tokens⟩ wanted (token :: tail) →
        wanted.SuitedBy token) ∧
    ∀ tokens, tokenize source = .ok tokens → ∀ tail,
      Looks (some depthLimit) ⟨.chain .additive, 0, tokens⟩ .digits (.negation :: tail) →
        validate source = .error (.syntactic .missingDigits) := by
  -- A calculation that ends with a fault of the tokens ends as the check does.
  have checked : ∀ cause : SyntaxError,
      validate source = .error (.syntactic cause) ∨ calculate source = .error (.syntactic cause) →
        validate source = .error (.syntactic cause) :=
    fun cause malformed => malformed.elim id (agreement source).malformed_of_malformed
  refine ⟨fun token h => canBeUnexpected_of_validate (checked _ h),
    fun token h => canTrail_of_validate (checked _ h), ?_, ?_⟩
  · intro tokens scanned wanted token tail looks
    exact looks.suitedBy scanned
  · intro tokens scanned tail looks
    exact missingDigits_of_looks scanned looks nofun

/-- In `2*)` no operand begins where one is looked for, and in `1.5.5` an expression ends in front
of the second point. Of the two minuses in `2--3`, the first one stands behind an operand and the
second one where an operand is looked for. -/
theorem faults_of_text_minus :
    let second : List Token := [.negation, .number 3.0]
    let first : List Token := .operator .sub :: second
    let whole : Request := ⟨.chain .additive, 0, .number 2.0 :: first⟩
    validate "2*)" = .error (.syntactic (.unexpected .closing)) ∧ Token.closing.CanBeUnexpected ∧
      calculate "1.5.5" = .error (.syntactic (.trailing .point)) ∧ Token.point.CanTrail ∧
      tokenize "2--3" = .ok whole.tokens ∧
      Looks (some depthLimit) whole .continuation first ∧
      Wanted.continuation.SuitedBy (.operator .sub) ∧
      Looks (some depthLimit) whole .operand second ∧ Wanted.operand.SuitedBy .negation := by
  intro second first whole
  have unexpected : validate "2*)" = .error (.syntactic (.unexpected .closing)) := by
    decide +kernel
  have trailing : calculate "1.5.5" = .error (.syntactic (.trailing .point)) := by
    decide +kernel
  have scanned : tokenize "2--3" = .ok whole.tokens := by decide +kernel
  -- The first term is the number alone, since no operator of a term follows it.
  have settled : ∀ tier : Tier, tier ≠ .additive → Settled tier first := by
    intro tier tight token tail same
    obtain ⟨rfl, -⟩ := List.cons.inj same
    exact if_neg tight.symm
  have number : Reads (some depthLimit) (.rule .atom) 0 (.number 2.0 :: .operator .sub :: second)
      (.literal 2.0 none) (.operator .sub :: second) := .integer 2.0 nofun
  have power := Reads.chain (.first (.plain number nofun)) (settled .power nofun)
  have two := Reads.chain (.first power) (settled .multiplicative nofun)
  have behind : Looks (some depthLimit) whole .continuation first :=
    .continuation (.single .first) two
  have next : Asks (some depthLimit) whole ⟨.chain .multiplicative, 0, second⟩ :=
    .next rfl (.first two)
  have front : Looks (some depthLimit) whole .operand second := .operand (.single next)
  obtain ⟨-, -, places, -⟩ := faults_of_text "2--3"
  exact ⟨unexpected, (faults_of_text _).1 _ (.inl unexpected), trailing,
    (faults_of_text _).2.1 _ (.inr trailing), scanned, behind, places _ scanned _ _ _ behind,
    front, places _ scanned _ _ _ front⟩

/-- **A negation where no operand is looked for.** The minus of `1.-2` stands behind a point. It is
labelled as a negation, but the reading looks for digits there and not for an operand. -/
theorem negation_behind_point :
    let behind : List Token := [.negation, .number 2.0]
    let whole : Request := ⟨.chain .additive, 0, .number 1.0 :: .point :: behind⟩
    tokenize "1.-2" = .ok whole.tokens ∧ Looks (some depthLimit) whole .digits behind ∧
      ¬ Looks (some depthLimit) whole .operand behind ∧
      validate "1.-2" = .error (.syntactic .missingDigits) := by
  intro behind whole
  have scanned : tokenize "1.-2" = .ok whole.tokens := by decide +kernel
  have leads : Leads (some depthLimit) whole ⟨.atom, 0, whole.tokens⟩ :=
    .head .first (.head .first (.head .first (.single .mantissa)))
  have looks : Looks (some depthLimit) whole .digits behind := .digits leads
  have missing : ∀ fraction tail, behind ≠ .fraction fraction :: tail := by
    intro fraction tail same
    exact Token.noConfusion (List.cons.inj same).1
  refine ⟨scanned, looks, ?_, missingDigits_of_looks scanned looks missing⟩
  -- In front of an operand, there would be a token that an operand has to follow.
  intro operand
  obtain ⟨passed, split, expects⟩ := operand.behind
  have front : [.number 1.0, .point] ++ behind = passed ++ behind := split
  obtain rfl := List.append_cancel_right front
  cases expects

end Calculator
