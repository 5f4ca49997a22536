import Calculator.Proofs.Calculation.Outcome
import Calculator.Proofs.Fraction.Cut

/-!
# Undefined steps

The operations of the calculator take two kinds of steps that are not defined for all arguments: a
run of digits is read as a fraction, and the number of tokens that are left is subtracted from the
number of all tokens. The operations rely on the tokens being what they are and have no error for
the other cases. Here every such step is guarded: where a step is undefined, a guarded operation
stops and says so.

A guarded operation reads the fractions one by one, as the tokens are reported, and the plain one
has all tokens before it reports the first one. So the first phase needs an induction on the lexemes
(`Guarded.label_eq`), and the phases behind it follow by the laws of `Logged.mapError`.

Main statement: `steps_defined`. The guarded operations are the plain ones, so no step is ever taken
where it is undefined.
-/

namespace Calculator

open Grammar Logged

/-- Why a guarded operation stops. -/
inductive Stop (ε : Type) where
  /-- The operation fails. -/
  | failure (cause : ε)
  /-- A step is undefined. -/
  | undefined

/-- The same stop with another error. -/
def Stop.map {ε ε' : Type} (f : ε → ε') : Stop ε → Stop ε'
  | .failure cause => .failure (f cause)
  | .undefined => .undefined

/-! ### Guarded operations -/

namespace Guarded

/-- A step that may be undefined. -/
def step {ε α : Type} : Option α → Logged (Stop ε) α
  | some value => return value
  | none => throw .undefined

/-- What is left of a number when another one is taken away from it. -/
def difference? (n m : Nat) : Option Nat :=
  if m ≤ n then some (n - m) else none

/-- The token that a lexeme becomes behind another token. -/
def token? (previous : Option Token) : Lexeme → Logged (Stop LexicalError) (Option Token)
  | .digits run =>
    if previous = some .point then do
      let fraction ← step (Fraction.ofChars? run.chars)
      return some (.fraction fraction)
    else return some (.number run.toFloat)
  | lexeme => return lexeme.token? previous

/-- The tokens of lexemes that stand behind a token and begin at an offset, reported one by one. -/
def label (previous : Option Token) (offset : Nat) :
    List Lexeme → Logged (Stop LexicalError) (List Token)
  | [] => return []
  | lexeme :: rest => do
    let next := offset + byteCount lexeme.chars
    match ← token? previous lexeme with
    | none => label previous next rest
    | some token => do
      report (.found token offset)
      let others ← label (some token) next rest
      return token :: others

/-- The tokens of a text. -/
def tokenize (source : String) : Logged (Stop LexicalError) (List Token) := do
  let (lexemes, rest) := Lexeme.split source.toList
  let tokens ← label none 0 lexemes
  match rest with
  | c :: _ => throw (.failure (.unrecognized c (byteCount (lexemes.flatMap Lexeme.chars))))
  | [] =>
    report (.tokenized source.utf8ByteSize tokens.length)
    return tokens

/-- Checks the expression at the start of the tokens and returns what follows it. -/
def check (tokens : List Token) : Logged (Stop SyntaxError) (List Token) := do
  let ((), rest) ← Logged.mapError .failure (read checker (some depthLimit) tokens)
  let consumed ← step (difference? tokens.length rest.length)
  report (.checked consumed tokens.length)
  return rest

/-- Evaluates the expression at the start of the tokens, and returns what follows it as well. -/
def evaluate (tokens : List Token) : Logged (Stop Error) (Number × List Token) := do
  let (number, rest) ← Logged.mapError .failure (read evaluator (some depthLimit) tokens)
  let consumed ← step (difference? tokens.length rest.length)
  report (.evaluated consumed number)
  return (number, rest)

/-- Checks that a text is an expression, and returns its tokens. -/
def validate (source : String) : Logged (Stop Error) (List Token) := do
  let tokens ← (tokenize source).mapError (Stop.map .lexical)
  let rest ← (check tokens).mapError (Stop.map .syntactic)
  (Logged.finish rest).mapError .failure
  return tokens

/-- The value of a text that is an expression. -/
def calculate (source : String) : Logged (Stop Error) Number := do
  let tokens ← (tokenize source).mapError (Stop.map .lexical)
  let (number, rest) ← evaluate tokens
  (Logged.finish rest).mapError .failure
  report (.calculated source number)
  return number

end Guarded

/-! ### Errors of another type -/

namespace Logged

variable {ε ε' ε'' α β : Type} (f : ε → ε')

theorem mapError_bind (stage : Logged ε α) (next : α → Logged ε β) :
    (stage >>= next).mapError f = stage.mapError f >>= fun value => (next value).mapError f := by
  funext log
  change Logged.mapError f (stage >>= next) log = EStateM.bind (stage.mapError f) _ log
  rw [Logged.mapError, EStateM.run_bind, EStateM.bind, Logged.mapError]
  cases stage.run log <;> rfl

theorem mapError_reports {γ : Type} (items : List γ) (record : γ → Record) :
    Logged.mapError f (items.forM fun item => report (record item)) =
      items.forM fun item => report (record item) := by
  induction items with
  | nil => rfl
  | cons item items ih =>
    change Logged.mapError f (report (record item) >>= fun _ => items.forM _) = _
    rw [mapError_bind, ih]
    rfl

theorem mapError_mapError (g : ε' → ε'') (stage : Logged ε α) :
    (stage.mapError f).mapError g = stage.mapError (g ∘ f) := by
  funext log
  rw [Logged.mapError, Logged.mapError, EStateM.run, Logged.mapError]
  cases stage.run log <;> rfl

/-- What follows a stage only matters for the values that the stage can have. -/
theorem mapError_bind_congr {stage : Logged ε α} {next next' : α → Logged ε' β}
    (same : ∀ log value log', stage.run log = .ok value log' → next value = next' value) :
    stage.mapError f >>= next = stage.mapError f >>= next' := by
  funext log
  change EStateM.bind (stage.mapError f) next log = EStateM.bind (stage.mapError f) next' log
  rw [EStateM.bind, EStateM.bind, Logged.mapError]
  cases run : stage.run log with
  | error cause log' => rfl
  | ok value log' => exact congrFun (same log value log' run) log'

end Logged

/-! ### No step is undefined -/

namespace Guarded

theorem token?_eq (previous : Option Token) (lexeme : Lexeme) :
    token? previous lexeme = pure (lexeme.token? previous) := by
  cases lexeme with
  | digits run =>
    rw [token?, Lexeme.token?, Fraction.ofChars?_chars]
    split <;> rfl
  | _ => rfl

theorem label_eq (previous : Option Token) (offset : Nat) (lexemes : List Lexeme) :
    label previous offset lexemes = (do
      (Token.label previous offset lexemes).forM fun found =>
        report (.found found.token found.offset)
      return (Token.label previous offset lexemes).map (·.token)) := by
  induction lexemes generalizing previous offset with
  | nil => rfl
  | cons lexeme rest ih =>
    rw [label, token?_eq, pure_bind, Token.label]
    cases lexeme.token? previous with
    | none => exact ih previous _
    | some token =>
      simp only [ih, bind_assoc, pure_bind, List.map_cons]
      rfl

theorem tokenize_eq (source : String) :
    tokenize source = (Logged.tokenize source).mapError .failure := by
  rw [tokenize, Logged.tokenize]
  simp only [label_eq, bind_assoc, pure_bind, Logged.mapError_bind, Logged.mapError_reports]
  refine bind_congr fun _ => ?_
  simp only [Token.scan, List.length_map]
  cases (Lexeme.split source.toList).2 <;> rfl

/-- A reading leaves no more tokens than it was given, so they can be subtracted. -/
theorem step_difference?_of_read {σ ε ε' α : Type} (interp : Interpretation σ ε α)
    {limit : Option Nat} {tokens rest : List Token} {value : α} {s s' : σ}
    (h : (read interp limit tokens).run s = .ok (value, rest) s') :
    step (difference? tokens.length rest.length) =
      (pure (tokens.length - rest.length) : Logged (Stop ε') Nat) := by
  obtain ⟨e, found, -⟩ := reads_of_read interp h
  rw [difference?, if_pos found.shorter.le, step]

theorem check_eq (tokens : List Token) :
    check tokens = (Logged.check tokens).mapError .failure := by
  rw [check, Logged.check, Logged.mapError_bind]
  refine Logged.mapError_bind_congr _ ?_
  rintro log ⟨⟨⟩, rest⟩ log' run
  dsimp only
  rw [step_difference?_of_read checker run]
  rfl

theorem evaluate_eq (tokens : List Token) :
    evaluate tokens = (Logged.evaluate tokens).mapError .failure := by
  rw [evaluate, Logged.evaluate, Logged.mapError_bind]
  refine Logged.mapError_bind_congr _ ?_
  rintro log ⟨number, rest⟩ log' run
  dsimp only
  rw [step_difference?_of_read evaluator run]
  rfl

theorem validate_eq (source : String) :
    validate source = (Logged.validate source).mapError .failure := by
  rw [validate, Logged.validate, tokenize_eq]
  simp only [Logged.mapError_bind, Logged.mapError_mapError, check_eq]
  rfl

theorem calculate_eq (source : String) :
    calculate source = (Logged.calculate source).mapError .failure := by
  rw [calculate, Logged.calculate, tokenize_eq]
  simp only [Logged.mapError_bind, Logged.mapError_mapError, evaluate_eq]
  rfl

/-- The guarded operation never stops at an undefined step, and it does what the plain one does. -/
def Defined {ε α : Type} (guarded : Logged (Stop ε) α) (plain : Logged ε α) : Prop :=
  guarded = plain.mapError .failure ∧ ∀ log log', guarded.run log ≠ .error .undefined log'

theorem defined_of_eq {ε α : Type} {guarded : Logged (Stop ε) α} {plain : Logged ε α}
    (same : guarded = plain.mapError .failure) : Defined guarded plain := by
  refine ⟨same, fun log log' => ?_⟩
  rw [same]
  change Logged.mapError Stop.failure plain log ≠ _
  rw [Logged.mapError]
  cases plain.run log <;> rintro ⟨⟩

end Guarded

/-! ### Where fractions are read -/

/-- A fraction is read from all the digits that stand at an offset of a text. What is kept of them
writes a word, unless they are all zeroes, and the significant digits are made from that word. -/
def Fraction.ReadAt (source : String) (offset : Nat) (f : Fraction) : Prop :=
  ∃ front slice back kept : List Char,
    source.toList = front ++ slice ++ back ∧ byteCount front = offset ∧
    slice ≠ [] ∧ (∀ c ∈ slice, c.isDigit = true) ∧
    (∀ c, back.head? = some c → c.isDigit = false) ∧
    ofChars? slice = some f ∧
    takeBytes? keptBytes (significantPart slice) = some kept ∧
    (word? kept = none ↔ ∀ c ∈ slice, c = '0') ∧
    f.significant.toNat = dropTrailingZeros ((word? kept).elim 0 UInt64.toNat)

/-- A run of digits stands behind so many bytes of a text, and no digit follows it. -/
def DigitRun.StandsAt (run : DigitRun) (source : List Char) (bytes : Nat) : Prop :=
  ∃ front back, source = front ++ run.chars ++ back ∧ byteCount front = bytes ∧
    ∀ c, back.head? = some c → c.isDigit = false

theorem DigitRun.StandsAt.behind {run : DigitRun} {source : List Char} {bytes : Nat}
    (h : run.StandsAt source bytes) (before : List Char) :
    run.StandsAt (before ++ source) (byteCount before + bytes) := by
  obtain ⟨front, back, rfl, rfl, ends⟩ := h
  refine ⟨before ++ front, back, by simp only [List.append_assoc], ?_, ends⟩
  simp only [byteCount_eq_utf8ByteSize, String.ofList_append, String.utf8ByteSize_append]

namespace Lexeme

/-- Only digits become a fraction. -/
theorem exists_run_of_token? {previous : Option Token} {lexeme : Lexeme} {f : Fraction}
    (h : lexeme.token? previous = some (.fraction f)) :
    ∃ run, lexeme = .digits run ∧ f = .ofRun run := by
  cases lexeme with
  | digits run =>
    refine ⟨run, rfl, ?_⟩
    simp only [token?] at h
    split at h <;> cases h
    rfl
  | operator op =>
    cases op with
    | sub =>
      simp only [token?] at h
      split at h <;> cases h
    | _ => cases h
  | _ => cases h

/-- The digits that a text begins with as a lexeme are all digits that it begins with. -/
theorem standsAt_of_first? {source rest : List Char} {run : DigitRun}
    (h : first? source = some (.digits run, rest)) : run.StandsAt source 0 := by
  refine ⟨[], rest, first?_eq_some h, rfl, fun c next => ?_⟩
  obtain ⟨first, tail, parts⟩ := List.exists_cons_of_ne_nil run.ne_nil
  have digit : first.isDigit = true := run.isDigit first (parts ▸ List.mem_cons_self)
  have source_eq : source = first :: (tail ++ rest) := by
    rw [first?_eq_some h, chars, parts, List.cons_append]
  rw [source_eq, first?_of_digit digit] at h
  obtain ⟨-, behind⟩ := Prod.mk.inj (Option.some.inj h)
  have stops := List.head?_dropWhile_not Char.isDigit (tail ++ rest)
  rw [behind, next] at stops
  exact stops

/-- **Every fraction stands for the digits at its offset.** The induction is on the text as its
lexemes are split off, since what follows a lexeme is not known from the lexemes alone. -/
theorem exists_run_of_mem_label {previous : Option Token} {offset : Nat} {source : List Char}
    {found : Token.Located} {f : Fraction}
    (member : found ∈ Token.label previous offset (split source).1)
    (fraction : found.token = .fraction f) :
    ∃ run bytes, DigitRun.StandsAt run source bytes ∧ found.offset = offset + bytes ∧
      f = .ofRun run := by
  induction source using split.induct generalizing previous offset with
  | case1 source none =>
    rw [split_of_none none] at member
    cases member
  | case2 source lexeme rest first ih =>
    rw [split_of_first? first, Token.label] at member
    split at member
    · obtain ⟨run, bytes, stands, place, same⟩ := ih member
      exact ⟨run, _, first?_eq_some first ▸ stands.behind lexeme.chars, by omega, same⟩
    · next token labelled =>
      rcases List.mem_cons.mp member with rfl | later
      · obtain ⟨run, rfl, same⟩ := exists_run_of_token? (labelled.trans (congrArg some fraction))
        exact ⟨run, 0, standsAt_of_first? first, rfl, same⟩
      · obtain ⟨run, bytes, stands, place, same⟩ := ih later
        exact ⟨run, _, first?_eq_some first ▸ stands.behind lexeme.chars, by omega, same⟩

end Lexeme

theorem readAt_of_mem_scan {source : String} {found : Token.Located} {f : Fraction}
    (member : found ∈ (Token.scan source).tokens) (fraction : found.token = .fraction f) :
    f.ReadAt source found.offset := by
  obtain ⟨run, bytes, ⟨front, back, parts, rfl, ends⟩, place, rfl⟩ :=
    Lexeme.exists_run_of_mem_label member fraction
  obtain ⟨kept, cut, word, significant⟩ := Fraction.exists_word run
  exact ⟨front, run.chars, back, kept, parts, by omega, run.ne_nil, run.isDigit, ends,
    Fraction.ofChars?_chars run, cut, word, significant⟩

/-! ### Main statement -/

/-- **No step is undefined.**

A text is not read as a fraction exactly if, without the zeroes at its two ends, it is longer than
nineteen bytes and the nineteenth byte is not the last one of a character. The fractions of a text
are read from runs of digits, each of which is read and writes a word unless it consists of zeroes.
What the checker and the evaluator leave is the end of the tokens they were given. So guarding these
steps changes nothing. -/
theorem steps_defined (written source : String) (tokens : List Token) :
    (Fraction.ofChars? written.toList = none ↔
      19 < (Fraction.trimmed written).utf8ByteSize ∧
        ¬ (⟨19⟩ : String.Pos.Raw).IsValid (Fraction.trimmed written)) ∧
    (∀ found ∈ (Token.scan source).tokens, ∀ f, found.token = .fraction f →
      f.ReadAt source found.offset) ∧
    (∀ rest, check tokens = .ok rest → ∃ taken, taken ≠ [] ∧ tokens = taken ++ rest) ∧
    (∀ number rest, evaluate tokens = .ok (number, rest) →
      ∃ taken, taken ≠ [] ∧ tokens = taken ++ rest) ∧
    Guarded.Defined (Guarded.tokenize source) (Logged.tokenize source) ∧
    Guarded.Defined (Guarded.check tokens) (Logged.check tokens) ∧
    Guarded.Defined (Guarded.evaluate tokens) (Logged.evaluate tokens) ∧
    Guarded.Defined (Guarded.validate source) (Logged.validate source) ∧
    Guarded.Defined (Guarded.calculate source) (Logged.calculate source) := by
  refine ⟨Fraction.ofChars?_eq_none_iff written, ?fractions, ?checked, ?evaluated,
    Guarded.defined_of_eq (Guarded.tokenize_eq source),
    Guarded.defined_of_eq (Guarded.check_eq tokens),
    Guarded.defined_of_eq (Guarded.evaluate_eq tokens),
    Guarded.defined_of_eq (Guarded.validate_eq source),
    Guarded.defined_of_eq (Guarded.calculate_eq source)⟩
  case fractions => exact fun found member f fraction => readAt_of_mem_scan member fraction
  case checked =>
    intro rest taken
    obtain ⟨e, found⟩ := reads_of_check taken
    exact ⟨e.tokens, e.tokens_ne_nil, found.tokens_eq⟩
  case evaluated =>
    intro number rest taken
    obtain ⟨e, found, -⟩ := reads_of_evaluate taken
    exact ⟨e.tokens, e.tokens_ne_nil, found.tokens_eq⟩

end Calculator
