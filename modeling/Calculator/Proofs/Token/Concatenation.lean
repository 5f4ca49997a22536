import Mathlib.Data.List.TakeWhile
import Calculator.Proofs.Grammar.Reads
import Calculator.Token.Scan

/-!
# Texts one behind the other

The lexemes of two texts that stand one behind the other are the lexemes of the first text and then
those of the second one, unless a run of digits is joined at the seam (`Lexeme.split_append`). Their
tokens are labelled in one go, and all that the second text learns about the first one is its last
token (`Lexeme.tokens_append`). Of that token it only matters whether an operand ends with it and
whether it is a point (`Lexeme.tokens_congr`). Read the other way, the label of a token tells what
stands in front of it (`Token.LabelledBehind`, `labelledBehind_of_tokenize`).

`Spells previous chars tokens` says that characters have these tokens when they stand behind a
certain token. It can be put together from pieces: `Spells.cons` for a lexeme, `Spells.enclosed`
for a text in an enclosure.
-/

namespace Calculator

namespace Lexeme

/-! ### The lexemes of two texts -/

/-- Where one text ends and the other begins, no run of digits is joined. -/
def Seam (source rest : List Char) : Prop :=
  ∀ c d, source.getLast? = some c → rest.head? = some d → c.isDigit = true → d.isDigit = false

theorem seam_of_head {rest : List Char} (h : ∀ d, rest.head? = some d → d.isDigit = false)
    (source : List Char) : Seam source rest :=
  fun _ d _ head _ => h d head

/-- A later part of the first text meets the second text at the same seam. -/
theorem Seam.of_append {before source rest : List Char} (h : Seam (before ++ source) rest) :
    Seam source rest := by
  intro c d last head
  refine h c d ?_ head
  rw [List.getLast?_append, last]
  rfl

theorem digitRun_congr {first : Char} (digit : first.isDigit = true) {rest rest' : List Char}
    (h : rest.takeWhile Char.isDigit = rest'.takeWhile Char.isDigit) :
    digitRun first digit rest = digitRun first digit rest' := by
  simp only [digitRun, h]

/-- Behind a run of digits that ends the first text, the second text adds no digit. -/
theorem span_append {first : Char} {tail rest : List Char} (seam : Seam (first :: tail) rest)
    (digit : first.isDigit = true) :
    (tail ++ rest).takeWhile Char.isDigit = tail.takeWhile Char.isDigit ∧
      (tail ++ rest).dropWhile Char.isDigit = tail.dropWhile Char.isDigit ++ rest := by
  by_cases all : ∀ c ∈ tail, c.isDigit = true
  · -- The whole first text is one run, so its last character is a digit.
    have last : ∃ c, (first :: tail).getLast? = some c ∧ c.isDigit = true := by
      refine ⟨(first :: tail).getLast (List.cons_ne_nil _ _), List.getLast?_eq_some_getLast _, ?_⟩
      rcases List.mem_cons.mp (List.getLast_mem (List.cons_ne_nil first tail)) with same | member
      · rw [same]
        exact digit
      · exact all _ member
    obtain ⟨c, last, isDigit⟩ := last
    have stops : ∀ d, rest.head? = some d → d.isDigit = false := fun d head =>
      seam c d last head isDigit
    rw [List.takeWhile_append_of_pos all, List.dropWhile_append_of_pos all]
    cases rest with
    | nil => simp [List.takeWhile_eq_self_iff.mpr all, List.dropWhile_eq_nil_iff.mpr all]
    | cons d rest =>
      have stop := stops d rfl
      simp [stop, List.takeWhile_eq_self_iff.mpr all, List.dropWhile_eq_nil_iff.mpr all]
  · rw [List.takeWhile_append, List.dropWhile_append]
    have taken : (tail.takeWhile Char.isDigit).length ≠ tail.length := by
      intro same
      have := List.takeWhile_eq_self_iff.mp
        ((List.takeWhile_prefix Char.isDigit).eq_of_length same)
      exact all this
    have left : tail.dropWhile Char.isDigit ≠ [] := fun none =>
      all (List.dropWhile_eq_nil_iff.mp none)
    rw [if_neg taken, if_neg (by simpa using left)]
    exact ⟨rfl, rfl⟩

theorem function?_append (f : Trig) (rest : List Char) :
    function? ((function f).chars ++ rest) = some (f, rest) := by
  cases f <;> rfl

/-- The lexeme at the start of a text is found whatever follows the text. -/
theorem first?_append {source after rest : List Char} {lexeme : Lexeme}
    (found : first? source = some (lexeme, after)) (seam : Seam source rest) :
    first? (source ++ rest) = some (lexeme, after ++ rest) := by
  cases source with
  | nil => cases found
  | cons c tail =>
    rw [List.cons_append]
    simp only [first?] at found ⊢
    by_cases digit : c.isDigit = true
    · -- Only a run of digits could go on in the second text.
      rw [dif_pos digit] at found ⊢
      cases found
      obtain ⟨taken, left⟩ := span_append seam digit
      rw [left, digitRun_congr digit taken]
    · rw [dif_neg digit] at found ⊢
      cases single : single? c with
      | some lexeme' =>
        rw [single] at found
        cases found
        rfl
      | none =>
        -- A name is taken as a whole, so it is in the first text as a whole.
        rw [single] at found
        obtain ⟨⟨f, after'⟩, called, same⟩ := Option.map_eq_some_iff.mp found
        cases same
        have parts := eq_of_function? called
        have again := function?_append f (after' ++ rest)
        rw [← List.append_assoc, ← parts, List.cons_append] at again
        rw [again]
        rfl

/-- A lexeme that is no run of digits is found in front of everything. -/
theorem first?_chars {lexeme : Lexeme} (h : ∀ run, lexeme ≠ digits run) (rest : List Char) :
    first? (lexeme.chars ++ rest) = some (lexeme, rest) := by
  cases lexeme with
  | blank c blank =>
    have noDigit : c.isDigit = false := by
      simp only [isBlank, Bool.or_eq_true, beq_iff_eq] at blank
      rcases blank with (((rfl | rfl) | rfl) | rfl) | rfl <;> rfl
    simp [chars, first?, noDigit, single?, blank]
  | operator op => cases op <;> rfl
  | exponentMark capital => cases capital <;> rfl
  | function f => cases f <;> rfl
  | digits run => exact absurd rfl (h run)
  | point | opening | closing => rfl

/-- A run of digits is one lexeme. -/
theorem first?_run (run : DigitRun) : first? run.chars = some (digits run, []) := by
  obtain ⟨chars, ne, digits⟩ := run
  cases chars with
  | nil => exact absurd rfl ne
  | cons c rest =>
    have digit : c.isDigit = true := digits c List.mem_cons_self
    have more : ∀ d ∈ rest, d.isDigit = true := fun d member =>
      digits d (List.mem_cons_of_mem c member)
    simp only [first?]
    rw [dif_pos digit, List.dropWhile_eq_nil_iff.mpr more]
    simp only [digitRun, List.takeWhile_eq_self_iff.mpr more]

/-- Every lexeme is found in front of what is no digit. -/
theorem first?_chars_of_head (lexeme : Lexeme) {rest : List Char}
    (stops : ∀ d, rest.head? = some d → d.isDigit = false) :
    first? (lexeme.chars ++ rest) = some (lexeme, rest) := by
  by_cases digits : ∃ run, lexeme = digits run
  · obtain ⟨run, rfl⟩ := digits
    exact first?_append (first?_run run) (seam_of_head stops run.chars)
  · exact first?_chars (fun run same => digits ⟨run, same⟩) rest

theorem split_of_first? {source rest : List Char} {lexeme : Lexeme}
    (found : first? source = some (lexeme, rest)) :
    split source = (lexeme :: (split rest).1, (split rest).2) := by
  rw [split]
  split
  · next none =>
    rw [found] at none
    cases none
  · next some =>
    rw [found] at some
    cases some
    rfl

theorem split_of_none {source : List Char} (none : first? source = none) :
    split source = ([], source) := by
  rw [split]
  split
  · rfl
  · next some =>
    rw [none] at some
    cases some

/-- **The lexemes of two texts**, one behind the other. -/
theorem split_append {source rest : List Char} (whole : (split source).2 = [])
    (seam : Seam source rest) :
    split (source ++ rest) = ((split source).1 ++ (split rest).1, (split rest).2) := by
  fun_induction split source with
  | case1 source none =>
    subst whole
    rfl
  | case2 source lexeme after found following ih =>
    have later : Seam after rest := by
      rw [first?_eq_some found] at seam
      exact seam.of_append
    rw [split_of_first? (first?_append found seam), ih whole later]
    rfl

/-! ### The tokens of lexemes -/

/-- The tokens of lexemes that stand behind a token. -/
def tokens (previous : Option Token) : List Lexeme → List Token
  | [] => []
  | lexeme :: rest =>
    match lexeme.token? previous with
    | none => tokens previous rest
    | some token => token :: tokens (some token) rest

/-- The offsets have no influence on the tokens. -/
theorem map_token_label (previous : Option Token) (offset : Nat) (lexemes : List Lexeme) :
    (Token.label previous offset lexemes).map (·.token) = tokens previous lexemes := by
  induction lexemes generalizing previous offset with
  | nil => rfl
  | cons lexeme rest ih =>
    rw [Token.label, tokens]
    cases lexeme.token? previous with
    | none => exact ih previous _
    | some token => exact congrArg (token :: ·) (ih (some token) _)

/-- **Labelling goes on behind the last token.** -/
theorem tokens_append (previous : Option Token) (lexemes lexemes' : List Lexeme) :
    tokens previous (lexemes ++ lexemes') = tokens previous lexemes ++
      tokens ((tokens previous lexemes).getLast?.or previous) lexemes' := by
  induction lexemes generalizing previous with
  | nil => rfl
  | cons lexeme rest ih =>
    rw [List.cons_append, tokens, tokens]
    cases lexeme.token? previous with
    | none => exact ih previous
    | some token =>
      -- From here on, the first token takes the place of what precedes it.
      dsimp only
      rw [ih (some token), List.cons_append, List.getLast?_cons]
      cases (tokens (some token) rest).getLast? <;> rfl

/-- A lexeme looks at two properties of the token in front of it. -/
theorem token?_congr {previous previous' : Option Token}
    (operand : previous.any Token.endsOperand = previous'.any Token.endsOperand)
    (point : previous = some .point ↔ previous' = some .point) (lexeme : Lexeme) :
    lexeme.token? previous = lexeme.token? previous' := by
  cases lexeme with
  | operator op => cases op <;> simp [token?, operand]
  | digits run => simp [token?, point]
  | _ => rfl

/-- **All that tokens depend on** in what precedes them is whether an operand ends there and whether
a point stands there. Behind the first token, not even that. -/
theorem tokens_congr {previous previous' : Option Token}
    (operand : previous.any Token.endsOperand = previous'.any Token.endsOperand)
    (point : previous = some .point ↔ previous' = some .point) (lexemes : List Lexeme) :
    tokens previous lexemes = tokens previous' lexemes := by
  induction lexemes with
  | nil => rfl
  | cons lexeme rest ih =>
    rw [tokens, tokens, token?_congr operand point lexeme]
    cases lexeme.token? previous' with
    | none => exact ih
    | some token => rfl

end Lexeme

/-! ### Labels -/

/-- The label of a token is the one that it gets behind another token: a subtraction where an operand
ends and a negation where none does, a fraction behind a point and a number everywhere else. -/
def Token.LabelledBehind (previous : Option Token) : Token → Prop
  | .operator .sub => previous.any endsOperand = true
  | .negation => previous.any endsOperand = false
  | .fraction _ => previous = some .point
  | .number _ => previous ≠ some .point
  | _ => True

namespace Lexeme

theorem labelledBehind_of_token? {previous : Option Token} {lexeme : Lexeme} {token : Token}
    (h : lexeme.token? previous = some token) : token.LabelledBehind previous := by
  cases lexeme with
  | blank c blank => cases h
  | operator op =>
    cases op with
    | sub =>
      cases ends : previous.any Token.endsOperand <;>
        simp only [token?, ends, Option.some.injEq] at h <;> subst h <;> exact ends
    | _ =>
      cases h
      trivial
  | digits run =>
    by_cases point : previous = some .point <;>
      simp only [token?, point, if_true, if_false, Option.some.injEq] at h <;> subst h <;>
      exact point
  | _ =>
    cases h
    trivial

/-- **Every token is labelled by the token in front of it.** -/
theorem labelledBehind_of_tokens {previous : Option Token} {lexemes : List Lexeme}
    {before after : List Token} {token : Token}
    (h : tokens previous lexemes = before ++ token :: after) :
    token.LabelledBehind (before.getLast?.or previous) := by
  induction lexemes generalizing previous before with
  | nil => cases before <;> cases h
  | cons lexeme rest ih =>
    rw [tokens] at h
    cases labelled : lexeme.token? previous with
    | none =>
      rw [labelled] at h
      exact ih h
    | some first =>
      rw [labelled] at h
      cases before with
      | nil =>
        cases h
        exact labelledBehind_of_token? labelled
      | cons _ before =>
        obtain ⟨rfl, behind⟩ := List.cons.inj h
        -- From here on, the first token takes the place of what precedes it.
        rw [List.getLast?_cons]
        have later := ih behind
        cases last : before.getLast? <;> rw [last] at later <;> exact later

end Lexeme

/-! ### Spelling -/

/-- Behind a token, characters consist of lexemes and have these tokens. -/
def Spells (previous : Option Token) (chars : List Char) (tokens : List Token) : Prop :=
  (Lexeme.split chars).2 = [] ∧ Lexeme.tokens previous (Lexeme.split chars).1 = tokens

theorem tokenize_eq_ok_iff {source : String} {tokens : List Token} :
    tokenize source = .ok tokens ↔ Spells none source.toList tokens := by
  have scanned : (Token.scan source).tokens.map (·.token) =
      Lexeme.tokens none (Lexeme.split source.toList).1 :=
    Lexeme.map_token_label none 0 _
  have failure : (Token.scan source).failure = none ↔ (Lexeme.split source.toList).2 = [] := by
    change Option.map _ (Lexeme.split source.toList).2.head? = none ↔ _
    rw [Option.map_eq_none_iff, List.head?_eq_none_iff]
  rw [tokenize, scanned, Spells, ← failure]
  cases (Token.scan source).failure with
  | some cause => simp
  | none => simp

/-- The tokens of a text are labelled as they stand in the text. -/
theorem labelledBehind_of_tokenize {source : String} {before after : List Token} {token : Token}
    (h : tokenize source = .ok (before ++ token :: after)) :
    token.LabelledBehind before.getLast? := by
  have labelled := Lexeme.labelledBehind_of_tokens (tokenize_eq_ok_iff.mp h).2
  rwa [Option.or_none] at labelled

/-- The lexeme that opens an enclosure. -/
def Enclosure.lexeme : Enclosure → Lexeme
  | .parentheses => .opening
  | .argument function => .function function

theorem Enclosure.chars_lexeme (enclosure : Enclosure) :
    enclosure.lexeme.chars = enclosure.opener.text.toList := by
  cases enclosure with
  | parentheses => rfl
  | argument function => cases function <;> rfl

namespace Spells

variable {previous : Option Token} {rest : List Char} {tokens : List Token}

theorem nil (previous : Option Token) : Spells previous [] [] := by
  rw [Spells, Lexeme.split_of_none rfl]
  exact ⟨rfl, rfl⟩

theorem of_first? {source : List Char} {lexeme : Lexeme} {token : Token}
    (found : Lexeme.first? source = some (lexeme, rest))
    (labelled : lexeme.token? previous = some token) (behind : Spells (some token) rest tokens) :
    Spells previous source (token :: tokens) := by
  rw [Spells, Lexeme.split_of_first? found]
  refine ⟨behind.1, ?_⟩
  rw [Lexeme.tokens, labelled]
  exact congrArg (token :: ·) behind.2

/-- A lexeme in front. -/
theorem cons (lexeme : Lexeme) {token : Token} (h : ∀ run, lexeme ≠ .digits run)
    (labelled : lexeme.token? previous = some token) (behind : Spells (some token) rest tokens) :
    Spells previous (lexeme.chars ++ rest) (token :: tokens) :=
  of_first? (Lexeme.first?_chars h rest) labelled behind

/-- A blank in front. -/
theorem blank {c : Char} (isBlank : isBlank c = true) (behind : Spells previous rest tokens) :
    Spells previous (c :: rest) tokens := by
  have found : Lexeme.first? (c :: rest) = some (.blank c isBlank, rest) :=
    @Lexeme.first?_chars (.blank c isBlank) nofun rest
  rw [Spells, Lexeme.split_of_first? found]
  exact behind

/-- Behind the token that opens an enclosure, a text has the tokens that it has by itself. -/
theorem inside {source : String} {inner : List Token} (h : tokenize source = .ok inner)
    (enclosure : Enclosure) : Spells (some enclosure.opener) source.toList inner := by
  obtain ⟨whole, labelled⟩ := tokenize_eq_ok_iff.mp h
  refine ⟨whole, ?_⟩
  rw [← labelled]
  -- An opening token is like the start of a text: it ends no operand and is no point.
  have noPoint : some enclosure.opener = some Token.point ↔ none = some Token.point := by
    cases enclosure <;> simp [Enclosure.opener]
  refine Lexeme.tokens_congr ?_ noPoint _
  cases enclosure <;> rfl

/-- A closing parenthesis behind a text. -/
theorem closing {chars : List Char} {inner : List Token} (h : Spells previous chars inner)
    (behind : Spells (some .closing) rest tokens) :
    Spells previous (chars ++ ')' :: rest) (inner ++ .closing :: tokens) := by
  -- A parenthesis is no digit, so no run of digits is joined.
  have seam : Lexeme.Seam chars (')' :: rest) := Lexeme.seam_of_head (by simp) chars
  have last : Lexeme.split (')' :: rest) =
      (.closing :: (Lexeme.split rest).1, (Lexeme.split rest).2) :=
    Lexeme.split_of_first? rfl
  rw [Spells, Lexeme.split_append h.1 seam, last]
  refine ⟨behind.1, ?_⟩
  rw [Lexeme.tokens_append, h.2]
  exact congrArg (inner ++ .closing :: ·) behind.2

/-- **A text in an enclosure** keeps its tokens. -/
theorem enclosed (previous : Option Token) (enclosure : Enclosure) {source : String}
    {inner : List Token} (h : tokenize source = .ok inner)
    (behind : Spells (some .closing) rest tokens) :
    Spells previous (enclosure.opener.text.toList ++ (source.toList ++ ')' :: rest))
      (enclosure.opener :: (inner ++ .closing :: tokens)) := by
  rw [← enclosure.chars_lexeme]
  have closed := closing (inside h enclosure) behind
  cases enclosure <;> exact cons _ nofun rfl closed

end Spells

end Calculator
