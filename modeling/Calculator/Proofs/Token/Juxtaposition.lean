import Calculator.Proofs.Token.Language

/-!
# What the first token of a text learns

A text that stands behind another one keeps its tokens, all but the first one. The first token is
labelled by the last token of the other text: a negation becomes a subtraction behind an operand,
and a number becomes a fraction behind a point (`Token.relabel`). It ends there. Of a token, the
next label depends only on whether an operand ends with it and whether it is a point, and the new
label of the first token does not change that (`Lexeme.tokens_eq_modifyHead`).

A number does not say how it was written, but a fraction depends on the zeroes that it begins with.
So the digits of the first token are taken from the text (`leadingRun?`).

Main statement: `tokenize_append`.
-/

namespace Calculator

/-- The run of digits that a text begins with behind its blanks. -/
def leadingRun? (source : List Char) : Option DigitRun :=
  match source.dropWhile isBlank with
  | [] => none
  | c :: rest => if digit : c.isDigit = true then some (Lexeme.digitRun c digit rest) else none

/-- The label that the first token of a text has behind another token. The digits are those that
the text begins with. -/
def Token.relabel (previous : Option Token) (run : Option DigitRun) : Token → Token
  | .negation => if previous.any endsOperand then .operator .sub else .negation
  | .number value =>
    if previous = some .point then run.elim (.number value) fun run => .fraction (.ofRun run)
    else .number value
  | token => token

namespace Lexeme

/-! ### The first token -/

/-- The run of digits that is the first lexeme that is no blank. -/
def firstRun? : List Lexeme → Option DigitRun
  | .blank _ _ :: rest => firstRun? rest
  | .digits run :: _ => some run
  | _ => none

theorem not_isDigit_of_isBlank {c : Char} (blank : isBlank c = true) : c.isDigit = false := by
  simp only [isBlank, Bool.or_eq_true, beq_iff_eq] at blank
  rcases blank with (((rfl | rfl) | rfl) | rfl) | rfl <;> rfl

theorem not_isBlank_of_isDigit {c : Char} (digit : c.isDigit = true) : isBlank c = false := by
  by_contra blank
  rw [not_isDigit_of_isBlank (Bool.not_eq_false _ ▸ blank)] at digit
  cases digit

/-- A lexeme that is neither a blank nor a run of digits begins with a character that is neither. -/
theorem leadingRun?_chars {lexeme : Lexeme} (noBlank : ∀ c blank, lexeme ≠ .blank c blank)
    (noDigits : ∀ run, lexeme ≠ .digits run) (rest : List Char) :
    leadingRun? (lexeme.chars ++ rest) = none := by
  cases lexeme with
  | blank c blank => exact absurd rfl (noBlank c blank)
  | digits run => exact absurd rfl (noDigits run)
  | operator op => cases op <;> rfl
  | exponentMark capital => cases capital <;> rfl
  | function f => cases f <;> rfl
  | point | opening | closing => rfl

/-- The digits that a text begins with are its first lexeme behind the blanks. -/
theorem firstRun?_split (source : List Char) : firstRun? (split source).1 = leadingRun? source := by
  fun_induction split source with
  | case1 source unstarted =>
    cases source with
    | nil => rfl
    | cons c rest =>
      -- Neither a blank nor a digit can begin the text, for both are the beginning of a lexeme.
      have noBlank : isBlank c = false := by
        by_contra blank
        have blank : isBlank c = true := Bool.not_eq_false _ ▸ blank
        exact first?_eq_none_iff.mp unstarted (.blank c blank) rest rfl
      have noDigit : c.isDigit = false := by
        by_contra digit
        rw [first?_of_digit (Bool.not_eq_false _ ▸ digit)] at unstarted
        cases unstarted
      simp [leadingRun?, noBlank, noDigit, firstRun?]
  | case2 source lexeme rest found following ih =>
    obtain rfl := first?_eq_some found
    cases lexeme with
    | blank c blank =>
      have dropped : leadingRun? (c :: rest) = leadingRun? rest := by
        simp only [leadingRun?, List.dropWhile_cons_of_pos blank]
      exact ih.trans dropped.symm
    | digits run =>
      obtain ⟨c, tail, parts⟩ := List.exists_cons_of_ne_nil run.ne_nil
      have digit : c.isDigit = true := run.isDigit c (by simp [parts])
      have noBlank := not_isBlank_of_isDigit digit
      rw [chars, parts, List.cons_append, first?_of_digit digit] at found
      simp only [Option.some.injEq, Prod.mk.injEq, digits.injEq] at found
      simp [chars, parts, leadingRun?, noBlank, digit, firstRun?, found.1]
    | _ => exact (leadingRun?_chars (by simp) (by simp) rest).symm

/-- **The first token and no other one** is labelled by what precedes the lexemes. -/
theorem tokens_eq_modifyHead (previous : Option Token) (lexemes : List Lexeme) :
    tokens previous lexemes =
      (tokens none lexemes).modifyHead (Token.relabel previous (firstRun? lexemes)) := by
  induction lexemes with
  | nil => rfl
  | cons lexeme rest ih =>
    cases lexeme with
    | blank c blank => exact ih
    | digits run =>
      by_cases point : previous = some .point
      · -- A fraction ends an operand as the number does that it would be.
        have behind : tokens (some (.fraction (.ofRun run))) rest =
            tokens (some (.number run.toFloat)) rest :=
          tokens_congr (by rfl) (by simp) rest
        simp [tokens, token?, Token.relabel, firstRun?, point, behind]
      · simp [tokens, token?, Token.relabel, point]
    | operator op =>
      cases op with
      | sub =>
        by_cases ends : previous.any Token.endsOperand = true
        · -- A subtraction ends no operand, and neither does the negation that it would be.
          have behind : tokens (some (.operator .sub)) rest = tokens (some .negation) rest :=
            tokens_congr (by rfl) (by simp) rest
          simp [tokens, token?, Token.relabel, ends, behind]
        · simp [tokens, token?, Token.relabel, ends]
      | _ => rfl
    | _ => rfl

/-- A number that is the first token is written with the digits that come first. -/
theorem firstRun?_of_number {lexemes : List Lexeme} {x : Float} {behind : List Token}
    (h : tokens none lexemes = .number x :: behind) :
    ∃ run, firstRun? lexemes = some run ∧ x = run.toFloat := by
  induction lexemes with
  | nil => cases h
  | cons lexeme rest ih =>
    cases lexeme with
    | blank c blank => exact ih h
    | digits run =>
      cases h
      exact ⟨run, rfl, rfl⟩
    | operator op => cases op <;> cases h
    | _ => cases h

/-! ### Blanks -/

theorem spells_blanks {blanks : List Char} (all : ∀ c ∈ blanks, isBlank c = true)
    (previous : Option Token) : Spells previous blanks [] := by
  induction blanks with
  | nil => exact .nil previous
  | cons c rest ih =>
    have behind := ih fun d member => all d (List.mem_cons_of_mem c member)
    exact .blank (all c List.mem_cons_self) behind

/-- Behind blanks and in front of them, no run of digits is joined. -/
theorem seam_blanks {blanks : List Char} (all : ∀ c ∈ blanks, isBlank c = true)
    (source : List Char) : Seam source blanks := by
  refine seam_of_head (fun d head => ?_) source
  obtain ⟨tail, rfl⟩ := List.head?_eq_some_iff.mp head
  exact not_isDigit_of_isBlank (all d List.mem_cons_self)

theorem seam_append_blanks {blanks source rest : List Char}
    (all : ∀ c ∈ blanks, isBlank c = true) (seam : Seam source rest) :
    Seam (source ++ blanks) rest := by
  intro c d last head digit
  rw [List.getLast?_append] at last
  cases end? : blanks.getLast? with
  | none =>
    rw [end?] at last
    exact seam c d last head digit
  | some blank =>
    rw [end?] at last
    cases last
    have noDigit := not_isDigit_of_isBlank (all c (List.mem_of_getLast? end?))
    rw [noDigit] at digit
    cases digit

end Lexeme

/-! ### Two texts -/

section Juxtaposition

variable {a b : String} {before : List Token}

/-- The tokens of two texts, one behind the other. -/
theorem tokenize_append_of_ok (scanned : tokenize a = .ok before)
    (seam : Lexeme.Seam a.toList b.toList) {behind : List Token}
    (scanned' : tokenize b = .ok behind) :
    tokenize (a ++ b) = .ok (before ++
      behind.modifyHead (Token.relabel before.getLast? (leadingRun? b.toList))) := by
  obtain ⟨whole, rfl⟩ := tokenize_eq_ok_iff.mp scanned
  obtain ⟨whole', rfl⟩ := tokenize_eq_ok_iff.mp scanned'
  rw [tokenize_eq_ok_iff, Spells, String.toList_append, Lexeme.split_append whole seam]
  refine ⟨whole', ?_⟩
  rw [Lexeme.tokens_append, Option.or_none,
    Lexeme.tokens_eq_modifyHead _ (Lexeme.split b.toList).1, Lexeme.firstRun?_split]

/-- The fault of the second text is a fault of both together, as many bytes further on as the first
text takes up. -/
theorem tokenize_append_of_error (scanned : tokenize a = .ok before)
    (seam : Lexeme.Seam a.toList b.toList) {c : Char} {position : Nat}
    (fault : tokenize b = .error (.unrecognized c position)) :
    tokenize (a ++ b) = .error (.unrecognized c (a.utf8ByteSize + position)) := by
  have whole : (Lexeme.split a.toList).2 = [] := exists_tokens_iff.mp ⟨before, scanned⟩
  obtain ⟨head, rfl⟩ := tokenize_eq_error_iff.mp fault
  have text := Lexeme.flatMap_chars_split a.toList
  rw [whole, List.append_nil] at text
  rw [tokenize_eq_error_iff, String.toList_append, Lexeme.split_append whole seam]
  refine ⟨head, ?_⟩
  rw [List.flatMap_append, text, byteCount_eq_utf8ByteSize, byteCount_eq_utf8ByteSize,
    String.ofList_append, String.utf8ByteSize_append, String.ofList_toList]

/-- Blanks behind a text add no token. -/
theorem tokenize_append_blanks (scanned : tokenize a = .ok before) {blanks : String}
    (all : ∀ c ∈ blanks.toList, isBlank c = true) : tokenize (a ++ blanks) = .ok before := by
  have none : tokenize blanks = .ok [] := tokenize_eq_ok_iff.mpr (Lexeme.spells_blanks all none)
  have appended := tokenize_append_of_ok scanned (Lexeme.seam_blanks all a.toList) none
  simpa using appended

/-- **Two texts, one behind the other.** Unless a run of digits is joined at the seam:

* the tokens are those of the first text and those of the second one, of which the first is labelled
  by the last token of the first text;
* if that first token is a number, it is the number of the digits that its new label is made from;
* a fault of the second text is a fault of both, with its position counted on from the first text;
* blanks between the two texts make no difference to the tokens. -/
theorem tokenize_append (scanned : tokenize a = .ok before)
    (seam : Lexeme.Seam a.toList b.toList) :
    (∀ behind, tokenize b = .ok behind →
      tokenize (a ++ b) = .ok (before ++
        behind.modifyHead (Token.relabel before.getLast? (leadingRun? b.toList)))) ∧
    (∀ x behind, tokenize b = .ok (.number x :: behind) →
      ∃ run, leadingRun? b.toList = some run ∧ x = run.toFloat) ∧
    (∀ c position, tokenize b = .error (.unrecognized c position) →
      tokenize (a ++ b) = .error (.unrecognized c (a.utf8ByteSize + position))) ∧
    ∀ blanks : String, (∀ c ∈ blanks.toList, isBlank c = true) → ∀ tokens,
      tokenize (a ++ blanks ++ b) = .ok tokens ↔ tokenize (a ++ b) = .ok tokens := by
  refine ⟨fun behind => tokenize_append_of_ok scanned seam, ?_,
    fun c position => tokenize_append_of_error scanned seam, ?_⟩
  · intro x behind number
    rw [← Lexeme.firstRun?_split]
    exact Lexeme.firstRun?_of_number (tokenize_eq_ok_iff.mp number).2
  · intro blanks all tokens
    have scanned' := tokenize_append_blanks scanned all
    -- Blanks at the seam keep digits apart; if there are none, the seam is the old one.
    have seam' : Lexeme.Seam (a ++ blanks).toList b.toList := by
      rw [String.toList_append]
      exact Lexeme.seam_append_blanks all seam
    cases second : tokenize b with
    | ok behind =>
      rw [tokenize_append_of_ok scanned' seam' second, tokenize_append_of_ok scanned seam second]
    | error cause =>
      obtain ⟨c, position⟩ := cause
      rw [tokenize_append_of_error scanned' seam' second,
        tokenize_append_of_error scanned seam second]
      exact iff_of_false nofun nofun

/-- Behind `2.` the digits of ` 05-7` are a fraction, and the minus behind them is a subtraction as
before. A tab at the seam changes nothing. -/
theorem tokenize_append_fraction :
    let before : List Token := [.number 2.0, .point]
    let behind : List Token := [.number 5.0, .operator .sub, .number 7.0]
    let joined : List Token := [.fraction ⟨5, 1⟩, .operator .sub, .number 7.0]
    tokenize "2." = .ok before ∧ Lexeme.Seam "2.".toList " 05-7".toList ∧
      tokenize " 05-7" = .ok behind ∧ tokenize "2. 05-7" = .ok (before ++ joined) ∧
      tokenize "2.\t 05-7" = .ok (before ++ joined) ∧
      tokenize " 05-é" = .error (.unrecognized 'é' 4) ∧
      tokenize "2. 05-é" = .error (.unrecognized 'é' 6) := by
  intro before behind joined
  have first : tokenize "2." = .ok before := by decide +kernel
  have second : tokenize " 05-7" = .ok behind := by decide +kernel
  have fault : tokenize " 05-é" = .error (.unrecognized 'é' 4) := by decide +kernel
  have seam : Lexeme.Seam "2.".toList " 05-7".toList :=
    Lexeme.seam_of_head (by simp) _
  have seam' : Lexeme.Seam "2.".toList " 05-é".toList :=
    Lexeme.seam_of_head (by simp) _
  have labelled : behind.modifyHead (Token.relabel before.getLast? (leadingRun? " 05-7".toList)) =
      joined := by decide +kernel
  obtain ⟨tokens, -, -, blanks⟩ := tokenize_append first seam
  have whole : tokenize "2. 05-7" = .ok (before ++ joined) := by
    rw [← labelled]
    exact tokens behind second
  have tab : ∀ c ∈ "\t".toList, isBlank c = true := by simp [isBlank]
  have spaced := (blanks "\t" tab _).mpr whole
  exact ⟨first, seam, second, whole, spaced, fault,
    (tokenize_append first seam').2.2.1 _ _ fault⟩

end Juxtaposition

end Calculator
