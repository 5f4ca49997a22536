import Calculator.Proofs.Token.Concatenation

/-!
# The lexical language

A word is a blank, a sign, the name of a function with its parenthesis, or a run of digits (`Word`),
and the texts that have tokens are those that are made of words (`Written`). A text can be made of
words in several ways, since a run of digits can be cut anywhere. The lexemes of a text are one of
these ways, the one that takes the longest word each time.

That the longest words are a way at all is not clear by itself, for a word that is too long uses up
the beginning of the next one. Here it does no harm: only runs of digits can be made longer, and
they grow by whole runs or parts of runs, so what is behind the digits is made of words again
(`Composed.dropDigits`).

If a text is not made of words, one place is to blame: in front of it there are tokens, and no word
begins there (`FirstFault`). Since no word begins there, nothing in front of that place is joined
with what is behind it, and the lexemes end exactly there, in whichever way the place was found.

Main statement: `tokenize_language`.
-/

namespace Calculator

/-! ### Words -/

/-- The words that are no runs of digits. -/
def fixedWords : List String :=
  [" ", "\t", "\r", "\n", "\x0c", "+", "-", "*", "/", "%", "^", ".", "(", ")", "E", "e", "sin(",
    "cos(", "tan("]

/-- A word: one of the fixed ones or a nonempty run of digits. -/
def Word (text : String) : Prop :=
  text ∈ fixedWords ∨ text ≠ "" ∧ ∀ c ∈ text.toList, c.isDigit = true

/-- A text is made of words. -/
def Written (source : String) : Prop :=
  ∃ words : List String, (∀ word ∈ words, Word word) ∧ String.join words = source

/-- So many bytes into the text stands a character with which no word begins, and what is in front
of it has tokens. -/
def FirstFault (source : String) (character : Char) (position : Nat) : Prop :=
  ∃ before rest : String, source = before ++ rest ∧ position = before.utf8ByteSize ∧
    (∃ tokens, tokenize before = .ok tokens) ∧ rest.toList.head? = some character ∧
    ∀ word behind, Word word → rest ≠ word ++ behind

namespace Lexeme

theorem first?_of_digit {c : Char} (digit : c.isDigit = true) (rest : List Char) :
    first? (c :: rest) = some (.digits (digitRun c digit rest), rest.dropWhile Char.isDigit) :=
  dif_pos digit

/-- A text that begins with a lexeme begins with a longest one. -/
theorem isSome_first? (lexeme : Lexeme) (rest : List Char) :
    (first? (lexeme.chars ++ rest)).isSome := by
  by_cases digits : ∃ run, lexeme = digits run
  · obtain ⟨run, rfl⟩ := digits
    obtain ⟨c, tail, parts⟩ := List.exists_cons_of_ne_nil run.ne_nil
    have digit : c.isDigit = true := run.isDigit c (by simp [parts])
    rw [chars, parts, List.cons_append, first?_of_digit digit]
    rfl
  · rw [first?_chars (fun run same => digits ⟨run, same⟩)]
    rfl

/-- No lexeme is found where no lexeme begins. -/
theorem first?_eq_none_iff {source : List Char} :
    first? source = none ↔ ∀ (lexeme : Lexeme) rest, source ≠ lexeme.chars ++ rest := by
  constructor
  · rintro none lexeme rest rfl
    have some := isSome_first? lexeme rest
    rw [none] at some
    cases some
  · intro unstarted
    rw [Option.eq_none_iff_forall_ne_some]
    rintro ⟨lexeme, rest⟩ found
    exact unstarted lexeme rest (first?_eq_some found)

/-- **Words are the texts of lexemes.** -/
theorem word_iff {text : String} : Word text ↔ ∃ lexeme : Lexeme, lexeme.chars = text.toList := by
  constructor
  · rintro (fixed | ⟨nonempty, digits⟩)
    · -- A fixed word begins with a lexeme, and nothing is left behind that.
      have all : ∀ word ∈ fixedWords,
          (first? word.toList).any (fun found => found.1.chars == word.toList) = true := by decide
      obtain ⟨found, -, same⟩ := (Option.any_eq_true _ _).mp (all text fixed)
      exact ⟨found.1, beq_iff_eq.mp same⟩
    · exact ⟨.digits ⟨text.toList, by simpa using nonempty, digits⟩, rfl⟩
  · rintro ⟨lexeme, same⟩
    obtain rfl : text = String.ofList lexeme.chars := by rw [same, String.ofList_toList]
    cases lexeme with
    | digits run =>
      right
      rw [chars, String.toList_ofList]
      exact ⟨by simpa using run.ne_nil, run.isDigit⟩
    | blank c blank =>
      left
      rw [chars]
      simp only [isBlank, Bool.or_eq_true, beq_iff_eq] at blank
      rcases blank with (((rfl | rfl) | rfl) | rfl) | rfl <;> decide
    | operator op => cases op <;> exact .inl (by decide)
    | exponentMark capital => cases capital <;> exact .inl (by decide)
    | function f => cases f <;> exact .inl (by decide)
    | point | opening | closing => exact .inl (by decide)

/-! ### Texts made of lexemes -/

/-- Some lexemes, one behind the other, make up the text. -/
def Composed (source : List Char) : Prop :=
  ∃ lexemes : List Lexeme, lexemes.flatMap chars = source

/-- A lexeme that is no run of digits does not begin with a digit. -/
theorem dropWhile_isDigit_chars {lexeme : Lexeme} (h : ∀ run, lexeme ≠ digits run)
    (rest : List Char) : (lexeme.chars ++ rest).dropWhile Char.isDigit = lexeme.chars ++ rest := by
  have found := first?_chars h rest
  cases parts : lexeme.chars ++ rest with
  | nil => rfl
  | cons c tail =>
    refine List.dropWhile_cons_of_neg fun digit => ?_
    -- Otherwise the lexeme at the start would be a run of digits.
    rw [parts, first?_of_digit digit] at found
    cases found
    exact h _ rfl

/-- **Without the digits at its start**, a text made of lexemes is made of lexemes. -/
theorem Composed.dropDigits {source : List Char} (h : Composed source) :
    Composed (source.dropWhile Char.isDigit) := by
  obtain ⟨lexemes, rfl⟩ := h
  induction lexemes with
  | nil => exact ⟨[], rfl⟩
  | cons lexeme lexemes ih =>
    rw [List.flatMap_cons]
    by_cases run : ∃ run, lexeme = digits run
    · obtain ⟨run, rfl⟩ := run
      rw [chars, List.dropWhile_append_of_pos run.isDigit]
      exact ih
    · rw [dropWhile_isDigit_chars (fun digits same => run ⟨digits, same⟩)]
      exact ⟨lexeme :: lexemes, List.flatMap_cons⟩

/-- Behind the longest lexeme, a text made of lexemes is made of lexemes. -/
theorem Composed.of_first? {source rest : List Char} {lexeme : Lexeme} (h : Composed source)
    (found : first? source = some (lexeme, rest)) : Composed rest := by
  obtain ⟨lexemes, rfl⟩ := h
  cases lexemes with
  | nil => cases found
  | cons first lexemes =>
    rw [List.flatMap_cons] at found
    by_cases run : ∃ run, first = digits run
    · -- The longest run takes the digits of the first one and all that follow.
      obtain ⟨run, rfl⟩ := run
      obtain ⟨c, tail, parts⟩ := List.exists_cons_of_ne_nil run.ne_nil
      have digit : c.isDigit = true := run.isDigit c (by simp [parts])
      have digits : ∀ d ∈ tail, d.isDigit = true := fun d member =>
        run.isDigit d (by simp [parts, member])
      rw [chars, parts, List.cons_append, first?_of_digit digit,
        List.dropWhile_append_of_pos digits] at found
      cases found
      exact Composed.dropDigits ⟨lexemes, rfl⟩
    · rw [first?_chars (fun digits same => run ⟨digits, same⟩)] at found
      cases found
      exact ⟨lexemes, rfl⟩

/-- **Nothing is left of a text made of lexemes** when the longest lexemes are taken off. -/
theorem composed_iff {source : List Char} : Composed source ↔ (split source).2 = [] := by
  constructor
  · intro composed
    fun_induction split source with
    | case1 source none =>
      obtain ⟨lexemes, rfl⟩ := composed
      cases lexemes with
      | nil => rfl
      | cons lexeme lexemes => exact absurd rfl (first?_eq_none_iff.mp none lexeme _)
    | case2 source lexeme rest found following ih => exact ih (composed.of_first? found)
  · intro whole
    have text := flatMap_chars_split source
    rw [whole, List.append_nil] at text
    exact ⟨_, text⟩

/-- Where no lexeme begins, nothing is joined with what is in front. -/
theorem split_append_of_none {before rest : List Char} (whole : (split before).2 = [])
    (none : first? rest = none) : split (before ++ rest) = ((split before).1, rest) := by
  have seam : Seam before rest := by
    refine seam_of_head (fun d head => ?_) before
    obtain ⟨tail, rfl⟩ := List.head?_eq_some_iff.mp head
    by_contra digit
    rw [first?_of_digit (Bool.not_eq_false _ ▸ digit)] at none
    cases none
  rw [split_append whole seam, split_of_none none, List.append_nil]

end Lexeme

/-- A text is made of words if its characters are those of lexemes. -/
theorem written_iff {source : String} : Written source ↔ Lexeme.Composed source.toList := by
  constructor
  · rintro ⟨words, all, rfl⟩
    rw [String.toList_join]
    induction words with
    | nil => exact ⟨[], rfl⟩
    | cons word words ih =>
      rw [List.forall_mem_cons] at all
      obtain ⟨lexeme, same⟩ := Lexeme.word_iff.mp all.1
      obtain ⟨lexemes, rest⟩ := ih all.2
      exact ⟨lexeme :: lexemes, by rw [List.flatMap_cons, List.flatMap_cons, same, rest]⟩
  · rintro ⟨lexemes, text⟩
    refine ⟨lexemes.map fun lexeme => String.ofList lexeme.chars, ?_, ?_⟩
    · intro word member
      obtain ⟨lexeme, -, rfl⟩ := List.mem_map.mp member
      exact Lexeme.word_iff.mpr ⟨lexeme, String.toList_ofList.symm⟩
    · rw [← String.toList_inj, String.toList_join, ← text, List.flatMap_map]
      simp only [String.toList_ofList]

/-! ### The place to blame -/

theorem byteCount_eq_utf8ByteSize (chars : List Char) :
    byteCount chars = (String.ofList chars).utf8ByteSize := by
  induction chars with
  | nil => rfl
  | cons c chars ih =>
    rw [byteCount, ih, String.ofList_cons, String.utf8ByteSize_append, String.utf8ByteSize_singleton]

/-- A text has tokens if no characters are left of it. -/
theorem exists_tokens_iff {source : String} :
    (∃ tokens, tokenize source = .ok tokens) ↔ (Lexeme.split source.toList).2 = [] := by
  simp only [tokenize_eq_ok_iff, Spells, exists_and_left, exists_eq', and_true]

/-- The error of a text without tokens is the first character that is left. -/
theorem tokenize_eq_error_iff {source : String} {c : Char} {position : Nat} :
    tokenize source = .error (.unrecognized c position) ↔
      (Lexeme.split source.toList).2.head? = some c ∧
        position = byteCount ((Lexeme.split source.toList).1.flatMap Lexeme.chars) := by
  have failure : (Token.scan source).failure = (Lexeme.split source.toList).2.head?.map fun c =>
      .unrecognized c (byteCount ((Lexeme.split source.toList).1.flatMap Lexeme.chars)) := rfl
  rw [tokenize, failure]
  cases (Lexeme.split source.toList).2.head? with
  | none => simp
  | some d => simp [eq_comm]

/-- **A text without tokens fails at its first fault.** -/
theorem tokenize_eq_error_iff_firstFault {source : String} {c : Char} {position : Nat} :
    tokenize source = .error (.unrecognized c position) ↔ FirstFault source c position := by
  rw [tokenize_eq_error_iff]
  constructor
  · rintro ⟨head, rfl⟩
    have text := Lexeme.flatMap_chars_split source.toList
    refine ⟨String.ofList ((Lexeme.split source.toList).1.flatMap Lexeme.chars),
      String.ofList (Lexeme.split source.toList).2, ?_, byteCount_eq_utf8ByteSize _, ?_, ?_, ?_⟩
    · rw [← String.ofList_append, text, String.ofList_toList]
    · rw [exists_tokens_iff, String.toList_ofList]
      exact Lexeme.composed_iff.mp ⟨_, rfl⟩
    · rw [String.toList_ofList]
      exact head
    · intro word behind isWord same
      obtain ⟨lexeme, spelled⟩ := Lexeme.word_iff.mp isWord
      have begins : (Lexeme.split source.toList).2 = lexeme.chars ++ behind.toList := by
        rw [spelled, ← String.toList_append, ← same, String.toList_ofList]
      exact Lexeme.first?_eq_none_iff.mp (Lexeme.first?_split _) lexeme _ begins
  · rintro ⟨before, rest, rfl, rfl, tokens, head, unstarted⟩
    have whole := exists_tokens_iff.mp tokens
    have none : Lexeme.first? rest.toList = none := by
      refine Lexeme.first?_eq_none_iff.mpr fun lexeme behind same => ?_
      refine unstarted (String.ofList lexeme.chars) (String.ofList behind)
        (Lexeme.word_iff.mpr ⟨lexeme, String.toList_ofList.symm⟩) ?_
      rw [← String.ofList_append, ← same, String.ofList_toList]
    have text := Lexeme.flatMap_chars_split before.toList
    rw [whole, List.append_nil] at text
    rw [String.toList_append, Lexeme.split_append_of_none whole none, text,
      byteCount_eq_utf8ByteSize, String.ofList_toList]
    exact ⟨head, rfl⟩

/-- **The texts that have tokens** are those that are made of words. A text that is not made of words
has a first fault, and its tokens fail there; it has only one first fault. -/
theorem tokenize_language (source : String) :
    ((∃ tokens, tokenize source = .ok tokens) ↔ Written source) ∧
    (∀ c position, tokenize source = .error (.unrecognized c position) ↔
      FirstFault source c position) ∧
    (¬ Written source → ∃ c position, FirstFault source c position ∧
      ∀ c' position', FirstFault source c' position' → c' = c ∧ position' = position) := by
  have accepted : (∃ tokens, tokenize source = .ok tokens) ↔ Written source := by
    rw [exists_tokens_iff, written_iff, Lexeme.composed_iff]
  refine ⟨accepted, fun c position => tokenize_eq_error_iff_firstFault, ?_⟩
  intro unwritten
  cases scanned : tokenize source with
  | ok tokens => exact absurd (accepted.mp ⟨tokens, scanned⟩) unwritten
  | error cause =>
    obtain ⟨c, position⟩ := cause
    refine ⟨c, position, tokenize_eq_error_iff_firstFault.mp scanned, ?_⟩
    intro c' position' fault
    rw [tokenize_eq_error_iff_firstFault.mpr fault] at scanned
    cases scanned
    exact ⟨rfl, rfl⟩

/-- The name of a function is no word without its parenthesis, so in `2 sin é` its first letter is at
fault, and the character behind it is not looked at. -/
theorem tokenize_language_name :
    ¬ Written "2 sin é" ∧ FirstFault "2 sin é" 's' 2 ∧
      ∀ c position, FirstFault "2 sin é" c position → c = 's' ∧ position = 2 := by
  have scanned : tokenize "2 sin é" = .error (.unrecognized 's' 2) := by decide +kernel
  obtain ⟨accepted, blamed, unique⟩ := tokenize_language "2 sin é"
  have unwritten : ¬ Written "2 sin é" := by
    intro written
    obtain ⟨tokens, ok⟩ := accepted.mpr written
    rw [scanned] at ok
    cases ok
  have fault := (blamed 's' 2).mp scanned
  refine ⟨unwritten, fault, ?_⟩
  obtain ⟨_, _, -, only⟩ := unique unwritten
  intro c position other
  obtain ⟨rfl, rfl⟩ := only _ _ fault
  exact only c position other

end Calculator
