import Calculator.Proofs.Fraction.Position

/-!
# The text of a fraction

A fraction is written as its zeroes and its significant digits. If the significant digits are at
most nineteen and do not end with a zero, the text has the value of the fraction, and all of it is
kept when the text is read. So the fraction that is read is the one that was written, because both
have no trailing zeroes and the same value.

Without significant digits, one zero is written and the number of zeroes is lost (`settled`). It
makes no difference to the value of a literal.

Main statements: `exists_run_chars`, for fractions that were read, and `ofChars?_text_iff`, for all
fractions.
-/

namespace Calculator.Fraction

variable {f : Fraction}

theorem isDigit_chars (f : Fraction) : ∀ c ∈ f.chars, c.isDigit = true := by
  intro c member
  rw [chars] at member
  split at member
  · rw [List.mem_singleton.mp member]
    rfl
  · rcases List.mem_append.mp member with zero | digit
    · rw [List.eq_of_mem_replicate zero]
      rfl
    · exact Nat.isDigit_of_mem_toDigits (by decide) (by decide) digit

namespace Canonical

theorem chars_eq (h : f.Canonical) :
    f.chars = List.replicate f.zeros.toNat '0' ++ Nat.toDigits 10 f.significant.toNat :=
  if_neg h.significant_ne_zero

/-- What is written behind the point is the value of the fraction. -/
theorem fractionalValue_chars (h : f.Canonical) : fractionalValue f.chars = f.value := by
  rw [fractionalValue, value, h.chars_eq, ofDigitChars_append_zero, ofDigitChars_replicate,
    Nat.zero_mul, Nat.zero_add, Nat.ofDigitChars_toDigits (by decide) (by decide),
    List.length_append, List.length_replicate, places, decimalLength, Nat.add_comm]

theorem kept_chars_ne_zero (h : f.Canonical) : kept f.chars ≠ 0 := by
  intro zero
  have none := fractionalValue_eq_zero ((kept_eq_zero_iff f.isDigit_chars).mp zero)
  rw [h.fractionalValue_chars] at none
  exact h.value_pos.ne' none

/-- The zeroes that the text begins with are those of the fraction. -/
theorem zerosBefore_chars (h : f.Canonical) : zerosBefore f.chars = f.zeros.toNat := by
  have logs := log_fractionalValue f.isDigit_chars h.kept_chars_ne_zero
  rw [h.fractionalValue_chars, h.log_value] at logs
  omega

/-- **What was written is read again.** -/
theorem ofChars?_chars (h : f.Canonical) : ofChars? f.chars = some f := by
  -- The count of zeroes comes from a word, so it is not cut off when it is read.
  have few : zerosBefore f.chars < 2 ^ 32 := h.zerosBefore_chars ▸ f.zeros.toNat_lt
  obtain ⟨g, read⟩ : ∃ g, ofChars? f.chars = some g := ⟨_, ofChars?_of_digits f.isDigit_chars⟩
  have canonical := canonical_of_read f.isDigit_chars read h.kept_chars_ne_zero
  have short : (Nat.toDigits 10 f.significant.toNat).length ≤ 19 :=
    (Nat.length_toDigits_le_iff (by decide) (by decide)).mpr h.lt
  -- All digits are kept, so the value that is read is the value that was written.
  have same : g.value = f.value := by
    rw [← h.fractionalValue_chars]
    refine (keeps_of_read f.isDigit_chars few read).exact f.zeros.toNat _ 0 ?_ short
    rw [h.chars_eq]
    simp
  rw [read, canonical.eq_of_value_eq h same]

end Canonical

/-! ### Fractions of digit runs -/

theorem canonical_of_ne_zero {written : List Char} (digits : ∀ c ∈ written, c.isDigit = true)
    (read : ofChars? written = some f) (nonzero : f.significant ≠ 0) : f.Canonical :=
  canonical_of_read digits read (kept_ne_zero_of_read digits read nonzero)

/-- What is left of a fraction when it is written: without significant digits, one zero. -/
def settled (f : Fraction) : Fraction :=
  if f.significant = 0 then ⟨0, 1⟩ else f

/-- The number of zeroes without significant digits has no influence on the value of a literal. -/
theorem after_settled (f : Fraction) (whole : Float) : f.settled.after whole = f.after whole := by
  rw [settled]
  split
  · next zero => rw [after, after, if_pos zero, if_pos rfl]
  · rfl

theorem chars_ne_nil (f : Fraction) : f.chars ≠ [] := by
  rw [chars]
  split
  · exact List.cons_ne_nil _ _
  · exact fun none => Nat.toDigits_ne_nil (List.append_eq_nil_iff.mp none).2

/-- Without significant digits, what is read is the fraction of a single zero. -/
theorem ofChars?_chars_of_zero (zero : f.significant = 0) : ofChars? f.chars = some ⟨0, 1⟩ := by
  rw [chars, if_pos zero]
  decide +kernel

/-- **The text of a fraction that was read** is read as the same fraction, except that zeroes become
one zero. -/
theorem exists_run_chars (run : DigitRun) :
    ∃ run' : DigitRun, run'.chars = (ofRun run).chars ∧ ofRun run' = (ofRun run).settled := by
  have read := Fraction.ofChars?_chars run
  generalize ofRun run = f at read ⊢
  refine ⟨⟨f.chars, f.chars_ne_nil, f.isDigit_chars⟩, rfl, ?_⟩
  have again : ofChars? f.chars = some f.settled := by
    by_cases zero : f.significant = 0
    · rw [settled, if_pos zero, ofChars?_chars_of_zero zero]
    · rw [settled, if_neg zero, (canonical_of_ne_zero run.isDigit read zero).ofChars?_chars]
  exact Option.some_inj.mp ((Fraction.ofChars?_chars _).symm.trans again)

/-! ### Fractions that their text determines -/

/-- What its text is read as is the fraction itself only without trailing zeroes, or if it is that
of a single zero. -/
theorem canonical_or_eq_of_ofChars?_chars (again : ofChars? f.chars = some f) :
    f.Canonical ∨ f = ⟨0, 1⟩ := by
  by_cases zero : f.significant = 0
  · exact .inr (Option.some_inj.mp (again.symm.trans (ofChars?_chars_of_zero zero)))
  · exact .inl (canonical_of_ne_zero f.isDigit_chars again zero)

/-- **Writing and reading are inverse on canonical fractions and nowhere else**, up to the one zero
that stands for all zeroes:

* A fraction is what its text is read as exactly if it is canonical, so that its significant digits
  are below `10 ^ 19` and not divisible by ten, as zero is, or if it is the fraction of a single
  zero.
* All digits are read, and what they are read as is canonical or has no significant digits.
* Every canonical fraction is read from some run of digits. -/
theorem ofChars?_text_iff :
    (∀ f : Fraction, ofChars? f.text.toList = some f ↔ f.Canonical ∨ f = ⟨0, 1⟩) ∧
    (∀ written : List Char, (∀ c ∈ written, c.isDigit = true) →
      ∃ f, ofChars? written = some f ∧ (f.Canonical ∨ f.significant = 0)) ∧
    ∀ f : Fraction, f.Canonical → ∃ run : DigitRun, ofRun run = f := by
  refine ⟨fun f => ?_, fun written digits => ?_, fun f canonical => ?_⟩
  · rw [text, String.toList_ofList]
    constructor
    · exact canonical_or_eq_of_ofChars?_chars
    · rintro (canonical | rfl)
      · exact canonical.ofChars?_chars
      · exact ofChars?_chars_of_zero rfl
  · have read := ofChars?_of_digits digits
    exact ⟨_, read, or_iff_not_imp_right.mpr (canonical_of_ne_zero digits read)⟩
  · refine ⟨⟨f.chars, f.chars_ne_nil, f.isDigit_chars⟩, ?_⟩
    exact Option.some_inj.mp ((Fraction.ofChars?_chars _).symm.trans canonical.ofChars?_chars)

/-- Nineteen digits behind the greatest count of zeroes are read again. Twenty digits are not, and
neither are two zeroes. -/
theorem ofChars?_text_iff_extreme :
    let longest : Fraction := ⟨9999999999999999999, 4294967295⟩
    let overlong : Fraction := ⟨10000000000000000001, 0⟩
    longest.Canonical ∧ ofChars? longest.text.toList = some longest ∧
      (∃ run : DigitRun, ofRun run = longest) ∧
      ofChars? overlong.text.toList ≠ some overlong ∧
      ofChars? (⟨0, 2⟩ : Fraction).text.toList ≠ some ⟨0, 2⟩ ∧
      (∀ c ∈ "0470".toList, c.isDigit = true) ∧
      ∃ f, ofChars? "0470".toList = some f ∧ (f.Canonical ∨ f.significant = 0) := by
  obtain ⟨inverse, kinds, onto⟩ := ofChars?_text_iff
  have canonical : (⟨9999999999999999999, 4294967295⟩ : Fraction).Canonical :=
    ⟨by decide, by decide⟩
  have digits : ∀ c ∈ "0470".toList, c.isDigit = true := List.all_eq_true.mp (by decide +kernel)
  refine ⟨canonical, (inverse _).mpr (.inl canonical), onto _ canonical, ?_, ?_, digits,
    kinds _ digits⟩
  · refine mt (inverse _).mp ?_
    rintro (⟨-, short⟩ | single)
    · exact absurd short (by decide)
    · exact absurd single (by decide)
  · refine mt (inverse _).mp ?_
    rintro (⟨odd, -⟩ | single)
    · exact odd (by decide)
    · exact absurd single (by decide)

end Calculator.Fraction
