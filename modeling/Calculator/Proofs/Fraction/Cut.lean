import Mathlib.Data.List.DropRight
import Calculator.Proofs.Fraction.Significant
import Calculator.Proofs.Token.Language

/-!
# Which texts are read as fractions

Two steps of reading a fraction are not defined for all texts. The significant part is cut after
nineteen bytes, and a cut inside a character is not possible: `ofChars?_eq_none_iff` says for which
texts. What is kept is then read as a word of 64 bits, and a text that writes none counts as zero.

Neither happens to a run of digits. It can be cut anywhere, and unless it consists of zeroes, what
is kept of it writes a word: nineteen digits are below `2 ^ 64` (`exists_word`).
-/

namespace Calculator.Fraction

/-! ### Cuts -/

/-- **Where a text cannot be cut**: in front of its end, and inside a character. The induction takes
one character of the text after the other, as the cut does. -/
theorem takeBytes?_eq_none_iff {bytes : Nat} {written : List Char} :
    takeBytes? bytes written = none ↔
      bytes < byteCount written ∧
        ∀ front back, written = front ++ back → byteCount front ≠ bytes := by
  fun_induction takeBytes? bytes written with
  | case1 written =>
    constructor
    · nofun
    · rintro ⟨-, inside⟩
      exact absurd rfl (inside [] written rfl)
  | case2 bytes => simp [byteCount]
  | case3 bytes c rest fits ih =>
    rw [Option.map_eq_none_iff, ih, byteCount]
    refine and_congr (by omega) ?_
    constructor
    · rintro inside (_ | ⟨d, front⟩) back parts
      · exact (Nat.succ_ne_zero bytes).symm
      · obtain ⟨rfl, tail⟩ := List.cons.inj parts
        have := inside front back tail
        rw [byteCount]
        omega
    · intro inside front back parts
      have := inside (c :: front) back (congrArg (c :: ·) parts)
      rw [byteCount] at this
      omega
  | case4 bytes c rest wide =>
    refine ⟨fun _ => ⟨by rw [byteCount]; omega, ?_⟩, fun _ => rfl⟩
    rintro (_ | ⟨d, front⟩) back parts
    · exact (Nat.succ_ne_zero bytes).symm
    · obtain ⟨rfl, -⟩ := List.cons.inj parts
      rw [byteCount]
      omega

/-- The places between the characters of a text, by the number of bytes in front of them. -/
theorem isValid_iff {chars : List Char} {bytes : Nat} :
    (⟨bytes⟩ : String.Pos.Raw).IsValid (String.ofList chars) ↔
      ∃ front back, chars = front ++ back ∧ byteCount front = bytes := by
  rw [String.Pos.Raw.isValid_iff_exists_append]
  constructor
  · rintro ⟨front, back, parts, place⟩
    refine ⟨front.toList, back.toList, ?_, ?_⟩
    · rw [← String.toList_append, ← parts, String.toList_ofList]
    · rw [byteCount_eq_utf8ByteSize, String.ofList_toList]
      exact (congrArg String.Pos.Raw.byteIdx place).symm
  · rintro ⟨front, back, rfl, rfl⟩
    refine ⟨String.ofList front, String.ofList back, String.ofList_append, ?_⟩
    rw [byteCount_eq_utf8ByteSize]
    rfl

/-- A text without the zeroes at its two ends. -/
def trimmed (written : String) : String :=
  String.ofList ((written.toList.dropWhile (· == '0')).rdropWhile (· == '0'))

/-- **The texts that are not read as fractions.** Without the zeroes at its two ends, such a text is
longer than nineteen bytes, and the nineteenth byte is not the last one of a character. -/
theorem ofChars?_eq_none_iff (written : String) :
    ofChars? written.toList = none ↔
      19 < (trimmed written).utf8ByteSize ∧
        ¬ (⟨19⟩ : String.Pos.Raw).IsValid (trimmed written) := by
  have part : trimmed written = String.ofList (significantPart written.toList) := rfl
  rw [part, ofChars?, Option.map_eq_none_iff, takeBytes?_eq_none_iff, ← byteCount_eq_utf8ByteSize,
    isValid_iff]
  simp only [not_exists, not_and]
  rfl

/-- The last character takes up the bytes nineteen and twenty. -/
example : ofChars? "123456789012345678é".toList = none := by decide +kernel

/-! ### Words -/

/-- The word of 64 bits that a text writes: digits, possibly after a plus, of a number that is not
too large. -/
def word? (written : List Char) : Option UInt64 :=
  let digits := if written.head? = some '+' then written.tail else written
  if digits ≠ [] ∧ digits.all Char.isDigit ∧ Nat.ofDigitChars 10 digits 0 < 2 ^ 64 then
    some (UInt64.ofNat (Nat.ofDigitChars 10 digits 0))
  else none

theorem word?_of_digits {written : List Char} (digits : ∀ c ∈ written, c.isDigit = true)
    (some : written ≠ []) (few : written.length ≤ 19) :
    word? written = .some (UInt64.ofNat (Nat.ofDigitChars 10 written 0)) := by
  have noSign : written.head? ≠ .some '+' := by
    intro sign
    exact absurd (digits '+' (List.mem_of_mem_head? sign)) (by decide)
  have small : Nat.ofDigitChars 10 written 0 < 2 ^ 64 := by
    calc
      Nat.ofDigitChars 10 written 0 < 10 ^ written.length := ofDigitChars_lt digits
      _ ≤ 10 ^ 19 := Nat.pow_le_pow_right (by decide) few
      _ < 2 ^ 64 := by decide
  rw [word?, if_neg noSign]
  exact if_pos ⟨some, List.all_eq_true.mpr digits, small⟩

/-- **What is kept of a run of digits writes a word**, from which the significant digits are made.
Only of a run of zeroes nothing is kept, and zero is what the significant digits are then. -/
theorem exists_word (run : DigitRun) :
    ∃ kept, takeBytes? keptBytes (significantPart run.chars) = some kept ∧
      (word? kept = none ↔ ∀ c ∈ run.chars, c = '0') ∧
      (ofRun run).significant.toNat = dropTrailingZeros ((word? kept).elim 0 UInt64.toNat) := by
  have single : ∀ c ∈ significantPart run.chars, c.utf8Size = 1 := fun c member =>
    utf8Size_of_isDigit (isDigit_significantPart run.isDigit c member)
  refine ⟨(significantPart run.chars).take keptBytes, takeBytes?_eq_take single _, ?_⟩
  rw [toNat_significant run.isDigit (ofChars?_chars run), ← significantPart_eq_nil_iff]
  by_cases zeroes : significantPart run.chars = []
  · simp [zeroes, kept, word?]
  · have some : (significantPart run.chars).take keptBytes ≠ [] := by
      simpa [keptBytes] using zeroes
    have word := word?_of_digits (isDigit_kept run.isDigit) some (List.length_take_le keptBytes _)
    have small : kept run.chars < 2 ^ 64 :=
      Nat.lt_trans (kept_lt run.isDigit) (by decide)
    rw [word]
    refine ⟨by simp [zeroes], congrArg dropTrailingZeros ?_⟩
    exact (UInt64.toNat_ofNat_of_lt' small).symm

end Calculator.Fraction
