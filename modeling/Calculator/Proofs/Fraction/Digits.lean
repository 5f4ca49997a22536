import Mathlib.Tactic.Ring
import Calculator.Fraction

/-!
# Digits and the numbers they write

A list of digits is a number and a length, and the length counts the zeroes in front. Lists one
behind the other are shifted by the length of the last one (`ofDigitChars_append_zero`). If a list
does not begin with a zero, its length is the number of digits of its number
(`decimalLength_ofDigitChars`).

Trailing zeroes of a number can be dropped, and each one that is dropped makes the number one digit
shorter (`exists_dropTrailingZeros`).
-/

namespace Calculator

/-! ### Digits -/

/-- The number that a digit stands for. -/
def digitValue (c : Char) : Nat :=
  c.toNat - '0'.toNat

theorem digitValue_lt {c : Char} (digit : c.isDigit = true) : digitValue c < 10 := by
  simp only [Char.isDigit, Bool.and_eq_true, decide_eq_true_eq, UInt32.le_iff_toNat_le] at digit
  have high : c.toNat ≤ 57 := digit.2
  have zero : '0'.toNat = 48 := rfl
  unfold digitValue
  omega

theorem digitValue_eq_zero_iff {c : Char} (digit : c.isDigit = true) :
    digitValue c = 0 ↔ c = '0' := by
  simp only [Char.isDigit, Bool.and_eq_true, decide_eq_true_eq, UInt32.le_iff_toNat_le] at digit
  have low : 48 ≤ c.toNat := digit.1
  have zero : '0'.toNat = 48 := rfl
  rw [← Char.toNat_inj]
  unfold digitValue
  omega

/-! ### Lists of digits -/

section Lists

variable {written : List Char}

theorem ofDigitChars_append_zero (written rest : List Char) :
    Nat.ofDigitChars 10 (written ++ rest) 0 =
      Nat.ofDigitChars 10 written 0 * 10 ^ rest.length + Nat.ofDigitChars 10 rest 0 := by
  rw [Nat.ofDigitChars_append, Nat.ofDigitChars_eq_ofDigitChars_zero, Nat.mul_comm]

theorem ofDigitChars_cons_zero (c : Char) (rest : List Char) :
    Nat.ofDigitChars 10 (c :: rest) 0 =
      digitValue c * 10 ^ rest.length + Nat.ofDigitChars 10 rest 0 := by
  rw [Nat.ofDigitChars_cons, Nat.ofDigitChars_eq_ofDigitChars_zero, Nat.mul_zero, Nat.zero_add,
    Nat.mul_comm]
  rfl

@[simp] theorem ofDigitChars_replicate (n : Nat) :
    Nat.ofDigitChars 10 (List.replicate n '0') 0 = 0 := by
  rw [Nat.ofDigitChars_replicate_zero, Nat.mul_zero]

/-- A list of digits is below the power of ten of its length. -/
theorem ofDigitChars_lt (digits : ∀ c ∈ written, c.isDigit = true) :
    Nat.ofDigitChars 10 written 0 < 10 ^ written.length := by
  induction written with
  | nil => exact Nat.one_pos
  | cons c rest ih =>
    obtain ⟨digit, rest'⟩ := List.forall_mem_cons.mp digits
    have first : digitValue c + 1 ≤ 10 := digitValue_lt digit
    rw [ofDigitChars_cons_zero, List.length_cons]
    calc
      digitValue c * 10 ^ rest.length + Nat.ofDigitChars 10 rest 0
        < digitValue c * 10 ^ rest.length + 10 ^ rest.length := Nat.add_lt_add_left (ih rest') _
      _ = (digitValue c + 1) * 10 ^ rest.length := by ring
      _ ≤ 10 * 10 ^ rest.length := Nat.mul_le_mul_right _ first
      _ = 10 ^ (rest.length + 1) := by ring

/-- A list of digits without a zero at its start is at least the power of ten of its first place. -/
theorem pow_le_ofDigitChars {c : Char} {rest : List Char} (digit : c.isDigit = true)
    (nonzero : c ≠ '0') : 10 ^ rest.length ≤ Nat.ofDigitChars 10 (c :: rest) 0 := by
  have first : 1 ≤ digitValue c :=
    Nat.one_le_iff_ne_zero.mpr (mt (digitValue_eq_zero_iff digit).mp nonzero)
  rw [ofDigitChars_cons_zero]
  calc
    10 ^ rest.length = 1 * 10 ^ rest.length := (Nat.one_mul _).symm
    _ ≤ digitValue c * 10 ^ rest.length := Nat.mul_le_mul_right _ first
    _ ≤ _ := Nat.le_add_right _ _

end Lists

/-! ### Lengths of numbers -/

theorem decimalLength_eq {n length : Nat} (low : 10 ^ length ≤ n) (high : n < 10 ^ (length + 1)) :
    decimalLength n = length + 1 := by
  have atMost : decimalLength n ≤ length + 1 :=
    (Nat.length_toDigits_le_iff (by decide) (Nat.succ_pos length)).mpr high
  have atLeast : length < decimalLength n := by
    rcases Nat.eq_zero_or_pos length with rfl | pos
    · exact Nat.length_toDigits_pos
    · refine Nat.lt_of_not_le fun short => ?_
      have small := (Nat.length_toDigits_le_iff (by decide) pos).mp short
      exact Nat.not_lt.mpr low small
  exact Nat.le_antisymm atMost atLeast

theorem lt_pow_decimalLength (n : Nat) : n < 10 ^ decimalLength n :=
  (Nat.length_toDigits_le_iff (by decide) Nat.length_toDigits_pos).mp (Nat.le_refl _)

theorem pow_le_of_pos {n : Nat} (pos : 0 < n) : 10 ^ (decimalLength n - 1) ≤ n := by
  rcases Nat.eq_zero_or_pos (decimalLength n - 1) with single | more
  · rw [single]
    exact pos
  · refine Nat.le_of_not_lt fun small => ?_
    have short := (Nat.length_toDigits_le_iff (by decide) more).mpr small
    have length : 0 < decimalLength n := Nat.length_toDigits_pos
    have same : (Nat.toDigits 10 n).length = decimalLength n := rfl
    omega

/-- A list of digits that begins with no zero is as long as its number. -/
theorem decimalLength_ofDigitChars {c : Char} {rest : List Char}
    (digits : ∀ d ∈ c :: rest, d.isDigit = true) (nonzero : c ≠ '0') :
    decimalLength (Nat.ofDigitChars 10 (c :: rest) 0) = (c :: rest).length :=
  decimalLength_eq (pow_le_ofDigitChars (digits c List.mem_cons_self) nonzero)
    (ofDigitChars_lt digits)

theorem decimalLength_mul_ten {n : Nat} (pos : 0 < n) :
    decimalLength (n * 10) = decimalLength n + 1 := by
  have digits := Nat.toDigits_append_toDigits (b := 10) (n := n) (d := 0)
    (by decide) pos (by decide)
  rw [Nat.mul_comm] at digits
  rw [decimalLength, ← Nat.add_zero (n * 10), ← digits, List.length_append]
  rfl

/-! ### Trailing zeroes -/

/-- **Dropping trailing zeroes** leaves a number that is not divisible by ten, and takes as many
digits off as it takes powers of ten. -/
theorem exists_dropTrailingZeros {n : Nat} (pos : 0 < n) :
    ∃ dropped, n = dropTrailingZeros n * 10 ^ dropped ∧
      decimalLength n = decimalLength (dropTrailingZeros n) + dropped ∧
      ¬ 10 ∣ dropTrailingZeros n := by
  fun_induction dropTrailingZeros n with
  | case1 n last =>
    have nonzero : n % 10 ≠ 0 := last.resolve_left (Nat.ne_of_gt pos)
    exact ⟨0, by simp, by simp, fun divides => nonzero (Nat.mod_eq_zero_of_dvd divides)⟩
  | case2 n trailing ih =>
    obtain ⟨-, last⟩ := not_or.mp trailing
    have parts : n / 10 * 10 = n := by omega
    have pos' : 0 < n / 10 := by omega
    obtain ⟨dropped, value, length, odd⟩ := ih pos'
    refine ⟨dropped + 1, ?_, ?_, odd⟩
    · rw [Nat.pow_succ, ← Nat.mul_assoc, ← value, parts]
    · rw [← parts, decimalLength_mul_ten pos', parts, length, Nat.add_assoc]

theorem dropTrailingZeros_le (n : Nat) : dropTrailingZeros n ≤ n := by
  rcases Nat.eq_zero_or_pos n with rfl | pos
  · rw [dropTrailingZeros]
    simp
  · obtain ⟨dropped, value, -, -⟩ := exists_dropTrailingZeros pos
    calc
      dropTrailingZeros n ≤ dropTrailingZeros n * 10 ^ dropped :=
        Nat.le_mul_of_pos_right _ (Nat.pow_pos (by decide))
      _ = n := value.symm

end Calculator
