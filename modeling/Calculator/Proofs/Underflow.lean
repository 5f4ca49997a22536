import Mathlib
import Calculator.Proofs.Binary.Quotient
import Calculator.Proofs.Calculation.Composition
import Calculator.Proofs.Fraction.Position

/-!
# Fractions that vanish

The significant digits of a fraction are divided by the power of ten of its last place. Powers of
ten beyond the 308th are no finite floats, and a quotient by infinity is zero, so a fraction that
reaches further is lost altogether, however large it is.

The number of places counts the zeroes and the significant digits. Digits at the end can thus push
a fraction over the edge although they hardly change its value: from `10 ^ -307` up, a fraction
reaches up to 325 places, and it is lost unless what is kept of its digits is a whole number of
`10 ^ -308` (`Canonical.places_le`, `Canonical.places_le_iff`).

Main statement: `ofChars?_scale`.
-/

namespace Calculator

open Binary

/-! ### Powers of ten -/

/-- Finite and above zero. -/
def Binary.Exact.isPositive : Exact → Bool
  | .finite false size => size != 0
  | _ => false

theorem Binary.Exact.isPositive_iff {x : Exact} :
    x.isPositive = true ↔ ∃ size, x = .finite false size ∧ 0 < size := by
  cases x with
  | nan | infinite _ => simp [isPositive]
  | finite negative size => cases negative <;> simp [isPositive, Nat.pos_iff_ne_zero]

/-- One bit of the exponent. The last square is not used. -/
theorem powBySquaring.go_eq (base : Float) (n : Nat) (acc : Float) : powBySquaring.go base n acc =
    powBySquaring.go (base * base) (n / 2) (if n % 2 = 1 then acc * base else acc) := by
  rw [powBySquaring.go]
  split
  · next last =>
    have done : n / 2 = 0 := by omega
    rw [done, powBySquaring.go]
    simp
  · rfl

/-- Whether all powers up to a bound on the exponent pass a test. Exponents with the same low bits
share the products of these. -/
def allPowers (test : Float → Bool) : (bits bound : Nat) → (base acc : Float) → Bool
  | 0, _, _, acc => test acc
  | bits + 1, bound, base, acc =>
    allPowers test bits (bound / 2) (base * base) acc &&
      (bound == 0 || allPowers test bits ((bound - 1) / 2) (base * base) (acc * base))

theorem test_go_of_allPowers {test : Float → Bool} {bits bound : Nat} {base acc : Float}
    (all : allPowers test bits bound base acc = true) {n : Nat} (low : n ≤ bound)
    (short : n < 2 ^ bits) : test (powBySquaring.go base n acc) = true := by
  -- The lowest bit says which half of the test the exponent is in. Both halves go on with the
  -- square.
  induction bits generalizing bound base acc n with
  | zero =>
    obtain rfl : n = 0 := by omega
    rw [powBySquaring.go]
    simpa [allPowers] using all
  | succ bits ih =>
    simp only [allPowers, Bool.and_eq_true, Bool.or_eq_true, beq_iff_eq] at all
    rw [Nat.pow_succ] at short
    rw [powBySquaring.go_eq]
    split
    · next odd => exact ih (all.2.resolve_left (by omega)) (by omega) (by omega)
    · next even => exact ih all.1 (by omega) (by omega)

/-- Up to the 308th, powers of ten are finite floats. -/
theorem exists_powBySquaring {n : Nat} (few : n ≤ 308) :
    ∃ size, Exact.ofFloat (powBySquaring 10.0 n) = .finite false size ∧ 0 < size := by
  have all : allPowers (Exact.isPositive ∘ Exact.ofFloat) 9 308 10.0 1.0 = true := by decide +kernel
  exact Exact.isPositive_iff.mp (test_go_of_allPowers all few (by omega))

/-- The ones that follow are infinite. -/
theorem powBySquaring_eq_infinite {n : Nat} (low : 308 < n) (high : n ≤ 325) :
    powBySquaring 10.0 n = 1.0 / 0.0 := by
  have all : ∀ k ≤ 16, powBySquaring 10.0 (309 + k) = 1.0 / 0.0 := by decide +kernel
  obtain ⟨k, rfl⟩ := Nat.exists_eq_add_of_le low
  exact all k (by omega)

example : powBySquaring 10.0 310 = 1.0 / 0.0 := by decide +kernel

namespace Fraction

/-! ### Quotients -/

/-- The power of ten that the significant digits are divided by. -/
def scale (f : Fraction) : Float :=
  powBySquaring 10.0 (min f.places maxPlaces)

/-- The value of a fraction as a float: what it adds to the whole part of its literal. -/
def quotient (f : Fraction) : Float :=
  Binary.ofNat f.significant.toNat / f.scale

variable {f : Fraction}

theorem after_eq (nonzero : f.significant ≠ 0) (whole : Float) :
    f.after whole = whole + f.quotient :=
  if_neg nonzero

theorem scale_eq (few : f.places ≤ 325) : f.scale = powBySquaring 10.0 f.places := by
  have most : maxPlaces = 2 ^ 31 - 1 := rfl
  rw [scale, Nat.min_eq_left (by omega)]

/-- The significant digits are a positive finite float. -/
theorem exists_significant (nonzero : f.significant ≠ 0) :
    ∃ size, Exact.ofFloat (Binary.ofNat f.significant.toNat) = .finite false size ∧
      0 < size ∧ depth ≤ size.log2 := by
  have pos : 0 < f.significant.toNat :=
    Nat.pos_of_ne_zero fun zero => nonzero (UInt64.toNat_inj.mp zero)
  have bits : f.significant.toNat.log2 < 64 :=
    (Nat.log2_lt (Nat.ne_of_gt pos)).mpr f.significant.toNat_lt
  obtain ⟨size, value, long⟩ := exists_ofFloat_ofNat pos (Nat.lt_trans bits (by decide))
  refine ⟨size, value, ?_, by omega⟩
  -- A number as long as that is not zero.
  by_contra none
  obtain rfl : size = 0 := by omega
  rw [Nat.log2_zero] at long
  exact absurd (Nat.le_trans (Nat.le_add_left _ _) long) (by decide)

/-- **A fraction of at most 308 places is not lost.** -/
theorem quotient_of_places_le (nonzero : f.significant ≠ 0) (few : f.places ≤ 308) :
    f.scale.isFinite = true ∧ (f.quotient == 0.0) = false := by
  have same := scale_eq (Nat.le_trans few (by decide))
  obtain ⟨size', value', pos'⟩ := exists_powBySquaring few
  rw [← same] at value'
  obtain ⟨size, value, pos, long⟩ := exists_significant nonzero
  -- The scale is finite, so it is not that much longer than the significant digits.
  have short := Exact.log2_lt_of_ofFloat_eq value'
  have quantum : depth = 1074 := rfl
  exact ⟨isFinite_iff.mpr ⟨_, _, value'⟩, div_ne_zero value value' pos pos' (by omega)⟩

/-- **A fraction of more places is lost**, also if only its digits take it there. -/
theorem quotient_of_lt_places (nonzero : f.significant ≠ 0) (more : 308 < f.places)
    (few : f.places ≤ 325) : f.scale = 1.0 / 0.0 ∧ f.quotient = 0.0 := by
  have infinite : f.scale = 1.0 / 0.0 := by
    rw [scale_eq few, powBySquaring_eq_infinite more few]
  obtain ⟨size, value, pos, -⟩ := exists_significant nonzero
  exact ⟨infinite, by rw [quotient, infinite, div_eq_zero_of_infinite value pos]⟩

/-! ### Numbers of places -/

/-- A fraction without trailing zeroes has at most as many places as its value needs. -/
theorem Canonical.places_le_iff (h : f.Canonical) {places : Nat} :
    f.places ≤ places ↔ ∃ n : Nat, f.value = n / 10 ^ places := by
  have unit (n : Nat) : (0 : ℚ) < 10 ^ n := by positivity
  constructor
  · intro few
    obtain ⟨k, rfl⟩ := Nat.exists_eq_add_of_le few
    refine ⟨f.significant.toNat * 10 ^ k, ?_⟩
    rw [value, div_eq_div_iff (unit _).ne' (unit _).ne', pow_add]
    push_cast
    ring
  · rintro ⟨n, same⟩
    rw [value, div_eq_div_iff (unit _).ne' (unit _).ne'] at same
    by_contra more
    -- One more place would leave a zero at the end of the significant digits.
    obtain ⟨k, parts⟩ := Nat.exists_eq_add_of_lt (Nat.lt_of_not_le more)
    rw [parts] at same
    have multiple : f.significant.toNat * 10 ^ places = 10 * (n * 10 ^ k) * 10 ^ places := by
      have whole : f.significant.toNat * 10 ^ places = n * 10 ^ (places + k + 1) := by
        exact_mod_cast same
      rw [whole]
      ring
    exact h.not_ten_dvd ⟨_, Nat.eq_of_mul_eq_mul_right (Nat.pow_pos (by decide)) multiple⟩

/-- A canonical fraction has at most nineteen places more than zeroes. -/
theorem Canonical.places_le (h : f.Canonical) : f.places ≤ f.zeros.toNat + 19 := by
  have short : decimalLength f.significant.toNat ≤ 19 :=
    (Nat.length_toDigits_le_iff (by decide) (by decide)).mpr h.lt
  rw [places]
  omega

/-- Digits write at least `10 ^ -n` exactly if another digit than a zero is among the first `n`. -/
theorem pow_le_fractionalValue_iff {written : List Char} {n : Nat}
    (digits : ∀ c ∈ written, c.isDigit = true) :
    1 / 10 ^ n ≤ fractionalValue written ↔ kept written ≠ 0 ∧ zerosBefore written < n := by
  have unit : (1 : ℚ) / 10 ^ n = ((10 : ℕ) : ℚ) ^ (-(n : ℤ)) := by
    rw [zpow_neg, ← one_div]
    norm_cast
  -- The place of the first significant digit is a matter of the logarithm.
  have log (nonzero : kept written ≠ 0) (positive : 0 < fractionalValue written) :
      1 / 10 ^ n ≤ fractionalValue written ↔ zerosBefore written < n := by
    rw [unit, Int.zpow_le_iff_le_log (by decide) positive, log_fractionalValue digits nonzero]
    omega
  constructor
  · intro low
    have positive : 0 < fractionalValue written := lt_of_lt_of_le (by positivity) low
    have nonzero : kept written ≠ 0 := fun zero =>
      positive.ne' (fractionalValue_eq_zero ((kept_eq_zero_iff digits).mp zero))
    exact ⟨nonzero, (log nonzero positive).mp low⟩
  · rintro ⟨nonzero, few⟩
    refine (log nonzero ?_).mpr few
    -- Zero has no first digit, so its logarithm is not that of digits.
    by_contra none
    have zero := Int.log_of_right_le_zero 10 (le_of_not_gt none)
    rw [log_fractionalValue digits nonzero] at zero
    omega

/-! ### Literals -/

/-- **The scale of a fraction that is not too small.** Digits that write at least `10 ^ -307` are
read as a fraction that reaches up to 325 places. It reaches up to 308 exactly if what is kept of
the digits is a whole number of `10 ^ -308`. Then the scale is finite and the fraction is not lost;
otherwise the scale is infinite, and a literal with these digits adds zero to its whole part. -/
theorem ofChars?_scale {written : List Char} (digits : ∀ c ∈ written, c.isDigit = true)
    (low : 1 / 10 ^ 307 ≤ fractionalValue written) :
    ∃ f, ofChars? written = some f ∧ f.places ≤ 325 ∧
      (f.places ≤ 308 ↔ ∃ n : Nat, truncated 19 (fractionalValue written) = n / 10 ^ 308) ∧
      (f.places ≤ 308 → f.scale.isFinite = true ∧ (f.quotient == 0.0) = false) ∧
      (308 < f.places → f.scale = 1.0 / 0.0 ∧ f.quotient = 0.0) ∧
      ∀ whole : DigitRun, calculate (String.ofList (whole.chars ++ '.' :: written)) =
        .ok (.decimal (whole.toFloat + f.quotient)) := by
  obtain ⟨kept, few⟩ := (pow_le_fractionalValue_iff digits).mp low
  have nonempty : written ≠ [] := by
    rintro rfl
    exact kept rfl
  -- There are fewer than 307 zeroes, so the count of zeroes is exact.
  let run : DigitRun := ⟨written, nonempty, digits⟩
  have read : ofChars? written = some (ofRun run) := Fraction.ofChars?_chars run
  have canonical := canonical_of_read digits read kept
  have nonzero := canonical.significant_ne_zero
  have most : (ofRun run).places ≤ 325 := by
    have bound := canonical.places_le
    rw [toNat_zeros digits read (Nat.lt_trans few (by decide))] at bound
    omega
  refine ⟨ofRun run, read, most, ?_, quotient_of_places_le nonzero, fun more =>
    quotient_of_lt_places nonzero more most, fun whole => ?_⟩
  · rw [canonical.places_le_iff,
      value_eq_truncated digits read (Nat.lt_trans few (by decide)) kept]
  · rw [← after_eq nonzero]
    exact calculate_decimal whole run read

/-- Nineteen digits behind 289 zeroes are not lost. -/
theorem ofChars?_scale_last :
    let written := List.replicate 289 '0' ++ "1234567890123456789".toList
    (∀ c ∈ written, c.isDigit = true) ∧ 1 / 10 ^ 307 ≤ fractionalValue written ∧
      ∃ f, ofChars? written = some f ∧ f.places = 308 ∧
        f.scale.isFinite = true ∧ (f.quotient == 0.0) = false ∧
        ∀ whole : DigitRun, calculate (String.ofList (whole.chars ++ '.' :: written)) =
          .ok (.decimal (whole.toFloat + f.quotient)) := by
  intro written
  have digits : ∀ c ∈ written, c.isDigit = true := List.all_eq_true.mp (by decide +kernel)
  have low : 1 / 10 ^ 307 ≤ fractionalValue written :=
    (pow_le_fractionalValue_iff digits).mpr ⟨by decide +kernel, by decide +kernel⟩
  obtain ⟨f, read, -, -, kept, -, value⟩ := ofChars?_scale digits low
  have found : ofChars? written = some ⟨1234567890123456789, 289⟩ := by decide +kernel
  obtain rfl := Option.some_inj.mp (found.symm.trans read)
  have places : Fraction.places ⟨1234567890123456789, 289⟩ = 308 := by decide +kernel
  obtain ⟨finite, nonzero⟩ := kept (Nat.le_of_eq places)
  exact ⟨digits, low, _, read, places, finite, nonzero, value⟩

/-- **With one more zero they are lost**, and the literal is zero. One digit behind as many zeroes
is not. -/
theorem quotient_lost :
    let written := List.replicate 290 '0' ++ "1234567890123456789".toList
    let f : Fraction := ⟨1234567890123456789, 290⟩
    (∀ c ∈ written, c.isDigit = true) ∧ 1 / 10 ^ 307 ≤ fractionalValue written ∧
      ofChars? written = some f ∧ f.places = 309 ∧ f.scale = 1.0 / 0.0 ∧ f.quotient = 0.0 ∧
      calculate (String.ofList ('0' :: '.' :: written)) = .ok (.decimal 0.0) ∧
      calculate (String.ofList ('0' :: '.' :: List.replicate 290 '0' ++ ['1'])) =
        .ok (.decimal 9.999999999999994e-292) := by
  intro written f
  have digits : ∀ c ∈ written, c.isDigit = true := List.all_eq_true.mp (by decide +kernel)
  have digits' : ∀ c ∈ List.replicate 290 '0' ++ ['1'], c.isDigit = true :=
    List.all_eq_true.mp (by decide +kernel)
  have low : 1 / 10 ^ 307 ≤ fractionalValue written :=
    (pow_le_fractionalValue_iff digits).mpr ⟨by decide +kernel, by decide +kernel⟩
  have read : ofChars? written = some f := by decide +kernel
  have read' : ofChars? (List.replicate 290 '0' ++ ['1']) = some ⟨1, 290⟩ := by decide +kernel
  have nonempty : written ≠ [] := List.append_ne_nil_of_right_ne_nil _ (by decide)
  have nonempty' : List.replicate 290 '0' ++ ['1'] ≠ [] :=
    List.append_ne_nil_of_right_ne_nil _ (by decide)
  let zero : DigitRun := ⟨['0'], by simp, by simp⟩
  have calculated := calculate_decimal zero ⟨written, nonempty, digits⟩ read
  have calculated' := calculate_decimal zero ⟨_, nonempty', digits'⟩ read'
  refine ⟨digits, low, read, by decide +kernel, by decide +kernel, by decide +kernel,
    calculated.trans ?_, calculated'.trans ?_⟩ <;> decide +kernel

end Fraction

end Calculator
