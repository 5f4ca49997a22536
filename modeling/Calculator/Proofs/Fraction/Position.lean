import Mathlib
import Calculator.Proofs.Fraction.Significant

/-!
# The value that a fraction keeps

Digits behind a point write a number below one, and a `Fraction` keeps it to nineteen significant
digits. On the way, zeroes are taken off three times: the leading ones, which are counted, the
trailing ones of the text, and those that are last among the nineteen digits kept. None of this
moves the point. The number of places of a fraction is computed from its digits again, and it is
smaller by as many places as digits were taken off (`value_eq_kept`).

So a fraction is the number that the text writes, cut off after nineteen significant digits
(`value_eq_truncated`), and it says no more about the text than that number does, because a fraction
without trailing zeroes is determined by its value (`Canonical.eq_of_value_eq`).

Main statement: `ofChars?_position`.
-/

namespace Calculator.Fraction

/-! ### Values -/

/-- The number that digits write behind a point. -/
def fractionalValue (written : List Char) : ℚ :=
  Nat.ofDigitChars 10 written 0 / 10 ^ written.length

/-- The number that a fraction stands for. -/
def value (f : Fraction) : ℚ :=
  f.significant.toNat / 10 ^ f.places

/-- A positive number cut off after so many significant digits. Its logarithm is the place of the
first one. -/
def truncated (digits : Nat) (x : ℚ) : ℚ :=
  let last : ℤ := Int.log 10 x + 1 - digits
  ⌊x / 10 ^ last⌋ * 10 ^ last

/-! ### Values of digits -/

/-- The zeroes at the two ends of digits do not change their value behind a point, except that the
leading ones shift it. -/
theorem fractionalValue_eq (written : List Char) : fractionalValue written =
    Nat.ofDigitChars 10 (significantPart written) 0 /
      10 ^ (zerosBefore written + (significantPart written).length) := by
  obtain ⟨n, parts⟩ := exists_eq_replicate_append written
  have number : Nat.ofDigitChars 10 written 0 =
      Nat.ofDigitChars 10 (significantPart written) 0 * 10 ^ n := by
    conv_lhs => rw [parts]
    simp [ofDigitChars_append_zero]
  have length : written.length = zerosBefore written + (significantPart written).length + n := by
    conv_lhs => rw [parts]
    simp [Nat.add_assoc]
  rw [fractionalValue, number, length, pow_add _ _ n]
  push_cast
  exact mul_div_mul_right _ _ (by positivity)

theorem fractionalValue_eq_zero {written : List Char} (zeros : ∀ c ∈ written, c = '0') :
    fractionalValue written = 0 := by
  rw [fractionalValue_eq, significantPart_eq_nil_iff.mpr zeros]
  simp

/-- Digits behind the ones kept are worth less than one unit of the last place kept. -/
theorem shifted_bounds (digits place : Nat) {rest dropped : Nat} (short : rest < 10 ^ dropped) :
    (digits : ℚ) / 10 ^ place ≤ (digits * 10 ^ dropped + rest : ℕ) / 10 ^ (place + dropped) ∧
      ((digits * 10 ^ dropped + rest : ℕ) : ℚ) / 10 ^ (place + dropped) <
        digits / 10 ^ place + 1 / 10 ^ place := by
  have unit : (0 : ℚ) < 10 ^ place := by positivity
  have unit' : (0 : ℚ) < 10 ^ (place + dropped) := by positivity
  have short' : (rest : ℚ) < 10 ^ dropped := by exact_mod_cast short
  rw [← add_div, div_le_div_iff₀ unit unit', div_lt_div_iff₀ unit' unit, pow_add]
  push_cast
  constructor
  · have nonneg : (0 : ℚ) ≤ rest := Nat.cast_nonneg rest
    nlinarith [mul_nonneg nonneg unit.le]
  · nlinarith [mul_lt_mul_of_pos_right short' unit]

/-! ### Values of fractions -/

section Read

variable {written : List Char} (digits : ∀ c ∈ written, c.isDigit = true)
include digits

/-- What is cut off behind the digits kept is less than one unit of the last place kept. -/
theorem exists_cut : ∃ rest dropped,
    Nat.ofDigitChars 10 (significantPart written) 0 = kept written * 10 ^ dropped + rest ∧
      rest < 10 ^ dropped ∧ (significantPart written).length =
        ((significantPart written).take keptBytes).length + dropped := by
  refine ⟨Nat.ofDigitChars 10 ((significantPart written).drop keptBytes) 0,
    ((significantPart written).drop keptBytes).length, ?_, ?_, ?_⟩
  · rw [kept, ← ofDigitChars_append_zero, List.take_append_drop]
  · exact ofDigitChars_lt fun c member =>
      isDigit_significantPart digits c (List.mem_of_mem_drop member)
  · rw [← List.length_append, List.take_append_drop]

variable {f : Fraction} (read : ofChars? written = some f)
include read

/-- **The point does not move** when trailing zeroes are dropped from the digits kept. -/
theorem value_eq_kept (few : zerosBefore written < 2 ^ 32) (nonzero : kept written ≠ 0) :
    f.value = kept written /
      10 ^ (zerosBefore written + ((significantPart written).take keptBytes).length) := by
  obtain ⟨dropped, number, length, -⟩ := exists_dropTrailingZeros (Nat.pos_of_ne_zero nonzero)
  have moved : zerosBefore written + ((significantPart written).take keptBytes).length =
      f.places + dropped := by
    rw [← decimalLength_kept digits nonzero, length, places, toNat_significant digits read,
      toNat_zeros digits read few]
    omega
  rw [moved, pow_add, value, toNat_significant digits read]
  conv_rhs => rw [number]
  push_cast
  exact (mul_div_mul_right _ _ (by positivity)).symm

/-- **The digits cut off** are less than one unit of the nineteenth significant digit. -/
theorem value_bounds (few : zerosBefore written < 2 ^ 32) (nonzero : kept written ≠ 0) :
    f.value ≤ fractionalValue written ∧
      fractionalValue written < f.value + 1 / 10 ^ (f.zeros.toNat + 19) := by
  obtain ⟨rest, dropped, parts, short, length⟩ := exists_cut digits
  rw [value_eq_kept digits read few nonzero, toNat_zeros digits read few, fractionalValue_eq, parts,
    length, ← Nat.add_assoc]
  have taken : ((significantPart written).take keptBytes).length =
      min 19 (significantPart written).length := List.length_take
  generalize ((significantPart written).take keptBytes).length = m at length taken ⊢
  obtain ⟨low, high⟩ := shifted_bounds (kept written) (zerosBefore written + m) short
  refine ⟨low, ?_⟩
  rcases Nat.eq_zero_or_pos dropped with none | some
  · -- Nothing was cut off.
    subst none
    obtain rfl : rest = 0 := by omega
    simp only [Nat.pow_zero, Nat.mul_one, Nat.add_zero]
    exact lt_add_of_pos_right _ (by positivity)
  · obtain rfl : m = 19 := by omega
    exact high

/-- Up to nineteen digits between zeroes are kept exactly. -/
theorem value_eq_fractionalValue (few : zerosBefore written < 2 ^ 32) (nonzero : kept written ≠ 0)
    (short : (significantPart written).length ≤ 19) : f.value = fractionalValue written := by
  have all : (significantPart written).take keptBytes = significantPart written :=
    List.take_of_length_le short
  rw [value_eq_kept digits read few nonzero, fractionalValue_eq, kept, all]

end Read

/-! ### Cutting off -/

/-- The logarithm of a number counts the zeroes between the point and the first other digit. -/
theorem log_eq {x : ℚ} {zeros : Nat} (low : 1 / 10 ^ (zeros + 1) ≤ x) (high : x < 1 / 10 ^ zeros) :
    Int.log 10 x = -(zeros + 1 : ℤ) := by
  have pos : 0 < x := lt_of_lt_of_le (by positivity) low
  have least : ((10 : ℕ) : ℚ) ^ (-(zeros + 1 : ℤ)) ≤ x := by
    rw [zpow_neg, ← one_div]
    exact_mod_cast low
  have most : x < ((10 : ℕ) : ℚ) ^ (-(zeros + 1 : ℤ) + 1) := by
    have exponent : -(zeros + 1 : ℤ) + 1 = -(zeros : ℤ) := by ring
    rw [exponent, zpow_neg, ← one_div]
    exact_mod_cast high
  have atLeast := (Int.zpow_le_iff_le_log (by decide) pos).mp least
  have atMost := (Int.lt_zpow_iff_log_lt (by decide) pos).mp most
  omega

/-- The number that is cut off at a place is the last one of that place that is not above it. -/
theorem truncated_eq {x : ℚ} {zeros n : Nat} (log : Int.log 10 x = -(zeros + 1 : ℤ))
    (low : (n : ℚ) / 10 ^ (zeros + 19) ≤ x)
    (high : x < n / 10 ^ (zeros + 19) + 1 / 10 ^ (zeros + 19)) :
    truncated 19 x = n / 10 ^ (zeros + 19) := by
  have unit : (0 : ℚ) < 10 ^ (zeros + 19) := by positivity
  have last : Int.log 10 x + 1 - (19 : ℕ) = -((zeros + 19 : ℕ) : ℤ) := by
    rw [log]
    push_cast
    ring
  rw [div_le_iff₀ unit] at low
  rw [← add_div, lt_div_iff₀ unit] at high
  have floor : ⌊x * 10 ^ (zeros + 19)⌋ = (n : ℤ) := by
    rw [Int.floor_eq_iff]
    exact_mod_cast And.intro low high
  rw [truncated, last, zpow_neg, zpow_natCast, div_inv_eq_mul, floor, Int.cast_natCast,
    div_eq_mul_inv]

/-! ### Fractions without trailing zeroes -/

/-- Fractions with one to nineteen significant digits, of which the last one is not zero. -/
structure Canonical (f : Fraction) : Prop where
  not_ten_dvd : ¬ 10 ∣ f.significant.toNat
  lt : f.significant.toNat < 10 ^ 19

namespace Canonical

variable {f g : Fraction}

theorem pos (h : f.Canonical) : 0 < f.significant.toNat :=
  Nat.pos_of_ne_zero fun zero => h.not_ten_dvd (zero ▸ Nat.dvd_zero 10)

theorem significant_ne_zero (h : f.Canonical) : f.significant ≠ 0 :=
  fun zero => Nat.ne_of_gt h.pos (by rw [zero]; rfl)

theorem value_pos (h : f.Canonical) : 0 < f.value := by
  have pos : (0 : ℚ) < f.significant.toNat := Nat.cast_pos.mpr h.pos
  rw [value]
  positivity

/-- The zeroes of a fraction are those between the point and the first other digit of its value. -/
theorem log_value (h : f.Canonical) : Int.log 10 f.value = -(f.zeros.toNat + 1 : ℤ) := by
  have low := pow_le_of_pos h.pos
  have high := lt_pow_decimalLength f.significant.toNat
  have length : 0 < decimalLength f.significant.toNat := Nat.length_toDigits_pos
  rw [value, places]
  generalize decimalLength f.significant.toNat = n at low high length ⊢
  generalize f.significant.toNat = significant at low high ⊢
  obtain ⟨m, rfl⟩ := Nat.exists_eq_succ_of_ne_zero (Nat.ne_of_gt length)
  have low' : (10 : ℚ) ^ m ≤ significant := by exact_mod_cast low
  have high' : (significant : ℚ) < 10 ^ (m + 1) := by exact_mod_cast high
  apply log_eq
  · rw [div_le_div_iff₀ (by positivity) (by positivity)]
    calc
      (1 : ℚ) * 10 ^ (m + 1 + f.zeros.toNat) = 10 ^ m * 10 ^ (f.zeros.toNat + 1) := by ring
      _ ≤ significant * 10 ^ (f.zeros.toNat + 1) := by gcongr
  · rw [div_lt_div_iff₀ (by positivity) (by positivity)]
    calc
      (significant : ℚ) * 10 ^ f.zeros.toNat < 10 ^ (m + 1) * 10 ^ f.zeros.toNat := by gcongr
      _ = 1 * 10 ^ (m + 1 + f.zeros.toNat) := by ring

/-- Of two numbers that are not divisible by ten, neither is a multiple of the other by a power of
ten. -/
theorem eq_of_mul_pow_eq {m n a b : Nat} (hm : ¬ 10 ∣ m) (hn : ¬ 10 ∣ n)
    (same : m * 10 ^ b = n * 10 ^ a) : m = n := by
  have bound {m n a b : Nat} (hn : ¬ 10 ∣ n) (same : m * 10 ^ b = n * 10 ^ a) : b ≤ a := by
    by_contra less
    obtain ⟨k, rfl⟩ := Nat.exists_eq_add_of_lt (Nat.lt_of_not_le less)
    have parts : 10 ^ (a + k + 1) = 10 ^ k * 10 * 10 ^ a := by ring
    rw [parts, ← Nat.mul_assoc] at same
    have equal := Nat.eq_of_mul_eq_mul_right (Nat.pow_pos (by decide)) same
    exact hn ⟨m * 10 ^ k, by rw [← equal]; ring⟩
  obtain rfl := Nat.le_antisymm (bound hn same) (bound hm same.symm)
  exact Nat.eq_of_mul_eq_mul_right (Nat.pow_pos (by decide)) same

/-- **A fraction without trailing zeroes is determined by its value.** -/
theorem eq_of_value_eq (hf : f.Canonical) (hg : g.Canonical) (same : f.value = g.value) :
    f = g := by
  have zeros : f.zeros.toNat = g.zeros.toNat := by
    have logs := hf.log_value
    rw [same, hg.log_value] at logs
    omega
  have significant : f.significant.toNat = g.significant.toNat := by
    rw [value, value, div_eq_div_iff (by positivity) (by positivity)] at same
    exact eq_of_mul_pow_eq hf.not_ten_dvd hg.not_ten_dvd (by exact_mod_cast same)
  obtain ⟨s, z⟩ := f
  obtain ⟨s', z'⟩ := g
  obtain rfl := UInt64.toNat_inj.mp significant
  obtain rfl := UInt32.toNat_inj.mp zeros
  rfl

end Canonical

/-! ### What digits keep of their value -/

section Kept

variable {written : List Char} (digits : ∀ c ∈ written, c.isDigit = true)
include digits

/-- The leading zeroes of digits are those between the point and the first other digit of their
value. -/
theorem log_fractionalValue (nonzero : kept written ≠ 0) :
    Int.log 10 (fractionalValue written) = -(zerosBefore written + 1 : ℤ) := by
  cases part : significantPart written with
  | nil => exact absurd (by rw [kept, part]; rfl) nonzero
  | cons c rest =>
    have all : ∀ d ∈ c :: rest, d.isDigit = true := part ▸ isDigit_significantPart digits
    have low : (10 : ℚ) ^ rest.length ≤ Nat.ofDigitChars 10 (c :: rest) 0 := by
      exact_mod_cast pow_le_ofDigitChars (all c List.mem_cons_self) (head_significantPart part)
    have high : (Nat.ofDigitChars 10 (c :: rest) 0 : ℚ) < 10 ^ (rest.length + 1) := by
      exact_mod_cast ofDigitChars_lt all
    rw [fractionalValue_eq, part, List.length_cons]
    apply log_eq
    · rw [div_le_div_iff₀ (by positivity) (by positivity)]
      calc
        (1 : ℚ) * 10 ^ (zerosBefore written + (rest.length + 1)) =
            10 ^ rest.length * 10 ^ (zerosBefore written + 1) := by ring
        _ ≤ Nat.ofDigitChars 10 (c :: rest) 0 * 10 ^ (zerosBefore written + 1) := by gcongr
    · rw [div_lt_div_iff₀ (by positivity) (by positivity)]
      calc
        (Nat.ofDigitChars 10 (c :: rest) 0 : ℚ) * 10 ^ zerosBefore written <
            10 ^ (rest.length + 1) * 10 ^ zerosBefore written := by gcongr
        _ = 1 * 10 ^ (zerosBefore written + (rest.length + 1)) := by ring

variable {f : Fraction} (read : ofChars? written = some f)
include read

theorem canonical_of_read (nonzero : kept written ≠ 0) : f.Canonical := by
  obtain ⟨-, -, -, odd⟩ := exists_dropTrailingZeros (Nat.pos_of_ne_zero nonzero)
  rw [← toNat_significant digits read] at odd
  refine ⟨odd, ?_⟩
  rw [toNat_significant digits read]
  exact Nat.lt_of_le_of_lt (dropTrailingZeros_le _) (kept_lt digits)

/-- **What is kept** is the number that the digits write, cut off after nineteen significant
digits. -/
theorem value_eq_truncated (few : zerosBefore written < 2 ^ 32) (nonzero : kept written ≠ 0) :
    f.value = truncated 19 (fractionalValue written) := by
  have bounds := value_bounds digits read few nonzero
  have taken : ((significantPart written).take keptBytes).length ≤ 19 := List.length_take_le _ _
  have same : f.value =
      (kept written * 10 ^ (19 - ((significantPart written).take keptBytes).length) : ℕ) /
        10 ^ (zerosBefore written + 19) := by
    rw [value_eq_kept digits read few nonzero]
    generalize ((significantPart written).take keptBytes).length = m at taken ⊢
    obtain ⟨k, parts⟩ := Nat.exists_eq_add_of_le taken
    rw [parts, Nat.add_sub_cancel_left, ← Nat.add_assoc, pow_add _ _ k]
    push_cast
    exact (mul_div_mul_right _ _ (by positivity)).symm
  rw [toNat_zeros digits read few, same] at bounds
  rw [same, truncated_eq (log_fractionalValue digits nonzero) bounds.1 bounds.2]

end Kept

/-- What a fraction keeps of the digits that it was read from. -/
structure Keeps (written : List Char) (f : Fraction) : Prop where
  /-- The leading zeroes are counted. -/
  zeros : f.zeros.toNat = zerosBefore written
  /-- There are no significant digits only if there is nothing but zeroes. -/
  zero_iff : f.significant = 0 ↔ ∀ c ∈ written, c = '0'
  /-- The significant digits do not end with a zero, and they are at most nineteen. -/
  canonical : f.significant ≠ 0 → f.Canonical
  /-- The value is kept up to the nineteenth significant digit. -/
  bounds : f.significant ≠ 0 → f.value ≤ fractionalValue written ∧
    fractionalValue written < f.value + 1 / 10 ^ (f.zeros.toNat + 19)
  /-- Of at most nineteen digits between zeroes, the value is kept exactly. -/
  exact : ∀ before middle behind, written = List.replicate before '0' ++ middle ++
    List.replicate behind '0' → middle.length ≤ 19 → f.value = fractionalValue written

theorem keeps_of_read {written : List Char} (digits : ∀ c ∈ written, c.isDigit = true)
    (few : zerosBefore written < 2 ^ 32) {f : Fraction} (read : ofChars? written = some f) :
    Keeps written f := by
  have zero_iff := significant_eq_zero_iff digits read
  have kept_ne := kept_ne_zero_of_read digits read
  refine ⟨toNat_zeros digits read few, zero_iff, fun nonzero =>
    canonical_of_read digits read (kept_ne nonzero), fun nonzero =>
    value_bounds digits read few (kept_ne nonzero), ?_⟩
  rintro before middle behind rfl short
  by_cases zero : f.significant = 0
  · rw [fractionalValue_eq_zero (zero_iff.mp zero), value, zero]
    simp
  · refine value_eq_fractionalValue digits read few (kept_ne zero) ?_
    rw [significantPart_append_replicate, significantPart_replicate_append]
    exact Nat.le_trans (length_significantPart_le middle) short

/-- **The value that a fraction keeps.** All digits are read, and what is kept of their value is
described by `Keeps`. Two texts with a digit other than zero give the same fraction exactly if their
values are the same up to the nineteenth significant digit, and more zeroes at the end make no
difference. -/
theorem ofChars?_position :
    (∀ written : List Char, (∀ c ∈ written, c.isDigit = true) → zerosBefore written < 2 ^ 32 →
      ∃ f, ofChars? written = some f ∧ Keeps written f) ∧
    (∀ written written' : List Char, (∀ c ∈ written, c.isDigit = true) →
      (∀ c ∈ written', c.isDigit = true) → zerosBefore written < 2 ^ 32 →
      zerosBefore written' < 2 ^ 32 → (∃ c ∈ written, c ≠ '0') → (∃ c ∈ written', c ≠ '0') →
      (ofChars? written = ofChars? written' ↔
        truncated 19 (fractionalValue written) = truncated 19 (fractionalValue written'))) ∧
    ∀ (written : List Char) (n : Nat), (∀ c ∈ written, c.isDigit = true) →
      (∃ c ∈ written, c ≠ '0') →
      ofChars? (written ++ List.replicate n '0') = ofChars? written := by
  refine ⟨?_, ?_, ?_⟩
  · intro written digits few
    have read := ofChars?_of_digits digits
    exact ⟨_, read, keeps_of_read digits few read⟩
  · intro written written' digits digits' few few' some some'
    obtain ⟨f, read⟩ : ∃ f, ofChars? written = Option.some f := ⟨_, ofChars?_of_digits digits⟩
    obtain ⟨f', read'⟩ : ∃ f, ofChars? written' = Option.some f := ⟨_, ofChars?_of_digits digits'⟩
    have nonzero := kept_ne_zero digits some
    have nonzero' := kept_ne_zero digits' some'
    rw [read, read', Option.some_inj, ← value_eq_truncated digits read few nonzero,
      ← value_eq_truncated digits' read' few' nonzero']
    exact ⟨congrArg value, (canonical_of_read digits read nonzero).eq_of_value_eq
      (canonical_of_read digits' read' nonzero')⟩
  · intro written n digits some
    obtain ⟨c, member, nonzero⟩ := some
    rw [ofChars?, ofChars?, significantPart_append_replicate,
      zerosBefore_append_of_ne member nonzero]

/-- Of the twenty-two digits behind two zeroes, the first nineteen are kept. The ones that follow
them make no difference, and neither do a thousand zeroes at the end. -/
theorem ofChars?_position_overlong :
    let written := "001234567890123456789876".toList
    let other := "0012345678901234567890001".toList
    let f : Fraction := ⟨1234567890123456789, 2⟩
    (∀ c ∈ written, c.isDigit = true) ∧ (∀ c ∈ other, c.isDigit = true) ∧
      zerosBefore written < 2 ^ 32 ∧ zerosBefore other < 2 ^ 32 ∧
      (∃ c ∈ written, c ≠ '0') ∧ (∃ c ∈ other, c ≠ '0') ∧
      ofChars? written = some f ∧ Keeps written f ∧
      truncated 19 (fractionalValue written) = truncated 19 (fractionalValue other) ∧
      ofChars? (written ++ List.replicate 1000 '0') = some f := by
  intro written other f
  have digits : ∀ c ∈ written, c.isDigit = true := List.all_eq_true.mp (by decide +kernel)
  have digits' : ∀ c ∈ other, c.isDigit = true := List.all_eq_true.mp (by decide +kernel)
  have few : zerosBefore written < 2 ^ 32 := by decide +kernel
  have few' : zerosBefore other < 2 ^ 32 := by decide +kernel
  have nonzero : ∃ c ∈ written, c ≠ '0' := ⟨'1', by decide +kernel, by decide⟩
  have nonzero' : ∃ c ∈ other, c ≠ '0' := ⟨'1', by decide +kernel, by decide⟩
  have read : ofChars? written = some f := by decide +kernel
  have read' : ofChars? other = some f := by decide +kernel
  obtain ⟨keeps, same, longer⟩ := ofChars?_position
  obtain ⟨g, found, kept⟩ := keeps written digits few
  obtain rfl : f = g := Option.some_inj.mp (read.symm.trans found)
  exact ⟨digits, digits', few, few', nonzero, nonzero', read, kept,
    (same written other digits digits' few few' nonzero nonzero').mp (read.trans read'.symm),
    (longer written 1000 digits nonzero).trans read⟩

end Calculator.Fraction
