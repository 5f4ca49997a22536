import Mathlib.Algebra.Order.Field.Rat
import Mathlib.Tactic.Positivity
import Mathlib.Tactic.Ring
import Calculator.Proofs.Fraction.Digits

/-!
# Trailing zeroes and the decimal point

The places of a fraction are counted twice, and never together. Reading takes the trailing zeroes
off its significant digits, and only when the value is wanted is the length of what is left added to
the zeroes in front. The two counts have to agree: each zero taken off divides the digits by ten and
makes them one digit shorter, so that the digits, put behind the point by their length, keep their
value.

`DropsZeros` is the loop itself, on words of 64 bits and with its number of turns. It ends for every
word, zero included (`exists_dropsZeros`), and what it ends with is `dropTrailingZeros`.

Main statement: `dropsZeros_keeps_point`.
-/

namespace Calculator

/-- Zeroes are taken off the end of a word, one in each turn, until none is left or the word is
zero. -/
inductive DropsZeros : UInt64 → Nat → UInt64 → Prop where
  /-- There is nothing to take off. -/
  | done {word : UInt64} (last : word = 0 ∨ word % 10 ≠ 0) : DropsZeros word 0 word
  /-- A zero is taken off. -/
  | turn {word stripped : UInt64} {turns : Nat} (nonzero : word ≠ 0) (trailing : word % 10 = 0)
      (rest : DropsZeros (word / 10) turns stripped) : DropsZeros word (turns + 1) stripped

/-! ### Words and their numbers -/

theorem ne_zero_iff_toNat {word : UInt64} : word ≠ 0 ↔ 0 < word.toNat := by
  rw [Nat.pos_iff_ne_zero, ne_eq, ← UInt64.toNat_inj]
  rfl

theorem mod_ten_eq_zero_iff {word : UInt64} : word % 10 = 0 ↔ word.toNat % 10 = 0 := by
  rw [← UInt64.toNat_inj, UInt64.toNat_mod]
  rfl

theorem toNat_div_ten (word : UInt64) : (word / 10).toNat = word.toNat / 10 :=
  UInt64.toNat_div word 10

/-! ### The loop -/

/-- **The loop ends.** Each turn makes the word smaller. -/
theorem exists_dropsZeros (word : UInt64) : ∃ turns stripped, DropsZeros word turns stripped := by
  induction hn : word.toNat using Nat.strongRecOn generalizing word with
  | ind n ih =>
    by_cases last : word = 0 ∨ word % 10 ≠ 0
    · exact ⟨0, word, .done last⟩
    · obtain ⟨nonzero, trailing⟩ := not_or.mp last
      have smaller : (word / 10).toNat < n := by
        rw [toNat_div_ten, hn]
        exact Nat.div_lt_self (hn ▸ ne_zero_iff_toNat.mp nonzero) (by decide)
      obtain ⟨turns, stripped, rest⟩ := ih _ smaller _ rfl
      exact ⟨turns + 1, stripped, .turn nonzero (not_not.mp trailing) rest⟩

namespace DropsZeros

variable {word stripped : UInt64} {turns : Nat}

theorem toNat_eq (h : DropsZeros word turns stripped) :
    stripped.toNat = dropTrailingZeros word.toNat := by
  induction h with
  | @done word last =>
    have last' : word.toNat = 0 ∨ word.toNat % 10 ≠ 0 :=
      last.imp (fun zero => by rw [zero]; rfl) (mt mod_ten_eq_zero_iff.mpr)
    rw [dropTrailingZeros, if_pos last']
  | turn nonzero trailing _ ih =>
    rw [dropTrailingZeros, if_neg, ← toNat_div_ten, ih]
    rw [not_or, not_not, ← mod_ten_eq_zero_iff]
    exact ⟨Nat.ne_of_gt (ne_zero_iff_toNat.mp nonzero), trailing⟩

/-- The word is what is left of it with as many zeroes as there were turns. -/
theorem eq_mul_pow (h : DropsZeros word turns stripped) :
    word.toNat = stripped.toNat * 10 ^ turns := by
  induction h with
  | done _ => rw [Nat.pow_zero, Nat.mul_one]
  | @turn word stripped turns _ trailing _ ih =>
    calc
      word.toNat = word.toNat / 10 * 10 :=
        (Nat.div_mul_cancel (Nat.dvd_of_mod_eq_zero (mod_ten_eq_zero_iff.mp trailing))).symm
      _ = stripped.toNat * 10 ^ turns * 10 := by rw [← toNat_div_ten, ih]
      _ = stripped.toNat * 10 ^ (turns + 1) := by rw [Nat.pow_succ, Nat.mul_assoc]

/-- What is left of a word other than zero does not end with a zero. -/
theorem not_ten_dvd (h : DropsZeros word turns stripped) (nonzero : word ≠ 0) :
    ¬ 10 ∣ stripped.toNat := by
  obtain ⟨_, -, -, odd⟩ := exists_dropTrailingZeros (ne_zero_iff_toNat.mp nonzero)
  rw [h.toNat_eq]
  exact odd

end DropsZeros

/-! ### Lengths and values -/

theorem decimalLength_mul_pow {n : Nat} (pos : 0 < n) (zeros : Nat) :
    decimalLength (n * 10 ^ zeros) = decimalLength n + zeros := by
  induction zeros with
  | zero => rw [Nat.pow_zero, Nat.mul_one, Nat.add_zero]
  | succ zeros ih =>
    have pos' : 0 < n * 10 ^ zeros := Nat.mul_pos pos (Nat.pow_pos (by decide))
    rw [Nat.pow_succ, ← Nat.mul_assoc, decimalLength_mul_ten pos', ih, Nat.add_assoc]

/-- Zeroes at the end of a number are as many places more, and so they do not change its value
behind a point. -/
theorem div_pow_decimalLength_mul_pow {n : Nat} (pos : 0 < n) (trailing leading : Nat) :
    ((n * 10 ^ trailing : ℕ) : ℚ) / 10 ^ (decimalLength (n * 10 ^ trailing) + leading) =
      n / 10 ^ (decimalLength n + leading) := by
  have places : decimalLength (n * 10 ^ trailing) + leading =
      decimalLength n + leading + trailing := by
    rw [decimalLength_mul_pow pos]
    omega
  rw [places, pow_add _ _ trailing]
  push_cast
  exact mul_div_mul_right _ _ (by positivity)

/-- **Taking trailing zeroes off does not move the point.** For every word other than zero, the loop
ends, with what `dropTrailingZeros` says. There are as many zeroes fewer as there were turns, none
is left, and the number of digits has gone down by the same count. So the digits have the same value
behind a point, whatever the number of zeroes between the point and them. -/
theorem dropsZeros_keeps_point {word : UInt64} (nonzero : word ≠ 0) :
    ∃ turns stripped, DropsZeros word turns stripped ∧
      stripped.toNat = dropTrailingZeros word.toNat ∧
      word.toNat = stripped.toNat * 10 ^ turns ∧
      ¬ 10 ∣ stripped.toNat ∧
      decimalLength stripped.toNat + turns = decimalLength word.toNat ∧
      10 ^ (decimalLength word.toNat - 1) ≤ word.toNat ∧
      word.toNat < 10 ^ decimalLength word.toNat ∧
      ∀ zeros : Nat, (stripped.toNat : ℚ) / 10 ^ (decimalLength stripped.toNat + zeros) =
        word.toNat / 10 ^ (decimalLength word.toNat + zeros) := by
  obtain ⟨turns, stripped, drops⟩ := exists_dropsZeros word
  have odd := drops.not_ten_dvd nonzero
  have pos : 0 < stripped.toNat := Nat.pos_of_ne_zero fun zero => odd (zero ▸ Nat.dvd_zero 10)
  refine ⟨turns, stripped, drops, drops.toNat_eq, drops.eq_mul_pow, odd, ?_,
    pow_le_of_pos (ne_zero_iff_toNat.mp nonzero), lt_pow_decimalLength _, fun zeros => ?_⟩
  · rw [drops.eq_mul_pow, decimalLength_mul_pow pos]
  · rw [drops.eq_mul_pow]
    exact (div_pow_decimalLength_mul_pow pos turns zeros).symm

/-- A word of twenty digits, two of which are zeroes at the end. -/
theorem dropsZeros_keeps_point_twenty :
    (18446744073709551600 : UInt64) ≠ 0 ∧
      ∃ turns stripped, DropsZeros 18446744073709551600 turns stripped ∧
        18446744073709551600 = stripped.toNat * 10 ^ turns ∧ ¬ 10 ∣ stripped.toNat ∧
        decimalLength stripped.toNat + turns = 20 := by
  have nonzero : (18446744073709551600 : UInt64) ≠ 0 := by decide
  have length : decimalLength (18446744073709551600 : UInt64).toNat = 20 := by decide +kernel
  obtain ⟨turns, stripped, drops, -, value, odd, places, -⟩ := dropsZeros_keeps_point nonzero
  exact ⟨nonzero, turns, stripped, drops, value, odd, places.trans length⟩

end Calculator
