/-!
# Codes: nonnegative floats as natural numbers

A 64-bit binary float is a sign bit in front of 63 bits, its *code*. Below the code of infinity
every code stands for a finite value, and every finite value is a whole number of *quanta* of
`2 ^ -1074`, the smallest positive float. Measured in quanta, values of floats are natural
numbers, so whatever has to be exact (reading decimals, rounding down, remainders, printing) is
arithmetic of natural numbers.

* `quanta` says how many quanta a code stands for;
* `nearest` says which code is nearest to a quotient of numbers of quanta, halves going to the
  even code and everything too large going to infinity.

The codes are laid out so that the value with exponent `s` and significand `m` has the code
`s * 2 ^ 52 + m`: a significand that rounds up to the next power of two carries into the exponent
by itself, and the subnormal values need no case of their own.

Powers are written with `Nat.pow`, which does not depend on the instances in scope.

Main statement: `nearest_quanta`, a finite code is the nearest code to its own value.
-/

namespace Calculator.Binary

/-- The code of infinity: all eleven exponent bits set and no fraction bit. -/
def infinity : Nat := 2047 * Nat.pow 2 52

/-- The binary exponent of a quantum, negated. -/
def depth : Nat := 1074

/-- The number of quanta in `1`. -/
def one : Nat := Nat.pow 2 depth

/-- The value of a finite code, in quanta. The exponent is one less than the exponent bits say,
and zero for both of the two smallest exponents; the significand is what it leaves of the code. -/
def quanta (code : Nat) : Nat :=
  let exponent := code / Nat.pow 2 52 - 1
  (code - exponent * Nat.pow 2 52) * Nat.pow 2 exponent

/-- The quotient rounded to the nearest natural number, a half going to the even neighbour. -/
def roundDiv (num den : Nat) : Nat :=
  let below := num / den
  let twice := 2 * (num % den)
  if twice < den then below
  else if den < twice then below + 1
  else below + below % 2

/-- The code nearest to `num / den` quanta. The exponent leaves a significand of 53 bits, or of
fewer if the value is below the smallest normal one. -/
def nearest (num den : Nat) : Nat :=
  let exponent := (num / den).log2 - 52
  min (exponent * Nat.pow 2 52 + roundDiv num (den * Nat.pow 2 exponent)) infinity

/-! ### A value that is a code's own value -/

@[simp]
theorem roundDiv_mul_self (m : Nat) {den : Nat} (h : 0 < den) : roundDiv (m * den) den = m := by
  simp [roundDiv, Nat.mul_div_cancel m h, h]

/-- A significand of 53 bits under an exponent has the exponent as the excess of its length. -/
private theorem log2_significand {m : Nat} (s : Nat) (low : Nat.pow 2 52 ≤ m)
    (high : m < Nat.pow 2 53) : (m * Nat.pow 2 s).log2 = 52 + s := by
  simp only [Nat.pow_eq] at low high ⊢
  have pos : 0 < 2 ^ s := Nat.two_pow_pos s
  have ne : m * 2 ^ s ≠ 0 := Nat.mul_ne_zero (by omega) (by omega)
  refine (Nat.log2_eq_iff ne).2 ⟨?_, ?_⟩
  · rw [Nat.pow_add]
    exact Nat.mul_le_mul_right _ low
  · rw [show 52 + s + 1 = 53 + s by omega, Nat.pow_add]
    exact Nat.mul_lt_mul_of_pos_right high pos

/-- Every finite code is the nearest one to its own value: values survive a change of view. -/
theorem nearest_quanta {code : Nat} (finite : code < infinity) :
    nearest (quanta code) 1 = code := by
  have bound : code < 2047 * 2 ^ 52 := finite
  by_cases subnormal : code < 2 ^ 52
  · have exponent : code / 2 ^ 52 - 1 = 0 := by omega
    have length : code.log2 - 52 = 0 := by
      by_cases zero : code = 0
      · simp [zero]
      · have := (Nat.log2_lt zero).2 (Nat.lt_of_lt_of_le subnormal (by decide : 2 ^ 52 ≤ 2 ^ 53))
        omega
    have round : roundDiv code 1 = code := by simpa using roundDiv_mul_self code Nat.one_pos
    simp only [nearest, quanta, Nat.pow_eq, exponent, Nat.zero_mul, Nat.sub_zero, Nat.pow_zero,
      Nat.mul_one, Nat.div_one, length, round, Nat.zero_add]
    exact Nat.min_eq_left (Nat.le_of_lt finite)
  · generalize hs : code / 2 ^ 52 - 1 = s
    have low : 2 ^ 52 ≤ code - s * 2 ^ 52 := by omega
    have high : code - s * 2 ^ 52 < 2 ^ 53 := by omega
    have length : ((code - s * 2 ^ 52) * 2 ^ s).log2 = 52 + s := log2_significand s low high
    have split : s * 2 ^ 52 + (code - s * 2 ^ 52) = code := by omega
    simp only [nearest, quanta, Nat.pow_eq, hs, Nat.div_one, length, Nat.add_sub_cancel_left,
      Nat.one_mul, roundDiv_mul_self _ (Nat.two_pow_pos s), split]
    exact Nat.min_eq_left (Nat.le_of_lt finite)

end Calculator.Binary
