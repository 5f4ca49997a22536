import Mathlib
import Calculator.Proofs.Binary.Unpacked

/-!
# Rounding a significand

A result that does not fit into a float is a significand of any length under an exponent, with a
note on what was cut off already. It is rounded in two shifts. The first one goes to the exponent
under which 53 bits are left, or fewer at the least exponent; what it drops is rounded to the
nearest significand. The second one only removes a carry: `roundWithAccuracy_cases`. So the result
is in canonical form (`canonical_roundWithAccuracy`), and it is not zero if there is a bit that is
worth a quantum (`roundWithAccuracy_eq_finite`).
-/

namespace Calculator.Binary

open Float.Model Float.Model.UnpackedFloat

/-! ### The two shifts -/

/-- A significand has 53 bits, or fewer under the smallest exponent. A carry can make it one bit
longer. -/
structure Rounded (mantissa : Nat) (exponent : Int) : Prop where
  high : mantissa ≤ 2 ^ 53
  least : -depth ≤ exponent
  long : 2 ^ 52 ≤ mantissa ∨ exponent = -depth

theorem mantissa_ofMantissaAndAccuracy (mantissa : Nat) (accuracy : Accuracy) :
    (ExtendedMantissa.ofMantissaAndAccuracy mantissa accuracy).mantissa = mantissa := by
  rcases accuracy with _ | (_ | _ | _) <;> rfl

theorem mantissa_shiftRight (extended : ExtendedMantissa) (places : Nat) :
    (extended >>> places).mantissa = extended.mantissa / 2 ^ places := by
  induction places with
  | zero => exact (Nat.div_one _).symm
  | succ places ih =>
    have step : (extended >>> (places + 1)).mantissa = (extended >>> places).mantissa / 2 := rfl
    rw [step, ih, Nat.div_div_eq_div_mul, Nat.pow_succ]

/-- Shifting out nothing but zeroes is exact. -/
theorem shiftRight_of_dvd {mantissa places : Nat} (h : 2 ^ places ∣ mantissa) :
    ExtendedMantissa.ofMantissaAndAccuracy mantissa .exact >>> places =
      .ofMantissaAndAccuracy (mantissa / 2 ^ places) .exact := by
  induction places with
  | zero =>
    rw [Nat.pow_zero, Nat.div_one]
    rfl
  | succ places ih =>
    have before : 2 ^ places ∣ mantissa := Nat.dvd_trans (Nat.pow_dvd_pow 2 (Nat.le_succ _)) h
    have even : mantissa / 2 ^ places % 2 = 0 := by
      obtain ⟨rest, rfl⟩ := h
      rw [Nat.pow_succ, Nat.mul_assoc, Nat.mul_div_cancel_left _ (Nat.two_pow_pos places)]
      exact Nat.mul_mod_right 2 rest
    have step : ExtendedMantissa.ofMantissaAndAccuracy mantissa .exact >>> (places + 1) =
        (ExtendedMantissa.ofMantissaAndAccuracy mantissa .exact >>> places).shiftRightOne := rfl
    rw [step, ih before, Nat.pow_succ, ← Nat.div_div_eq_div_mul]
    simp [ExtendedMantissa.shiftRightOne, ExtendedMantissa.ofMantissaAndAccuracy, even]

theorem roundedMantissa_bounds (extended : ExtendedMantissa) :
    extended.mantissa ≤ extended.roundedMantissa ∧
      extended.roundedMantissa ≤ extended.mantissa + 1 := by
  obtain ⟨mantissa, roundBit, stickyBit⟩ := extended
  cases roundBit <;> cases stickyBit <;>
    simp only [ExtendedMantissa.roundedMantissa, ExtendedMantissa.accuracy,
      Accuracy.roundToNearestEven] <;>
    omega

section Shifts

variable {mantissa : Nat} {exponent : Int}

/-- A shifted significand is rounded down or up. -/
theorem roundedMantissa_shiftRight (mantissa places : Nat) (accuracy : Accuracy) :
    mantissa / 2 ^ places ≤
        (ExtendedMantissa.ofMantissaAndAccuracy mantissa accuracy >>> places).roundedMantissa ∧
      (ExtendedMantissa.ofMantissaAndAccuracy mantissa accuracy >>> places).roundedMantissa ≤
        mantissa / 2 ^ places + 1 := by
  have bounds := roundedMantissa_bounds
    (ExtendedMantissa.ofMantissaAndAccuracy mantissa accuracy >>> places)
  rwa [mantissa_shiftRight, mantissa_ofMantissaAndAccuracy] at bounds

theorem targetExponent_eq (mantissa : Nat) (exponent : Int) :
    Format.binary64.targetExponent (totalExponent mantissa exponent) =
      max ((mantissa.log2 : Int) + exponent - 52) (-1074) := by
  have least : Format.binary64.minExponent = -1074 := by decide
  rw [Format.targetExponent, totalExponent, least]
  have bits : (Format.binary64.mantissaBits : Int) = 53 := rfl
  omega

/-- A significand that already fits is not shifted. -/
theorem shiftToTargetExponent_of_lt (high : mantissa < 2 ^ 53) (least : -1074 ≤ exponent) :
    shiftToTargetExponent Format.binary64 mantissa exponent .exact =
      (.ofMantissaAndAccuracy mantissa .exact, exponent) := by
  have bits : mantissa.log2 ≤ 52 := by
    by_cases zero : mantissa = 0
    · rw [zero]
      decide
    · exact Nat.le_of_lt_succ ((Nat.log2_lt zero).mpr high)
  have none : (Format.binary64.targetExponent (totalExponent mantissa exponent) -
      exponent).toNat = 0 := by
    rw [targetExponent_eq]
    omega
  rw [shiftToTargetExponent, shiftToExponent, none]
  exact congrArg _ (Int.add_zero exponent)

/-- A significand with a carry is shifted by one place. -/
theorem shiftToTargetExponent_carry (least : -1074 ≤ exponent) :
    shiftToTargetExponent Format.binary64 (2 ^ 53) exponent .exact =
      (.ofMantissaAndAccuracy (2 ^ 52) .exact, exponent + 1) := by
  have one : (Format.binary64.targetExponent (totalExponent (2 ^ 53) exponent) -
      exponent).toNat = 1 := by
    rw [targetExponent_eq, Nat.log2_two_pow]
    omega
  rw [shiftToTargetExponent, shiftToExponent, one, shiftRight_of_dvd (by decide)]
  rfl

/-- What the first shift of a rounding leaves: either the significand has 53 bits or the exponent is
the least one. -/
theorem rounded_shift {places : Nat} (accuracy : Accuracy) (pos : 0 < mantissa)
    (target : exponent + places = max ((mantissa.log2 : Int) + exponent - 52) (-1074)) :
    Rounded (ExtendedMantissa.ofMantissaAndAccuracy mantissa accuracy >>> places).roundedMantissa
      (exponent + places) := by
  have ne : mantissa ≠ 0 := Nat.ne_of_gt pos
  have quantum : (depth : Int) = 1074 := rfl
  obtain ⟨below, above⟩ := roundedMantissa_shiftRight mantissa places accuracy
  refine ⟨?_, by omega, ?_⟩
  · -- At most 53 bits are left, and rounding adds at most one.
    have fits : mantissa / 2 ^ places < 2 ^ 53 := by
      rw [Nat.div_lt_iff_lt_mul (Nat.two_pow_pos places), ← Nat.pow_add, ← Nat.log2_lt ne]
      omega
    exact Nat.le_trans above fits
  · rcases Int.le_total ((mantissa.log2 : Int) + exponent - 52) (-1074) with bottom | normal
    · right
      omega
    · left
      have long : 2 ^ 52 ≤ mantissa / 2 ^ places := by
        rw [Nat.le_div_iff_mul_le (Nat.two_pow_pos places), ← Nat.pow_add, ← Nat.le_log2 ne]
        omega
      exact Nat.le_trans long below

/-- The first shift of a rounding goes up to the target exponent. -/
theorem shiftToTargetExponent_eq (accuracy : Accuracy)
    (low : exponent ≤ Format.binary64.targetExponent (totalExponent mantissa exponent)) :
    ∃ places : Nat,
      exponent + places = max ((mantissa.log2 : Int) + exponent - 52) (-1074) ∧
      shiftToTargetExponent Format.binary64 mantissa exponent accuracy =
        (ExtendedMantissa.ofMantissaAndAccuracy mantissa accuracy >>> places,
          exponent + places) := by
  refine ⟨(Format.binary64.targetExponent (totalExponent mantissa exponent) - exponent).toNat, ?_,
    rfl⟩
  rw [targetExponent_eq] at low ⊢
  omega

/-! ### The result -/

/-- The float of a significand under an exponent. -/
def ofSignificand (sign : Sign) (mantissa : Nat) (exponent : Int) : UnpackedFloat :=
  if zero : mantissa = 0 then .zero sign
  else .finite sign mantissa exponent (Nat.pos_of_ne_zero zero)

theorem ofSignificand_of_pos (sign : Sign) (exponent : Int) (pos : 0 < mantissa) :
    ofSignificand sign mantissa exponent = .finite sign mantissa exponent pos :=
  dif_neg (Nat.ne_of_gt pos)

/-- **A rounding** shifts the significand up to the target exponent and rounds it there. If that
carries into one more bit, the significand is a power of two, and it is shifted by one more place. -/
theorem roundWithAccuracy_cases (sign : Sign) (accuracy : Accuracy) (pos : 0 < mantissa)
    (low : exponent ≤ Format.binary64.targetExponent (totalExponent mantissa exponent)) :
    ∃ (places significand : Nat),
      exponent + places = max ((mantissa.log2 : Int) + exponent - 52) (-1074) ∧
      significand =
        (ExtendedMantissa.ofMantissaAndAccuracy mantissa accuracy >>> places).roundedMantissa ∧
      Rounded significand (exponent + places) ∧
      (significand < 2 ^ 53 ∧
          roundWithAccuracy Format.binary64 sign mantissa exponent accuracy =
            ofSignificand sign significand (exponent + places) ∨
        significand = 2 ^ 53 ∧
          roundWithAccuracy Format.binary64 sign mantissa exponent accuracy =
            ofSignificand sign (2 ^ 52) (exponent + places + 1)) := by
  obtain ⟨places, target, shifted⟩ := shiftToTargetExponent_eq accuracy low
  have rounded := rounded_shift accuracy pos target
  have unfolded : roundWithAccuracy Format.binary64 sign mantissa exponent accuracy =
      ofSignificand sign
        (shiftToTargetExponent Format.binary64
          (shiftToTargetExponent Format.binary64 mantissa exponent accuracy).1.roundedMantissa
          (shiftToTargetExponent Format.binary64 mantissa exponent accuracy).2 .exact).1.mantissa
        (shiftToTargetExponent Format.binary64
          (shiftToTargetExponent Format.binary64 mantissa exponent accuracy).1.roundedMantissa
          (shiftToTargetExponent Format.binary64 mantissa exponent accuracy).2 .exact).2 := rfl
  rw [shifted] at unfolded
  dsimp only at unfolded
  refine ⟨places, _, target, rfl, rounded, ?_⟩
  generalize (ExtendedMantissa.ofMantissaAndAccuracy mantissa accuracy >>> places).roundedMantissa =
    significand at rounded unfolded ⊢
  -- The second shift only removes a carry.
  rcases Nat.lt_or_eq_of_le rounded.high with fits | carry
  · left
    rw [shiftToTargetExponent_of_lt fits rounded.least] at unfolded
    exact ⟨fits, unfolded⟩
  · right
    rw [carry, shiftToTargetExponent_carry rounded.least] at unfolded
    exact ⟨carry, unfolded⟩

theorem canonical_ofSignificand (sign : Sign) (high : mantissa < 2 ^ 53) (least : -depth ≤ exponent)
    (long : 2 ^ 52 ≤ mantissa ∨ exponent = -depth) :
    Canonical (ofSignificand sign mantissa exponent) := by
  rw [ofSignificand]
  split
  · trivial
  · exact ⟨high, least, long⟩

/-- **Rounding gives a float in canonical form.** -/
theorem canonical_roundWithAccuracy (sign : Sign) (accuracy : Accuracy) (pos : 0 < mantissa)
    (low : exponent ≤ Format.binary64.targetExponent (totalExponent mantissa exponent)) :
    Canonical (roundWithAccuracy Format.binary64 sign mantissa exponent accuracy) := by
  obtain ⟨places, significand, -, -, rounded, ⟨fits, result⟩ | ⟨-, result⟩⟩ :=
    roundWithAccuracy_cases sign accuracy pos low
  · rw [result]
    exact canonical_ofSignificand sign fits rounded.least rounded.long
  · rw [result]
    exact canonical_ofSignificand sign (by decide) (Int.le_add_one rounded.least)
      (.inl (Nat.le_refl _))

/-- **Rounding does not flush to zero** what has a bit that is worth a quantum. -/
theorem roundWithAccuracy_eq_finite (sign : Sign) (accuracy : Accuracy) (pos : 0 < mantissa)
    (low : exponent ≤ Format.binary64.targetExponent (totalExponent mantissa exponent))
    (quantum : -1074 ≤ (mantissa.log2 : Int) + exponent) :
    ∃ mantissa' exponent' pos', roundWithAccuracy Format.binary64 sign mantissa exponent accuracy =
      .finite sign mantissa' exponent' pos' := by
  obtain ⟨places, significand, target, rfl, rounded, ⟨-, result⟩ | ⟨-, result⟩⟩ :=
    roundWithAccuracy_cases sign accuracy pos low
  · -- The first bit is not shifted out.
    have first : places ≤ mantissa.log2 := by omega
    have some : 0 < mantissa / 2 ^ places := by
      refine Nat.div_pos ?_ (Nat.two_pow_pos places)
      exact (Nat.le_log2 (Nat.ne_of_gt pos)).mp first
    have kept := Nat.lt_of_lt_of_le some (roundedMantissa_shiftRight mantissa places accuracy).1
    exact ⟨_, _, kept, result.trans (ofSignificand_of_pos sign _ kept)⟩
  · exact ⟨_, _, by decide, result.trans (ofSignificand_of_pos sign _ (by decide))⟩

end Shifts

end Calculator.Binary
