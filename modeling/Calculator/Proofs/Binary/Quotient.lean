import Calculator.Proofs.Binary.Integral

/-!
# Quotients that vanish

A quotient of positive finite floats is computed to more bits than a float keeps, and then rounded.
It is not flushed to zero if it is at least one quantum; by the lengths of the two numbers, this is
certain if the divisor is at most 1073 bits longer than the dividend (`div_ne_zero`). A finite
number divided by infinity is zero, whatever its size (`div_eq_zero_of_infinite`).
-/

namespace Calculator.Binary

open Float.Model Float.Model.UnpackedFloat

/-! ### The bits of a quotient -/

/-- A quotient is as long as the difference of the lengths, or one bit shorter. -/
theorem le_log2_div {a b bits : Nat} (ha : a ≠ 0) (hb : 0 < b)
    (h : b.log2 + 1 + bits ≤ a.log2) : 0 < a / b ∧ bits ≤ (a / b).log2 := by
  have long : 2 ^ bits ≤ a / b := by
    rw [Nat.le_div_iff_mul_le hb]
    calc
      2 ^ bits * b ≤ 2 ^ bits * 2 ^ (b.log2 + 1) :=
        Nat.mul_le_mul_left _ (Nat.le_of_lt Nat.lt_log2_self)
      _ = 2 ^ (b.log2 + 1 + bits) := by rw [← Nat.pow_add, Nat.add_comm]
      _ ≤ 2 ^ a.log2 := Nat.pow_le_pow_right (by decide) h
      _ ≤ a := Nat.log2_self_le ha
  have pos : 0 < a / b := Nat.lt_of_lt_of_le (Nat.two_pow_pos bits) long
  exact ⟨pos, (Nat.le_log2 (Nat.ne_of_gt pos)).mpr long⟩

/-- **How a quotient of at least one quantum is computed.** Under the exponent `last`, the dividend
is divided by the divisor, and what is left of it says whether the quotient is exact. The exponent
leaves the quotient as long as a float needs it. The places of the first bits of the two numbers are
given by their lengths and exponents. -/
theorem exists_div_eq (sign sign' : Sign) (e e' : Int) {m m' : Nat} (pos : 0 < m) (pos' : 0 < m')
    (above : -1073 ≤ (m.log2 + e) - (m'.log2 + e')) :
    ∃ (last : Int) (places : Nat), e - e' = last + places ∧
      last ≤ max ((m.log2 + e) - (m'.log2 + e') - 53) (-1074) ∧
      0 < m <<< places / m' ∧
      (m.log2 + e) - (m'.log2 + e') ≤ (m <<< places / m').log2 + last + 1 ∧
      last ≤ Format.binary64.targetExponent (totalExponent (m <<< places / m') last) ∧
      UnpackedFloat.div Format.binary64 (.finite sign m e pos) (.finite sign' m' e' pos') =
        roundWithAccuracy Format.binary64 (sign / sign') (m <<< places / m') last
          (accuracyOfFraction (m <<< places % m') m') := by
  have target : Format.binary64.targetExponent (totalExponent m e - totalExponent m' e') =
      max ((m.log2 + e) - (m'.log2 + e') - 53) (-1074) := by
    have least : Format.binary64.minExponent = -1074 := by decide
    have bits : (Format.binary64.mantissaBits : Int) = 53 := rfl
    rw [Format.targetExponent, totalExponent, totalExponent, least, bits]
    omega
  rw [UnpackedFloat.div, divCore, target]
  generalize lowest : min (e - e') (max ((m.log2 + e) - (m'.log2 + e') - 53) (-1074)) = last
  obtain ⟨places, shift⟩ : ∃ places : Nat, (e - e' - last).toNat = places := ⟨_, rfl⟩
  dsimp only
  rw [shift]
  -- Under the exponent `last`, the dividend is at least one bit longer than the divisor.
  have shifted := log2_mul_two_pow pos places
  rw [← Nat.shiftLeft_eq] at shifted
  have ne : m <<< places ≠ 0 := by
    rw [Nat.shiftLeft_eq]
    exact Nat.ne_of_gt (Nat.mul_pos pos (Nat.two_pow_pos _))
  obtain ⟨bits, longer⟩ : ∃ bits : Nat, m'.log2 + 1 + bits = (m <<< places).log2 := by
    refine ⟨(m <<< places).log2 - m'.log2 - 1, ?_⟩
    omega
  obtain ⟨positive, long⟩ := le_log2_div ne pos' (Nat.le_of_eq longer)
  refine ⟨last, places, by omega, by omega, positive, by omega, ?_, rfl⟩
  rw [targetExponent_eq]
  omega

/-- **A quotient of at least one quantum is not zero.** -/
theorem exists_div_eq_finite (sign sign' : Sign) (e e' : Int) {m m' : Nat} (pos : 0 < m)
    (pos' : 0 < m') (above : -1073 ≤ (m.log2 + e) - (m'.log2 + e')) :
    ∃ mantissa exponent positive, UnpackedFloat.div Format.binary64 (.finite sign m e pos)
        (.finite sign' m' e' pos') = .finite (sign / sign') mantissa exponent positive ∧
      Canonical (.finite (sign / sign') mantissa exponent positive) := by
  obtain ⟨last, places, -, -, positive, long, low, result⟩ :=
    exists_div_eq sign sign' e e' pos pos' above
  rw [result]
  generalize accuracyOfFraction (m <<< places % m') m' = accuracy
  have canonical := canonical_roundWithAccuracy (sign / sign') accuracy positive low
  obtain ⟨mantissa, exponent, nonzero, rounded⟩ :=
    roundWithAccuracy_eq_finite (sign / sign') accuracy positive low (by omega)
  rw [rounded] at canonical
  exact ⟨mantissa, exponent, nonzero, rounded, canonical⟩

/-! ### Quotients of floats -/

section Floats

variable {x y : Float} {size size' : Nat}

/-- What a positive finite float looks like unpacked. The place of its first bit is given by its
length in quanta. -/
theorem exists_unpack_eq_finite (hx : Exact.ofFloat x = .finite false size) (pos : 0 < size) :
    ∃ mantissa exponent positive, x.toModel.unpack = .finite .positive mantissa exponent positive ∧
      (size.log2 : Int) = mantissa.log2 + exponent + 1074 := by
  have canonical := canonical_unpack x.toModel.toBits.toBitVec
  rw [Exact.ofFloat_eq] at hx
  change Canonical x.toModel.unpack at canonical
  generalize x.toModel.unpack = u at hx canonical
  cases u with
  | notANumber | infinity _ => cases hx
  | zero sign =>
    simp only [Exact.ofUnpacked, Exact.finite.injEq] at hx
    omega
  | finite sign mantissa exponent positive =>
    simp only [Exact.ofUnpacked, Exact.finite.injEq] at hx
    obtain ⟨plus, rfl⟩ := hx
    have quantum : (depth : Int) = 1074 := rfl
    have length := log2_mul_two_pow positive (exponent + depth).toNat
    obtain ⟨-, least, -⟩ := canonical
    cases sign with
    | negative => cases plus
    | positive => exact ⟨mantissa, exponent, positive, rfl, by omega⟩

/-- A float is zero exactly if it stands for zero quanta. -/
theorem beq_zero_iff : (x == 0.0) = true ↔ ∃ negative, Exact.ofFloat x = .finite negative 0 := by
  have zero : (0.0 : Float).toModel.unpack = .zero .positive := rfl
  have compared : (x == 0.0) = x.toModel.unpack.beq (.zero .positive) := by
    rw [← zero]
    rfl
  rw [compared, Exact.ofFloat_eq]
  cases x.toModel.unpack with
  | notANumber => exact iff_of_false Bool.false_ne_true (by simp [Exact.ofUnpacked])
  | infinity sign =>
    cases sign <;> exact iff_of_false Bool.false_ne_true (by simp [Exact.ofUnpacked])
  | zero sign => exact iff_of_true rfl ⟨isMinus sign, rfl⟩
  | finite sign mantissa exponent positive =>
    have nonzero : ¬ ∃ negative, Exact.ofUnpacked (.finite sign mantissa exponent positive) =
        .finite negative 0 := by
      rintro ⟨negative, same⟩
      simp only [Exact.ofUnpacked, Exact.finite.injEq, Nat.mul_eq_zero] at same
      have power := Nat.two_pow_pos (exponent + depth).toNat
      omega
    cases sign <;> exact iff_of_false Bool.false_ne_true nonzero

/-- **A quotient is not flushed to zero** if the divisor is at most 1073 bits longer than the
dividend. -/
theorem div_ne_zero (hx : Exact.ofFloat x = .finite false size)
    (hy : Exact.ofFloat y = .finite false size') (pos : 0 < size) (pos' : 0 < size')
    (above : size'.log2 ≤ size.log2 + 1073) : (x / y == 0.0) = false := by
  obtain ⟨m, e, positive, unpacked, length⟩ := exists_unpack_eq_finite hx pos
  obtain ⟨m', e', positive', unpacked', length'⟩ := exists_unpack_eq_finite hy pos'
  obtain ⟨mantissa, exponent, nonzero, result, canonical⟩ :=
    exists_div_eq_finite .positive .positive e e' positive positive' (by omega)
  have packed : x / y =
      .ofModel (.pack (.finite (.positive / .positive) mantissa exponent nonzero)) := by
    have quotient : x / y = .ofModel
        (.pack (UnpackedFloat.div Format.binary64 x.toModel.unpack y.toModel.unpack)) := rfl
    rw [quotient, unpacked, unpacked', result]
  rw [Bool.eq_false_iff, ne_eq, beq_zero_iff, packed]
  rintro ⟨negative, zero⟩
  rcases Exact.ofFloat_pack_canonical canonical with same | ⟨_, infinite⟩
  · rw [same] at zero
    simp only [Exact.ofUnpacked, Exact.finite.injEq, Nat.mul_eq_zero] at zero
    have power := Nat.two_pow_pos (exponent + depth).toNat
    omega
  · rw [infinite] at zero
    cases zero

/-- A positive finite float divided by infinity is zero. -/
theorem div_eq_zero_of_infinite (hx : Exact.ofFloat x = .finite false size) (pos : 0 < size) :
    x / (1.0 / 0.0) = 0.0 := by
  obtain ⟨m, e, positive, unpacked, -⟩ := exists_unpack_eq_finite hx pos
  have quotient : x / (1.0 / 0.0) = .ofModel
      (.pack (UnpackedFloat.div Format.binary64 x.toModel.unpack (.infinity .positive))) := rfl
  rw [quotient, unpacked]
  rfl

end Floats

end Calculator.Binary
