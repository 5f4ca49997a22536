import Mathlib
import Calculator.Binary.Exact

/-!
# Floats, packed and unpacked

A float is 64 bits, and its arithmetic is defined on unpacked floats: a sign, a significand and an
exponent of two. This module says that both stand for the same values.

* `quanta_significand` and `quanta_nearest` are about codes: what the code of a significand under an
  exponent stands for, and what a value is rounded to.
* `Exact.ofFloat_eq` — unpacking a float does not change its value.
* `Exact.ofFloat_pack_canonical` — neither does packing, if the float is in canonical form, unless
  its exponent is too large. Then it becomes infinite.
* `Exact.ofFloat_ofCode` — a float that is put together from a sign and a code has that value.

The bits of the sign, the exponent and the fraction are numbers of their own: `code_eq` puts the
last two together.
-/

namespace Calculator.Binary

open Float.Model Float.Model.UnpackedFloat

/-- Whether a sign is a minus. -/
def isMinus : Sign → Bool
  | .negative => true
  | .positive => false

/-- The value of an unpacked float, of which the exponent is at least that of a quantum. -/
def Exact.ofUnpacked : UnpackedFloat → Exact
  | .notANumber => .nan
  | .infinity sign => .infinite (isMinus sign)
  | .zero sign => .finite (isMinus sign) 0
  | .finite sign mantissa exponent _ =>
    .finite (isMinus sign) (mantissa * 2 ^ (exponent + depth).toNat)

/-! ### Codes -/

/-- A significand under an exponent. Only the smallest exponent has short significands, and one that
is too long by a carry counts just as well. -/
theorem quanta_significand {exponent significand : Nat} (high : significand ≤ 2 ^ 53)
    (low : 2 ^ 52 ≤ significand ∨ exponent = 0) :
    quanta (exponent * 2 ^ 52 + significand) = significand * 2 ^ exponent := by
  simp only [quanta, Nat.pow_eq]
  rcases Nat.lt_or_ge significand (2 ^ 52) with short | long
  · have smallest : exponent = 0 := low.resolve_left (by omega)
    subst smallest
    have bits : (0 * 2 ^ 52 + significand) / 2 ^ 52 - 1 = 0 := by omega
    rw [bits]
    omega
  · rcases Nat.lt_or_ge significand (2 ^ 53) with fits | carry
    · have bits : (exponent * 2 ^ 52 + significand) / 2 ^ 52 - 1 = exponent := by omega
      rw [bits, Nat.add_sub_cancel_left]
    · -- The carry counts as one more exponent with the smallest significand.
      have exactly : significand = 2 ^ 53 := Nat.le_antisymm high carry
      have bits : (exponent * 2 ^ 52 + significand) / 2 ^ 52 - 1 = exponent + 1 := by omega
      have left : exponent * 2 ^ 52 + significand - (exponent + 1) * 2 ^ 52 = 2 ^ 52 := by omega
      rw [bits, left, exactly, Nat.pow_succ]
      omega

/-- Above the smallest exponent, a significand begins with a bit that is not in its code. -/
theorem quanta_normal {exponent fraction : Nat} (normal : exponent ≠ 0)
    (short : fraction < 2 ^ 52) :
    quanta (exponent * 2 ^ 52 + fraction) = (2 ^ 52 + fraction) * 2 ^ (exponent - 1) := by
  have parts : exponent * 2 ^ 52 + fraction = (exponent - 1) * 2 ^ 52 + (2 ^ 52 + fraction) := by
    omega
  rw [parts]
  apply quanta_significand
  · omega
  · left
    omega

theorem roundDiv_bounds (num den : Nat) :
    num / den ≤ roundDiv num den ∧ roundDiv num den ≤ num / den + 1 := by
  unfold roundDiv
  dsimp only
  split
  · omega
  · split <;> omega

/-- A value above the smallest normal one has a significand of 53 bits. -/
theorem two_pow_le_roundDiv {size : Nat} (normal : 52 ≤ size.log2) :
    2 ^ 52 ≤ roundDiv size (2 ^ (size.log2 - 52)) := by
  have ne : size ≠ 0 := by
    rintro rfl
    exact absurd normal (by decide)
  have long : 2 ^ 52 ≤ size / 2 ^ (size.log2 - 52) := by
    rw [Nat.le_div_iff_mul_le (Nat.two_pow_pos _), ← Nat.pow_add, Nat.add_sub_cancel' normal]
    exact Nat.log2_self_le ne
  calc
    2 ^ 52 ≤ size / 2 ^ (size.log2 - 52) := long
    _ ≤ roundDiv size (2 ^ (size.log2 - 52)) := (roundDiv_bounds _ _).1

/-- No value has a longer one, but for a carry. -/
theorem roundDiv_le_two_pow (size : Nat) :
    roundDiv size (2 ^ (size.log2 - 52)) ≤ 2 ^ 53 := by
  have short : size / 2 ^ (size.log2 - 52) < 2 ^ 53 := by
    rw [Nat.div_lt_iff_lt_mul (Nat.two_pow_pos _), ← Nat.pow_add]
    have bits : size.log2 + 1 ≤ 53 + (size.log2 - 52) := by omega
    calc
      size < 2 ^ (size.log2 + 1) := Nat.lt_log2_self
      _ ≤ 2 ^ (53 + (size.log2 - 52)) := Nat.pow_le_pow_right (by decide) bits
  calc
    roundDiv size (2 ^ (size.log2 - 52)) ≤ size / 2 ^ (size.log2 - 52) + 1 :=
      (roundDiv_bounds _ _).2
    _ ≤ 2 ^ 53 := short

theorem nearest_eq (size : Nat) :
    nearest size 1 =
      min ((size.log2 - 52) * 2 ^ 52 + roundDiv size (2 ^ (size.log2 - 52))) infinity := by
  simp only [nearest, Nat.pow_eq, Nat.div_one, Nat.one_mul]

/-- **The code that is nearest to a number of quanta** stands for a rounded quotient of it. -/
theorem quanta_nearest {size : Nat} (finite : nearest size 1 < infinity) :
    quanta (nearest size 1) =
      roundDiv size (2 ^ (size.log2 - 52)) * 2 ^ (size.log2 - 52) := by
  have unbounded : nearest size 1 =
      (size.log2 - 52) * 2 ^ 52 + roundDiv size (2 ^ (size.log2 - 52)) := by
    rw [nearest_eq] at finite ⊢
    omega
  rw [unbounded]
  apply quanta_significand (roundDiv_le_two_pow size)
  rcases Nat.lt_or_ge size.log2 52 with subnormal | normal
  · right
    omega
  · left
    exact two_pow_le_roundDiv normal

namespace Exact

variable {negative : Bool} {code : Nat}

theorem ofCode_of_lt (h : code < 2047 * 2 ^ 52) :
    ofCode negative code = .finite negative (quanta code) :=
  if_pos h

theorem ofCode_of_eq (h : code = 2047 * 2 ^ 52) : ofCode negative code = .infinite negative := by
  subst h
  rfl

theorem ofCode_of_gt (h : 2047 * 2 ^ 52 < code) : ofCode negative code = .nan := by
  have finite : ¬ code < infinity := Nat.not_lt.mpr (Nat.le_of_lt h)
  have infinite : ¬ code = infinity := Nat.ne_of_gt h
  rw [ofCode, if_neg finite, if_neg infinite]

end Exact

/-! ### The fields of a float -/

section Fields

variable (bits : BitVec Format.binary64.numBits)

theorem toNat_unpackMantissa : (unpackMantissa bits).toNat = bits.toNat % 2 ^ 52 := by
  simp [unpackMantissa]

theorem toNat_unpackExponent : (unpackExponent bits).toNat = bits.toNat / 2 ^ 52 % 2 ^ 11 := by
  simp [unpackExponent, Nat.shiftRight_eq_div_pow]

theorem unpackExponent_eq_ones_iff :
    unpackExponent bits = -1#_ ↔ (unpackExponent bits).toNat = 2047 := by
  rw [← BitVec.toNat_inj]
  rfl

theorem unpackExponent_eq_zero_iff :
    unpackExponent bits = 0#_ ↔ (unpackExponent bits).toNat = 0 := by
  rw [← BitVec.toNat_inj]
  rfl

theorem unpackMantissa_eq_zero_iff :
    unpackMantissa bits = 0#_ ↔ (unpackMantissa bits).toNat = 0 := by
  rw [← BitVec.toNat_inj]
  rfl

theorem isMinus_unpackSign :
    isMinus (.ofBitVec (unpackSign bits)) = decide (2 ^ 63 ≤ bits.toNat) := by
  have bound : bits.toNat < 2 ^ 64 := bits.isLt
  have field : (unpackSign bits).toNat = bits.toNat / 2 ^ 63 := by
    simp [unpackSign, Nat.shiftRight_eq_div_pow]
    omega
  -- The field is one bit, so it is zero exactly if the number of all bits is below its place.
  by_cases minus : 2 ^ 63 ≤ bits.toNat
  · have ne : unpackSign bits ≠ 0#1 := by
      intro zero
      rw [zero] at field
      simp at field
      omega
    rw [Sign.ofBitVec, if_neg ne, decide_eq_true minus, isMinus]
  · have eq : unpackSign bits = 0#1 := by
      apply BitVec.eq_of_toNat_eq
      rw [field]
      simp
      omega
    rw [Sign.ofBitVec, if_pos eq, decide_eq_false minus, isMinus]

/-- The code of a float is made up of its exponent bits and its fraction bits. -/
theorem code_eq : bits.toNat % 2 ^ 63 =
    (unpackExponent bits).toNat * 2 ^ 52 + (unpackMantissa bits).toNat := by
  rw [toNat_unpackExponent, toNat_unpackMantissa]
  omega

/-- The first bit of a significand is not among the fraction bits. -/
theorem toNat_implicit : (1#1 ++ unpackMantissa bits).toNat =
    2 ^ 52 + (unpackMantissa bits).toNat := by
  rw [BitVec.toNat_append, ← Nat.shiftLeft_add_eq_or_of_lt (unpackMantissa bits).isLt]
  rfl

/-- Unpacking a float does not change its value. -/
theorem Exact.ofUnpacked_unpack : Exact.ofUnpacked (unpack Format.binary64 bits) =
    .ofCode (decide (2 ^ 63 ≤ bits.toNat)) (bits.toNat % 2 ^ 63) := by
  have short : (unpackMantissa bits).toNat < 2 ^ 52 := (unpackMantissa bits).isLt
  have exponents : (unpackExponent bits).toNat < 2 ^ 11 := (unpackExponent bits).isLt
  rw [← isMinus_unpackSign, code_eq]
  have ones := unpackExponent_eq_ones_iff bits
  have zeros := unpackExponent_eq_zero_iff bits
  have empty := unpackMantissa_eq_zero_iff bits
  unfold UnpackedFloat.unpack
  simp only [ones, zeros, empty]
  by_cases top : (unpackExponent bits).toNat = 2047
  · -- All exponent bits are ones: the code is that of infinity, or it is beyond it.
    rw [if_pos top]
    by_cases none : (unpackMantissa bits).toNat = 0
    · rw [if_pos none, ofCode_of_eq (by omega)]
      rfl
    · rw [if_neg none, ofCode_of_gt (by omega)]
      rfl
  · rw [if_neg top, ofCode_of_lt (by omega)]
    by_cases bottom : (unpackExponent bits).toNat = 0
    · -- All exponent bits are zeroes: the fraction bits are the significand.
      rw [if_pos bottom, quanta_significand (by omega) (.inr bottom)]
      by_cases none : (unpackMantissa bits).toNat = 0
      · rw [dif_pos none, none, Nat.zero_mul]
        rfl
      · rw [dif_neg none]
        simp only [Exact.ofUnpacked, bottom]
        rfl
    · rw [if_neg bottom, quanta_normal bottom short]
      simp only [Exact.ofUnpacked]
      have bias : Format.binary64.exponentBias = 1023 := rfl
      have exponent : (((unpackExponent bits).toNat : Int) -
          (Format.binary64.exponentBias + (52 : Nat)) + depth).toNat =
          (unpackExponent bits).toNat - 1 := by
        rw [bias, depth]
        omega
      rw [exponent, toNat_implicit]

/-- The code of what is put together from a sign, exponent bits and fraction bits. -/
theorem toNat_packComponents (sign : Sign) (exponent : BitVec Format.binary64.exponentBits)
    (mantissa : BitVec Format.binary64.mantissaBitsWithoutImplicit) :
    (packComponents Format.binary64 sign exponent mantissa).toNat % 2 ^ 63 =
      exponent.toNat * 2 ^ 52 + mantissa.toNat := by
  rw [code_eq, unpackExponent_packComponents, unpackMantissa_packComponents]

theorem unpackSign_packComponents {spec : Format} (sign : Sign)
    (exponent : BitVec spec.exponentBits) (mantissa : BitVec spec.mantissaBitsWithoutImplicit) :
    unpackSign (packComponents spec sign exponent mantissa) = sign.toBitVec := by
  ext i inside
  obtain rfl : i = 0 := by omega
  simp [unpackSign, packComponents, BitVec.getLsbD_append, BitVec.getElem_append]

theorem isMinus_packComponents (sign : Sign) (exponent : BitVec Format.binary64.exponentBits)
    (mantissa : BitVec Format.binary64.mantissaBitsWithoutImplicit) :
    decide (2 ^ 63 ≤ (packComponents Format.binary64 sign exponent mantissa).toNat) =
      isMinus sign := by
  rw [← isMinus_unpackSign, unpackSign_packComponents]
  cases sign <;> rfl

end Fields

/-! ### Packing -/

/-- Unpacked floats that packing does not change, unless they are too large. The significand has 53
bits, or fewer under the smallest exponent. -/
def Canonical : UnpackedFloat → Prop
  | .finite _ mantissa exponent _ =>
    mantissa < 2 ^ 53 ∧ -depth ≤ exponent ∧ (2 ^ 52 ≤ mantissa ∨ exponent = -depth)
  | _ => True

/-- The value of a packed float, by its fields. -/
theorem Exact.ofFloat_pack (u : UnpackedFloat) : Exact.ofFloat (.ofModel (.pack u)) =
    .ofCode (decide (2 ^ 63 ≤ (pack Format.binary64 u).toNat))
      ((pack Format.binary64 u).toNat % 2 ^ 63) :=
  rfl

theorem Exact.ofFloat_eq (x : Float) : Exact.ofFloat x = .ofUnpacked x.toModel.unpack :=
  (ofUnpacked_unpack x.toModel.toBits.toBitVec).symm

theorem Exact.ofCode_packComponents (sign : Sign) (exponent : BitVec Format.binary64.exponentBits)
    (mantissa : BitVec Format.binary64.mantissaBitsWithoutImplicit) :
    Exact.ofCode
        (decide (2 ^ 63 ≤ (packComponents Format.binary64 sign exponent mantissa).toNat))
        ((packComponents Format.binary64 sign exponent mantissa).toNat % 2 ^ 63) =
      .ofCode (isMinus sign) (exponent.toNat * 2 ^ 52 + mantissa.toNat) := by
  rw [isMinus_packComponents, toNat_packComponents]

/-- What packing makes of a finite float. The exponent counts from that of a quantum. -/
theorem pack_finite {sign : Sign} {mantissa : Nat} {exponent : Int} {pos : 0 < mantissa}
    (canonical : Canonical (.finite sign mantissa exponent pos)) :
    pack Format.binary64 (.finite sign mantissa exponent pos) =
      if 2 ^ 11 ≤ (exponent + depth).toNat + 2 then packedInfinity Format.binary64 sign
      else if 2 ^ 52 ≤ mantissa then
        packComponents Format.binary64 sign (.ofNat _ ((exponent + depth).toNat + 1))
          (.ofNat _ mantissa)
      else packComponents Format.binary64 sign 0#_ (.ofNat _ mantissa) := by
  obtain ⟨high, least, -⟩ := canonical
  have quantum : (depth : Int) = 1074 := rfl
  have bias : (Format.binary64.exponentBias : Int) = 1023 := rfl
  have biased : (exponent + Format.binary64.exponentBias + (52 : Nat)).toNat =
      (exponent + depth).toNat + 1 := by omega
  have long_iff : mantissa.log2 + 1 = Format.binary64.mantissaBits ↔ 2 ^ 52 ≤ mantissa := by
    have ne : mantissa ≠ 0 := Nat.ne_of_gt pos
    have bits : Format.binary64.mantissaBits = 53 := rfl
    have := Nat.le_log2 ne (k := 52)
    have := (Nat.log2_lt ne).mpr high
    omega
  unfold UnpackedFloat.pack
  dsimp only
  rw [biased]
  simp only [long_iff]

/-- The code of a packed float is its significand under its exponent. -/
theorem Exact.ofFloat_pack_finite {sign : Sign} {mantissa : Nat} {exponent : Int}
    {pos : 0 < mantissa} (canonical : Canonical (.finite sign mantissa exponent pos))
    (fits : (exponent + depth).toNat + 2 < 2 ^ 11) :
    Exact.ofFloat (.ofModel (.pack (.finite sign mantissa exponent pos))) =
      .ofCode (isMinus sign) ((exponent + depth).toNat * 2 ^ 52 + mantissa) := by
  rw [ofFloat_pack, pack_finite canonical, if_neg (Nat.not_le.mpr fits)]
  obtain ⟨high, least, long⟩ := canonical
  by_cases normal : 2 ^ 52 ≤ mantissa
  · -- The first bit of the significand is dropped, and the exponent counts it in its place.
    have code : ((exponent + depth).toNat + 1) % 2 ^ 11 * 2 ^ 52 + mantissa % 2 ^ 52 =
        (exponent + depth).toNat * 2 ^ 52 + mantissa := by omega
    rw [if_pos normal, ofCode_packComponents, BitVec.toNat_ofNat, BitVec.toNat_ofNat]
    exact congrArg (Exact.ofCode (isMinus sign)) code
  · have smallest : (exponent + depth).toNat = 0 := by omega
    have code : 0 % 2 ^ 11 * 2 ^ 52 + mantissa % 2 ^ 52 = 0 * 2 ^ 52 + mantissa := by omega
    rw [if_neg normal, ofCode_packComponents, BitVec.toNat_ofNat, BitVec.toNat_ofNat, smallest]
    exact congrArg (Exact.ofCode (isMinus sign)) code

/-- **Packing** a float in canonical form does not change its value, except that it becomes infinite
if its exponent is too large. -/
theorem Exact.ofFloat_pack_canonical {u : UnpackedFloat} (canonical : Canonical u) :
    Exact.ofFloat (.ofModel (.pack u)) = .ofUnpacked u ∨
      ∃ negative, Exact.ofFloat (.ofModel (.pack u)) = .infinite negative := by
  cases u with
  | notANumber => exact .inl rfl
  | infinity sign =>
    left
    cases sign <;> rfl
  | zero sign =>
    left
    cases sign <;> rfl
  | finite sign mantissa exponent pos =>
    rcases Nat.lt_or_ge ((exponent + depth).toNat + 2) (2 ^ 11) with fits | overflow
    · left
      rw [ofFloat_pack_finite canonical fits]
      obtain ⟨high, least, long⟩ := canonical
      have low : 2 ^ 52 ≤ mantissa ∨ (exponent + depth).toNat = 0 := by omega
      rw [ofCode_of_lt (by omega), quanta_significand (Nat.le_of_lt high) low]
      rfl
    · right
      refine ⟨isMinus sign, ?_⟩
      rw [ofFloat_pack, pack_finite canonical, if_pos overflow, packedInfinity,
        ofCode_packComponents]
      exact ofCode_of_eq rfl

theorem canonical_unpack (bits : BitVec Format.binary64.numBits) :
    Canonical (unpack Format.binary64 bits) := by
  have short : (unpackMantissa bits).toNat < 2 ^ 52 := (unpackMantissa bits).isLt
  have bias : (Format.binary64.exponentBias : Int) = 1023 := rfl
  have quantum : (depth : Int) = 1074 := rfl
  unfold UnpackedFloat.unpack
  dsimp only
  split
  · split <;> trivial
  · split
    · next bottom =>
      split
      · trivial
      · have zero := (unpackExponent_eq_zero_iff bits).mp bottom
        refine ⟨by omega, ?_, .inr ?_⟩
        · rw [zero]
          omega
        · rw [zero]
          omega
    · next normal =>
      have pos : (unpackExponent bits).toNat ≠ 0 := fun zero =>
        normal ((unpackExponent_eq_zero_iff bits).mpr zero)
      refine ⟨?_, ?_, .inl ?_⟩
      · rw [toNat_implicit]
        omega
      · omega
      · rw [toNat_implicit]
        omega

/-! ### The range of finite floats -/

/-- The length of a number of quanta that are shifted into place. -/
theorem log2_mul_two_pow {significand : Nat} (pos : 0 < significand) (exponent : Nat) :
    (significand * 2 ^ exponent).log2 = significand.log2 + exponent := by
  have ne : significand ≠ 0 := Nat.ne_of_gt pos
  have power := Nat.two_pow_pos exponent
  rw [Nat.log2_eq_iff (Nat.mul_ne_zero ne (Nat.ne_of_gt power))]
  constructor
  · calc
      2 ^ (significand.log2 + exponent) = 2 ^ significand.log2 * 2 ^ exponent := Nat.pow_add 2 _ _
      _ ≤ significand * 2 ^ exponent := Nat.mul_le_mul_right _ (Nat.log2_self_le ne)
  · calc
      significand * 2 ^ exponent < 2 ^ (significand.log2 + 1) * 2 ^ exponent :=
        Nat.mul_lt_mul_of_pos_right Nat.lt_log2_self power
      _ = 2 ^ (significand.log2 + exponent + 1) := by rw [← Nat.pow_add, Nat.add_right_comm]

/-- Finite values have at most 2098 bits in quanta. -/
theorem log2_quanta_lt {code : Nat} (finite : code < infinity) : (quanta code).log2 < 2098 := by
  have bound : code < 2047 * 2 ^ 52 := finite
  have short : code - (code / 2 ^ 52 - 1) * 2 ^ 52 < 2 ^ 53 := by omega
  have low : code / 2 ^ 52 - 1 ≤ 2045 := by omega
  simp only [quanta, Nat.pow_eq]
  generalize code - (code / 2 ^ 52 - 1) * 2 ^ 52 = significand at short
  generalize code / 2 ^ 52 - 1 = exponent at low
  rcases Nat.eq_zero_or_pos significand with rfl | pos
  · rw [Nat.zero_mul, Nat.log2_zero]
    decide
  · have bits : significand.log2 < 53 := (Nat.log2_lt (Nat.ne_of_gt pos)).mpr short
    rw [log2_mul_two_pow pos]
    omega

theorem Exact.log2_lt_of_ofFloat_eq {x : Float} {negative : Bool} {size : Nat}
    (h : Exact.ofFloat x = .finite negative size) : size.log2 < 2098 := by
  rw [ofFloat, ofCode] at h
  split at h
  · next finite =>
    cases h
    exact log2_quanta_lt finite
  · split at h <;> cases h

/-- A float in canonical form that is not too large is packed as it is. -/
theorem Exact.ofFloat_pack_of_log2_lt {u : UnpackedFloat} {negative : Bool} {size : Nat}
    (canonical : Canonical u) (value : ofUnpacked u = .finite negative size)
    (small : size.log2 < 2098) : Exact.ofFloat (.ofModel (.pack u)) = .finite negative size := by
  cases u with
  | notANumber | infinity _ => cases value
  | zero sign =>
    rw [← value]
    cases sign <;> rfl
  | finite sign mantissa exponent pos =>
    obtain ⟨high, least, long⟩ := canonical
    have fits : (exponent + depth).toNat + 2 < 2 ^ 11 := by
      simp only [ofUnpacked, finite.injEq] at value
      obtain ⟨-, rfl⟩ := value
      rw [log2_mul_two_pow pos] at small
      -- Above the smallest exponent, a significand has 53 bits of its own.
      rcases long with long | lowest
      · have bits : 52 ≤ mantissa.log2 := (Nat.le_log2 (Nat.ne_of_gt pos)).mpr long
        omega
      · omega
    rw [ofFloat_pack_finite ⟨high, least, long⟩ fits, ← value]
    have low : 2 ^ 52 ≤ mantissa ∨ (exponent + depth).toNat = 0 := by omega
    rw [ofCode_of_lt (by omega), quanta_significand (Nat.le_of_lt high) low]
    rfl

/-- **The value of a float that is put together** from a sign and a code. -/
theorem Exact.ofFloat_ofCode {negative : Bool} {code : Nat} (bounded : code ≤ infinity) :
    Exact.ofFloat (Binary.ofCode negative code) = .ofCode negative code := by
  have small : code < 2 ^ 63 := Nat.lt_of_le_of_lt bounded (by decide)
  have canonical := canonical_unpack
    (UInt64.ofNat (if negative then Nat.pow 2 63 + code else code)).toBitVec
  have value := ofUnpacked_unpack
    (UInt64.ofNat (if negative then Nat.pow 2 63 + code else code)).toBitVec
  -- The sign and the code are told apart again at bit 63.
  have bits : (UInt64.ofNat (if negative then Nat.pow 2 63 + code else code)).toBitVec.toNat =
      if negative then 2 ^ 63 + code else code := by
    have bound : (if negative then Nat.pow 2 63 + code else code) < 2 ^ 64 := by
      simp only [Nat.pow_eq]
      split <;> omega
    rw [UInt64.toNat_toBitVec, UInt64.toNat_ofNat_of_lt' bound]
    rfl
  have sign : decide (2 ^ 63 ≤ if negative then 2 ^ 63 + code else code) = negative := by
    cases negative with
    | false => simpa using small
    | true => simp
  have rest : (if negative then 2 ^ 63 + code else code) % 2 ^ 63 = code := by
    split <;> omega
  rw [bits, sign, rest] at value
  have packed : Binary.ofCode negative code = .ofModel (.pack (unpack Format.binary64
      (UInt64.ofNat (if negative then Nat.pow 2 63 + code else code)).toBitVec)) := rfl
  rw [packed]
  generalize unpack Format.binary64
    (UInt64.ofNat (if negative then Nat.pow 2 63 + code else code)).toBitVec = u
    at canonical value ⊢
  rcases Nat.lt_or_eq_of_le bounded with finite | top
  · rw [ofCode_of_lt finite] at value ⊢
    exact ofFloat_pack_of_log2_lt canonical value (log2_quanta_lt finite)
  · rw [ofCode_of_eq top] at value ⊢
    cases u with
    | infinity sign =>
      rw [← value]
      cases sign <;> rfl
    | _ => cases value

end Calculator.Binary
