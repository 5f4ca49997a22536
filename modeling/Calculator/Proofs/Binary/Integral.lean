import Calculator.Proofs.Binary.Rounding

/-!
# Arithmetic of whole numbers

A float is `Integral` if it has no fractional part: it is whole, infinite or not a number. Sums,
differences and products of such floats are such floats again, though rounded: the bits that a
rounding drops are all in front of the point, unless they are zeroes
(`canonicalWhole_roundWithAccuracy`). So are opposite numbers, remainders and natural numbers, and
the floor of every float.

The whole floats are those that are finite and equal to their floor (`isWhole_iff`).
-/

namespace Calculator.Binary

open Float.Model Float.Model.UnpackedFloat

/-- Not a number, infinite or whole. -/
def Exact.Integral : Exact → Prop
  | .finite _ size => one ∣ size
  | _ => True

/-! ### Rounding -/

section Rounding

/-- Whether a significand times a power of two is a whole number. -/
def WholeScaled (mantissa : Nat) (exponent : Int) : Prop :=
  2 ^ (-exponent).toNat ∣ mantissa

theorem wholeScaled_of_nonneg {exponent : Int} (h : 0 ≤ exponent) (mantissa : Nat) :
    WholeScaled mantissa exponent := by
  have zero : (-exponent).toNat = 0 := by omega
  rw [WholeScaled, zero]
  exact Nat.one_dvd mantissa

theorem one_eq : one = 2 ^ depth := by
  unfold one
  rw [Nat.pow_eq]

/-- In quanta, a whole number is a multiple of `one`. -/
theorem wholeScaled_iff {mantissa : Nat} {exponent : Int} (least : -depth ≤ exponent) :
    WholeScaled mantissa exponent ↔ one ∣ mantissa * 2 ^ (exponent + depth).toNat := by
  rw [one_eq]
  rcases Int.le_total 0 exponent with nonneg | neg
  · -- Above zero, the power alone is a multiple.
    have more : depth ≤ (exponent + depth).toNat := by omega
    have quanta : 2 ^ depth ∣ mantissa * 2 ^ (exponent + depth).toNat :=
      Nat.dvd_mul_left_of_dvd (Nat.pow_dvd_pow 2 more) mantissa
    exact iff_of_true (wholeScaled_of_nonneg nonneg mantissa) quanta
  · have parts : depth = (-exponent).toNat + (exponent + depth).toNat := by omega
    have split : 2 ^ depth = 2 ^ (-exponent).toNat * 2 ^ (exponent + depth).toNat := by
      rw [← Nat.pow_add, ← parts]
    rw [split, WholeScaled, Nat.mul_dvd_mul_iff_right (Nat.two_pow_pos _)]

/-- Canonical floats that are not finite or whole. -/
def CanonicalWhole (u : UnpackedFloat) : Prop :=
  Canonical u ∧ (Exact.ofUnpacked u).Integral

/-- **A whole number stays whole** if it is shifted and rounded: as long as the exponent is below
zero, only zeroes are shifted out, and from then on everything is whole. -/
theorem WholeScaled.shiftRight {mantissa : Nat} {exponent : Int} (h : WholeScaled mantissa exponent)
    (places : Nat) :
    WholeScaled (ExtendedMantissa.ofMantissaAndAccuracy mantissa .exact >>> places).roundedMantissa
      (exponent + places) := by
  rcases Int.le_total 0 (exponent + places) with nonneg | neg
  · exact wholeScaled_of_nonneg nonneg _
  · have parts : (-exponent).toNat = (-(exponent + places)).toNat + places := by omega
    unfold WholeScaled at h ⊢
    rw [parts, Nat.pow_add] at h
    have divides : 2 ^ places ∣ mantissa := Nat.dvd_trans (Nat.dvd_mul_left _ _) h
    rw [shiftRight_of_dvd divides]
    apply (Nat.dvd_div_iff_mul_dvd divides).mpr
    rwa [Nat.mul_comm]

theorem integral_ofSignificand {mantissa : Nat} {exponent : Int} (sign : Sign)
    (least : -depth ≤ exponent) (whole : WholeScaled mantissa exponent) :
    (Exact.ofUnpacked (ofSignificand sign mantissa exponent)).Integral := by
  rw [ofSignificand]
  split
  · exact Nat.dvd_zero one
  · exact (wholeScaled_iff least).mp whole

/-- **Rounding a whole number gives a whole number.** -/
theorem canonicalWhole_roundWithAccuracy {mantissa : Nat} {exponent : Int} (sign : Sign)
    (pos : 0 < mantissa)
    (low : exponent ≤ Format.binary64.targetExponent (totalExponent mantissa exponent))
    (whole : WholeScaled mantissa exponent) :
    CanonicalWhole (roundWithAccuracy Format.binary64 sign mantissa exponent .exact) := by
  refine ⟨canonical_roundWithAccuracy sign .exact pos low, ?_⟩
  obtain ⟨places, significand, -, rfl, rounded, ⟨-, result⟩ | ⟨carry, result⟩⟩ :=
    roundWithAccuracy_cases sign .exact pos low
  · rw [result]
    exact integral_ofSignificand sign rounded.least (whole.shiftRight places)
  · have power : WholeScaled (2 ^ 53) (exponent + places) := carry ▸ whole.shiftRight places
    rw [result]
    exact integral_ofSignificand sign (Int.le_add_one rounded.least) (power.shiftRight 1)

end Rounding

/-! ### Operations -/

section Operations

theorem WholeScaled.shiftLeft {mantissa : Nat} {exponent : Int} (h : WholeScaled mantissa exponent)
    (places : Nat) : WholeScaled (mantissa <<< places) (exponent - places) := by
  have more : (-(exponent - places)).toNat ≤ (-exponent).toNat + places := by omega
  rw [WholeScaled, Nat.shiftLeft_eq]
  calc
    2 ^ (-(exponent - places)).toNat ∣ 2 ^ ((-exponent).toNat + places) := Nat.pow_dvd_pow 2 more
    _ = 2 ^ (-exponent).toNat * 2 ^ places := Nat.pow_add 2 _ _
    _ ∣ mantissa * 2 ^ places := Nat.mul_dvd_mul_right h _

/-- The significand that a float has under a smaller exponent. -/
theorem WholeScaled.decrease {mantissa : Nat} {exponent smaller : Int}
    (h : WholeScaled mantissa exponent) (le : smaller ≤ exponent) :
    WholeScaled (decreaseExponent mantissa exponent smaller).1 smaller := by
  have shifted := h.shiftLeft (exponent - smaller).toNat
  have same : exponent - (exponent - smaller).toNat = smaller := by omega
  rwa [same] at shifted

theorem WholeScaled.dvd_apply {mantissa : Nat} {exponent : Int} (h : WholeScaled mantissa exponent)
    (sign : Sign) : ((2 ^ (-exponent).toNat : Nat) : Int) ∣ sign.apply mantissa := by
  have divides : ((2 ^ (-exponent).toNat : Nat) : Int) ∣ mantissa := Int.natCast_dvd_natCast.mpr h
  cases sign with
  | negative => exact Int.dvd_neg.mpr divides
  | positive => exact divides

theorem canonicalWhole_round {mantissa : Nat} {exponent : Int} (sign : Sign) (pos : 0 < mantissa)
    (whole : WholeScaled mantissa exponent) :
    CanonicalWhole (UnpackedFloat.round Format.binary64 sign mantissa exponent) := by
  rw [UnpackedFloat.round, decreaseExponent]
  generalize places : (exponent - Format.binary64.targetExponent
    (totalExponent mantissa exponent)).toNat = k
  rw [targetExponent_eq] at places
  have shifted : 0 < mantissa <<< k := by
    rw [Nat.shiftLeft_eq]
    exact Nat.mul_pos pos (Nat.two_pow_pos k)
  refine canonicalWhole_roundWithAccuracy sign shifted ?_ (whole.shiftLeft k)
  rw [targetExponent_eq, Nat.shiftLeft_eq, log2_mul_two_pow pos]
  omega

theorem canonicalWhole_normalize {mantissa exponent : Int} (zeroSign : Sign)
    (whole : ((2 ^ (-exponent).toNat : Nat) : Int) ∣ mantissa) :
    CanonicalWhole (UnpackedFloat.normalize Format.binary64 mantissa exponent zeroSign) := by
  rw [UnpackedFloat.normalize]
  split
  · next negative =>
    have neg : mantissa < 0 := Int.compare_eq_lt.mp negative
    refine canonicalWhole_round _ (by omega) ?_
    have same : (-mantissa).toNat = mantissa.natAbs := by omega
    rw [WholeScaled, same]
    exact Int.natCast_dvd.mp whole
  · exact ⟨trivial, Nat.dvd_zero one⟩
  · next positive =>
    have pos : 0 < mantissa := Int.compare_eq_gt.mp positive
    refine canonicalWhole_round _ (by omega) ?_
    have same : mantissa.toNat = mantissa.natAbs := by omega
    rw [WholeScaled, same]
    exact Int.natCast_dvd.mp whole

variable {u v : UnpackedFloat}

theorem CanonicalWhole.neg (h : CanonicalWhole u) : CanonicalWhole u.neg := by
  cases u with
  | notANumber | infinity _ | zero _ => exact ⟨trivial, h.2⟩
  | finite sign mantissa exponent pos => exact h

/-- What is whole keeps its value under a smaller exponent, so sums are sums of significands. -/
theorem CanonicalWhole.dvd_apply {sign : Sign} {mantissa : Nat} {exponent smaller : Int}
    {pos : 0 < mantissa} (h : CanonicalWhole (.finite sign mantissa exponent pos))
    (le : smaller ≤ exponent) : ((2 ^ (-smaller).toNat : Nat) : Int) ∣
      sign.apply (decreaseExponent mantissa exponent smaller).1 :=
  (((wholeScaled_iff h.1.2.1).mpr h.2).decrease le).dvd_apply sign

theorem CanonicalWhole.add (hu : CanonicalWhole u) (hv : CanonicalWhole v) :
    CanonicalWhole (UnpackedFloat.add Format.binary64 u v) := by
  cases u with
  | notANumber => exact hu
  | infinity sign =>
    cases v with
    | notANumber => exact hv
    | infinity sign' =>
      rw [UnpackedFloat.add]
      split <;> exact ⟨trivial, trivial⟩
    | zero _ | finite _ _ _ _ => exact hu
  | zero sign =>
    cases v with
    | zero sign' =>
      rw [UnpackedFloat.add]
      split <;> exact ⟨trivial, Nat.dvd_zero one⟩
    | notANumber | infinity _ | finite _ _ _ _ => exact hv
  | finite sign mantissa exponent pos =>
    cases v with
    | notANumber | infinity _ => exact hv
    | zero _ => exact hu
    | finite sign' mantissa' exponent' pos' =>
      have left := hu.dvd_apply (Int.min_le_left exponent exponent')
      have right := hv.dvd_apply (Int.min_le_right exponent exponent')
      exact canonicalWhole_normalize .positive (Int.dvd_add left right)

theorem sub_eq_add_neg (spec : Format) (u v : UnpackedFloat) :
    UnpackedFloat.sub spec u v = UnpackedFloat.add spec u v.neg := by
  cases u with
  | finite sign mantissa exponent pos =>
    cases v with
    | finite sign' mantissa' exponent' pos' =>
      have opposite (n : Int) : (-sign').apply n = -sign'.apply n := by
        cases sign' with
        | negative => exact (Int.neg_neg n).symm
        | positive => rfl
      simp only [UnpackedFloat.neg, UnpackedFloat.sub, UnpackedFloat.add, opposite]
      rw [Int.sub_eq_add_neg]
    | _ => rfl
  | _ => cases v <;> rfl

theorem CanonicalWhole.mul (hu : CanonicalWhole u) (hv : CanonicalWhole v) :
    CanonicalWhole (UnpackedFloat.mul Format.binary64 u v) := by
  cases u with
  | notANumber => exact hu
  | infinity sign => cases v <;> exact ⟨trivial, trivial⟩
  | zero sign =>
    cases v with
    | notANumber | infinity _ => exact ⟨trivial, trivial⟩
    | zero _ | finite _ _ _ _ => exact ⟨trivial, Nat.dvd_zero one⟩
  | finite sign mantissa exponent pos =>
    cases v with
    | notANumber | infinity _ => exact ⟨trivial, trivial⟩
    | zero _ => exact ⟨trivial, Nat.dvd_zero one⟩
    | finite sign' mantissa' exponent' pos' =>
      obtain ⟨⟨high, least, long⟩, whole⟩ := hu
      obtain ⟨⟨high', least', long'⟩, whole'⟩ := hv
      have quantum : (depth : Int) = 1074 := rfl
      refine canonicalWhole_roundWithAccuracy _ (Nat.mul_pos pos pos') ?_ ?_
      · -- If a factor has 53 bits, so has the product; two short ones are below all quanta.
        have bits : 52 ≤ (mantissa * mantissa').log2 ∨ exponent + exponent' ≤ -1074 := by
          rw [Nat.le_log2 (Nat.ne_of_gt (Nat.mul_pos pos pos'))]
          rcases long with long | smallest
          · exact .inl (Nat.le_trans long (Nat.le_mul_of_pos_right _ pos'))
          · rcases long' with long' | smallest'
            · exact .inl (Nat.le_trans long' (Nat.le_mul_of_pos_left _ pos))
            · right
              omega
        rw [targetExponent_eq]
        omega
      · have left : WholeScaled mantissa exponent := (wholeScaled_iff least).mpr whole
        have right : WholeScaled mantissa' exponent' := (wholeScaled_iff least').mpr whole'
        have fewer : (-(exponent + exponent')).toNat ≤ (-exponent).toNat + (-exponent').toNat := by
          omega
        show 2 ^ (-(exponent + exponent')).toNat ∣ mantissa * mantissa'
        calc
          2 ^ (-(exponent + exponent')).toNat ∣ 2 ^ ((-exponent).toNat + (-exponent').toNat) :=
            Nat.pow_dvd_pow 2 fewer
          _ = 2 ^ (-exponent).toNat * 2 ^ (-exponent').toNat := Nat.pow_add 2 _ _
          _ ∣ mantissa * mantissa' := Nat.mul_dvd_mul left right

end Operations

/-! ### Floats -/

/-- Not a number, infinite or whole. -/
def Integral (x : Float) : Prop :=
  (Exact.ofFloat x).Integral

variable {x y : Float}

theorem Integral.unpack (h : Integral x) : CanonicalWhole x.toModel.unpack := by
  refine ⟨canonical_unpack _, ?_⟩
  rw [← Exact.ofFloat_eq]
  exact h

theorem CanonicalWhole.pack {u : UnpackedFloat} (h : CanonicalWhole u) :
    Integral (.ofModel (.pack u)) := by
  rw [Integral]
  rcases Exact.ofFloat_pack_canonical h.1 with same | ⟨negative, infinite⟩
  · rw [same]
    exact h.2
  · rw [infinite]
    trivial

theorem Integral.add (hx : Integral x) (hy : Integral y) : Integral (x + y) :=
  (hx.unpack.add hy.unpack).pack

theorem Integral.sub (hx : Integral x) (hy : Integral y) : Integral (x - y) := by
  have sum := (hx.unpack.add hy.unpack.neg).pack
  rwa [← sub_eq_add_neg] at sum

theorem Integral.mul (hx : Integral x) (hy : Integral y) : Integral (x * y) :=
  (hx.unpack.mul hy.unpack).pack

theorem Integral.neg (hx : Integral x) : Integral (-x) :=
  hx.unpack.neg.pack

/-! ### Operations that are exact -/

/-- A whole number is rounded to a whole number: either all bits below the point are dropped, or
only zeroes are. -/
theorem one_dvd_quanta_nearest {size : Nat} (whole : one ∣ size)
    (finite : nearest size 1 < infinity) : one ∣ quanta (nearest size 1) := by
  rw [quanta_nearest finite]
  rw [one_eq] at whole ⊢
  -- The rounding drops bits, and `one` is bit `depth`.
  generalize size.log2 - 52 = dropped
  rcases Nat.le_total depth dropped with coarse | fine
  · exact Nat.dvd_mul_left_of_dvd (Nat.pow_dvd_pow 2 coarse) _
  · have divides : 2 ^ dropped ∣ size := Nat.dvd_trans (Nat.pow_dvd_pow 2 fine) whole
    obtain ⟨quotient, rfl⟩ := divides
    rw [Nat.mul_comm] at whole
    rwa [Nat.mul_comm (2 ^ dropped), roundDiv_mul_self _ (Nat.two_pow_pos dropped)]

theorem integral_ofQuanta {size : Nat} (negative : Bool) (whole : one ∣ size) :
    Integral (ofQuanta negative size) := by
  have bound : nearest size 1 ≤ infinity := Nat.min_le_right _ _
  rw [Integral, ofQuanta, Exact.ofFloat_ofCode bound]
  rcases Nat.lt_or_eq_of_le bound with finite | top
  · rw [Exact.ofCode_of_lt finite]
    exact one_dvd_quanta_nearest whole finite
  · rw [Exact.ofCode_of_eq top]
    trivial

theorem integral_ofNat (n : Nat) : Integral (ofNat n) :=
  integral_ofQuanta false (Nat.dvd_mul_left one n)

/-- Beyond the largest finite float, values are rounded to infinity. -/
theorem nearest_of_large {size : Nat} (large : 1024 + depth ≤ size.log2) :
    nearest size 1 = infinity := by
  have quantum : depth = 1074 := rfl
  have exponent : 2046 ≤ size.log2 - 52 := by omega
  have long : 2 ^ 52 ≤ roundDiv size (2 ^ (size.log2 - 52)) := two_pow_le_roundDiv (by omega)
  rw [nearest_eq]
  apply Nat.min_eq_right
  calc
    infinity = 2046 * 2 ^ 52 + 2 ^ 52 := rfl
    _ ≤ (size.log2 - 52) * 2 ^ 52 + roundDiv size (2 ^ (size.log2 - 52)) :=
      Nat.add_le_add (Nat.mul_le_mul_right _ exponent) long

/-- The natural numbers that are too large have 1025 bits or more. -/
theorem ofFloat_ofNat_of_large {n : Nat} (large : 1024 ≤ n.log2) :
    Exact.ofFloat (ofNat n) = .infinite false := by
  have pos : 0 < n := by
    apply Nat.pos_of_ne_zero
    rintro rfl
    exact absurd large (by decide)
  have bits : (n * one).log2 = n.log2 + depth := by
    rw [one_eq, log2_mul_two_pow pos]
  have top : Exact.ofFloat (ofCode false infinity) = .infinite false := by decide +kernel
  rw [ofNat, ofQuanta, nearest_of_large (by omega), top]

/-- What has one bit less than the largest finite float is not rounded to infinity. -/
theorem nearest_lt_infinity {size : Nat} (short : size.log2 < 2097) :
    nearest size 1 < infinity := by
  have rounded := roundDiv_le_two_pow size
  have top : infinity = 2047 * 2 ^ 52 := rfl
  rw [nearest_eq]
  omega

theorem ofFloat_ofQuanta {size : Nat} (negative : Bool) (finite : nearest size 1 < infinity) :
    Exact.ofFloat (ofQuanta negative size) = .finite negative (quanta (nearest size 1)) := by
  rw [ofQuanta, Exact.ofFloat_ofCode (Nat.le_of_lt finite), Exact.ofCode_of_lt finite]

/-- The others do not lose a bit at their start. -/
theorem exists_ofFloat_ofNat {n : Nat} (pos : 0 < n) (small : n.log2 < 1023) :
    ∃ size, Exact.ofFloat (ofNat n) = .finite false size ∧ n.log2 + depth ≤ size.log2 := by
  have quantum : depth = 1074 := rfl
  have bits : (n * one).log2 = n.log2 + depth := by
    rw [one_eq, log2_mul_two_pow pos]
  have long : 2 ^ 52 ≤ roundDiv (n * one) (2 ^ ((n * one).log2 - 52)) :=
    two_pow_le_roundDiv (by omega)
  have finite : nearest (n * one) 1 < infinity := nearest_lt_infinity (by omega)
  refine ⟨quanta (nearest (n * one) 1), ofFloat_ofQuanta false finite, ?_⟩
  rw [quanta_nearest finite, log2_mul_two_pow (by omega)]
  have first := (Nat.le_log2 (by omega)).mpr long
  omega

theorem integral_floor (x : Float) : Integral (floor x) := by
  rw [floor]
  cases exact : Exact.ofFloat x with
  | nan | infinite _ =>
    rw [Integral, exact]
    trivial
  | finite negative size =>
    dsimp only
    split
    · next whole =>
      rw [Integral, exact]
      exact Nat.dvd_of_mod_eq_zero whole
    · split <;> exact integral_ofQuanta _ (Nat.dvd_mul_left one _)

theorem integral_nan : Integral (0.0 / 0.0) := by
  have nan : Exact.ofFloat (0.0 / 0.0) = .nan := by decide +kernel
  rw [Integral, nan]
  trivial

theorem Integral.remainder (hx : Integral x) (hy : Integral y) : Integral (remainder x y) := by
  unfold Binary.remainder
  cases dividend : Exact.ofFloat x with
  | nan | infinite _ => exact integral_nan
  | finite negative size =>
    cases divisor : Exact.ofFloat y with
    | nan => exact integral_nan
    | infinite _ => exact hx
    | finite negative' size' =>
      rw [Integral, dividend] at hx
      rw [Integral, divisor] at hy
      dsimp only
      split
      · exact integral_nan
      · exact integral_ofQuanta negative ((Nat.dvd_mod_iff hy).mpr hx)

/-! ### Whole floats -/

theorem isFinite_iff :
    x.isFinite = true ↔ ∃ negative size, Exact.ofFloat x = .finite negative size := by
  have unpacked : x.isFinite = x.toModel.unpack.isFinite := rfl
  rw [unpacked, Exact.ofFloat_eq]
  cases x.toModel.unpack <;> simp [UnpackedFloat.isFinite, Exact.ofUnpacked]

theorem isNaN_iff : x.isNaN = true ↔ Exact.ofFloat x = .nan := by
  have unpacked : x.isNaN = x.toModel.unpack.isNaN := rfl
  rw [unpacked, Exact.ofFloat_eq]
  cases x.toModel.unpack <;> simp [UnpackedFloat.isNaN, Exact.ofUnpacked]

theorem integral_iff : Integral x ↔ x.isFinite = false ∨ isWhole x = true := by
  rw [← Bool.not_eq_true, isFinite_iff, Integral, isWhole]
  cases Exact.ofFloat x with
  | nan | infinite _ => simp [Exact.Integral]
  | finite negative size => simp [Exact.Integral, Nat.dvd_iff_mod_eq_zero]

/-- **The whole floats** are those that are finite and equal to their floor. -/
theorem isWhole_iff : isWhole x = true ↔ x.isFinite = true ∧ floor x = x := by
  constructor
  · intro whole
    rw [isFinite_iff, floor]
    rw [isWhole] at whole
    cases exact : Exact.ofFloat x with
    | nan | infinite _ =>
      rw [exact] at whole
      cases whole
    | finite negative size =>
      rw [exact] at whole
      exact ⟨⟨negative, size, rfl⟩, if_pos (eq_of_beq whole)⟩
  · rintro ⟨finite, fixed⟩
    have integral := integral_floor x
    rw [fixed, integral_iff, finite] at integral
    simpa using integral

end Calculator.Binary
