import Calculator.Proofs.Binary.Quotient

/-!
# Where results stop being whole

Whole floats are finite, and there are few ways out of them. A sum, a difference or a product of
whole floats is whole unless it is too large; then it is infinite (`isWhole_or_isInf_add`,
`isWhole_or_isInf_sub`, `isWhole_or_isInf_mul`). A remainder is not a number if the divisor is zero
and whole otherwise (`isWhole_remainder`). A quotient that is rounded down is whole, unless the
divisor is zero: a divisor that is whole has at least the value one, so the quotient is not larger
than the dividend, and rounding does not make it larger (`isWhole_floor_div`).

Of these operations, the remainder is the only one that never becomes infinite, whatever its
operands are (`isInf_remainder`).
-/

namespace Calculator.Binary

open Float.Model Float.Model.UnpackedFloat

variable {x y : Float}

theorem isInf_iff : x.isInf = true ↔ ∃ negative, Exact.ofFloat x = .infinite negative := by
  have unpacked : x.isInf = x.toModel.unpack.isInf := rfl
  rw [unpacked, Exact.ofFloat_eq]
  cases x.toModel.unpack <;> simp [UnpackedFloat.isInf, Exact.ofUnpacked]

theorem isInf_of_ofFloat_eq {negative : Bool} {size : Nat}
    (h : Exact.ofFloat x = .finite negative size) : x.isInf = false := by
  rw [← Bool.not_eq_true, isInf_iff, h]
  simp

theorem isInf_of_isWhole (h : isWhole x = true) : x.isInf = false := by
  obtain ⟨_, _, finite⟩ := isFinite_iff.mp (isWhole_iff.mp h).1
  exact isInf_of_ofFloat_eq finite

/-! ### Opposite floats -/

/-- The opposite value. -/
def Exact.neg : Exact → Exact
  | .nan => .nan
  | .infinite negative => .infinite !negative
  | .finite negative size => .finite (!negative) size

theorem Exact.ofUnpacked_neg (u : UnpackedFloat) : ofUnpacked u.neg = (ofUnpacked u).neg := by
  cases u with
  | notANumber => rfl
  | infinity sign | zero sign | finite sign _ _ _ => cases sign <;> rfl

theorem Canonical.neg {u : UnpackedFloat} (h : Canonical u) : Canonical u.neg := by
  cases u <;> exact h

/-- Packing a float in canonical form does not change its value if that is not too large. -/
theorem Exact.ofFloat_pack_of_small {u : UnpackedFloat} (canonical : Canonical u)
    (small : ∀ negative size, ofUnpacked u = .finite negative size → size.log2 < 2098) :
    Exact.ofFloat (.ofModel (.pack u)) = .ofUnpacked u := by
  cases u with
  | notANumber => rfl
  | infinity sign => cases sign <;> rfl
  | zero _ | finite _ _ _ _ => exact ofFloat_pack_of_log2_lt canonical rfl (small _ _ rfl)

/-- **The opposite of a float has the opposite value.** -/
theorem Exact.ofFloat_neg (x : Float) : ofFloat (-x) = (ofFloat x).neg := by
  have packed : -x = .ofModel (.pack x.toModel.unpack.neg) := rfl
  have canonical : Canonical x.toModel.unpack := canonical_unpack _
  have value := ofUnpacked_neg x.toModel.unpack
  rw [← ofFloat_eq] at value
  rw [packed, ofFloat_pack_of_small canonical.neg, value]
  -- The opposite value is as large as the value of a float, so it is not too large for packing.
  intro negative size opposite
  rw [value] at opposite
  cases exact : ofFloat x with
  | finite negative' size' =>
    rw [exact] at opposite
    cases opposite
    exact log2_lt_of_ofFloat_eq exact
  | nan | infinite _ =>
    rw [exact] at opposite
    cases opposite

theorem isWhole_neg (x : Float) : isWhole (-x) = isWhole x := by
  rw [isWhole, isWhole, Exact.ofFloat_neg]
  cases Exact.ofFloat x <;> rfl

theorem isInf_neg (x : Float) : (-x).isInf = x.isInf := by
  rw [Bool.eq_iff_iff, isInf_iff, isInf_iff, Exact.ofFloat_neg]
  cases Exact.ofFloat x <;> simp [Exact.neg]

/-! ### Sums and products -/

section Unpacked

variable {u v : UnpackedFloat}

theorem isFinite_ofSignificand (sign : Sign) (mantissa : Nat) (exponent : Int) :
    (ofSignificand sign mantissa exponent).isFinite = true := by
  rw [ofSignificand]
  split <;> rfl

/-- Rounding gives a significand under an exponent. -/
theorem isFinite_roundWithAccuracy (sign : Sign) (mantissa : Nat) (exponent : Int)
    (accuracy : Accuracy) :
    (roundWithAccuracy Format.binary64 sign mantissa exponent accuracy).isFinite = true :=
  isFinite_ofSignificand sign _ _

theorem isFinite_normalize (mantissa exponent : Int) (zeroSign : Sign) :
    (UnpackedFloat.normalize Format.binary64 mantissa exponent zeroSign).isFinite = true := by
  rw [UnpackedFloat.normalize]
  split
  · exact isFinite_roundWithAccuracy _ _ _ _
  · rfl
  · exact isFinite_roundWithAccuracy _ _ _ _

theorem isFinite_add (hu : u.isFinite = true) (hv : v.isFinite = true) :
    (UnpackedFloat.add Format.binary64 u v).isFinite = true := by
  cases u with
  | notANumber | infinity _ => cases hu
  | zero sign =>
    cases v with
    | notANumber | infinity _ => cases hv
    | zero sign' =>
      rw [UnpackedFloat.add]
      split <;> rfl
    | finite _ _ _ _ => rfl
  | finite sign mantissa exponent pos =>
    cases v with
    | notANumber | infinity _ => cases hv
    | zero _ => rfl
    | finite _ _ _ _ => exact isFinite_normalize _ _ _

theorem isFinite_neg (hu : u.isFinite = true) : u.neg.isFinite = true := by
  cases u <;> exact hu

theorem isFinite_mul (hu : u.isFinite = true) (hv : v.isFinite = true) :
    (UnpackedFloat.mul Format.binary64 u v).isFinite = true := by
  cases u with
  | notANumber | infinity _ => cases hu
  | zero _ =>
    cases v with
    | notANumber | infinity _ => cases hv
    | zero _ | finite _ _ _ _ => rfl
  | finite sign mantissa exponent pos =>
    cases v with
    | notANumber | infinity _ => cases hv
    | zero _ => rfl
    | finite _ _ _ _ => exact isFinite_roundWithAccuracy _ _ _ _

/-- A whole number that is packed stays whole or becomes infinite. -/
theorem CanonicalWhole.isWhole_or_isInf (h : CanonicalWhole u) (finite : u.isFinite = true) :
    isWhole (.ofModel (.pack u)) = true ∨ Float.isInf (.ofModel (.pack u)) = true := by
  rcases Exact.ofFloat_pack_canonical h.1 with same | infinite
  · left
    have integral : (Exact.ofUnpacked u).Integral := h.2
    rw [isWhole, same]
    cases u with
    | notANumber | infinity _ => cases finite
    | zero _ | finite _ _ _ _ => exact beq_iff_eq.mpr (Nat.mod_eq_zero_of_dvd integral)
  · exact .inr (isInf_iff.mpr infinite)

end Unpacked

section Sums

theorem integral_of_isWhole (h : isWhole x = true) : Integral x :=
  integral_iff.mpr (.inr h)

theorem isFinite_unpack (h : isWhole x = true) : x.toModel.unpack.isFinite = true :=
  (isWhole_iff.mp h).1

variable (hx : isWhole x = true) (hy : isWhole y = true)
include hx hy

/-- **A sum of whole floats** is whole unless it is too large. -/
theorem isWhole_or_isInf_add : isWhole (x + y) = true ∨ (x + y).isInf = true := by
  have sum := (integral_of_isWhole hx).unpack.add (integral_of_isWhole hy).unpack
  exact sum.isWhole_or_isInf (isFinite_add (isFinite_unpack hx) (isFinite_unpack hy))

theorem isWhole_or_isInf_sub : isWhole (x - y) = true ∨ (x - y).isInf = true := by
  have sum := (integral_of_isWhole hx).unpack.add (integral_of_isWhole hy).unpack.neg
  have result :=
    sum.isWhole_or_isInf (isFinite_add (isFinite_unpack hx) (isFinite_neg (isFinite_unpack hy)))
  rwa [← sub_eq_add_neg] at result

theorem isWhole_or_isInf_mul : isWhole (x * y) = true ∨ (x * y).isInf = true := by
  have product := (integral_of_isWhole hx).unpack.mul (integral_of_isWhole hy).unpack
  exact product.isWhole_or_isInf (isFinite_mul (isFinite_unpack hx) (isFinite_unpack hy))

end Sums

/-! ### Remainders -/

theorem nearest_lt_of_ofFloat_eq {negative : Bool} {size : Nat}
    (h : Exact.ofFloat x = .finite negative size) : nearest size 1 < infinity := by
  rw [Exact.ofFloat, Exact.ofCode] at h
  split at h
  · next finite =>
    cases h
    rw [nearest_quanta finite]
    exact finite
  · split at h <;> cases h

/-- If the divisor is not larger than the dividend, the remainder is at most half of that. -/
theorem two_mul_mod_le {size divisor : Nat} (pos : 0 < divisor) (more : divisor ≤ size) :
    2 * (size % divisor) ≤ size := by
  have parts := Nat.div_add_mod size divisor
  have below := Nat.mod_lt size pos
  have once : divisor ≤ divisor * (size / divisor) :=
    Nat.le_mul_of_pos_right divisor (Nat.div_pos more pos)
  omega

/-- **A remainder of finite floats is finite**, since it is not larger than the dividend. -/
theorem exists_ofFloat_remainder {negative negative' : Bool} {size divisor : Nat}
    (hx : Exact.ofFloat x = .finite negative size)
    (hy : Exact.ofFloat y = .finite negative' divisor) (nonzero : divisor ≠ 0) :
    ∃ rest, Exact.ofFloat (remainder x y) = .finite negative rest := by
  have result : remainder x y = ofQuanta negative (size % divisor) := by
    rw [remainder, hx, hy]
    exact if_neg nonzero
  have small : nearest (size % divisor) 1 < infinity := by
    rcases Nat.lt_or_ge size divisor with less | more
    · rw [Nat.mod_eq_of_lt less]
      exact nearest_lt_of_ofFloat_eq hx
    · -- Otherwise it is at most half of the dividend, so it has a bit less.
      have half := two_mul_mod_le (Nat.pos_of_ne_zero nonzero) more
      apply nearest_lt_infinity
      by_cases zero : size % divisor = 0
      · rw [zero]
        decide
      · have long : size ≠ 0 := by omega
        have bits := (Nat.log2_lt long).mp (Exact.log2_lt_of_ofFloat_eq hx)
        rw [Nat.log2_lt zero]
        omega
  exact ⟨_, result ▸ ofFloat_ofQuanta negative small⟩

theorem isInf_remainder (x y : Float) : (remainder x y).isInf = false := by
  have undefined : (0.0 / 0.0 : Float).isInf = false := by decide +kernel
  cases dividend : Exact.ofFloat x with
  | nan | infinite _ =>
    rw [remainder, dividend]
    exact undefined
  | finite negative size =>
    cases divisor : Exact.ofFloat y with
    | nan =>
      rw [remainder, dividend, divisor]
      exact undefined
    | infinite _ =>
      rw [remainder, dividend, divisor]
      exact isInf_of_ofFloat_eq dividend
    | finite negative' size' =>
      by_cases zero : size' = 0
      · rw [remainder, dividend, divisor]
        exact (congrArg Float.isInf (if_pos zero)).trans undefined
      · obtain ⟨rest, finite⟩ := exists_ofFloat_remainder dividend divisor zero
        exact isInf_of_ofFloat_eq finite

theorem isWhole_remainder (hx : isWhole x = true) (hy : isWhole y = true)
    (nonzero : (y == 0.0) = false) : isWhole (remainder x y) = true := by
  obtain ⟨negative, size, dividend⟩ := isFinite_iff.mp (isWhole_iff.mp hx).1
  obtain ⟨negative', size', divisor⟩ := isFinite_iff.mp (isWhole_iff.mp hy).1
  have some : size' ≠ 0 := by
    rintro rfl
    rw [beq_zero_iff.mpr ⟨_, divisor⟩] at nonzero
    cases nonzero
  have integral := (integral_of_isWhole hx).remainder (integral_of_isWhole hy)
  obtain ⟨rest, finite⟩ := exists_ofFloat_remainder dividend divisor some
  refine (integral_iff.mp integral).resolve_left ?_
  rw [isFinite_iff.mpr ⟨_, _, finite⟩]
  exact Bool.noConfusion

theorem isNaN_remainder_of_zero (x : Float) (zero : (y == 0.0) = true) :
    (remainder x y).isNaN = true := by
  have undefined : (0.0 / 0.0 : Float).isNaN = true := by decide +kernel
  obtain ⟨negative, divisor⟩ := beq_zero_iff.mp zero
  rw [remainder, divisor]
  cases Exact.ofFloat x <;> exact undefined

/-! ### Natural numbers -/

/-- **A natural number is rounded to a whole float** unless it is too large. -/
theorem isWhole_or_isInf_ofNat (n : Nat) : isWhole (ofNat n) = true ∨ (ofNat n).isInf = true := by
  have bound : nearest (n * one) 1 ≤ infinity := Nat.min_le_right _ _
  rcases Nat.lt_or_eq_of_le bound with finite | top
  · left
    refine (integral_iff.mp (integral_ofNat n)).resolve_left ?_
    rw [Bool.not_eq_false, isFinite_iff]
    exact ⟨_, _, ofFloat_ofQuanta false finite⟩
  · right
    rw [isInf_iff, ofNat, ofQuanta, Exact.ofFloat_ofCode bound]
    exact ⟨false, Exact.ofCode_of_eq top⟩

/-! ### Rounding down -/

/-- Finite floats with a fractional part are small, since a float has only 53 bits. -/
theorem lt_of_fractional {negative : Bool} {size : Nat}
    (h : Exact.ofFloat x = .finite negative size) (fractional : size % one ≠ 0) :
    size < 2 ^ 53 * one := by
  rw [Exact.ofFloat, Exact.ofCode] at h
  split at h
  · next finite =>
    cases h
    generalize x.toBits.toNat % Nat.pow 2 63 = code at finite fractional
    have short : code - (code / 2 ^ 52 - 1) * 2 ^ 52 < 2 ^ 53 := by
      have bound : code < 2047 * 2 ^ 52 := finite
      omega
    simp only [quanta, Nat.pow_eq] at fractional ⊢
    generalize code - (code / 2 ^ 52 - 1) * 2 ^ 52 = significand at short fractional
    generalize code / 2 ^ 52 - 1 = exponent at fractional
    rw [one_eq] at fractional ⊢
    -- Under a greater exponent, every significand is whole.
    have low : exponent ≤ depth := by
      by_contra high
      have whole : 2 ^ depth ∣ significand * 2 ^ exponent :=
        Nat.dvd_mul_left_of_dvd (Nat.pow_dvd_pow 2 (Nat.le_of_not_le high)) significand
      exact fractional (Nat.mod_eq_zero_of_dvd whole)
    calc
      significand * 2 ^ exponent ≤ significand * 2 ^ depth :=
        Nat.mul_le_mul_left _ (Nat.pow_le_pow_right (by decide) low)
      _ < 2 ^ 53 * 2 ^ depth := Nat.mul_lt_mul_of_pos_right short (Nat.two_pow_pos depth)
  · split at h <;> cases h

/-- Whole numbers of 54 bits are not rounded to infinity. -/
theorem nearest_mul_one_lt_infinity {n : Nat} (h : n ≤ 2 ^ 53) :
    nearest (n * one) 1 < infinity := by
  apply nearest_lt_infinity
  rcases Nat.eq_zero_or_pos n with rfl | pos
  · rw [Nat.zero_mul]
    decide
  · have quantum : depth = 1074 := rfl
    have bits : n.log2 < 54 := (Nat.log2_lt (Nat.ne_of_gt pos)).mpr (by omega)
    rw [one_eq, log2_mul_two_pow pos]
    omega

/-- **What is finite is rounded down to a whole float.** -/
theorem isWhole_floor (h : x.isFinite = true) : isWhole (floor x) = true := by
  refine (integral_iff.mp (integral_floor x)).resolve_left ?_
  rw [Bool.not_eq_false, isFinite_iff]
  obtain ⟨negative, size, exact⟩ := isFinite_iff.mp h
  rw [floor, exact]
  dsimp only
  split
  · exact ⟨negative, size, exact⟩
  · next fractional =>
    -- Both whole numbers next to a float with a fractional part are small enough.
    have below : size / one < 2 ^ 53 :=
      Nat.div_lt_of_lt_mul (Nat.mul_comm (2 ^ 53) one ▸ lt_of_fractional exact fractional)
    split
    · exact ⟨_, _, ofFloat_ofQuanta true (nearest_mul_one_lt_infinity below)⟩
    · exact ⟨_, _, ofFloat_ofQuanta false (nearest_mul_one_lt_infinity (Nat.le_of_lt below))⟩

/-! ### Quotients -/

/-- What a whole float looks like unpacked. -/
theorem unpack_of_isWhole (h : isWhole x = true) :
    (∃ sign, x.toModel.unpack = .zero sign) ∨
      ∃ sign mantissa exponent pos, x.toModel.unpack = .finite sign mantissa exponent pos ∧
        mantissa < 2 ^ 53 ∧ exponent ≤ 971 ∧ WholeScaled mantissa exponent := by
  obtain ⟨canonical, integral⟩ := (integral_of_isWhole h).unpack
  have finite := isFinite_unpack h
  have value := Exact.ofFloat_eq x
  cases unpacked : x.toModel.unpack with
  | notANumber | infinity _ =>
    rw [unpacked] at finite
    cases finite
  | zero sign => exact .inl ⟨sign, rfl⟩
  | finite sign mantissa exponent pos =>
    rw [unpacked] at canonical integral value
    obtain ⟨high, least, long⟩ := canonical
    refine .inr ⟨sign, mantissa, exponent, pos, rfl, high, ?_, (wholeScaled_iff least).mpr integral⟩
    -- A longer significand leaves less room for the exponent, and a short one is under the least
    -- exponent.
    have bits := Exact.log2_lt_of_ofFloat_eq value
    have quantum : (depth : Int) = 1074 := rfl
    rw [log2_mul_two_pow pos] at bits
    rcases long with long | lowest
    · have first := (Nat.le_log2 (Nat.ne_of_gt pos)).mpr long
      omega
    · omega

/-- The first bit of a whole number is not behind the point. -/
theorem WholeScaled.le_log2 {mantissa : Nat} {exponent : Int} (h : WholeScaled mantissa exponent)
    (pos : 0 < mantissa) : 0 ≤ mantissa.log2 + exponent := by
  have first := (Nat.le_log2 (Nat.ne_of_gt pos)).mpr (Nat.le_of_dvd pos h)
  omega

section Quotient

variable {m m' : Nat} {e e' : Int}

/-- If the divisor is whole, the quotient is at most the largest finite float, in units of the last
place of that. Only an exact quotient can be equal to it. -/
theorem div_le_of_whole {last : Int} {places above : Nat} (short : m < 2 ^ 53) (low : e ≤ 971)
    (pos' : 0 < m') (whole' : WholeScaled m' e') (shift : e - e' = last + places)
    (top : last + above = 971) :
    m <<< places / m' ≤ (2 ^ 53 - 1) * 2 ^ above ∧
      (m <<< places / m' = (2 ^ 53 - 1) * 2 ^ above → m <<< places % m' = 0) := by
  have least : 2 ^ (-e').toNat ≤ m' := Nat.le_of_dvd pos' whole'
  have fewer : places ≤ above + (-e').toNat := by omega
  have dividend : m <<< places ≤ (2 ^ 53 - 1) * 2 ^ above * 2 ^ (-e').toNat := by
    calc
      m <<< places = m * 2 ^ places := Nat.shiftLeft_eq m places
      _ ≤ (2 ^ 53 - 1) * 2 ^ (above + (-e').toNat) :=
        Nat.mul_le_mul (Nat.le_pred_of_lt short) (Nat.pow_le_pow_right (by decide) fewer)
      _ = (2 ^ 53 - 1) * 2 ^ above * 2 ^ (-e').toNat := by rw [Nat.pow_add, Nat.mul_assoc]
  have parts := Nat.div_add_mod (m <<< places) m'
  generalize m <<< places / m' = quotient at parts ⊢
  have part : quotient * 2 ^ (-e').toNat ≤ m' * quotient := by
    rw [Nat.mul_comm m']
    exact Nat.mul_le_mul_left quotient least
  constructor
  · refine Nat.le_of_mul_le_mul_right ?_ (Nat.two_pow_pos (-e').toNat)
    omega
  · intro largest
    rw [← largest] at dividend
    omega

/-- A significand that is at most the largest one is not rounded up to the next power of two, if it
is exact in case it is the largest one. -/
theorem roundedMantissa_shiftRight_lt {mantissa places : Nat} {accuracy : Accuracy}
    (bound : mantissa ≤ (2 ^ 53 - 1) * 2 ^ places)
    (exactly : mantissa = (2 ^ 53 - 1) * 2 ^ places → accuracy = .exact) :
    (ExtendedMantissa.ofMantissaAndAccuracy mantissa accuracy >>> places).roundedMantissa <
      2 ^ 53 := by
  have pos := Nat.two_pow_pos places
  rcases Nat.lt_or_eq_of_le bound with less | largest
  · have near := (roundedMantissa_shiftRight mantissa places accuracy).2
    have below : mantissa / 2 ^ places < 2 ^ 53 - 1 := (Nat.div_lt_iff_lt_mul pos).mpr less
    omega
  · rw [exactly largest, largest, shiftRight_of_dvd (Nat.dvd_mul_left _ _),
      Nat.mul_div_cancel _ pos]
    decide

/-- **A quotient of whole numbers does not overflow.** -/
theorem exists_div_eq_ofSignificand (sign sign' : Sign) (pos : 0 < m) (pos' : 0 < m')
    (short : m < 2 ^ 53) (short' : m' < 2 ^ 53) (low : e ≤ 971) (low' : e' ≤ 971)
    (whole : WholeScaled m e) (whole' : WholeScaled m' e') :
    ∃ significand exponent,
      UnpackedFloat.div Format.binary64 (.finite sign m e pos) (.finite sign' m' e' pos') =
        ofSignificand (sign / sign') significand exponent ∧
      significand < 2 ^ 53 ∧ -depth ≤ exponent ∧ exponent ≤ 971 ∧
      (2 ^ 52 ≤ significand ∨ exponent = -depth) := by
  have first := whole.le_log2 pos
  have first' := whole'.le_log2 pos'
  have bits : m.log2 < 53 := (Nat.log2_lt (Nat.ne_of_gt pos)).mpr short
  have bits' : m'.log2 < 53 := (Nat.log2_lt (Nat.ne_of_gt pos')).mpr short'
  obtain ⟨last, places, shift, lowest, positive, -, target, result⟩ :=
    exists_div_eq sign sign' e e' pos pos' (by omega)
  -- The first bit of the divisor is not behind the point, so the last place of the quotient is not
  -- above that of the largest float. It is so many places below that.
  obtain ⟨above, top⟩ : ∃ above : Nat, last + above = 971 := ⟨(971 - last).toNat, by omega⟩
  obtain ⟨bound, exactly⟩ := div_le_of_whole short low pos' whole' shift top
  have length : (m <<< places / m').log2 < 53 + above := by
    rw [Nat.log2_lt (Nat.ne_of_gt positive), Nat.pow_add]
    exact Nat.lt_of_le_of_lt bound (Nat.mul_lt_mul_of_pos_right (by decide) (Nat.two_pow_pos above))
  obtain ⟨dropped, significand, drop, rounding, rounded, ⟨fits, result'⟩ | ⟨carry, result'⟩⟩ :=
    roundWithAccuracy_cases (sign / sign') (accuracyOfFraction (m <<< places % m') m') positive
      target
  · exact ⟨significand, last + dropped, result.trans result', fits, rounded.least, by omega,
      rounded.long⟩
  · refine ⟨2 ^ 52, last + dropped + 1, result.trans result', by decide,
      Int.le_add_one rounded.least, ?_, .inl (Nat.le_refl _)⟩
    -- A carry into the exponent of infinity would have to come from the largest finite float, but a
    -- quotient that has reached it is exact and is not rounded.
    by_contra beyond
    obtain rfl : dropped = above := by omega
    have exact : m <<< places / m' = (2 ^ 53 - 1) * 2 ^ dropped →
        accuracyOfFraction (m <<< places % m') m' = .exact := by
      intro largest
      rw [exactly largest]
      rfl
    have below := roundedMantissa_shiftRight_lt bound exact
    rw [← rounding, carry] at below
    exact Nat.lt_irrefl _ below

end Quotient

/-- A significand under an exponent below that of infinity is packed as a finite float. -/
theorem isFinite_pack_ofSignificand {significand : Nat} {exponent : Int} (sign : Sign)
    (high : significand < 2 ^ 53) (least : -depth ≤ exponent) (low : exponent ≤ 971)
    (long : 2 ^ 52 ≤ significand ∨ exponent = -depth) :
    Float.isFinite (.ofModel (.pack (ofSignificand sign significand exponent))) = true := by
  have canonical := canonical_ofSignificand sign high least long
  rw [isFinite_iff]
  rcases Nat.eq_zero_or_pos significand with rfl | pos
  · exact ⟨_, _, Exact.ofFloat_pack_of_log2_lt canonical rfl (by decide)⟩
  · have quantum : (depth : Int) = 1074 := rfl
    have bits : significand.log2 < 53 := (Nat.log2_lt (Nat.ne_of_gt pos)).mpr high
    rw [ofSignificand_of_pos sign exponent pos] at canonical ⊢
    refine ⟨_, _, Exact.ofFloat_pack_of_log2_lt canonical rfl ?_⟩
    rw [log2_mul_two_pow pos]
    omega

/-- **A quotient of whole floats is finite** if the divisor is not zero. -/
theorem isFinite_div (hx : isWhole x = true) (hy : isWhole y = true)
    (nonzero : (y == 0.0) = false) : (x / y).isFinite = true := by
  have quotient : x / y = .ofModel
      (.pack (UnpackedFloat.div Format.binary64 x.toModel.unpack y.toModel.unpack)) := rfl
  rw [quotient]
  rcases unpack_of_isWhole hy with ⟨sign', zero⟩ | ⟨sign', m', e', pos', unpacked', short', low',
    whole'⟩
  · have value : Exact.ofFloat y = .finite (isMinus sign') 0 := by
      rw [Exact.ofFloat_eq, zero]
      rfl
    rw [beq_zero_iff.mpr ⟨_, value⟩] at nonzero
    cases nonzero
  · rw [unpacked']
    rcases unpack_of_isWhole hx with ⟨sign, zero⟩ | ⟨sign, m, e, pos, unpacked, short, low, whole⟩
    · rw [zero]
      exact isFinite_iff.mpr
        ⟨_, _, Exact.ofFloat_pack_of_log2_lt (u := .zero (sign / sign')) trivial rfl (by decide)⟩
    · obtain ⟨significand, exponent, result, fits, least, high, long⟩ :=
        exists_div_eq_ofSignificand sign sign' pos pos' short short' low low' whole whole'
      rw [unpacked, result]
      exact isFinite_pack_ofSignificand _ fits least high long

/-- **A quotient of whole floats, rounded down, is whole** if the divisor is not zero. -/
theorem isWhole_floor_div (hx : isWhole x = true) (hy : isWhole y = true)
    (nonzero : (y == 0.0) = false) : isWhole (floor (x / y)) = true :=
  isWhole_floor (isFinite_div hx hy nonzero)

end Calculator.Binary
