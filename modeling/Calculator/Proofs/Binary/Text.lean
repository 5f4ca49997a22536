import Calculator.Binary.Text
import Calculator.Proofs.Binary.Integral
import Calculator.Proofs.Fraction.Digits

/-!
# The text of a whole float

A whole float is written as a run of digits that reads as the same float. The digits are those of
its shortest decimal, and what this module has to say about them is that none is behind the point.
The search for the shortest decimal goes down from a place above the first digit, and it does not
go below the point, because there stands the value itself (`depth_le_place_shortest`).

Main statement: `exists_run_write`.
-/

namespace Calculator

namespace Decimal

open Binary

/-! ### The place of the last digit -/

theorem place_of_hit? {code size place : Nat} {d : Decimal} (h : hit? code size place = some d) :
    d.place = place := by
  simp only [hit?] at h
  split at h
  · split at h <;> cases h <;> rfl
  · split at h
    · cases h
      rfl
    · cases h

/-- The value itself is a hit, wherever it is on a grid. -/
theorem exists_hit? {code size place : Nat}
    (below : reads ⟨size / Nat.pow 10 place, place⟩ = code) :
    ∃ d, hit? code size place = some d := by
  dsimp only [hit?]
  rw [if_pos below]
  split <;> exact ⟨_, rfl⟩

/-- **The search does not go below a hit.** -/
theorem le_place_search {code size place start : Nat} {d : Decimal}
    (h : hit? code size place = some d) (pos : 0 < place) (below : place ≤ start) :
    place ≤ (search code size start).place := by
  induction start with
  | zero => omega
  | succ start ih =>
    rw [search]
    cases found : hit? code size (start + 1) with
    | some first =>
      rw [Option.getD_some, place_of_hit? found]
      exact below
    | none =>
      -- There was no hit here, so the one that is known is further down.
      have further : place ≠ start + 1 := by
        rintro rfl
        rw [h] at found
        cases found
      exact ih (by omega)

/-- Powers of five are a little longer than seven thirds of their exponent. -/
theorem le_log2_five_pow_mul {exponent k n : Nat} (parts : exponent = 28 * k + 10) (pos : 0 < n) :
    65 * k + 23 ≤ (5 ^ exponent * n).log2 := by
  have power : 0 < 5 ^ exponent := Nat.pow_pos (by decide)
  rw [Nat.le_log2 (Nat.ne_of_gt (Nat.mul_pos power pos))]
  calc
    2 ^ (65 * k + 23) = (2 ^ 65) ^ k * 2 ^ 23 := by rw [Nat.pow_add, Nat.pow_mul]
    _ ≤ (5 ^ 28) ^ k * 5 ^ 10 :=
      Nat.mul_le_mul (Nat.pow_le_pow_left (by decide) k) (by decide)
    _ = 5 ^ exponent := by rw [parts, Nat.pow_add, Nat.pow_mul]
    _ ≤ 5 ^ exponent * n := Nat.le_mul_of_pos_right _ pos

theorem placesPerQuantum_eq : placesPerQuantum = 5 ^ depth := by
  unfold placesPerQuantum
  rw [Nat.pow_eq]

/-- A whole number in smallest places. -/
theorem mul_one_mul (n : Nat) : n * one * placesPerQuantum = n * 10 ^ depth := by
  -- Stated for every exponent, so that the powers are not computed.
  have ten (exponent : Nat) : n * 2 ^ exponent * 5 ^ exponent = n * 10 ^ exponent := by
    rw [Nat.mul_assoc, ← Nat.mul_pow]
  rewrite [one_eq, placesPerQuantum_eq]
  exact ten depth

/-- The search for the shortest decimal of a whole number begins in front of the point. -/
theorem depth_le_topPlace {n : Nat} (pos : 0 < n) :
    depth ≤ topPlace (n * one * placesPerQuantum) := by
  have quantum : depth = 1074 := rfl
  have long : 65 * 38 + 23 ≤ (placesPerQuantum * n).log2 := by
    rewrite [placesPerQuantum_eq]
    exact le_log2_five_pow_mul rfl pos
  have length : (n * one * placesPerQuantum).log2 = (placesPerQuantum * n).log2 + depth := by
    rewrite [one_eq, Nat.mul_right_comm, Nat.mul_comm n]
    exact log2_mul_two_pow (Nat.mul_pos placesPerQuantum_pos pos) depth
  rw [topPlace, length]
  omega

/-- **No digit of a whole number is behind the point.** -/
theorem depth_le_place_shortest {n : Nat} (pos : 0 < n) :
    depth ≤ (shortest (n * one)).place := by
  have value : n * one * placesPerQuantum / Nat.pow 10 depth = n := by
    rw [mul_one_mul, Nat.pow_eq, Nat.mul_div_cancel _ (Nat.pow_pos (by decide))]
  have reads : reads ⟨n * one * placesPerQuantum / Nat.pow 10 depth, depth⟩ =
      nearest (n * one) 1 := by
    rw [value, reads, Nat.pow_eq, ← mul_one_mul]
    exact nearest_mul_mul (n * one) placesPerQuantum_pos
  -- On the grid of the point, the value itself is next below the value.
  obtain ⟨d, hit⟩ := exists_hit? reads
  exact le_place_search hit (by decide) (depth_le_topPlace pos)

/-! ### Decimals that are whole -/

/-- A decimal without digits behind the point is a natural number, and it reads as the float of this
number. -/
theorem ofCode_reads {d : Decimal} (whole : depth ≤ d.place) :
    ofCode false d.reads = Binary.ofNat (d.digits * 10 ^ (d.place - depth)) := by
  have value : d.digits * Nat.pow 10 d.place =
      d.digits * 10 ^ (d.place - depth) * one * placesPerQuantum := by
    rw [mul_one_mul, Nat.pow_eq, Nat.mul_assoc, ← Nat.pow_add, Nat.sub_add_cancel whole]
  rw [reads, value, nearest_mul_mul _ placesPerQuantum_pos]
  rfl

theorem chars_plain {d : Decimal} (whole : depth ≤ d.place) :
    d.chars .plain = Nat.toDigits 10 d.digits ++ List.replicate (d.place - depth) '0' := by
  change d.positionalChars [] = _
  rw [positionalChars, if_pos whole, List.append_nil]
  rfl

end Decimal

namespace Binary

/-- A finite whole float is rounded from its own value. -/
theorem exists_size_of_isFinite {n : Nat} (finite : (ofNat n).isFinite = true) :
    ∃ size, Exact.ofFloat (ofNat n) = .finite false (size * one) ∧ ofNat n = ofNat size := by
  have bound : nearest (n * one) 1 ≤ infinity := Nat.min_le_right _ _
  have value : Exact.ofFloat (ofNat n) = .ofCode false (nearest (n * one) 1) :=
    Exact.ofFloat_ofCode bound
  have small : nearest (n * one) 1 < infinity := by
    refine Nat.lt_of_le_of_ne bound fun top => ?_
    obtain ⟨negative, size, same⟩ := isFinite_iff.mp finite
    rw [value, Exact.ofCode_of_eq top] at same
    cases same
  obtain ⟨size, whole⟩ := one_dvd_quanta_nearest (Nat.dvd_mul_left one n) small
  rw [Nat.mul_comm one] at whole
  refine ⟨size, ?_, ?_⟩
  · rw [value, Exact.ofCode_of_lt small, whole]
  · rw [ofNat, ofNat, ofQuanta, ofQuanta, ← whole, nearest_quanta small]

theorem chars_finite (style : Decimal.Style) (size : Nat) :
    Exact.chars style (.finite false size) = sizeChars style size :=
  rfl

/-- **The text of a whole float is a run of digits that reads as it.** -/
theorem exists_run_write {n : Nat} (finite : (ofNat n).isFinite = true) :
    ∃ run : DigitRun, run.chars = (write .plain (ofNat n)).toList ∧ run.toFloat = ofNat n := by
  obtain ⟨size, value, same⟩ := exists_size_of_isFinite finite
  rw [write, String.toList_ofList, value, chars_finite, same, sizeChars]
  rcases Nat.eq_zero_or_pos size with rfl | pos
  · rw [if_pos (Nat.zero_mul one)]
    exact ⟨⟨['0'], by simp, by simp⟩, rfl, congrArg ofNat rfl⟩
  · have whole := Decimal.depth_le_place_shortest pos
    have reads := Decimal.reads_shortest (size * one)
    have nonzero : size * one ≠ 0 := by
      rewrite [one_eq]
      exact Nat.ne_of_gt (Nat.mul_pos pos (Nat.two_pow_pos depth))
    rw [if_neg nonzero, Decimal.chars_plain whole]
    -- From here on it only matters that the decimal is whole and reads as the float.
    generalize Decimal.shortest (size * one) = d at whole reads
    refine ⟨⟨_, ?_, ?_⟩, rfl, ?_⟩
    · exact fun none => Nat.toDigits_ne_nil (List.append_eq_nil_iff.mp none).1
    · intro c member
      rcases List.mem_append.mp member with digit | zero
      · exact Nat.isDigit_of_mem_toDigits (by decide) (by decide) digit
      · rw [List.eq_of_mem_replicate zero]
        rfl
    · rw [DigitRun.toFloat, DigitRun.value, ofDigitChars_append_zero, ofDigitChars_replicate,
        List.length_replicate, Nat.ofDigitChars_toDigits (by decide) (by decide), Nat.add_zero,
        ← Decimal.ofCode_reads whole, reads, ofNat, ofQuanta]

end Binary

end Calculator
