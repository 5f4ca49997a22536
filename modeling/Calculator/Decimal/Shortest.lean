import Calculator.Binary.Code

/-!
# The shortest decimal of a float

A decimal *reads as* a code if the code is the nearest one to its value. Of all decimals that read
as the code of a given value, `Decimal.shortest` is the one with the fewest digits and, among
those, the nearest to the value; exactly between two of them it takes the upper one.

The search goes through decimal *grids*, the multiples of a power of ten, from the coarsest one
down. On each grid only the two neighbours of the value can be hits, because the numbers that read
as one code have no gaps. The finest grid holds the value itself: a quantum of `2 ^ -1074` is a
whole number of `10 ^ -1074`, namely `5 ^ 1074` of them. So places are counted here from
`10 ^ -1074` up, and everything is a natural number.

Main statement: `reads_shortest`, what is written reads back as the code it was written for.
-/

namespace Calculator

/-- The positive decimal `digits * 10 ^ (place - 1074)`. -/
structure Decimal where
  /-- The digits, as one number. -/
  digits : Nat
  /-- The place of the last digit, counted from `10 ^ -1074` up. -/
  place : Nat
  deriving DecidableEq, Repr

namespace Decimal

open Binary

/-- The number of smallest places, `10 ^ -1074`, in one quantum. -/
def placesPerQuantum : Nat := Nat.pow 5 depth

theorem placesPerQuantum_pos : 0 < placesPerQuantum := by
  -- Stated for every exponent, so that this power is not computed.
  have pos (n : Nat) : 0 < Nat.pow 5 n := Nat.pow_pos (by decide)
  unfold placesPerQuantum
  exact pos depth

/-- The code that is nearest to a decimal. -/
def reads (d : Decimal) : Nat :=
  nearest (d.digits * Nat.pow 10 d.place) placesPerQuantum

/-- The hit on the grid of one place, if any: of the multiples next below and next above `size`
the one that reads as `code`, the nearer if both do, the upper if they are equally near. -/
def hit? (code size place : Nat) : Option Decimal :=
  let step := Nat.pow 10 place
  let below : Decimal := ⟨size / step, place⟩
  let above : Decimal := ⟨size / step + 1, place⟩
  if below.reads = code then
    if above.reads = code ∧ step ≤ 2 * (size % step) then some above else some below
  else if above.reads = code then some above
  else none

/-- The first hit from a place downwards. On the finest grid stands the value itself. -/
def search (code size : Nat) : Nat → Decimal
  | 0 => ⟨size, 0⟩
  | place + 1 => (hit? code size (place + 1)).getD (search code size place)

/-- A place above the first digit of a number of smallest places. The logarithm of two to the base
ten is a little less than `30103 / 100000`, so the place is never too low, and at most one too
high. -/
def topPlace (scaled : Nat) : Nat :=
  (scaled.log2 + 1) * 30103 / 100000 + 1

/-- The shortest decimal that reads as the code of a number of quanta, and of those the nearest.
The search starts above the first digit, where only the next power of ten can be a hit. -/
def shortest (size : Nat) : Decimal :=
  let scaled := size * placesPerQuantum
  search (nearest size 1) scaled (topPlace scaled)

/-! ### What is written reads back -/

theorem reads_of_hit? {code size place : Nat} {d : Decimal} (h : hit? code size place = some d) :
    d.reads = code := by
  simp only [hit?] at h
  split at h
  · next below =>
    split at h
    · next above => cases h; exact above.1
    · cases h; exact below
  · split at h
    · next above => cases h; exact above
    · cases h

theorem reads_search {code size : Nat} (exact : reads ⟨size, 0⟩ = code) (place : Nat) :
    (search code size place).reads = code := by
  induction place with
  | zero => exact exact
  | succ place ih =>
    cases h : hit? code size (place + 1) with
    | none => simpa [search, h] using ih
    | some d => simpa [search, h] using reads_of_hit? h

/-- Scaling a quotient by a common factor changes neither its length nor its rounding. -/
theorem nearest_mul_mul (size : Nat) {factor : Nat} (pos : 0 < factor) :
    nearest (size * factor) factor = nearest size 1 := by
  have round (den : Nat) : roundDiv (size * factor) (factor * den) = roundDiv size den := by
    have scaled (x y : Nat) : x < y ↔ x * factor < y * factor :=
      (Nat.mul_lt_mul_right pos).symm
    simp only [roundDiv, Nat.mul_comm factor den, Nat.mul_div_mul_right _ _ pos,
      Nat.mul_mod_mul_right, ← Nat.mul_assoc, ← scaled]
  simp only [nearest, Nat.mul_div_cancel _ pos, Nat.div_one, round, Nat.one_mul]

/-- The shortest decimal of a value reads as the code of that value. -/
theorem reads_shortest (size : Nat) : (shortest size).reads = nearest size 1 := by
  refine reads_search ?_ _
  simp only [reads, Nat.pow_eq, Nat.pow_zero, Nat.mul_one]
  exact nearest_mul_mul size placesPerQuantum_pos

end Decimal

end Calculator
