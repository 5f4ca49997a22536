import Calculator.Binary.Code

/-!
# The exact value of a float

`Exact` is what a float stands for: not a number, an infinity, or a sign and a whole number of
quanta. `Exact.ofFloat` reads it off the 64 bits and `ofCode` writes the bits; between them the
operations that have to be exact are stated on natural numbers:

* `ofNat`, the float nearest to a natural number;
* `floor`, the greatest whole number not above a float, and `isWhole`;
* `remainder`, what is left of a dividend after removing a divisor a whole number of times toward
  zero. It is exact: the quanta of the result are a remainder of quanta.
-/

namespace Calculator.Binary

/-- The value of a float. Zero keeps its sign, so `finite true 0` is negative zero. -/
inductive Exact where
  /-- Not a number. -/
  | nan
  /-- Larger than every finite float, or smaller if negative. -/
  | infinite (negative : Bool)
  /-- A sign and a number of quanta of `2 ^ -1074`. -/
  | finite (negative : Bool) (size : Nat)
  deriving DecidableEq, Repr

/-- The value of a sign and a code. Codes above infinity are not numbers. -/
def Exact.ofCode (negative : Bool) (code : Nat) : Exact :=
  if code < infinity then .finite negative (quanta code)
  else if code = infinity then .infinite negative
  else .nan

/-- The value of a float: the top bit is the sign, the others are the code. -/
def Exact.ofFloat (x : Float) : Exact :=
  let bits := x.toBits.toNat
  .ofCode (decide (Nat.pow 2 63 ≤ bits)) (bits % Nat.pow 2 63)

/-- The float with a given sign and code. -/
def ofCode (negative : Bool) (code : Nat) : Float :=
  Float.ofBits (UInt64.ofNat (if negative then Nat.pow 2 63 + code else code))

/-- The float nearest to a signed number of quanta. -/
def ofQuanta (negative : Bool) (size : Nat) : Float :=
  ofCode negative (nearest size 1)

/-- The float nearest to a natural number, a half going to the even neighbour. A number too large
for any finite float becomes infinity. -/
def ofNat (n : Nat) : Float :=
  ofQuanta false (n * one)

/-- The greatest whole number not above `x`. What is whole already, and what is not finite, stays
as it is; in particular zero keeps its sign. -/
def floor (x : Float) : Float :=
  match Exact.ofFloat x with
  | .finite negative size =>
    if size % one = 0 then x
    else if negative then ofQuanta true ((size / one + 1) * one)
    else ofQuanta false (size / one * one)
  | _ => x

/-- A float is whole if it is finite and has no fractional part. -/
def isWhole (x : Float) : Bool :=
  match Exact.ofFloat x with
  | .finite _ size => size % one == 0
  | _ => false

/-- What is left of `x` after removing `y` a whole number of times toward zero. The sign is that
of `x`, also for zero; an infinite `y` leaves `x` alone; an infinite `x` and a zero `y` have no
remainder. -/
def remainder (x y : Float) : Float :=
  match Exact.ofFloat x, Exact.ofFloat y with
  | .finite negative size, .finite _ divisor =>
    if divisor = 0 then 0.0 / 0.0 else ofQuanta negative (size % divisor)
  | .finite _ _, .infinite _ => x
  | _, _ => 0.0 / 0.0

end Calculator.Binary
