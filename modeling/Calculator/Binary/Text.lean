import Calculator.Binary.Exact
import Calculator.Decimal.Layout

/-!
# The text of a float

A float is written with the digits of its shortest decimal, laid out in some style. A minus stands
in front of everything negative, negative zero included, and what is not finite is written as a
word.
-/

namespace Calculator.Binary

/-- The text of a number of quanta. -/
def sizeChars (style : Decimal.Style) (size : Nat) : List Char :=
  if size = 0 then '0' :: style.wholeMark else (Decimal.shortest size).chars style

/-- A minus in front of what is negative. -/
def signed (negative : Bool) (chars : List Char) : List Char :=
  if negative then '-' :: chars else chars

/-- The text of a float's value. -/
def Exact.chars (style : Decimal.Style) : Exact → List Char
  | .nan => "NaN".toList
  | .infinite negative => signed negative "inf".toList
  | .finite negative size => signed negative (sizeChars style size)

/-- The text of a float. -/
def write (style : Decimal.Style) (x : Float) : String :=
  String.ofList ((Exact.ofFloat x).chars style)

/-! ### The two styles -/

example : write .plain 1e23 = "100000000000000000000000" := by decide +kernel

example : write .plain (-0.0) = "-0" := by decide +kernel

example : write .pointed 2.0 = "2.0" := by decide +kernel

example : write .pointed 0.0001 = "0.0001" := by decide +kernel

example : write .pointed 0.00005 = "5e-5" := by decide +kernel

example : write .pointed 1e16 = "1e16" := by decide +kernel

/-- Two decimals of seventeen digits read as this float and are equally near to it. -/
example : write .pointed 1000000000000000.25 = "1000000000000000.3" := by decide +kernel

end Calculator.Binary
