import Calculator.Decimal.Shortest

/-!
# The layout of a decimal

`Style` is what a format decides about the text of a decimal: which ones are written positionally,
the others getting an exponent, and whether a whole number still shows a point. All styles share
the rest: positional text has at least one digit before the point, and an exponent follows one
leading digit and has no sign unless it is negative.
-/

namespace Calculator.Decimal

open Binary (depth)

/-- What a format decides about the text of a decimal. -/
structure Style where
  /-- The least and the greatest exponent of a first digit that are written positionally. With
  `none` everything is. -/
  positional : Option (Int × Int)
  /-- What follows the digits of a whole number that is written positionally. -/
  wholeMark : List Char
  deriving DecidableEq, Repr

/-- Every digit at its place and nothing more: the style of integers. -/
def Style.plain : Style :=
  ⟨none, []⟩

/-- From `10 ^ -4` up to below `10 ^ 16` positional and with a digit behind the point, otherwise
with an exponent: the style of decimals. -/
def Style.pointed : Style :=
  ⟨some (-4, 15), ['.', '0']⟩

/-- The digits of a decimal as written, without any point. -/
def digitChars (d : Decimal) : List Char :=
  Nat.toDigits 10 d.digits

/-- The exponent of the first digit: `1.5e-6` has `-6`. -/
def leadingExponent (d : Decimal) : Int :=
  d.digitChars.length + d.place - (depth + 1)

/-- Every digit at its place. Zeroes fill the way to the point on either side. -/
def positionalChars (wholeMark : List Char) (d : Decimal) : List Char :=
  let digits := d.digitChars
  if depth ≤ d.place then digits ++ List.replicate (d.place - depth) '0' ++ wholeMark
  else
    let fraction := depth - d.place
    let whole := digits.length - fraction
    if fraction < digits.length then digits.take whole ++ '.' :: digits.drop whole
    else '0' :: '.' :: List.replicate (fraction - digits.length) '0' ++ digits

/-- One digit, the others after a point if there are any, and the exponent of the first. -/
def exponentChars (d : Decimal) : List Char :=
  let mantissa :=
    match d.digitChars with
    | [] => []
    | [digit] => [digit]
    | first :: others => first :: '.' :: others
  mantissa ++ 'e' :: (toString d.leadingExponent).toList

/-- The text of a decimal other than zero. -/
def chars (style : Style) (d : Decimal) : List Char :=
  match style.positional with
  | none => d.positionalChars style.wholeMark
  | some (least, greatest) =>
    if least ≤ d.leadingExponent ∧ d.leadingExponent ≤ greatest then
      d.positionalChars style.wholeMark
    else d.exponentChars

end Calculator.Decimal
