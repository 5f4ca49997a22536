import Calculator.Binary.Text
import Calculator.Error
import Calculator.Operator

/-!
# Numbers and their arithmetic

A number is a float together with its class, integer or decimal. The class is not a property of
the float: it says how the number came about. Literals without a point are integers, literals with
one and values of functions are decimals, and an operation gives an integer only if all its
operands are integers. A power of ten is the exception: its class is read off the value.

The class decides two things: whether a division rounds down, and how the number is written.
-/

namespace Calculator

/-- The result of an expression or of a part of one. -/
structure Number where
  /-- The value. -/
  value : Float
  /-- Whether the number is an integer by origin. -/
  isInteger : Bool
  deriving DecidableEq, Repr

namespace Number

/-- An integer. -/
def integer (value : Float) : Number :=
  ⟨value, true⟩

/-- A decimal. -/
def decimal (value : Float) : Number :=
  ⟨value, false⟩

@[simp] theorem value_integer (x : Float) : (integer x).value = x := rfl
@[simp] theorem isInteger_integer (x : Float) : (integer x).isInteger = true := rfl
@[simp] theorem value_decimal (x : Float) : (decimal x).value = x := rfl
@[simp] theorem isInteger_decimal (x : Float) : (decimal x).isInteger = false := rfl

/-- The style a number is written in. -/
def style (n : Number) : Decimal.Style :=
  if n.isInteger then .plain else .pointed

/-- The text of a number. -/
def text (n : Number) : String :=
  Binary.write n.style n.value

/-! ### Arithmetic -/

/-- The number of a literal. With a point it is a decimal, also if the fraction is zero. -/
def literal (whole : Float) : Option Fraction → Number
  | none => integer whole
  | some fraction => decimal (fraction.after whole)

/-- The value of a binary operation. Only a division can fail, and only if the right operand is
zero; between integers it is rounded down. A remainder by zero is not a number. -/
def combine (op : Operator) (integers : Bool) (left right : Float) : Except ArithmeticError Float :=
  match op with
  | .add => .ok (left + right)
  | .sub => .ok (left - right)
  | .mul => .ok (left * right)
  | .div =>
    if right == 0.0 then .error .divisionByZero
    else .ok (if integers then Binary.floor (left / right) else left / right)
  | .mod => .ok (Binary.remainder left right)
  | .pow => .ok (left.pow right)

/-- A binary operation on numbers. The result is an integer if both operands are. -/
def operation (op : Operator) (left right : Number) : Except ArithmeticError Number :=
  let integers := left.isInteger && right.isInteger
  (combine op integers left.value right.value).map (⟨·, integers⟩)

/-- A mantissa times a power of ten. The result is an integer exactly if it is whole. -/
def scaled (mantissa exponent : Number) : Number :=
  let value := mantissa.value * Float.pow 10.0 exponent.value
  ⟨value, Binary.isWhole value⟩

/-- The value of a function, a decimal. -/
def application (function : Trig) (argument : Number) : Number :=
  decimal (function.apply argument.value)

/-- The opposite number, of the same class. -/
def neg (n : Number) : Number :=
  ⟨-n.value, n.isInteger⟩

end Number

end Calculator
