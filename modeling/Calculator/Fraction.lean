import Calculator.Binary.Exact

/-!
# Decimal fractions

What is written behind a decimal point is kept as its significant digits and the number of zeroes
in front of them, so that `.047` and `.47` differ, `.047` and `.0470` do not, and no run of zeroes
is too long. At most nineteen significant digits are kept: more are beyond what a float resolves,
and nineteen always fit into 64 bits.

`Fraction.ofChars?` reads any text. The nineteen are counted in bytes, and a text whose nineteenth
byte is not the last one of its character cannot be cut there; this is the only failure. Digits
are single bytes, so a `DigitRun` is always read: `Fraction.ofRun`.

`Fraction.after` is the value of a decimal literal. Its power of ten is the result of repeated
squaring, each product rounded, and so is not always the float nearest to the power.
-/

namespace Calculator

/-! ### Digit runs -/

/-- A nonempty run of the digits `0` to `9`. -/
structure DigitRun where
  /-- The digits as written. -/
  chars : List Char
  ne_nil : chars ≠ []
  isDigit : ∀ c ∈ chars, c.isDigit = true
  deriving DecidableEq

namespace DigitRun

/-- The number that a digit run writes. -/
def value (run : DigitRun) : Nat :=
  Nat.ofDigitChars 10 run.chars 0

/-- The float nearest to the number that a digit run writes, of any length. -/
def toFloat (run : DigitRun) : Float :=
  Binary.ofNat run.value

end DigitRun

/-! ### Digits of a number -/

/-- The number of decimal digits of a number. Zero has one. -/
def decimalLength (n : Nat) : Nat :=
  (Nat.toDigits 10 n).length

/-- A number without its trailing zeroes. Zero stays zero. -/
def dropTrailingZeros (n : Nat) : Nat :=
  if n = 0 ∨ n % 10 ≠ 0 then n else dropTrailingZeros (n / 10)
termination_by n

/-- `base` to the power `n` by repeated squaring, every product rounded. -/
def powBySquaring (base : Float) (n : Nat) : Float :=
  go base n 1.0
where
  /-- Multiplies `acc` by the power, the low bits of the exponent first. -/
  go (base : Float) (n : Nat) (acc : Float) : Float :=
    let acc := if n % 2 = 1 then acc * base else acc
    if n < 2 then acc else go (base * base) (n / 2) acc
  termination_by n

/-! ### Fractions -/

/-- The digits behind a decimal point. -/
structure Fraction where
  /-- The significant digits, as one number. -/
  significant : UInt64
  /-- The number of zeroes between the point and the significant digits. -/
  zeros : UInt32
  deriving DecidableEq, Repr

namespace Fraction

/-- The number of bytes of significant digits that are kept. -/
def keptBytes : Nat := 19

/-- The start of a text that takes up the given number of bytes, or all of the text if it is
shorter. There is none if a character begins before the cut and ends behind it. -/
def takeBytes? : Nat → List Char → Option (List Char)
  | 0, _ => some []
  | _, [] => some []
  | bytes + 1, c :: rest =>
    if c.utf8Size ≤ bytes + 1 then (takeBytes? (bytes + 1 - c.utf8Size) rest).map (c :: ·)
    else none

/-- A text without the zeroes at its end. -/
def trimEnd (written : List Char) : List Char :=
  (written.reverse.dropWhile (· == '0')).reverse

/-- The significant part of a text: all but the zeroes at its two ends. -/
def significantPart (written : List Char) : List Char :=
  trimEnd (written.dropWhile (· == '0'))

/-- The number of zeroes that a text begins with. -/
def zerosBefore (written : List Char) : Nat :=
  (written.takeWhile (· == '0')).length

/-- The number that a text writes: digits, possibly after a plus. All other texts count as zero,
the empty one too. -/
def number (written : List Char) : Nat :=
  let digits := if written.head? = some '+' then written.tail else written
  if digits ≠ [] ∧ digits.all Char.isDigit then Nat.ofDigitChars 10 digits 0 else 0

/-- Reads a text as the digits of a fraction, unless its significant part cannot be cut after
nineteen bytes. The count of leading zeroes stays at its maximum once it has reached it. -/
def ofChars? (written : List Char) : Option Fraction :=
  (takeBytes? keptBytes (significantPart written)).map fun kept =>
    { significant := UInt64.ofNat (dropTrailingZeros (number kept))
      zeros := UInt32.ofNat (min (zerosBefore written) (Nat.pow 2 32 - 1)) }

/-! ### Digit runs are always read -/

theorem utf8Size_of_isDigit {c : Char} (digit : c.isDigit = true) : c.utf8Size = 1 := by
  simp only [Char.isDigit, Bool.and_eq_true, decide_eq_true_eq] at digit
  have small : c.val ≤ 127 := UInt32.le_trans digit.2 (by decide)
  simp only [Char.utf8Size]
  exact if_pos small

/-- Text whose characters take up one byte each can be cut anywhere. -/
theorem takeBytes?_eq_take {written : List Char} (single : ∀ c ∈ written, c.utf8Size = 1)
    (bytes : Nat) : takeBytes? bytes written = some (written.take bytes) := by
  induction written generalizing bytes with
  | nil => cases bytes <;> rfl
  | cons c rest ih =>
    cases bytes with
    | zero => rfl
    | succ bytes =>
      have size : c.utf8Size = 1 := single c List.mem_cons_self
      have tail := ih (fun d member => single d (List.mem_cons_of_mem _ member)) bytes
      simp [takeBytes?, size, tail]

theorem mem_of_mem_trimEnd {written : List Char} {c : Char} (member : c ∈ trimEnd written) :
    c ∈ written := by
  have := (List.dropWhile_sublist (l := written.reverse) (· == '0')).subset
    (List.mem_reverse.1 member)
  exact List.mem_reverse.1 this

theorem mem_of_mem_significantPart {written : List Char} {c : Char}
    (member : c ∈ significantPart written) : c ∈ written :=
  (List.dropWhile_sublist _).subset (mem_of_mem_trimEnd member)

theorem isSome_ofChars? (run : DigitRun) : (ofChars? run.chars).isSome := by
  have single : ∀ c ∈ significantPart run.chars, c.utf8Size = 1 := fun c member =>
    utf8Size_of_isDigit (run.isDigit c (mem_of_mem_significantPart member))
  simp [ofChars?, takeBytes?_eq_take single]

/-- The fraction that a digit run writes. -/
def ofRun (run : DigitRun) : Fraction :=
  (ofChars? run.chars).get (isSome_ofChars? run)

@[simp]
theorem ofChars?_chars (run : DigitRun) : ofChars? run.chars = some (ofRun run) :=
  (Option.some_get (isSome_ofChars? run)).symm

/-! ### Text and value -/

/-- The digits of a fraction as they follow the point. Without significant digits one zero is
written, whatever the number of zeroes. -/
def chars (f : Fraction) : List Char :=
  if f.significant = 0 then ['0']
  else List.replicate f.zeros.toNat '0' ++ Nat.toDigits 10 f.significant.toNat

/-- The text of a fraction. -/
def text (f : Fraction) : String :=
  String.ofList f.chars

/-- The number of places behind the point that a fraction reaches. -/
def places (f : Fraction) : Nat :=
  decimalLength f.significant.toNat + f.zeros.toNat

/-- The greatest exponent that a power of ten is taken to. -/
def maxPlaces : Nat := Nat.pow 2 31 - 1

/-- The value of a literal with the given whole part: the significant digits are divided by the
power of ten of the last place and added. Without significant digits it is the whole part. -/
def after (f : Fraction) (whole : Float) : Float :=
  if f.significant = 0 then whole
  else whole + Binary.ofNat f.significant.toNat / powBySquaring 10.0 (min f.places maxPlaces)

end Fraction

end Calculator
