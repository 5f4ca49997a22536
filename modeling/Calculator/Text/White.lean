/-!
# White space

The characters with the property `White_Space` of the Unicode character database. They decide
which lines are empty; inside an expression only some of them separate lexemes.
-/

namespace Calculator.Text

/-- The ranges of code points with the property `White_Space`, in order. -/
def whiteRanges : List (Nat × Nat) :=
  [(0x9, 0xD), (0x20, 0x20), (0x85, 0x85), (0xA0, 0xA0), (0x1680, 0x1680), (0x2000, 0x200A),
    (0x2028, 0x2029), (0x202F, 0x202F), (0x205F, 0x205F), (0x3000, 0x3000)]

/-- Whether a character is white space. -/
def isWhite (c : Char) : Bool :=
  whiteRanges.any fun (first, last) => first ≤ c.toNat && c.toNat ≤ last

/-- Whether a text holds nothing but white space. -/
def isEmptyLine (text : List Char) : Bool :=
  text.all isWhite

/-- The table has twenty-five characters. -/
example : (whiteRanges.map fun (first, last) => last + 1 - first).sum = 25 := rfl

end Calculator.Text
