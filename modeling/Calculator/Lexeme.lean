import Calculator.Fraction
import Calculator.Operator

/-!
# Lexemes

A lexeme is a piece of text that stands for at most one token: a blank, a sign, the name of a
function with its parenthesis, or a run of digits. `Lexeme.chars` is the text of a lexeme, and
`Lexeme.first?` finds the lexeme that a text begins with, the longest one where digits follow
digits.

Main statements:

* `first?_eq_some`: the lexeme found and what follows it make up the text;
* `flatMap_chars_split` and `first?_split`: the lexemes of a text and what is left of it make up the
  text, and what is left begins with no lexeme.
-/

namespace Calculator

/-- The blanks between lexemes: space, tab, carriage return, line feed and form feed. -/
def isBlank (c : Char) : Bool :=
  c == ' ' || c == '\t' || c == '\r' || c == '\n' || c == '\x0c'

/-- A piece of text that stands for at most one token. -/
inductive Lexeme where
  /-- A blank, which stands for no token. -/
  | blank (c : Char) (isBlank : Calculator.isBlank c = true)
  /-- The sign of a binary operator. The minus of a negation is one too. -/
  | operator (op : Operator)
  /-- A point. -/
  | point
  /-- An `E`, capital or small. -/
  | exponentMark (capital : Bool)
  /-- A function's name and an opening parenthesis, with nothing in between. -/
  | function (function : Trig)
  /-- An opening parenthesis of its own. -/
  | opening
  /-- A closing parenthesis. -/
  | closing
  /-- A run of digits. -/
  | digits (run : DigitRun)
  deriving DecidableEq

namespace Lexeme

/-- The text of a lexeme. -/
def chars : Lexeme → List Char
  | .blank c _ => [c]
  | .operator op => [op.symbol]
  | .point => ['.']
  | .exponentMark capital => [if capital then 'E' else 'e']
  | .function f => f.name.toList ++ ['(']
  | .opening => ['(']
  | .closing => [')']
  | .digits run => run.chars

theorem chars_ne_nil (lexeme : Lexeme) : lexeme.chars ≠ [] := by
  cases lexeme with
  | digits run => exact run.ne_nil
  | function _ => simp [chars]
  | _ => simp [chars]

/-! ### The lexeme at the start of a text -/

/-- The lexeme that one character is by itself if it is no blank. Digits and letters of names are
none. -/
def mark? : Char → Option Lexeme
  | '+' => some (.operator .add)
  | '-' => some (.operator .sub)
  | '*' => some (.operator .mul)
  | '/' => some (.operator .div)
  | '%' => some (.operator .mod)
  | '^' => some (.operator .pow)
  | '.' => some .point
  | 'E' => some (.exponentMark true)
  | 'e' => some (.exponentMark false)
  | '(' => some .opening
  | ')' => some .closing
  | _ => none

/-- The lexeme that one character is by itself. -/
def single? (c : Char) : Option Lexeme :=
  if blank : isBlank c = true then some (.blank c blank) else mark? c

/-- The function that a text begins with a call of, and what follows the parenthesis. -/
def function? : List Char → Option (Trig × List Char)
  | 's' :: 'i' :: 'n' :: '(' :: rest => some (.sin, rest)
  | 'c' :: 'o' :: 's' :: '(' :: rest => some (.cos, rest)
  | 't' :: 'a' :: 'n' :: '(' :: rest => some (.tan, rest)
  | _ => none

/-- The digit run that begins with `first` and goes on as far as digits follow. -/
def digitRun (first : Char) (digit : first.isDigit = true) (rest : List Char) : DigitRun where
  chars := first :: rest.takeWhile Char.isDigit
  ne_nil := List.cons_ne_nil _ _
  isDigit := by
    intro c member
    rcases List.mem_cons.1 member with rfl | member
    · exact digit
    · exact List.all_eq_true.1 List.all_takeWhile c member

/-- The lexeme that a text begins with, and what follows it. -/
def first? : List Char → Option (Lexeme × List Char)
  | [] => none
  | c :: rest =>
    if digit : c.isDigit = true then
      some (.digits (digitRun c digit rest), rest.dropWhile Char.isDigit)
    else match single? c with
      | some lexeme => some (lexeme, rest)
      | none => (function? (c :: rest)).map fun (f, rest) => (.function f, rest)

theorem chars_of_mark? {c : Char} {lexeme : Lexeme} (h : mark? c = some lexeme) :
    lexeme.chars = [c] := by
  simp only [mark?] at h
  split at h <;> cases h <;> rfl

theorem chars_of_single? {c : Char} {lexeme : Lexeme} (h : single? c = some lexeme) :
    lexeme.chars = [c] := by
  simp only [single?] at h
  split at h
  · cases h; rfl
  · exact chars_of_mark? h

theorem eq_of_function? {source rest : List Char} {f : Trig}
    (h : function? source = some (f, rest)) : source = (function f).chars ++ rest := by
  simp only [function?] at h
  split at h <;> cases h <;> rfl

/-- A text that begins with a lexeme is the text of the lexeme and what follows it. -/
theorem first?_eq_some {source rest : List Char} {lexeme : Lexeme}
    (h : first? source = some (lexeme, rest)) : source = lexeme.chars ++ rest := by
  cases source with
  | nil => cases h
  | cons c tail =>
    simp only [first?] at h
    split at h
    · cases h
      exact congrArg (c :: ·) List.takeWhile_append_dropWhile.symm
    · split at h
      · next found =>
        cases h
        rw [chars_of_single? found]
        rfl
      · obtain ⟨⟨f, after⟩, found, same⟩ := Option.map_eq_some_iff.1 h
        cases same
        exact eq_of_function? found

theorem length_lt_of_first? {source rest : List Char} {lexeme : Lexeme}
    (h : first? source = some (lexeme, rest)) : rest.length < source.length := by
  have pos := List.length_pos_iff.2 lexeme.chars_ne_nil
  rw [first?_eq_some h, List.length_append]
  omega

/-! ### All lexemes of a text -/

/-- The lexemes that a text begins with, as many as there are, and what is left of it. Nothing is
left exactly if the whole text consists of lexemes. -/
def split (source : List Char) : List Lexeme × List Char :=
  match _found : first? source with
  | none => ([], source)
  | some (lexeme, rest) =>
    let following := split rest
    (lexeme :: following.1, following.2)
termination_by source.length
decreasing_by exact length_lt_of_first? _found

/-- A text is the texts of its lexemes and what is left of it. -/
theorem flatMap_chars_split (source : List Char) :
    (split source).1.flatMap chars ++ (split source).2 = source := by
  fun_induction split source with
  | case1 source found => simp
  | case2 source lexeme rest found following ih => simp [following, ih, first?_eq_some found]

/-- What is left of a text begins with no lexeme. -/
theorem first?_split (source : List Char) : first? (split source).2 = none := by
  fun_induction split source with
  | case1 source found => exact found
  | case2 source lexeme rest found following ih => exact ih

end Lexeme

/-- The number of bytes that a text takes up. -/
def byteCount : List Char → Nat
  | [] => 0
  | c :: rest => c.utf8Size + byteCount rest

end Calculator
