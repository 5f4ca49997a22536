/-!
# Lines

A line ends with a line feed, or with a carriage return and a line feed; the last line of a text
may lack its end. A carriage return that no line feed follows belongs to its line.

There are two ways to the lines of a text: `lines` cuts all of it at once, and `next?` takes one
line off its start, with its end, which `chomp` removes.
-/

namespace Calculator.Text

/-- All lines of a text, without their ends. -/
def lines : List Char → List (List Char)
  | [] => []
  | '\n' :: rest => [] :: lines rest
  | '\r' :: '\n' :: rest => [] :: lines rest
  | c :: rest =>
    match lines rest with
    | [] => [[c]]
    | line :: others => (c :: line) :: others

/-- The first line of a text with its end, and what follows it. -/
def next? : List Char → Option (List Char × List Char)
  | [] => none
  | text =>
    match text.dropWhile (· != '\n') with
    | [] => some (text, [])
    | feed :: rest => some (text.takeWhile (· != '\n') ++ [feed], rest)

/-- A line without its end. -/
def chomp (line : List Char) : List Char :=
  match line.reverse with
  | '\n' :: '\r' :: start => start.reverse
  | '\n' :: start => start.reverse
  | _ => line

theorem length_lt_of_next? {text line rest : List Char} (h : next? text = some (line, rest)) :
    rest.length < text.length := by
  cases text with
  | nil => cases h
  | cons c tail =>
    have shorter := (List.dropWhile_sublist (l := c :: tail) (· != '\n')).length_le
    simp only [next?] at h
    split at h
    · cases h
      exact Nat.zero_lt_succ _
    · next feed after found =>
      cases h
      rw [found] at shorter
      exact shorter

end Calculator.Text
