import Mathlib.Data.List.TakeWhile
import Calculator.Text.Lines

/-!
# What the lines of a text are

`Cut text lines` says that a text consists of lines, each of them with its end, which may be missing
behind the last one. There is exactly one way to cut a text. Cutting all of it at once finds it
(`cut_iff`), and so does taking line after line off its start, as the two lemmas on `next?` and
`chomp` say for each of the shapes that the first line can have.
-/

namespace Calculator.Text

/-- A text consists of lines. -/
inductive Cut : List Char → List (List Char) → Prop where
  /-- No line at all. -/
  | nil : Cut [] []
  /-- A last line without its end. -/
  | last {line : List Char} (some : line ≠ []) (feedless : '\n' ∉ line) : Cut line [line]
  /-- A line that ends with a line feed. -/
  | feed {line rest : List Char} {lines : List (List Char)} (feedless : '\n' ∉ line)
      (unreturned : line.getLast? ≠ some '\r') (others : Cut rest lines) :
      Cut (line ++ '\n' :: rest) (line :: lines)
  /-- A line that ends with a carriage return and a line feed. -/
  | returnFeed {line rest : List Char} {lines : List (List Char)} (feedless : '\n' ∉ line)
      (others : Cut rest lines) : Cut (line ++ '\r' :: '\n' :: rest) (line :: lines)

/-- Every text can be cut, by induction on its length: what follows the first line feed is
shorter. -/
theorem exists_cut (text : List Char) : ∃ lines, Cut text lines := by
  induction size : text.length using Nat.strongRecOn generalizing text with
  | ind n ih =>
    by_cases feeds : '\n' ∈ text
    · obtain ⟨line, rest, rfl, feedless⟩ := List.eq_append_cons_of_mem feeds
      obtain ⟨lines, others⟩ := ih rest.length (by rw [← size]; simp; omega) rest rfl
      by_cases returned : line.getLast? = some '\r'
      · obtain ⟨start, rfl⟩ := List.getLast?_eq_some_iff.mp returned
        refine ⟨start :: lines, ?_⟩
        rw [List.append_assoc, List.singleton_append]
        exact .returnFeed (fun member => feedless (List.mem_append_left _ member)) others
      · exact ⟨line :: lines, .feed feedless returned others⟩
    · cases text with
      | nil => exact ⟨[], .nil⟩
      | cons c rest => exact ⟨[c :: rest], .last (List.cons_ne_nil c rest) feeds⟩

/-! ### All lines at once -/

theorem lines_cons {c : Char} {rest first : List Char} {others : List (List Char)}
    (noFeed : c ≠ '\n') (noReturn : c = '\r' → rest.head? ≠ some '\n')
    (found : lines rest = first :: others) : lines (c :: rest) = (c :: first) :: others := by
  rw [lines]
  · rw [found]
  · exact noFeed
  · rintro rest' rfl rfl
    exact noReturn rfl rfl

theorem lines_single {c : Char} (noFeed : c ≠ '\n') : lines [c] = [[c]] := by
  rw [lines]
  · rfl
  · exact noFeed
  · exact fun _ _ => nofun

/-- Characters in front of a line belong to it, unless they make up its end together with it. -/
theorem lines_append {front rest first : List Char} {others : List (List Char)}
    (feedless : '\n' ∉ front) (unreturned : front.getLast? = some '\r' → rest.head? ≠ some '\n')
    (found : lines rest = first :: others) :
    lines (front ++ rest) = (front ++ first) :: others := by
  induction front with
  | nil => exact found
  | cons c front ih =>
    have noFeed : c ≠ '\n' := fun same => feedless (same ▸ List.mem_cons_self)
    have feedless : '\n' ∉ front := fun member => feedless (List.mem_cons_of_mem c member)
    cases front with
    | nil => exact lines_cons noFeed (fun same => unreturned (same ▸ rfl)) found
    | cons d front =>
      refine lines_cons noFeed (fun _ same => ?_) (ih feedless unreturned)
      obtain rfl : d = '\n' := Option.some.inj same
      exact feedless List.mem_cons_self

/-- **The lines of a text** are the ones that it can be cut into. -/
theorem cut_iff {text : List Char} {found : List (List Char)} :
    Cut text found ↔ lines text = found := by
  have correct {text : List Char} {found : List (List Char)} (cut : Cut text found) :
      lines text = found := by
    induction cut with
    | nil => rfl
    | @last line some feedless =>
      -- The last character is a line by itself, and the others stand in front of it.
      obtain ⟨front, c, rfl⟩ : ∃ front c, line = front ++ [c] :=
        ⟨_, _, (List.dropLast_concat_getLast some).symm⟩
      obtain ⟨feedless, noFeed⟩ := not_or.mp (mt List.mem_append.mpr feedless)
      have noFeed : c ≠ '\n' := fun same => noFeed (List.mem_singleton.mpr same.symm)
      exact lines_append feedless (fun _ same => noFeed (Option.some.inj same))
        (lines_single noFeed)
    | feed feedless unreturned _ ih =>
      rw [lines_append feedless (fun returned => absurd returned unreturned) rfl, ih,
        List.append_nil]
    | returnFeed feedless _ ih =>
      rw [lines_append feedless (fun _ => by simp) rfl, ih, List.append_nil]
  refine ⟨correct, ?_⟩
  rintro rfl
  obtain ⟨found, cut⟩ := exists_cut text
  exact correct cut ▸ cut

/-! ### Line after line -/

theorem next?_of_feedless {line : List Char} (some : line ≠ []) (feedless : '\n' ∉ line) :
    next? line = .some (line, []) := by
  have all : line.dropWhile (· != '\n') = [] := by
    refine List.dropWhile_eq_nil_iff.mpr fun c member => ?_
    exact bne_iff_ne.mpr fun same => feedless (same ▸ member)
  rw [next?, all]
  exact some

theorem next?_append_feed {line : List Char} (feedless : '\n' ∉ line) (rest : List Char) :
    next? (line ++ '\n' :: rest) = some (line ++ ['\n'], rest) := by
  have others : ∀ c ∈ line, (c != '\n') = true := fun c member =>
    bne_iff_ne.mpr fun same => feedless (same ▸ member)
  rw [next?, List.dropWhile_append_of_pos others, List.takeWhile_append_of_pos others]
  · simp
  · simp

theorem chomp_of_feedless {line : List Char} (feedless : '\n' ∉ line) : chomp line = line := by
  have last {rest : List Char} (ends : line.reverse = '\n' :: rest) : '\n' ∈ line :=
    List.mem_reverse.mp (ends ▸ List.mem_cons_self)
  rw [chomp]
  split
  · next ends => exact absurd (last ends) feedless
  · next ends => exact absurd (last ends) feedless
  · rfl

theorem chomp_append_feed {line : List Char} (unreturned : line.getLast? ≠ some '\r') :
    chomp (line ++ ['\n']) = line := by
  have ends : (line ++ ['\n']).reverse = '\n' :: line.reverse := List.reverse_concat
  rw [chomp, ends]
  split
  · next start same =>
    obtain rfl : line = start.reverse ++ ['\r'] := by
      rw [← List.reverse_cons, ← (List.cons.inj same).2, List.reverse_reverse]
    exact absurd (by simp) unreturned
  · next start _ same => rw [← (List.cons.inj same).2, List.reverse_reverse]
  · next other => exact absurd rfl (other _)

theorem chomp_append_returnFeed (line : List Char) : chomp (line ++ ['\r', '\n']) = line := by
  simp [chomp]

end Calculator.Text
