import Calculator.Proofs.Calculation.Agreement

/-!
# The tree of a text

The interpretation that builds trees never fails, so it finds a tree wherever an expression is
read. `parse` is the tree of a text that is an expression. It says all that the operations on texts
need to know:

* `parse_eq_ok_iff` — a text has a tree if its tokens are read to their end, and the tokens are
  those of the tree;
* `validate_eq_ok_iff` — the valid texts are the texts with a tree;
* `calculate_of_parse`, `parse_of_calculate` — the value of a text is the value of its tree.
-/

namespace Calculator

open Grammar

/-! ### Building a tree -/

/-- Building a tree from its own constructs gives the tree back. -/
@[simp]
theorem Expression.interpret_builder (e : Expression) : e.interpret builder = pure e := by
  induction e with
  | literal whole fraction => rfl
  | operation _ _ _ left right | scaled _ _ left right =>
    rw [interpret, left, pure_bind, right, pure_bind]
    rfl
  | application _ _ inner | negation _ inner | parenthesized _ inner =>
    rw [interpret, inner, pure_bind]
    rfl

theorem abandon_builder {β : Type} (cause : SyntaxError) (done : List Expression) :
    (Expression.builder.abandon cause done : EStateM SyntaxError Unit β) = throw cause := by
  induction done with
  | nil => rfl
  | cons e done ih => rw [Interpretation.abandon, e.interpret_builder, pure_bind, ih]

/-- The tree that is built is the tree that is read. -/
theorem read_builder_of_reads {limit : Option Nat} {tokens rest : List Token} {e : Expression}
    (h : Reads limit (.rule (.chain .additive)) 0 tokens e rest) :
    (read Expression.builder limit tokens).run () = .ok (e, rest) () := by
  rw [read_of_reads _ h, e.interpret_builder]
  rfl

/-- The tree that is built was read. -/
theorem reads_of_read_builder {limit : Option Nat} {tokens rest : List Token} {e : Expression}
    (h : (read Expression.builder limit tokens).run () = .ok (e, rest) ()) :
    Reads limit (.rule (.chain .additive)) 0 tokens e rest := by
  obtain ⟨tree, found, built⟩ := reads_of_read Expression.builder h
  rw [tree.interpret_builder] at built
  cases built
  exact found

theorem read_builder_of_fails {limit : Option Nat} {tokens : List Token} {done : List Expression}
    {cause : SyntaxError} (h : Fails limit (.chain .additive) 0 tokens done cause) :
    (read Expression.builder limit tokens).run () = .error cause () := by
  rw [read_of_fails _ h, abandon_builder]
  rfl

/-! ### Texts that are expressions -/

/-- The tree of a text that is an expression. -/
def parse (source : String) : Except Error Expression := do
  let tokens ← (tokenize source).mapError .lexical
  match (read Expression.builder (some depthLimit) tokens).run () with
  | .ok (e, rest) _ => do
    finish rest
    return e
  | .error cause _ => .error (.syntactic cause)

/-- The nesting of a text that is an expression, and zero for all other texts. -/
def nesting (source : String) : Nat :=
  match parse source with
  | .ok e => e.nesting
  | .error _ => 0

theorem parse_of_reads {source : String} {tokens rest : List Token} {e : Expression}
    (scanned : tokenize source = .ok tokens)
    (h : Reads (some depthLimit) (.rule (.chain .additive)) 0 tokens e rest) :
    parse source = finish rest >>= fun _ => .ok e := by
  rw [parse, scanned, mapError_ok_bind, read_builder_of_reads h]
  rfl

theorem parse_of_fails {source : String} {tokens : List Token} {done : List Expression}
    {cause : SyntaxError} (scanned : tokenize source = .ok tokens)
    (h : Fails (some depthLimit) (.chain .additive) 0 tokens done cause) :
    parse source = .error (.syntactic cause) := by
  rw [parse, scanned, mapError_ok_bind, read_builder_of_fails h]

/-- **The texts with a tree** are those whose tokens are read to their end. -/
theorem parse_eq_ok_iff {source : String} {e : Expression} :
    parse source = .ok e ↔ tokenize source = .ok e.tokens ∧
      Reads (some depthLimit) (.rule (.chain .additive)) 0 e.tokens e [] := by
  constructor
  · intro parsed
    cases scanned : tokenize source with
    | error cause =>
      rw [parse, scanned] at parsed
      cases parsed
    | ok tokens =>
      rcases reads_or_fails (some depthLimit) (.chain .additive) 0 tokens with
        ⟨e', rest, h⟩ | ⟨done, cause, h⟩
      · rw [parse_of_reads scanned h] at parsed
        cases rest with
        | nil =>
          cases parsed
          obtain rfl := h.eq_tokens
          exact ⟨rfl, h⟩
        | cons token tail =>
          -- What is left over is a fault.
          cases parsed
      · rw [parse_of_fails scanned h] at parsed
        cases parsed
  · rintro ⟨scanned, h⟩
    exact parse_of_reads scanned h

/-- A valid text has a tree, and its tokens are those of the tree. -/
theorem validate_eq_ok_iff {source : String} {tokens : List Token} :
    validate source = .ok tokens ↔ ∃ e, parse source = .ok e ∧ e.tokens = tokens := by
  rw [validate_eq]
  constructor
  · intro valid
    cases scanned : tokenize source with
    | error cause =>
      rw [scanned] at valid
      cases valid
    | ok tokens' =>
      rw [scanned, mapError_ok_bind] at valid
      cases checked : check tokens' with
      | error cause =>
        rw [checked] at valid
        cases valid
      | ok rest =>
        rw [checked] at valid
        obtain ⟨e, h⟩ := reads_of_check checked
        cases rest with
        | nil =>
          cases valid
          exact ⟨e, parse_of_reads scanned h, h.eq_tokens.symm⟩
        | cons token tail => cases valid
  · rintro ⟨e, parsed, rfl⟩
    obtain ⟨scanned, h⟩ := parse_eq_ok_iff.mp parsed
    rw [scanned, mapError_ok_bind, check_of_reads h]
    rfl

theorem validate_of_fails {source : String} {tokens : List Token} {done : List Expression}
    {cause : SyntaxError} (scanned : tokenize source = .ok tokens)
    (h : Fails (some depthLimit) (.chain .additive) 0 tokens done cause) :
    validate source = .error (.syntactic cause) := by
  rw [validate_eq, scanned, mapError_ok_bind, check_of_fails h]
  rfl

/-- The value of a text is the value of its tree. -/
theorem calculate_of_parse {source : String} {e : Expression} (parsed : parse source = .ok e) :
    calculate source = e.value.mapError .arithmetic := by
  obtain ⟨scanned, h⟩ := parse_eq_ok_iff.mp parsed
  rw [calculate_eq, scanned, mapError_ok_bind, evaluate_of_reads h]
  cases e.value <;> rfl

/-- A text with a value has a tree with that value. -/
theorem parse_of_calculate {source : String} {number : Number}
    (calculated : calculate source = .ok number) :
    ∃ e, parse source = .ok e ∧ e.value = .ok number := by
  -- A text with a value is valid, and a valid text has a tree.
  obtain ⟨tokens, -, valid⟩ := (agreement source).valid_of_value calculated
  obtain ⟨e, parsed, -⟩ := validate_eq_ok_iff.mp valid
  rw [calculate_of_parse parsed] at calculated
  refine ⟨e, parsed, ?_⟩
  cases value : e.value with
  | error cause =>
    rw [value] at calculated
    cases calculated
  | ok result =>
    rw [value] at calculated
    cases calculated
    rfl

end Calculator
