import Mathlib.Data.List.TakeWhile
import Calculator.Proofs.Fraction.Digits

/-!
# Reading the digits of a fraction

A text is its significant part between zeroes (`exists_eq_replicate_append`), and the significant
part neither begins nor ends with a zero. Of a text of digits, the first nineteen of them are kept.
They write a number, `kept`, and the fraction read is that number without the zeroes that may be
last among the nineteen (`ofChars?_of_digits`). All numbers on the way fit into the words that they
are stored in: `toNat_significant` and `toNat_zeros`.
-/

namespace Calculator.Fraction

/-- The number that the digits kept of a text write. -/
def kept (written : List Char) : Nat :=
  Nat.ofDigitChars 10 ((significantPart written).take keptBytes) 0

/-! ### The significant part of a text -/

theorem zerosBefore_append_of_ne {written : List Char} {c : Char} (member : c ∈ written)
    (nonzero : c ≠ '0') (rest : List Char) :
    zerosBefore (written ++ rest) = zerosBefore written := by
  unfold zerosBefore
  rw [List.takeWhile_append, if_neg]
  intro all
  have same := (List.takeWhile_prefix (l := written) (· == '0')).eq_of_length all
  exact nonzero (by simpa using List.takeWhile_eq_self_iff.mp same c member)

theorem significantPart_replicate_append (n : Nat) (written : List Char) :
    significantPart (List.replicate n '0' ++ written) = significantPart written := by
  unfold significantPart
  rw [List.dropWhile_append_of_pos (by simp)]

theorem trimEnd_append_replicate (written : List Char) (n : Nat) :
    trimEnd (written ++ List.replicate n '0') = trimEnd written := by
  unfold trimEnd
  rw [List.reverse_append, List.reverse_replicate, List.dropWhile_append_of_pos (by simp)]

theorem significantPart_append_replicate (written : List Char) (n : Nat) :
    significantPart (written ++ List.replicate n '0') = significantPart written := by
  unfold significantPart
  rw [List.dropWhile_append]
  split
  · next none =>
    -- Nothing but zeroes is written.
    rw [List.isEmpty_iff] at none
    rw [none, List.dropWhile_eq_nil_iff.mpr (by simp)]
  · exact trimEnd_append_replicate _ n

theorem length_significantPart_le (written : List Char) :
    (significantPart written).length ≤ written.length := by
  unfold significantPart trimEnd
  rw [List.length_reverse]
  calc
    _ ≤ (written.dropWhile (· == '0')).reverse.length := (List.dropWhile_sublist _).length_le
    _ = (written.dropWhile (· == '0')).length := List.length_reverse
    _ ≤ written.length := (List.dropWhile_sublist _).length_le

/-- A text is its significant part between zeroes. -/
theorem exists_eq_replicate_append (written : List Char) :
    ∃ n, written = List.replicate (zerosBefore written) '0' ++ significantPart written ++
      List.replicate n '0' := by
  have zeros (l : List Char) : l.takeWhile (· == '0') =
      List.replicate (l.takeWhile (· == '0')).length '0' := by
    refine List.eq_replicate_of_mem fun c member => ?_
    simpa using List.all_eq_true.mp List.all_takeWhile c member
  have trailing (l : List Char) : ∃ n, l = trimEnd l ++ List.replicate n '0' := by
    refine ⟨(l.reverse.takeWhile (· == '0')).length, ?_⟩
    rw [← List.reverse_inj, trimEnd, List.reverse_append, List.reverse_reverse,
      List.reverse_replicate, ← zeros, List.takeWhile_append_dropWhile]
  obtain ⟨n, parts⟩ := trailing (written.dropWhile (· == '0'))
  refine ⟨n, ?_⟩
  rw [significantPart, List.append_assoc, ← parts, zerosBefore, ← zeros,
    List.takeWhile_append_dropWhile]

theorem head_significantPart {written rest : List Char} {c : Char}
    (h : significantPart written = c :: rest) : c ≠ '0' := by
  -- What is left behind the leading zeroes begins like the significant part.
  have begins : significantPart written <+: written.dropWhile (· == '0') := by
    have suffix := List.dropWhile_suffix (l := (written.dropWhile (· == '0')).reverse) (· == '0')
    have reversed := List.reverse_prefix.mpr suffix
    rwa [List.reverse_reverse] at reversed
  rw [h] at begins
  obtain ⟨tail, same⟩ := begins
  have head := List.head?_dropWhile_not (· == '0') written
  rw [← same] at head
  simpa using head

theorem significantPart_eq_nil_iff {written : List Char} :
    significantPart written = [] ↔ ∀ c ∈ written, c = '0' := by
  constructor
  · intro none c member
    obtain ⟨n, parts⟩ := exists_eq_replicate_append written
    rw [none] at parts
    rw [parts] at member
    simp only [List.append_nil, List.mem_append, List.mem_replicate] at member
    exact member.elim And.right And.right
  · intro all
    have dropped : written.dropWhile (· == '0') = [] :=
      List.dropWhile_eq_nil_iff.mpr fun c member => by simp [all c member]
    rw [significantPart, dropped]
    rfl

/-! ### Reading digits -/

theorem number_of_digits {written : List Char} (digits : ∀ c ∈ written, c.isDigit = true) :
    number written = Nat.ofDigitChars 10 written 0 := by
  cases written with
  | nil => rfl
  | cons c rest =>
    have noSign : (c :: rest).head? ≠ some '+' := by
      intro sign
      cases sign
      exact absurd (digits '+' List.mem_cons_self) (by decide)
    have all : (c :: rest).all Char.isDigit = true := List.all_eq_true.mpr digits
    rw [number, if_neg noSign]
    exact if_pos ⟨List.cons_ne_nil c rest, all⟩

section Digits

variable {written : List Char} (digits : ∀ c ∈ written, c.isDigit = true)
include digits

theorem isDigit_significantPart : ∀ c ∈ significantPart written, c.isDigit = true :=
  fun c member => digits c (mem_of_mem_significantPart member)

theorem isDigit_kept : ∀ c ∈ (significantPart written).take keptBytes, c.isDigit = true :=
  fun c member => isDigit_significantPart digits c (List.mem_of_mem_take member)

/-- **What is read of digits.** -/
theorem ofChars?_of_digits : ofChars? written = some
    { significant := UInt64.ofNat (dropTrailingZeros (kept written))
      zeros := UInt32.ofNat (min (zerosBefore written) (Nat.pow 2 32 - 1)) } := by
  have single : ∀ c ∈ significantPart written, c.utf8Size = 1 := fun c member =>
    utf8Size_of_isDigit (isDigit_significantPart digits c member)
  rw [ofChars?, takeBytes?_eq_take single, Option.map_some, number_of_digits (isDigit_kept digits)]
  rfl

/-- Nineteen digits are kept, and so many fit into the significant digits of a fraction. -/
theorem kept_lt : kept written < 10 ^ 19 := by
  calc
    kept written < 10 ^ ((significantPart written).take keptBytes).length :=
      ofDigitChars_lt (isDigit_kept digits)
    _ ≤ 10 ^ 19 := Nat.pow_le_pow_right (by decide) (List.length_take_le keptBytes _)

/-- The digits kept write zero only if nothing but zeroes is written. -/
theorem kept_eq_zero_iff : kept written = 0 ↔ ∀ c ∈ written, c = '0' := by
  rw [← significantPart_eq_nil_iff]
  constructor
  · intro zero
    cases part : significantPart written with
    | nil => rfl
    | cons c rest =>
      have digit := isDigit_significantPart digits c (by rw [part]; exact List.mem_cons_self)
      have pos : 10 ^ (rest.take 18).length ≤ Nat.ofDigitChars 10 (c :: rest.take 18) 0 :=
        pow_le_ofDigitChars digit (head_significantPart part)
      have same : kept written = Nat.ofDigitChars 10 (c :: rest.take 18) 0 := by
        rw [kept, part]
        rfl
      rw [← same, zero] at pos
      exact absurd pos (Nat.not_le.mpr (Nat.pow_pos (by decide)))
  · intro none
    rw [kept, none]
    rfl

theorem kept_ne_zero (some : ∃ c ∈ written, c ≠ '0') : kept written ≠ 0 := by
  obtain ⟨c, member, nonzero⟩ := some
  exact fun zero => nonzero ((kept_eq_zero_iff digits).mp zero c member)

/-- As many digits are kept as the number of the digits kept has. -/
theorem decimalLength_kept (nonzero : kept written ≠ 0) :
    decimalLength (kept written) = ((significantPart written).take keptBytes).length := by
  cases part : significantPart written with
  | nil => exact absurd (by rw [kept, part]; rfl) nonzero
  | cons c rest =>
    have all := isDigit_kept digits
    rw [kept]
    rw [part] at all ⊢
    exact decimalLength_ofDigitChars all (head_significantPart part)

end Digits

/-! ### The words of a fraction -/

section Read

variable {written : List Char} (digits : ∀ c ∈ written, c.isDigit = true) {f : Fraction}
  (read : ofChars? written = some f)
include digits read

theorem toNat_significant : f.significant.toNat = dropTrailingZeros (kept written) := by
  rw [ofChars?_of_digits digits] at read
  cases read
  refine UInt64.toNat_ofNat_of_lt' ?_
  calc
    dropTrailingZeros (kept written) ≤ kept written := dropTrailingZeros_le _
    _ < 10 ^ 19 := kept_lt digits
    _ < 2 ^ 64 := by decide

theorem toNat_zeros (few : zerosBefore written < 2 ^ 32) : f.zeros.toNat = zerosBefore written := by
  rw [ofChars?_of_digits digits] at read
  cases read
  have bound : min (zerosBefore written) (Nat.pow 2 32 - 1) = zerosBefore written := by
    rw [Nat.pow_eq]
    omega
  rw [bound]
  exact UInt32.toNat_ofNat_of_lt' few

/-- The significant digits are zero exactly if nothing but zeroes is written. -/
theorem significant_eq_zero_iff : f.significant = 0 ↔ ∀ c ∈ written, c = '0' := by
  rw [← kept_eq_zero_iff digits, ← UInt64.toNat_inj, toNat_significant digits read]
  constructor
  · intro zero
    by_contra nonzero
    obtain ⟨dropped, value, -, -⟩ := exists_dropTrailingZeros (Nat.pos_of_ne_zero nonzero)
    have zero : dropTrailingZeros (kept written) = 0 := zero
    rw [zero, Nat.zero_mul] at value
    exact nonzero value
  · intro zero
    rw [zero, dropTrailingZeros]
    rfl

/-- Significant digits are kept digits. -/
theorem kept_ne_zero_of_read (nonzero : f.significant ≠ 0) : kept written ≠ 0 := fun zero =>
  nonzero ((significant_eq_zero_iff digits read).mpr ((kept_eq_zero_iff digits).mp zero))

end Read

end Calculator.Fraction
