import Calculator.Proofs.Log.Writes

/-!
# The logs of the two passes

Checking a text and calculating it report the same tokens and the same reductions, for both follow
the same reading. What the calculation adds is the value of each reduction, reported right behind
it, and a division by zero cuts its log off behind the reduction that has no value.

The comparison is made once, for the program of a reading: `Traces full records outcome` says how
the records of an evaluation relate to the reductions of the whole program, and it is established
by induction on the program (`exists_writes_exec_evaluator`). Everything that the operations report
besides is a record that neither of the two statements counts.

Main statement: `logs_agree`.
-/

namespace Calculator

open Grammar Logged

/-! ### Records of interest -/

/-- The records of the two stages that checking and calculating share: of the tokens and of the
grammar. -/
def Log.shared (records : List Record) : List Record :=
  records.filter fun record => record.stage = .tokens ∨ record.stage = .grammar

/-- The offset that a record gives for a token. -/
def Record.offset? : Record → Option Nat
  | .found _ offset => some offset
  | _ => none

/-- The offsets of the tokens that records tell of. -/
def Log.offsets (records : List Record) : List Nat :=
  records.filterMap Record.offset?

/-- What is reported while a text is calculated. -/
def Log.ofCalculation (source : String) : List Record :=
  (Logged.calculate source).log.toList

/-- What is reported while a text is checked. -/
def Log.ofValidation (source : String) : List Record :=
  (Logged.validate source).log.toList

/-- Every reduction is followed by the value of an operation of its operator, and values are
reported nowhere else. The operator that is pending is that of a last reduction without a value. -/
inductive Log.Answered : Option Operator → List Record → Prop where
  /-- Nothing is reported. -/
  | nil : Answered none []
  /-- The last reduction has no value. -/
  | pending (op : Operator) : Answered (some op) [.reduced op]
  /-- A reduction has a value. -/
  | operation {pending : Option Operator} {op : Operator} {left right result : Number}
      {records : List Record} (value : left.operation op right = .ok result)
      (rest : Answered pending records) :
      Answered pending (.reduced op :: .computed left op right result.value :: records)
  /-- A record is neither a reduction nor the value of one. -/
  | other {pending : Option Operator} {record : Record} {records : List Record}
      (unreduced : record.stage ≠ .grammar)
      (unvalued : ¬ (record.stage = .arithmetic ∧ record.level = .trace))
      (rest : Answered pending records) :
      Answered pending (record :: records)

namespace Log

@[simp] theorem shared_append (records records' : List Record) :
    shared (records ++ records') = shared records ++ shared records' :=
  List.filter_append ..

@[simp] theorem offsets_append (records records' : List Record) :
    offsets (records ++ records') = offsets records ++ offsets records' :=
  List.filterMap_append ..

/-- Offsets are given by shared records only. -/
theorem offsets_shared (records : List Record) : offsets (shared records) = offsets records := by
  rw [offsets, offsets, shared, List.filterMap_filter]
  refine List.filterMap_congr fun record _ => ?_
  cases record <;> rfl

namespace Answered

variable {pending : Option Operator} {records records' before after : List Record}

theorem append (first : Answered none records) (second : Answered pending records') :
    Answered pending (records ++ records') := by
  generalize empty : (none : Option Operator) = done at first
  induction first with
  | nil => exact second
  | pending op => cases empty
  | operation value _ ih => exact .operation value (ih empty)
  | other unreduced unvalued _ ih => exact .other unreduced unvalued (ih empty)

/-- **A part of the records**, from any record to the end, is of the same kind, unless it begins with
a value. Then the reduction stands right in front of it. -/
theorem behind (h : Answered pending records) {record : Record}
    (parts : records = before ++ record :: after) :
    Answered pending (record :: after) ∨
      ∃ front op left right value, before = front ++ [.reduced op] ∧
        record = .computed left op right value := by
  induction h generalizing before with
  | nil => simp at parts
  | pending op =>
    cases before with
    | nil =>
      cases parts
      exact .inl (.pending op)
    | cons _ before => simp at parts
  | @operation pending op left right result records value rest ih =>
    match before, parts with
    | [], parts =>
      cases parts
      exact .inl (.operation value rest)
    | [_], parts =>
      cases parts
      exact .inr ⟨[], op, left, right, result.value, rfl, rfl⟩
    | first :: second :: before, parts =>
      simp only [List.cons_append, List.cons.injEq] at parts
      refine (ih parts.2.2).imp_right ?_
      rintro ⟨front, op', left', right', value', rfl, same⟩
      exact ⟨first :: second :: front, op', left', right', value', rfl, same⟩
  | other unreduced unvalued rest ih =>
    cases before with
    | nil =>
      cases parts
      exact .inl (.other unreduced unvalued rest)
    | cons first before =>
      simp only [List.cons_append, List.cons.injEq] at parts
      refine (ih parts.2).imp_right ?_
      rintro ⟨front, op, left, right, value, rfl, same⟩
      exact ⟨first :: front, op, left, right, value, rfl, same⟩

/-- **What follows a reduction** is its value, or nothing if it is pending. -/
theorem grammar_cases (h : Answered pending records) {record : Record}
    (parts : records = before ++ record :: after) (reduced : record.stage = .grammar) :
    ∃ op, record = .reduced op ∧
      ((∃ left right result rest, left.operation op right = .ok result ∧
          after = .computed left op right result.value :: rest) ∨
        pending = some op ∧ after = []) := by
  rcases h.behind parts with begins | ⟨front, op, left, right, value, -, rfl⟩
  · cases begins with
    | pending op => exact ⟨op, rfl, .inr ⟨rfl, rfl⟩⟩
    | operation value rest => exact ⟨_, rfl, .inl ⟨_, _, _, _, value, rfl⟩⟩
    | other unreduced _ _ => exact absurd reduced unreduced
  · cases reduced

/-- **What precedes a value** is the reduction that it is the value of. -/
theorem trace_cases (h : Answered pending records) {record : Record}
    (parts : records = before ++ record :: after) (arithmetic : record.stage = .arithmetic)
    (trace : record.level = .trace) :
    ∃ front op left right value, before = front ++ [.reduced op] ∧
      record = .computed left op right value := by
  rcases h.behind parts with begins | found
  · cases begins with
    | pending op => cases arithmetic
    | operation value rest => cases arithmetic
    | other _ unvalued _ => exact absurd ⟨arithmetic, trace⟩ unvalued
  · exact found

/-- A pending reduction is the last record. -/
theorem getLast?_eq {op : Operator} (h : Answered (some op) records) :
    records.getLast? = some (.reduced op) := by
  generalize last : some op = pending at h
  induction h with
  | nil => cases last
  | pending op =>
    cases last
    rfl
  | operation value rest ih => simp [List.getLast?_cons, ih last]
  | other _ _ rest ih => simp [List.getLast?_cons, ih last]

end Answered

end Log

open Log

/-! ### What a program writes -/

/-- The reductions that the binary operations of a program are reported with. -/
def reductions (program : List (Construct Unit)) : List Record :=
  (program.filterMap Construct.operator?).map .reduced

/-- How the records of an evaluation relate to the reductions of its whole program. A division by
zero comes in front of the end, so some of the reductions may be missing then. -/
def Traces {α : Type} (full records : List Record) : Except Error α → Prop
  | .error (.arithmetic _) => Answered (some .div) records ∧ shared records <+: full
  | _ => Answered none records ∧ shared records = full

@[simp] theorem reductions_cons (construct : Construct Unit) (program : List (Construct Unit)) :
    reductions (construct :: program) = reductions [construct] ++ reductions program := by
  rw [reductions, ← List.singleton_append, List.filterMap_append, List.map_append]
  rfl

@[simp] theorem shared_reductions (program : List (Construct Unit)) :
    shared (reductions program) = reductions program := by
  refine List.filter_eq_self.mpr fun record member => ?_
  obtain ⟨op, -, rfl⟩ := List.mem_map.mp member
  rfl

theorem writes_checker_perform (construct : Construct Unit) :
    Writes (checker.perform construct) (.ok ()) (reductions [construct.bare]) := by
  cases construct with
  | operation op _ _ => exact writes_report (.reduced op)
  | _ => exact writes_pure ()

/-- **The checker writes the reductions** of a program, which it executes to the end. -/
theorem exists_writes_exec_checker (program : List (Construct Unit)) (stack : List Unit) :
    ∃ left records, Writes (Postfix.exec checker program stack) (.ok left) records ∧
      (left ≠ none → records = reductions program) := by
  induction program generalizing stack with
  | nil => exact ⟨some stack, [], writes_pure _, fun _ => rfl⟩
  | cons construct program ih =>
    cases load : construct.load? stack with
    | none =>
      refine ⟨none, [], ?_, fun some => absurd rfl some⟩
      rw [Postfix.exec, load]
      exact writes_pure _
    | some found =>
      obtain ⟨left, records, writes, all⟩ := ih (() :: found.2)
      refine ⟨left, reductions [construct] ++ records, ?_, fun ends => ?_⟩
      · rw [exec_cons checker load]
        refine Writes.bind ?_ writes
        rw [← Construct.bare_of_load? load]
        exact writes_checker_perform found.1
      · rw [all ends, ← reductions_cons]

/-- A construct writes its reduction and its value. -/
theorem exists_writes_evaluator_perform (construct : Construct Number) :
    ∃ records, Writes (evaluator.perform construct)
        ((Number.ofConstruct construct).mapError .arithmetic) records ∧
      Traces (reductions [construct.bare]) records
        ((Number.ofConstruct construct).mapError .arithmetic) := by
  cases construct with
  | operation op left right =>
    have reported : Writes (report (.reduced op) : Logged Error Unit) (.ok ()) [.reduced op] :=
      writes_report _
    cases value : Number.ofConstruct (.operation op left right) with
    | ok result =>
      refine ⟨[.reduced op, .computed left op right result.value], ?_, .operation value .nil, rfl⟩
      refine reported.bind ?_
      rw [value]
      exact (writes_report _).bind (writes_pure result)
    | error cause =>
      -- Only a division by zero has no value.
      obtain ⟨_, _, same, -⟩ := ofConstruct_eq_error_iff.mp value
      cases same
      refine ⟨[.reduced .div], ?_, .pending .div, List.prefix_rfl⟩
      refine reported.bind ?_
      rw [value]
      exact writes_throw _
  | _ => exact ⟨[], writes_pure _, .nil, rfl⟩

theorem Traces.append {α β : Type} {full full' records records' : List Record} {value : α}
    {result : Except Error β} (first : Traces full records (Except.ok value))
    (second : Traces full' records' result) :
    Traces (full ++ full') (records ++ records') result := by
  obtain ⟨answered, same⟩ := first
  match result with
  | .error (.arithmetic _) =>
    refine ⟨answered.append second.1, ?_⟩
    rw [shared_append, same]
    exact List.prefix_append_right_inj _ |>.mpr second.2
  | .error (.lexical _) | .error (.syntactic _) | .ok _ =>
    exact ⟨answered.append second.1, by rw [shared_append, same, second.2]⟩

/-- The comparison does not depend on what an evaluation without a result would have given. -/
theorem Traces.of_error {α β : Type} {full records : List Record} {cause : Error}
    (h : Traces full records (Except.error cause : Except Error α)) :
    Traces full records (Except.error cause : Except Error β) := by
  cases cause <;> exact h

/-- A record that is neither shared nor a value is no part of the comparison. -/
theorem Traces.append_other {α β : Type} {full records : List Record} {value : α} {value' : β}
    (h : Traces full records (Except.ok value)) (record : Record)
    (unshared : record.stage ≠ .tokens ∧ record.stage ≠ .grammar)
    (unvalued : ¬ (record.stage = .arithmetic ∧ record.level = .trace)) :
    Traces full (records ++ [record]) (Except.ok value') := by
  have alone : Traces [] [record] (Except.ok value') :=
    ⟨.other unshared.2 unvalued .nil, by simp [shared, unshared]⟩
  simpa using h.append alone

/-- **The evaluator writes the reductions** of a program and their values, up to the first division
by zero. -/
theorem exists_writes_exec_evaluator (program : List (Construct Unit)) (stack : List Number) :
    ∃ outcome records, Writes (Postfix.exec evaluator program stack) outcome records ∧
      (outcome ≠ .ok none → Traces (reductions program) records outcome) := by
  induction program generalizing stack with
  | nil => exact ⟨.ok (some stack), [], writes_pure _, fun _ => ⟨.nil, rfl⟩⟩
  | cons construct program ih =>
    cases load : construct.load? stack with
    | none =>
      refine ⟨.ok none, [], ?_, fun some => absurd rfl some⟩
      rw [Postfix.exec, load]
      exact writes_pure _
    | some found =>
      obtain ⟨first, writes, traces⟩ := exists_writes_evaluator_perform found.1
      rw [Construct.bare_of_load? load] at traces
      rw [exec_cons evaluator load, reductions_cons]
      cases value : Number.ofConstruct found.1 with
      | ok result =>
        rw [value] at writes traces
        obtain ⟨outcome, records, writes', traces'⟩ := ih (result :: found.2)
        exact ⟨outcome, first ++ records, writes.bind writes',
          fun ends => traces.append (traces' ends)⟩
      | error cause =>
        rw [value] at writes traces
        refine ⟨_, first, writes.bind_error _, fun _ => ⟨traces.1, ?_⟩⟩
        exact traces.2.trans (List.prefix_append _ _)

/-! ### What a reading writes -/

/-- The reductions of the expression at the start of the tokens. -/
def reductionsOf (tokens : List Token) : List Record :=
  reductions (record (some depthLimit) tokens).program

theorem Traces.concludes {full records : List Record}
    {outcome : Except Error (Option (List Number))} {result : Except Error (Number × List Token)}
    (h : Traces full records outcome) (ends : evaluator.Concludes outcome result) :
    Traces full records result := by
  cases ends with
  | failed e => cases e <;> exact h
  | found | malformed => exact h

/-- The checker writes the reductions, and at most its own summary besides. -/
theorem exists_writes_check (tokens : List Token) :
    ∃ closing, Writes (Logged.check tokens) (check tokens) (reductionsOf tokens ++ closing) ∧
      shared closing = [] := by
  obtain ⟨left, records, executed, all⟩ :=
    exists_writes_exec_checker (record (some depthLimit) tokens).program []
  obtain ⟨result, ends, reading⟩ := exists_writes_read checker executed
  obtain rfl : records = reductionsOf tokens := by
    cases ends with
    | found | malformed => exact all (Option.some_ne_none _)
  match result, reading with
  | .ok ((), rest), reading =>
    have writes : Writes (Logged.check tokens) (.ok rest)
        (reductionsOf tokens ++ [.checked (tokens.length - rest.length) tokens.length]) :=
      reading.bind ((writes_report _).bind (writes_pure rest))
    exact ⟨_, writes.settled, rfl⟩
  | .error cause, reading =>
    refine ⟨[], ?_, rfl⟩
    rw [List.append_nil]
    exact (reading.bind_error _).settled

/-- The evaluator writes the reductions and their values, and at most its own summary besides. -/
theorem exists_writes_evaluate (tokens : List Token) :
    ∃ records, Writes (Logged.evaluate tokens) (evaluate tokens) records ∧
      Traces (reductionsOf tokens) records (evaluate tokens) := by
  obtain ⟨outcome, records, executed, traces⟩ :=
    exists_writes_exec_evaluator (record (some depthLimit) tokens).program []
  obtain ⟨result, ends, reading⟩ := exists_writes_read evaluator executed
  have traces : Traces (reductionsOf tokens) records result := by
    refine (traces ?_).concludes ends
    rintro rfl
    cases ends
  rcases result with cause | ⟨number, rest⟩
  case error =>
    have writes : Writes (Logged.evaluate tokens) (.error cause) records := reading.bind_error _
    refine ⟨_, writes.settled, ?_⟩
    rw [evaluate, writes.result_eq]
    exact traces
  case ok =>
    have writes : Writes (Logged.evaluate tokens) (.ok (number, rest))
        (records ++ [.evaluated (tokens.length - rest.length) number]) :=
      reading.bind ((writes_report _).bind (writes_pure (number, rest)))
    refine ⟨_, writes.settled, ?_⟩
    rw [evaluate, writes.result_eq]
    exact traces.append_other _ (by simp [Record.stage]) (by simp [Record.level])

/-! ### What the operations write -/

/-- The records of a scan: one for each token, and a summary if the whole text has been cut. -/
def Token.Scan.records (scan : Token.Scan) (bytes : Nat) : List Record :=
  scan.tokens.map (fun found => .found found.token found.offset) ++
    if scan.failure.isNone then [.tokenized bytes scan.tokens.length] else []

theorem writes_tokenize (source : String) :
    Writes (Logged.tokenize source) (tokenize source)
      ((Token.scan source).records source.utf8ByteSize) := by
  refine (writes_reports (Token.scan source).tokens _).bind ?_
  rw [Calculator.tokenize]
  cases (Token.scan source).failure with
  | some failure => exact writes_throw failure
  | none => exact (writes_report _).bind (writes_pure _)

/-- A text without tokens is given up behind its scan, by both operations. -/
theorem writes_of_error {source : String} {cause : LexicalError}
    (scanned : tokenize source = .error cause) :
    Writes (Logged.validate source) (.error (.lexical cause))
        ((Token.scan source).records source.utf8ByteSize) ∧
      Writes (Logged.calculate source) (.error (.lexical cause))
        ((Token.scan source).records source.utf8ByteSize) := by
  have tokens := (writes_tokenize source).mapError Error.lexical
  rw [scanned] at tokens
  exact ⟨tokens.bind_error _, tokens.bind_error _⟩

/-- Behind the scan, checking a text writes the reductions and at most a summary. -/
theorem exists_writes_validate {source : String} {tokens : List Token}
    (scanned : tokenize source = .ok tokens) :
    ∃ closing, Writes (Logged.validate source) (validate source)
        ((Token.scan source).records source.utf8ByteSize ++ (reductionsOf tokens ++ closing)) ∧
      shared closing = [] := by
  have start := (writes_tokenize source).mapError Error.lexical
  obtain ⟨closing, checks, silent⟩ := exists_writes_check tokens
  have checks := checks.mapError Error.syntactic
  rw [scanned] at start
  refine ⟨closing, ?_, silent⟩
  match check tokens, checks with
  | .error cause, checks => exact (start.bind (checks.bind_error _)).settled
  | .ok [], checks =>
    have ends : Writes (Logged.finish [] >>= fun _ => return tokens) (.ok tokens) [] :=
      (writes_pure ()).bind_silent (writes_pure tokens)
    exact (start.bind (checks.bind_silent ends)).settled
  | .ok (token :: tail), checks =>
    exact (start.bind (checks.bind_silent ((writes_throw _).bind_error _))).settled

/-- Behind the scan, calculating a text writes the reductions and their values, and at most two
summaries. -/
theorem exists_writes_calculate {source : String} {tokens : List Token}
    (scanned : tokenize source = .ok tokens) :
    ∃ records, Writes (Logged.calculate source) (calculate source)
        ((Token.scan source).records source.utf8ByteSize ++ records) ∧
      Traces (reductionsOf tokens) records (calculate source) := by
  have start := (writes_tokenize source).mapError Error.lexical
  obtain ⟨records, evaluates, traces⟩ := exists_writes_evaluate tokens
  rw [scanned] at start
  suffices h : ∃ result records, Writes (Logged.calculate source) result
      ((Token.scan source).records source.utf8ByteSize ++ records) ∧
        Traces (reductionsOf tokens) records result by
    obtain ⟨result, records, writes, traces⟩ := h
    obtain rfl : calculate source = result := writes.result_eq
    exact ⟨records, writes, traces⟩
  match evaluate tokens, evaluates, traces with
  | .error cause, evaluates, traces =>
    exact ⟨_, _, start.bind (evaluates.bind_error _), traces.of_error⟩
  | .ok (number, []), evaluates, traces =>
    have ends : Writes (Logged.finish [] >>= fun _ => do
        report (.calculated source number)
        return number) (.ok number) [.calculated source number] :=
      (writes_pure ()).bind ((writes_report _).bind (writes_pure number))
    exact ⟨_, _, start.bind (evaluates.bind ends), traces.append_other _ ⟨nofun, nofun⟩ nofun⟩
  | .ok (number, token :: tail), evaluates, traces =>
    -- What is left over is a fault, and nothing more is written.
    exact ⟨_, _, start.bind (evaluates.bind_silent ((writes_throw _).bind_error _)), traces⟩

theorem answered_records (scan : Token.Scan) (bytes : Nat) :
    Answered none (scan.records bytes) := by
  have tokens : ∀ record ∈ scan.records bytes, record.stage = .tokens := by
    intro record member
    rcases List.mem_append.mp member with found | summary
    · obtain ⟨found, -, rfl⟩ := List.mem_map.mp found
      rfl
    · split at summary
      · obtain rfl := List.mem_singleton.mp summary
        rfl
      · cases summary
  revert tokens
  generalize scan.records bytes = records
  intro tokens
  induction records with
  | nil => exact .nil
  | cons record records ih =>
    obtain ⟨first, rest⟩ := List.forall_mem_cons.mp tokens
    exact .other (by simp [first]) (by simp [first]) (ih rest)

/-! ### The offsets of tokens -/

theorem byteCount_pos {source : List Char} (some : source ≠ []) : 0 < byteCount source := by
  cases source with
  | nil => exact absurd rfl some
  | cons c rest => exact Nat.lt_of_lt_of_le c.utf8Size_pos (Nat.le_add_right _ _)

theorem Token.offset_le_of_mem_label {previous : Option Token} {offset : Nat}
    {lexemes : List Lexeme} {found : Located} (member : found ∈ label previous offset lexemes) :
    offset ≤ found.offset := by
  induction lexemes generalizing previous offset with
  | nil => cases member
  | cons lexeme rest ih =>
    rw [label] at member
    split at member
    · exact Nat.le_trans (Nat.le_add_right _ _) (ih member)
    · rcases List.mem_cons.mp member with rfl | later
      · exact Nat.le_refl _
      · exact Nat.le_trans (Nat.le_add_right _ _) (ih later)

/-- **Offsets increase**, for every lexeme takes up a byte. -/
theorem Token.pairwise_label (previous : Option Token) (offset : Nat) (lexemes : List Lexeme) :
    (label previous offset lexemes).Pairwise (·.offset < ·.offset) := by
  induction lexemes generalizing previous offset with
  | nil => exact .nil
  | cons lexeme rest ih =>
    rw [label]
    split
    · exact ih _ _
    · refine .cons (fun found later => ?_) (ih _ _)
      calc
        offset < offset + byteCount lexeme.chars :=
          Nat.lt_add_of_pos_right (byteCount_pos lexeme.chars_ne_nil)
        _ ≤ found.offset := offset_le_of_mem_label later

theorem offsets_records (scan : Token.Scan) (bytes : Nat) :
    offsets (scan.records bytes) = scan.tokens.map (·.offset) := by
  have found : offsets (scan.tokens.map fun found => .found found.token found.offset) =
      scan.tokens.map (·.offset) := by
    rw [offsets, List.filterMap_map]
    exact congrFun List.filterMap_eq_map' _
  rw [Token.Scan.records, offsets_append, found]
  split <;> simp [offsets, Record.offset?]

theorem offsets_reductions (program : List (Construct Unit)) :
    offsets (reductions program) = [] := by
  refine List.filterMap_eq_nil_iff.mpr fun record member => ?_
  obtain ⟨op, -, rfl⟩ := List.mem_map.mp member
  rfl

/-! ### The two logs -/

/-- Both logs begin with the records of the scan. -/
theorem exists_logs (source : String) :
    ∃ program closing records,
      ofValidation source =
        (Token.scan source).records source.utf8ByteSize ++ (reductions program ++ closing) ∧
      ofCalculation source = (Token.scan source).records source.utf8ByteSize ++ records ∧
      shared closing = [] ∧ Traces (reductions program) records (calculate source) := by
  cases scanned : tokenize source with
  | error cause =>
    obtain ⟨validates, calculates⟩ := writes_of_error scanned
    refine ⟨[], [], [], ?_, ?_, rfl, ?_⟩
    · simp [ofValidation, validates.toList_log, reductions]
    · simp [ofCalculation, calculates.toList_log]
    · rw [calculate, calculates.result_eq]
      exact ⟨.nil, rfl⟩
  | ok tokens =>
    obtain ⟨closing, validates, silent⟩ := exists_writes_validate scanned
    obtain ⟨records, calculates, traces⟩ := exists_writes_calculate scanned
    exact ⟨_, closing, records, validates.toList_log, calculates.toList_log, silent, traces⟩

section Consequences

variable {α : Type} {full records : List Record} {result : Except Error α}

theorem Traces.isPrefix (h : Traces full records result) : shared records <+: full := by
  match result, h with
  | .error (.arithmetic _), h => exact h.2
  | .error (.lexical _), h | .error (.syntactic _), h | .ok _, h => exact h.2 ▸ List.prefix_rfl

theorem Traces.shared_eq (h : Traces full records result)
    (computes : ∀ cause, result ≠ .error (.arithmetic cause)) : shared records = full := by
  match result, h with
  | .error (.arithmetic cause), _ => exact absurd rfl (computes cause)
  | .error (.lexical _), h | .error (.syntactic _), h | .ok _, h => exact h.2

/-- Only a division by zero leaves a reduction pending. -/
theorem Traces.exists_answered (h : Traces full records result) :
    ∃ pending, Answered pending records ∧
      ∀ op, pending = some op → result = .error (.arithmetic .divisionByZero) ∧ op = .div := by
  match result, h with
  | .error (.arithmetic .divisionByZero), h =>
    exact ⟨some .div, h.1, fun op same => ⟨rfl, (Option.some.inj same).symm⟩⟩
  | .error (.lexical _), h | .error (.syntactic _), h | .ok _, h => exact ⟨none, h.1, nofun⟩

end Consequences

/-- **The logs of checking and calculating a text agree.**

* Unless the calculation divides by zero, both report the same of tokens and of the grammar.
* If it does, it reports the beginning of that, and a reduction of a division comes last.
* Every other reduction in the log of a calculation is followed by the value of an operation of its
  operator.
* Values of operations are reported behind their reductions only.
* The offsets of the tokens increase in both logs. -/
theorem logs_agree (source : String) :
    ((∀ cause, calculate source ≠ .error (.arithmetic cause)) →
      shared (ofCalculation source) = shared (ofValidation source)) ∧
    (calculate source = .error (.arithmetic .divisionByZero) →
      shared (ofCalculation source) <+: shared (ofValidation source) ∧
        (ofCalculation source).getLast? = some (.reduced .div)) ∧
    (∀ before record after, ofCalculation source = before ++ record :: after →
      record.stage = .grammar →
      ∃ op, record = .reduced op ∧
        ((∃ left right result rest, left.operation op right = .ok result ∧
            after = .computed left op right result.value :: rest) ∨
          calculate source = .error (.arithmetic .divisionByZero) ∧ op = .div ∧ after = [])) ∧
    (∀ before record after, ofCalculation source = before ++ record :: after →
      record.stage = .arithmetic → record.level = .trace →
      ∃ front op left right value, before = front ++ [.reduced op] ∧
        record = .computed left op right value) ∧
    (offsets (ofCalculation source)).Pairwise (· < ·) ∧
    (offsets (ofValidation source)).Pairwise (· < ·) := by
  obtain ⟨program, closing, records, validates, calculates, silent, traces⟩ := exists_logs source
  have scanned := answered_records (Token.scan source) source.utf8ByteSize
  have sharedValidated : shared (ofValidation source) =
      shared ((Token.scan source).records source.utf8ByteSize) ++ reductions program := by
    rw [validates, shared_append, shared_append, shared_reductions, silent, List.append_nil]
  have begins : shared (ofCalculation source) <+: shared (ofValidation source) := by
    rw [calculates, shared_append, sharedValidated]
    exact (List.prefix_append_right_inj _).mpr traces.isPrefix
  obtain ⟨pending, answered, cut⟩ := traces.exists_answered
  have answered : Answered pending (ofCalculation source) := calculates ▸ scanned.append answered
  have increasing : (offsets (ofValidation source)).Pairwise (· < ·) := by
    rw [← offsets_shared, sharedValidated, offsets_append, offsets_shared, offsets_records,
      offsets_reductions, List.append_nil, List.pairwise_map]
    exact Token.pairwise_label _ _ _
  refine ⟨?_, ?_, ?_, ?_, ?_, increasing⟩
  · intro computes
    rw [calculates, shared_append, sharedValidated, traces.shared_eq computes]
  · intro divides
    rw [divides] at traces
    exact ⟨begins, (calculates ▸ scanned.append traces.1).getLast?_eq⟩
  · intro before record after parts reduced
    obtain ⟨op, rfl, followed | ⟨last, ends⟩⟩ := answered.grammar_cases parts reduced
    · exact ⟨op, rfl, .inl followed⟩
    · obtain ⟨divides, division⟩ := cut op last
      exact ⟨op, rfl, .inr ⟨divides, division, ends⟩⟩
  · intro before record after parts arithmetic trace
    exact answered.trace_cases parts arithmetic trace
  · rw [← offsets_shared] at increasing ⊢
    exact increasing.sublist (begins.filterMap _).sublist

end Calculator
